import Conventions.Redaction
import Conventions.Scan.Run
import Conventions.Schema.Contracts

/-!
# Service — scans on request

A request that breaks its contract, a root that cannot be read and a response that would break its
contract are answered with an error of fixed wording. Nothing that is answered goes beyond the
contract of responses.
-/

namespace Conventions

/-- **Why a request is answered with an error.** -/
inductive RefusalReason where
  | invalidInput
  | scanFailed
  | invalidResponse
  deriving DecidableEq, Repr

namespace RefusalReason

def name : RefusalReason → String
  | .invalidInput => "invalid_input"
  | .scanFailed => "scan_failed"
  | .invalidResponse => "response_validation_failed"

def detail : RefusalReason → String
  | .invalidInput => "Request failed validation."
  | .scanFailed => "Project root could not be read."
  | .invalidResponse => "Service output did not meet the public contract."

/-- **The answer with an error.** -/
def document (r : RefusalReason) : Json :=
  Redaction.publicDocument
    [("status", .str "error"), ("reason", .str r.name), ("detail", .str r.detail)]

end RefusalReason

/-- **Why a request has no answer.** -/
inductive ServiceFault where
  | options (fault : ConversionFault)
  | scan (fault : ScanFault)
  deriving DecidableEq, Repr

/-- **What a request leaves**: the cache, the events and the answer. -/
structure ServiceRun where
  cache : EvidenceCache
  events : List CapEvent
  answer : Except ServiceFault Json

namespace ProjectContext

/-- **The response with a context.** -/
def response (c : ProjectContext) : Json :=
  .obj [("operation", .str "project_conventions_scan"), ("context", c.document)]

/-- The answer with a context, if it meets the contract. -/
def answer (c : ProjectContext) : Json :=
  if (Contract.projectContext.check c.response).isNone then c.response
  else RefusalReason.invalidResponse.document

end ProjectContext

/-- The answer to a scan. -/
def ScanRun.answer (run : ScanRun) : Except ServiceFault Json :=
  match run.context with
  | .ok context => .ok context.answer
  | .error (.root .unreadable) => .ok RefusalReason.scanFailed.document
  | .error fault => .error (.scan fault)

/-- **Answer a request for a scan.** -/
def Scanner.respond (s : Scanner) (h : Host) (cache : EvidenceCache) (request : Json) :
    ServiceRun :=
  match Contract.scanRequest.check request with
  | some _ => ⟨cache, [], .ok RefusalReason.invalidInput.document⟩
  | none =>
    match ScanOptions.ofRequest h.environment ((request.members?).getD []) with
    | .error fault => ⟨cache, [], .error (.options fault)⟩
    | .ok o =>
      let root := h.root (((request.get? "root").bind Json.str?).getD "")
      let run := s.scan h o cache root
      ⟨run.cache, run.events, run.answer⟩

/-! ## Resources -/

/-- **What the service offers**, by name, with what it says of its state. -/
structure ServiceResource where
  name : String
  detail : String
  deriving DecidableEq, Repr

namespace ServiceResource

/-- The resource that says that the service is there. -/
def health : ServiceResource := ⟨"health", "PatternScout MCP FastMCP server ready"⟩

/-- The resource that answers requests for scans. -/
def scan : ServiceResource :=
  ⟨"project://conventions/scan", "project convention scan resource ready"⟩

def all : List ServiceResource := [health, scan]

/-- The state of a resource. -/
def status (r : ServiceResource) : Json :=
  Redaction.publicDocument [("status", .str "ok"), ("detail", .str r.detail)]

/-- **What the service says when it starts.** -/
def greeting : String :=
  "FastMCP PatternScout server initialized with resources:\n\n" ++
    String.join (all.map fun r => "- " ++ r.name ++ ": " ++ r.status.text ++ "\n")

end ServiceResource
end Conventions
