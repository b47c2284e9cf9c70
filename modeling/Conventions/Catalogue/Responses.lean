import Conventions.Catalogue.Shape

/-!
# Catalogue/Responses — envelopes, status codes and error payloads
-/

namespace Conventions
namespace Shape

/-- Is it the path of the web platform's own way to answer with JSON? -/
def isWebResponse (path : List String) : Bool :=
  path == ["NextResponse", "json"] || path == ["Response", "json"]

/-- **Is it a call that sends a response body?** -/
def isResponseCall (s : Source) (n : Node) : Bool :=
  n.kind == .callExpression
    && (isWebResponse (n.calleePath s)
      || (["json", "send"].contains (n.calleeName s)
        && responseNames.contains (Node.rootNameOf s n.receiver?)))

/-! ## Envelopes -/

/-- How a payload is wrapped: the label, and whether the payload is written out as an object. -/
structure Envelope where
  label : String
  literal : Bool
  deriving DecidableEq, Repr

/-- Keys that stand beside a status in a wrapper. -/
def statusCompanions : List String := ["payload", "items", "body", "response"]

/-- The envelope that a set of keys makes. -/
def envelopeOfKeys (keys : List String) : Option Envelope :=
  if keys = [] then none
  else if keys.contains "success" || keys.contains "ok" then some ⟨"success-flag", true⟩
  else if keys.contains "data" then some ⟨"data-wrapper", true⟩
  else if keys.contains "result" || keys.contains "results" then some ⟨"result-wrapper", true⟩
  else if keys.contains "status" && statusCompanions.any keys.contains then
    some ⟨"status-wrapper", true⟩
  else if keys.all errorKeys.contains then none
  else some ⟨"bare-object", true⟩

/-- Kinds of payloads that are plain values. -/
def plainKinds : List Kind :=
  [.stringLiteral, .templateString, .number, .trueLiteral, .falseLiteral, .nullLiteral]

/-- **The envelope of a payload**, if it has one. -/
def envelope? (s : Source) (payload : Option Node) : Option Envelope :=
  match payload.bind (·.unwrapped?) with
  | none => none
  | some p =>
    if plainKinds.contains p.kind then none
    else if p.kind = .object then envelopeOfKeys (p.objectKeys s).names
    else some ⟨"bare-object", false⟩

/-- May the payload of `send` be an object? Anything else is a plain body. -/
def maySendObject (payload : Option Node) : Bool :=
  match payload.bind (·.unwrapped?) with
  | some p => p.kind == .object || p.kind == .identifier
  | none => true

/-- A response is sent in an envelope. -/
def responseEnvelope (label : String) (literal : Bool) : Proof? := citing fun s v =>
  isResponseCall s v.node
    && (v.node.calleeName s != "send" || maySendObject v.node.firstArgument?)
    && envelope? s v.node.firstArgument? == some ⟨label, literal⟩

/-- The usual names of a variable that holds a response. -/
def responseVariables : List String :=
  ["response", "resp", "payload", "body", "result", "responseBody", "apiResponse"]

/-- Is it such a name, perhaps with one line feed after it? -/
def isResponseVariable (name : String) : Bool :=
  responseVariables.contains name || responseVariables.any fun v => name == v ++ "\n"

/-- A variable for a response is given an object in an envelope. -/
def responseVariable (label : String) : Proof? := citing fun s v =>
  v.node.kind == .variableDeclarator
    && (match v.node.child? .name with
        | some name => isResponseVariable (name.text s)
        | none => false)
    && match (v.node.child? .value).bind (·.unwrapped?) with
      | some value => value.kind == .object && envelope? s (some value) == some ⟨label, true⟩
      | none => false

/-! ## Status codes -/

/-- Methods that set a status. -/
def statusMethods : List String := ["status", "sendStatus", "code"]

/-- Collections of named status codes. -/
def statusCollections : List String := ["HttpStatus", "StatusCodes", "httpStatus"]

/-- Is the node an identifier that names a response? -/
def isResponseName (s : Source) : Option Node → Bool
  | some n => n.kind == .identifier && responseNames.contains (n.text s)
  | none => false

/-- Is it a number or a named status code? -/
def isStatusCode (s : Source) (n : Node) : Bool :=
  n.kind == .number
    || match n.path? s with
      | some (root :: _) => statusCollections.contains root
      | _ => false

/-- What a decorator calls: the text of the callee of the call that follows the sign. -/
def decoratorCall? (s : Source) (n : Node) : Option String :=
  if n.kind = .decorator then
    match n.first? with
    | some inner =>
      if inner.kind = .callExpression then some (Node.textOf s inner.callee?) else none
    | none => none
  else none

/-- A status code is given by itself. -/
def explicitStatus : Proof? := citing fun s v =>
  if v.node.kind = .callExpression then
    if statusMethods.contains (v.node.calleeName s) then
      isResponseName s v.node.receiver?
        && (match v.node.firstArgument? with
            | some code => isStatusCode s code
            | none => false)
    else
      isWebResponse (v.node.calleePath s)
        && (Node.objectKeysOf s v.node.callArguments[1]?).names.contains "status"
  else decoratorCall? s v.node == some "HttpCode"

/-- A response is sent without a status of its own. -/
def implicitStatus : Proof? := citing fun s v =>
  isResponseCall s v.node && isResponseName s v.node.receiver?

/-! ## Error payloads -/

/-- The format of an error payload with the keys given. -/
def errorFormatOfKeys (keys : Node.Keys) : Option String :=
  match keys.find? (·.1 == "error") with
  | some (_, value) =>
    match value.bind (·.unwrapped?) with
    | some v => some (if v.kind = .object then "error-object" else "error-string")
    | none => some "error-string"
  | none =>
    if keys.names.contains "errors" then some "error-object"
    else if keys.names.contains "message" && keys.names.all errorKeys.contains then
      some "message-only"
    else none

/-- **The format of the error payload that a call sends.** -/
def errorFormat? (s : Source) (n : Node) : Option String :=
  if isResponseCall s n then
    errorFormatOfKeys (Node.objectKeysOf s (n.firstArgument?.bind (·.unwrapped?)))
  else none

/-- An error payload of a format is sent. -/
def errorFormat (label : String) : Proof? := citing fun s v =>
  errorFormat? s v.node == some label

end Shape
end Conventions
