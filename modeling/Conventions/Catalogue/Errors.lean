import Conventions.Catalogue.Responses
import Conventions.Text.Lower

/-!
# Catalogue/Errors — catching, passing on and logging errors

A handler is a catch clause, error middleware, or the function given to `.catch`. How it passes
errors on and how it logs them is read off its own statements: functions inside it are not entered.
-/

namespace Conventions
namespace Shape

/-! ## Where errors are caught -/

/-- Is it a function with four parameters, the first of them an error? -/
def isErrorMiddleware (s : Source) (n : Node) : Bool :=
  n.kind.isFunction
    && match n.parameterNames s with
      | [e, _, _, _] => errorNames.contains (Text.lower e)
      | _ => false

/-- Middleware for errors is written. -/
def errorMiddleware : Proof? := citing fun s v => isErrorMiddleware s v.node

/-- A framework is told how to handle errors. -/
def frameworkErrorHook : Proof? := citing fun s v =>
  if v.node.kind = .callExpression then
    ["setErrorHandler", "onError"].contains (v.node.calleeName s) && v.node.receiver?.isSome
  else decoratorCall? s v.node == some "Catch"

/-- A statement tries and catches. -/
def tryCatch : Proof? := citing fun _ v =>
  v.node.kind == .tryStatement && (v.node.child? .handler).isSome

/-- Is it a call of a method `catch`? -/
def isCatchCall (s : Source) (n : Node) : Bool :=
  n.kind == .callExpression && n.calleeName s == "catch"

/-- A promise's failure is caught. -/
def promiseCatch : Proof? := citing fun s v =>
  isCatchCall s v.node && v.node.receiver?.isSome

/-- A type carries either a result or an error. -/
def resultType : Proof? := citing fun s v =>
  v.node.kind == .genericType
    && ["Result", "Either"].contains (Node.textOf s ((v.node.child? .name).or v.node.first?))

/-! ## Handlers -/

/-- **The body of a handler.** -/
def handlerBody? (s : Source) (n : Node) : Option Node :=
  if n.kind = .catchClause then n.child? .body
  else if isErrorMiddleware s n then n.body?
  else if isCatchCall s n then
    match n.firstArgument? with
    | some handler => if handler.kind.isFunction then handler.body? else none
    | none => none
  else none

/-- **The nodes of a handler's own statements.** A body that is an expression is one of them. -/
def handlerNodes (body : Node) : List Node :=
  if body.kind = .statementBlock then body.bodyNodes else body :: body.bodyNodes

/-! ## How errors leave a handler -/

/-- Does a call answer the request? -/
def responds (s : Source) (n : Node) : Bool :=
  isResponseCall s n
    || (["status", "sendStatus"].contains (n.calleeName s)
      && responseNames.contains (Node.rootNameOf s n.receiver?))

/-- Is something returned that is not an answer to the request? -/
def returnsError (s : Source) (n : Node) : Bool :=
  match n.first?.bind (·.unwrapped?) with
  | some value =>
    !(value.kind == .callExpression && responseNames.contains (value.rootName s))
  | none => false

/-- The way in which one node lets an error leave. -/
def exit? (s : Source) (n : Node) : Option String :=
  match n.kind with
  | .throwStatement => some "rethrow"
  | .callExpression =>
    if Node.textOf s n.callee? = "next" ∧ n.callArguments ≠ [] then some "next-error"
    else if responds s n then some "respond-inline"
    else none
  | .returnStatement => if returnsError s n then some "return-error" else none
  | _ => none

/-- The ways in which an error leaves, the weightiest first. -/
def exits : List String := ["rethrow", "next-error", "respond-inline", "return-error"]

/-- **The weightiest way in which errors leave a handler**, with the first node that shows it. -/
def propagation? (s : Source) (body : Node) : Option (String × Node) :=
  exits.findSome? fun label =>
    ((handlerNodes body).find? fun n => exit? s n == some label).map fun n => (label, n)

/-- Is `next` itself the handler of a failure? -/
def catchesWithNext (s : Source) (n : Node) : Bool :=
  isCatchCall s n
    && match n.firstArgument? with
      | some handler => handler.text s == "next"
      | none => false

/-- Errors leave a handler in a way. -/
def propagates (label : String) : Proof? := fun s v =>
  if catchesWithNext s v.node then
    if label = "next-error" then some v.node else none
  else
    match (handlerBody? s v.node).bind (propagation? s) with
    | some (found, proof) => if found = label then some proof else none
    | none => none

/-! ## How handlers log -/

/-- The logger that one node calls. -/
def logger? (s : Source) (n : Node) : Option String :=
  if n.kind = .callExpression then
    let path := n.calleePath s
    if path.length < 2 then none
    else
      let path := if path.head? = some "this" then path.drop 1 else path
      let named := (path.head?.map loggerNames.contains).getD false
      let held := path.dropLast.getLast? == some "logger"
      if 2 ≤ path.length ∧ (named || held) then some "structured-logger"
      else if path.head? = some "console" then some "console"
      else none
  else none

/-- **How a handler logs**, with the first node that shows it; a logger outweighs the console. -/
def logging? (s : Source) (body : Node) : Option (String × Node) :=
  ["structured-logger", "console"].findSome? fun label =>
    ((handlerNodes body).find? fun n => logger? s n == some label).map fun n => (label, n)

/-- A handler logs in a way. -/
def logsWith (label : String) : Proof? := fun s v =>
  match (handlerBody? s v.node).bind (logging? s) with
  | some (found, proof) => if found = label then some proof else none
  | none => none

end Shape
end Conventions
