import Conventions.Catalogue.Shape
import Conventions.Text.Lower
import Conventions.Text.Pattern

/-!
# Catalogue/Authentication — where tokens travel and where the user lives
-/

namespace Conventions
namespace Shape

open Text.Pattern (anyCase first)

/-! ## Tokens in requests -/

/-- One segment of a path, or any. -/
inductive Segment where
  | named (name : String)
  | any

/-- Does a segment agree, whatever its case? -/
def Segment.agrees : Segment → String → Bool
  | .any, _ => true
  | .named n, actual => Text.lower actual == Text.lower n

/-- Is the path that of a request followed by the segments? -/
def isRequestPath (segments : List Segment) (path : List String) : Bool :=
  match path with
  | root :: rest =>
    requestNames.contains root && rest.length == segments.length
      && (segments.zip rest).all fun (want, actual) => want.agrees actual
  | [] => false

/-- A member of the request is read. -/
def reads (segments : List Segment) : Proof? := citing fun s v =>
  (v.node.kind == .memberExpression || v.node.kind == .subscriptExpression)
    && !isAssignmentTarget v
    && ((v.node.path? s).map (isRequestPath segments)).getD false

/-- The ways to ask a request for a header. -/
def headerGetters : List (List String) := [["header"], ["get"], ["headers", "get"]]

/-- A header of the request is asked for by name. -/
def headerCall (header : String) : Proof? := citing fun s v =>
  v.node.kind == .callExpression
    && match v.node.calleePath s with
      | root :: getter =>
        requestNames.contains root && headerGetters.contains getter
          && match v.node.firstArgument?.bind (·.literal? s) with
            | some value => Text.lower value == header
            | none => false
      | [] => false

/-- Words that a token goes by. -/
def tokenHint : Text.Pattern :=
  first (["token", "jwt", "auth", "session", "bearer", "credential"].map anyCase)

/-- Is it a call that sets a cookie on a response? -/
def isCookieSet (s : Source) (n : Node) : Bool :=
  n.kind == .callExpression
    && match n.calleePath s with
      | [root, method] => responseNames.contains root && method == "cookie"
      | _ => false

/-- Do the options of a cookie mention whether scripts may read it? -/
def mentionsHttpOnly (s : Source) (n : Node) : Bool :=
  (Node.objectKeysOf s n.callArguments[2]?).names.contains "httpOnly"

/-- A cookie is set that scripts cannot read. -/
def httpOnlyCookieSet : Proof? := citing fun s v =>
  isCookieSet s v.node && mentionsHttpOnly s v.node

/-- A cookie is set whose name speaks of a token. -/
def tokenCookieSet : Proof? := citing fun s v =>
  isCookieSet s v.node && !mentionsHttpOnly s v.node
    && match v.node.firstArgument?.bind (·.literal? s) with
      | some name => tokenHint.foundIn name
      | none => false

/-- A cookie is read from the store: `cookies().get('token')`. -/
def cookieStoreGet : Proof? := citing fun s v =>
  v.node.kind == .callExpression && v.node.calleeName s == "get"
    && match v.node.receiver? with
      | some receiver =>
        receiver.kind == .callExpression
          && match receiver.callee? with
            | some target => target.text s == "cookies"
            | none => false
      | none => false

/-- A bearer token is taken from the header by a strategy. -/
def bearerExtractor : Proof? := citing fun s v =>
  v.node.kind == .callExpression
    && match v.node.calleePath s with
      | [root, method] => root == "ExtractJwt" && "fromAuthHeader".isPrefixOf method
      | _ => false

/-- Browser storage is read or written, under a key that speaks of a token or not. -/
def webStorage (store : String) (tokenKey : Bool) : Proof? := citing fun s v =>
  v.node.kind == .callExpression
    && (let path := v.node.calleePath s
        let path := if path.head? = some "window" then path.drop 1 else path
        match path with
        | [root, method] => root == store && (method == "getItem" || method == "setItem")
        | _ => false)
    && (match v.node.firstArgument?.bind (·.literal? s) with
        | some key => tokenHint.foundIn key
        | none => false) == tokenKey

/-- Session middleware is made with options. -/
def sessionMiddleware : Proof? := citing fun s v =>
  v.node.kind == .callExpression
    && (match v.node.callee? with
        | some target => target.text s == "session" || target.text s == "expressSession"
        | none => false)
    && match v.node.firstArgument? with
      | some first => first.kind == .object
      | none => false

/-- The names of a token among query parameters. -/
def tokenQueryKeys : List String :=
  ["token", "access_token", "accessToken", "jwt", "auth", "apiKey", "api_key"]

/-- A token is read from the query. -/
def tokenQuery : Proof? := citing fun s v =>
  (v.node.kind == .memberExpression || v.node.kind == .subscriptExpression)
    && match v.node.path? s with
      | some [root, query, key] =>
        requestNames.contains root && query == "query" && tokenQueryKeys.contains key
      | _ => false

/-! ## The current user -/

/-- The label of the place that a path names for the current user. -/
def userPlace? : List String → Option String
  | root :: rest =>
    if requestNames.contains root then
      if rest = ["user"] then some "req.user"
      else if rest = ["auth"] then some "req.auth"
      else if rest = ["context", "user"] then some "req.context.user"
      else none
    else if root :: rest = ["res", "locals", "user"] then some "res.locals.user"
    else none
  | [] => none

/-- Is a request given a context that holds the user: `req.context = { user }`? -/
def setsUserContext (s : Source) (n : Node) : Bool :=
  match (n.child? .left).bind (·.path? s) with
  | some [root, context] =>
    requestNames.contains root && context == "context"
      && (Node.objectKeysOf s (n.child? .right)).names.contains "user"
  | _ => false

/-- The current user is put at a place. -/
def assignsUser (label : String) : Proof? := citing fun s v =>
  v.node.kind == .assignmentExpression
    && (((v.node.child? .left).bind (·.path? s)).bind userPlace? == some label
      || (label == "req.context.user" && setsUserContext s v.node))

/-- The current user is read from a place. -/
def readsUser (label : String) : Proof? := citing fun s v =>
  v.node.kind == .memberExpression && !isAssignmentTarget v
    && (v.node.path? s).bind userPlace? == some label

end Shape
end Conventions
