import Conventions.Catalogue.Authentication
import Conventions.Catalogue.Errors

/-!
# Catalogue — every construct that is recognised

The shapes in the order in which they are tried, and an index of them by the kind of node. An
entry of the index keeps the order of the catalogue.
-/

namespace Conventions
namespace Catalogue

open Shape

def memberKinds : List Kind := [.memberExpression, .subscriptExpression]

def callKinds : List Kind := [.callExpression]

def callOrDecorator : List Kind := [.callExpression, .decorator]

/-- The kinds of nodes that a handler can be found at. -/
def handlerKinds : List Kind := .catchClause :: .callExpression :: Kind.functions

/-- The labels for the place of the current user. -/
def userLabels : List String := ["req.user", "req.context.user", "req.auth", "res.locals.user"]

/-- Where the token travels. -/
def tokenLocation : List Shape :=
  let row (name label : String) (kinds : List Kind) (proof? : Proof?) (strength : Nat) : Shape :=
    ⟨name, .authentication, "token_location", label, kinds, proof?, hundredths strength⟩
  [row "cookie-read" "cookie" memberKinds (reads [.named "cookies"]) 80,
    row "signed-cookie-read" "cookie" memberKinds (reads [.named "signedCookies"]) 80,
    row "http-only-cookie-set" "cookie" callKinds httpOnlyCookieSet 90,
    row "token-cookie-set" "cookie" callKinds tokenCookieSet 60,
    row "cookie-store-get" "cookie" callKinds cookieStoreGet 60,
    row "authorization-header-read" "authorization-header" memberKinds
      (reads [.named "headers", .named "authorization"]) 80,
    row "authorization-header-call" "authorization-header" callKinds
      (headerCall "authorization") 80,
    row "bearer-extractor" "authorization-header" callKinds bearerExtractor 90,
    row "api-key-header-read" "api-key-header" memberKinds
      (reads [.named "headers", .named "x-api-key"]) 80,
    row "api-key-header-call" "api-key-header" callKinds (headerCall "x-api-key") 80,
    row "local-storage-token" "local-storage" callKinds (webStorage "localStorage" true) 80,
    row "local-storage-access" "local-storage" callKinds (webStorage "localStorage" false) 40,
    row "session-storage-token" "session-storage" callKinds
      (webStorage "sessionStorage" true) 80,
    row "session-storage-access" "session-storage" callKinds
      (webStorage "sessionStorage" false) 40,
    row "session-read" "session" memberKinds (reads [.named "session", .any]) 60,
    row "session-middleware" "session" callKinds sessionMiddleware 70,
    row "token-query-read" "query-param" memberKinds tokenQuery 60]

/-- Where the current user lives. -/
def userProperty : List Shape :=
  userLabels.map (fun label =>
      ⟨label ++ "-assignment", .authentication, "user_property", label, [.assignmentExpression],
        assignsUser label, hundredths 90⟩)
    ++ userLabels.map fun label =>
      ⟨label ++ "-read", .authentication, "user_property", label, [.memberExpression],
        readsUser label, hundredths 40⟩

/-- How responses are wrapped. -/
def responseEnvelopes : List Shape :=
  let row (name label : String) (kinds : List Kind) (proof? : Proof?) (strength : Nat) : Shape :=
    ⟨name, .apiResponses, "envelope", label, kinds, proof?, hundredths strength⟩
  ["data-wrapper", "result-wrapper", "success-flag", "status-wrapper", "bare-object"].map (fun l =>
      row (l ++ "-response") l callKinds (responseEnvelope l true)
        (if l = "bare-object" then 60 else 90))
    ++ [row "bare-value-response" "bare-object" callKinds (responseEnvelope "bare-object" false) 40]
    ++ ["data-wrapper", "result-wrapper", "success-flag", "status-wrapper"].map fun l =>
      row (l ++ "-variable") l [.variableDeclarator] (responseVariable l) 50

/-- How status codes are given. -/
def statusCodes : List Shape :=
  [⟨"explicit-status-call", .apiResponses, "status_codes", "explicit-status", callOrDecorator,
      explicitStatus, hundredths 80⟩,
    ⟨"implicit-status-response", .apiResponses, "status_codes", "implicit-status", callKinds,
      implicitStatus, hundredths 30⟩]

/-- What an error payload looks like. -/
def errorFormats : List Shape :=
  ["error-string", "error-object", "message-only"].map fun label =>
    ⟨label ++ "-payload", .apiResponses, "error_format", label, callKinds, errorFormat label,
      hundredths 70⟩

/-- Where errors are caught. -/
def catchStyle : List Shape :=
  let row (name label : String) (kinds : List Kind) (proof? : Proof?) (strength : Nat) : Shape :=
    ⟨name, .errorHandling, "catch_style", label, kinds, proof?, hundredths strength⟩
  [row "error-middleware-signature" "global-middleware" Kind.functions errorMiddleware 95,
    row "framework-error-hook" "global-middleware" callOrDecorator frameworkErrorHook 90,
    row "try-catch-block" "try-catch" [.tryStatement] tryCatch 60,
    row "promise-catch-call" "promise-catch" callKinds promiseCatch 50,
    row "result-type-reference" "result-type" [.genericType] resultType 60]

/-- How errors leave a handler, and how handlers log. -/
def handlers : List Shape :=
  let row (name facet label : String) (proof? : Proof?) (strength : Nat) : Shape :=
    ⟨name, .errorHandling, facet, label, handlerKinds, proof?, hundredths strength⟩
  [row "handler-rethrows" "propagation" "rethrow" (propagates "rethrow") 70,
    row "handler-forwards-next" "propagation" "next-error" (propagates "next-error") 80,
    row "handler-responds" "propagation" "respond-inline" (propagates "respond-inline") 60,
    row "handler-returns" "propagation" "return-error" (propagates "return-error") 50,
    row "handler-logger-call" "logging" "structured-logger" (logsWith "structured-logger") 80,
    row "handler-console-call" "logging" "console" (logsWith "console") 60]

/-- **Every shape**, in the order in which they are tried. -/
def shapes : List Shape :=
  tokenLocation ++ userProperty ++ responseEnvelopes ++ statusCodes ++ errorFormats ++ catchStyle
    ++ handlers

/-! ## The index -/

/-- **Shapes filed under kinds of nodes.** -/
abbrev Index := List (Kind × List Shape)

namespace Index

/-- The index with a shape filed last under a kind. -/
def file (shape : Shape) (k : Kind) : Index → Index
  | [] => [(k, [shape])]
  | entry :: rest =>
    if entry.1 = k then (k, entry.2 ++ [shape]) :: rest else entry :: file shape k rest

/-- The index with a shape filed under each of its kinds, once under each. -/
def fileAll (index : Index) (shape : Shape) : Index :=
  shape.kinds.eraseDups.foldl (fun index k => index.file shape k) index

/-- **The index of some shapes.** -/
def ofShapes (shapes : List Shape) : Index := shapes.foldl fileAll []

/-- The shapes filed under a kind. -/
def shapesFor (index : Index) (k : Kind) : List Shape :=
  ((index.find? fun entry => entry.1 == k).map (·.2)).getD []

end Index

/-- **The index of every shape.** -/
def index : Index := .ofShapes shapes

/-- The shapes to try at a kind of node. -/
def shapesFor (k : Kind) : List Shape := index.shapesFor k

/-- The labels that the catalogue can support, with their categories and facets. -/
def labels : List (Category × String × String) :=
  (shapes.map fun shape => (shape.category, shape.facet, shape.label)).eraseDups

end Catalogue
end Conventions
