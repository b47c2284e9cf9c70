/-!
# Vocabulary — categories, facets and labels

Every category has facets, one of them primary, and every facet has its labels. The key of a facet
is the name of its category, followed by a point and its own name unless it is primary.
-/

namespace Conventions

/-- **A category of conventions.** -/
inductive Category where
  | authentication
  | apiResponses
  | errorHandling
  deriving DecidableEq, Repr, Inhabited

namespace Category

/-- Every category, in the order in which reports list them. -/
def all : List Category := [authentication, apiResponses, errorHandling]

def name : Category → String
  | authentication => "authentication"
  | apiResponses => "apiResponses"
  | errorHandling => "errorHandling"

def ofName? (s : String) : Option Category := all.find? fun c => c.name == s

theorem ofName?_name (c : Category) : ofName? c.name = some c := by cases c <;> rfl

/-- The facet whose verdict stands for the category. -/
def primaryFacet : Category → String
  | authentication => "token_location"
  | apiResponses => "envelope"
  | errorHandling => "catch_style"

/-- The facets with their labels. -/
def facetLabels : Category → List (String × List String)
  | authentication =>
    [("token_location", ["cookie", "authorization-header", "local-storage", "session-storage",
        "session", "query-param", "api-key-header"]),
      ("user_property", ["req.user", "req.context.user", "req.auth", "res.locals.user"])]
  | apiResponses =>
    [("envelope", ["data-wrapper", "result-wrapper", "success-flag", "status-wrapper",
        "bare-object"]),
      ("error_format", ["error-string", "error-object", "message-only"]),
      ("status_codes", ["explicit-status", "implicit-status"])]
  | errorHandling =>
    [("catch_style", ["global-middleware", "try-catch", "promise-catch", "result-type"]),
      ("logging", ["structured-logger", "console"]),
      ("propagation", ["rethrow", "next-error", "respond-inline", "return-error"])]

/-- **The facets of a category**, the primary one first and the others by name. -/
def facets (c : Category) : List String := c.facetLabels.map (·.1)

/-- The labels of a facet. -/
def labels? (c : Category) (facet : String) : Option (List String) :=
  (c.facetLabels.find? fun e => e.1 == facet).map (·.2)

/-- **The key of a facet.** -/
def facetKey (c : Category) (facet : String) : String :=
  if c.primaryFacet = facet then c.name else c.name ++ "." ++ facet

end Category

/-- The label of a verdict without evidence. -/
def unknownLabel : String := "unknown"

/-- **What is not in the vocabulary.** -/
inductive VocabularyError where
  | unknownCategory (name : String)
  | unknownFacet (key : String)
  | unknownLabel (key label : String)
  deriving DecidableEq, Repr

def VocabularyError.message : VocabularyError → String
  | .unknownCategory name => "Unknown category '" ++ name ++ "'."
  | .unknownFacet key => "Unknown facet '" ++ key ++ "'."
  | .unknownLabel key label => "Label '" ++ label ++ "' is not known for '" ++ key ++ "'."

namespace FacetKey

/-- Every key, by category. -/
def all : List String := Category.all.flatMap fun c => c.facets.map c.facetKey

/-- What stands before the first point, and what after it. -/
def split (key : String) : String × String :=
  let cs := key.toList
  (String.ofList (cs.takeWhile (· != '.')), String.ofList ((cs.dropWhile (· != '.')).drop 1))

/-- **The category and the facet of a key.** Without a facet it means the primary one. -/
def parse (key : String) : Except VocabularyError (Category × String) :=
  let (name, rest) := split key
  match Category.ofName? name with
  | none => .error (.unknownCategory name)
  | some c =>
    let facet := if rest = "" then c.primaryFacet else rest
    match c.labels? facet with
    | some _ => .ok (c, facet)
    | none => .error (.unknownFacet key)

/-- The labels of a key, the unknown one last. -/
def labels (key : String) : Except VocabularyError (List String) :=
  (parse key).map fun (c, facet) => (c.labels? facet).getD [] ++ [unknownLabel]

/-- Check that a key has a label. -/
def checkLabel (key label : String) : Except VocabularyError Unit :=
  match labels key with
  | .error e => .error e
  | .ok ls => if label ∈ ls then .ok () else .error (.unknownLabel key label)

end FacetKey
end Conventions
