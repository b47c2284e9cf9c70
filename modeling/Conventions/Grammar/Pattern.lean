import Conventions.Grammar.Goal

/-!
# Grammar/Pattern — patterns and parameters

A pattern names what a value is taken apart into. On the left of an assignment it is first read as
an object or an array; `asPattern?` then turns that literal into the pattern it is.
-/

namespace Conventions
namespace Grammar

/-! ## Patterns -/

/-- A further segment of a member of a name. -/
def memberStep (self : Rules) (left : Node) : Parse (Option Node) := do
  if ← ahead (markNot "." ["..."]) then
    mark "."
    let property ← firstOf [privateName, anyName .propertyIdentifier]
    some <$> node .memberExpression left.span.start
      [left.withField .object, property.withField .property]
  else if ← skip? (mark "[") then
    let index ← expressions self .inner
    mark "]"
    some <$> node .subscriptExpression left.span.start
      [left.withField .object, index.withField .index]
  else pure none

/-- A name, or a member of one. -/
def nameOrMember (self : Rules) : Parse Node := do
  let s ← start
  let root ← firstOf
    [identifier, do
      keyword "this"
      let this ← node .thisExpression s []
      require (← ahead (firstOf [mark ".", mark "["]))
      pure this]
  extend (memberStep self) root

/-- A pattern with a value for when there is none. -/
def patternWithDefault (self : Rules) : Parse Node := do
  let s ← start
  let left ← self .pattern
  match ← maybe (initializer self .inner) with
  | some value => node .assignmentPattern s [left.withField .left, value.withField .right]
  | none => pure left

/-- The rest of the values. -/
def restPattern (self : Rules) : Parse Node := do
  let s ← start
  mark "..."
  let inner ← self .pattern
  otherNode "rest_pattern" s [inner]

/-- A member of an object pattern. -/
def objectPatternMember (self : Rules) : Parse Node := firstOf
  [restPattern self,
    do
      let s ← start
      let key ← propertyName self
      mark ":"
      let value ← patternWithDefault self
      otherNode "pair_pattern" s [key.withField .key, value.withField .value],
    do
      let s ← start
      let short ← name (.other "shorthand_property_identifier_pattern")
      match ← maybe (initializer self .inner) with
      | some value =>
        otherNode "object_assignment_pattern" s [short.withField .left, value.withField .right]
      | none => pure short]

/-- An object pattern or an array pattern. -/
def destructuring (self : Rules) : Parse Node := do
  let s ← start
  if ← skip? (mark "\x7b") then
    let members ← looseList (objectPatternMember self)
    mark "\x7d"
    otherNode "object_pattern" s members
  else
    mark "["
    let items ← looseList (patternWithDefault self)
    mark "]"
    otherNode "array_pattern" s items

/-- **A pattern.** -/
def pattern (self : Rules) : Parse Node :=
  firstOf [destructuring self, restPattern self, nameOrMember self]

/-- A name or a pattern that takes a value apart: what a declaration declares. -/
def binding (self : Rules) : Parse Node := firstOf [destructuring self, identifier]

/-! ## Literals as patterns -/

mutual

/-- **The pattern that an expression turns out to be**, if it is one. -/
def asPattern? : Node → Option Node
  | ⟨.object, field, span, children⟩ =>
    (asPatterns? children).map fun cs => ⟨.other "object_pattern", field, span, cs⟩
  | ⟨.other "array", field, span, children⟩ =>
    (asPatterns? children).map fun cs => ⟨.other "array_pattern", field, span, cs⟩
  | ⟨.pair, field, span, children⟩ =>
    (asValues? children).map fun cs => ⟨.other "pair_pattern", field, span, cs⟩
  | ⟨.other "spread_element", field, span, children⟩ =>
    (asPatterns? children).map fun cs => ⟨.other "rest_pattern", field, span, cs⟩
  | ⟨.assignmentExpression, field, span, children⟩ =>
    some ⟨.assignmentPattern, field, span, children⟩
  | ⟨.shorthandPropertyIdentifier, field, span, children⟩ =>
    some ⟨.other "shorthand_property_identifier_pattern", field, span, children⟩
  | n =>
    match n.kind with
    | .identifier | .memberExpression | .subscriptExpression | .nonNullExpression => some n
    | .other k =>
      if ["undefined", "object_assignment_pattern", "object_pattern", "array_pattern"].contains k
      then some n else none
    | _ => none

/-- The patterns that some expressions turn out to be. -/
def asPatterns? : List Node → Option (List Node)
  | [] => some []
  | n :: rest => do
    let p ← asPattern? n
    let ps ← asPatterns? rest
    some (p :: ps)

/-- The children of a pair with its value as a pattern. -/
def asValues? : List Node → Option (List Node)
  | [] => some []
  | n :: rest => do
    let p ← if n.field = some .value then asPattern? n else some n
    let ps ← asValues? rest
    some (p :: ps)

end

mutual

/-- Does a literal hold what only a pattern may hold: a short name with a value? -/
def mustBePattern : Node → Bool
  | ⟨kind, _, _, children⟩ =>
    if [.object, .pair, .other "array", .other "spread_element"].contains kind then
      anyMustBePattern children
    else kind == .other "object_assignment_pattern"

def anyMustBePattern : List Node → Bool
  | [] => false
  | n :: rest => mustBePattern n || anyMustBePattern rest

end

/-! ## Parameters -/

/-- A type after a colon. -/
def ascription (self : Rules) (lineEnds : Bool) : Parse Node := do
  let s ← start
  mark ":"
  let t ← self (.typeOf lineEnds true)
  otherNode "type_annotation" s [t]

/-- The words that say who may use a member. -/
def accessWords : List String := ["public", "private", "protected"]

/-- A word in front of a parameter's name. -/
def parameterModifier : Parse (Option Node) := do
  let s ← start
  let w ← keywordOf (accessWords ++ ["override", "readonly"])
  -- the word is the name itself if nothing else is named
  require (← ahead (firstOf [word *> pure (), mark "\x7b", mark "["]))
  if w = "readonly" then pure none
  else some <$> otherNode (if w = "override" then "override_modifier" else
    "accessibility_modifier") s []

/-- A parameter with types around it. -/
def typedParameter (self : Rules) (decorators : Parse (List Node)) : Parse Node := do
  let s ← start
  let decorated ← decorators
  let modifiers ← many parameterModifier
  let p ← firstOf [self .pattern, leaf .thisExpression (keyword "this")]
  let optional ← skip? (mark "?")
  let ascribed ← maybe (ascription self false)
  let value ← maybe (initializer self .inner)
  node (if optional then .optionalParameter else .requiredParameter) s
    (decorated ++ modifiers.filterMap id ++ p.withField .pattern :: ascribed.toList
      ++ value.toList)

/-- **The parameters of a function.** -/
def parameters (self : Rules) (decorators : Parse (List Node)) : Parse Node := do
  let s ← start
  mark "("
  let typed ← hasTypes
  let one := if typed then typedParameter self decorators else patternWithDefault self
  let items ← maybe (commaList one)
  mark ")"
  otherNode "formal_parameters" s (items.getD [])

end Grammar
end Conventions
