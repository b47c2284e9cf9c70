import Conventions.Grammar.Member

/-!
# Grammar/Markup — elements inside code
-/

namespace Conventions
namespace Grammar

/-- A name that may hold hyphens. -/
def hyphenatedLength (cs : List Char) : Nat :=
  let ok (c : Char) : Bool := c.isAlphanum || c == '_' || c == '$'
  match cs with
  | c :: _ =>
    if c.isDigit then 0
    else
      let first := (cs.takeWhile ok).length
      if 0 < first ∧ cs[first]? = some '-' then
        (cs.takeWhile fun d => ok d || d == '-').length
      else nameLength cs
  | [] => 0

/-- A name of markup, as a leaf of a kind. -/
def markupName (kind : Kind) : Parse Node := leaf kind <| token fun cs =>
  match hyphenatedLength cs with
  | 0 => none
  | n => some n

/-- The name of an element: a name, a member of one, or a name in a namespace. -/
def elementName : Parse Node := do
  let root ← markupName .identifier
  if ← markAhead ":" then
    mark ":"
    let local_ ← markupName .identifier
    otherNode "jsx_namespace_name" root.span.start [root, local_]
  else
    extend (fun left => do
      if ← skip? (mark ".") then
        let property ← anyName .propertyIdentifier
        some <$> node .memberExpression left.span.start
          [left.withField .object, property.withField .property]
      else pure none) root

/-- An expression in braces, or nothing in braces. -/
def bracedExpression (self : Rules) : Parse Node := do
  let s ← start
  mark "\x7b"
  let inner ← maybe <| firstOf
    [do
      let p ← start
      mark "..."
      let e ← self (.expression .inner)
      otherNode "spread_element" p [e],
    expressions self .inner]
  mark "\x7d"
  otherNode "jsx_expression" s inner.toList

/-- The value of an attribute. -/
def attributeValue (self : Rules) : Parse Node := firstOf
  [leaf .stringLiteral (token attributeStringLength?), bracedExpression self, self .markup]

/-- An attribute of an element. -/
def tagAttribute (self : Rules) : Parse Node := firstOf
  [bracedExpression self,
  do
    let s ← start
    let n ← markupName .propertyIdentifier
    let n ← if ← skip? (mark ":") then
        let local_ ← markupName .propertyIdentifier
        otherNode "jsx_namespace_name" s [n, local_]
      else pure n
    if ← skip? (mark "=") then
      let value ← attributeValue self
      otherNode "jsx_attribute" s [n, value]
    else otherNode "jsx_attribute" s [n]]

/-- Text between tags, if it is more than blanks; otherwise only blanks are passed over. -/
def elementText : Parse Node := fun c =>
  let (n, said) := markupText false false c.rest
  if said && 0 < n then
    let next := c.takeToken n
    some (⟨.other "jsx_text", none, ⟨c.offset, next.stop⟩, []⟩, next)
  else none

/-- What stands between tags. -/
def elementChild (self : Rules) : Parse Node := firstOf
  [elementText, leaf (.other "html_character_reference") (token referenceLength?),
    bracedExpression self,
    do
      require (!(← markAhead "</"))
      self .markup]

/-- What follows the sign that opens a tag: the name, type arguments and attributes. -/
def tagInside (self : Rules) : Parse (List Node) := do
  match ← maybe elementName with
  | some n =>
    let types ← if ← hasTypes then maybe (typeArguments self) else pure none
    let attributes ← many (tagAttribute self)
    pure (n.withField .name :: types.toList ++ attributes)
  | none => pure []

/-- The tag that closes an element. -/
def closingTag : Parse Node := do
  let s ← start
  mark "</"
  let n ← maybe elementName
  mark ">"
  otherNode "jsx_closing_element" s (n.toList.map (·.withField .name))

/-- **An element**, with what stands inside it. -/
def markup (self : Rules) : Parse Node := do
  let s ← start
  markNot "<" ["<<", "<="]
  let inside ← tagInside self
  if ← skip? (do require (!inside.isEmpty); mark "/>") then
    otherNode "jsx_self_closing_element" s inside
  else
    mark ">"
    let opening ← otherNode "jsx_opening_element" s inside
    let children ← many (elementChild self)
    let closing ← closingTag
    otherNode "jsx_element" s (opening :: children ++ [closing])

end Grammar
end Conventions
