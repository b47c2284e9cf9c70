import Conventions.Xml.Declaration
import Conventions.Xml.Doctype

/-!
# Xml/Reader — reading a document

A document has a declaration, a document type and one element, with comments and instructions
around them. Every prefix of a name has to be bound to a name space.
-/

namespace Conventions
namespace Xml

/-! ## Tags -/

/-- **An attribute** with its text. -/
structure Attribute where
  name : QualifiedName
  value : String
  deriving DecidableEq, Repr

/-- The attributes of a tag, from behind its name or an attribute on: the attributes read before,
whether the tag is empty, and what follows it. -/
def attributes (lenient : Bool) : Nat → List Attribute → List Char →
    Except Fault (List Attribute × Bool × List Char)
  | 0, _, _ => .error .malformed
  | n + 1, done, cs =>
    match skipSpace cs with
    | '>' :: rest => .ok (done.reverse, false, rest)
    | '/' :: '>' :: rest => .ok (done.reverse, true, rest)
    | rest => do
      ensure (rest.length < cs.length)
      let (name, rest) ← need (qualifiedName? rest)
      match (after? "=" (skipSpace rest)).map skipSpace with
      | some (quote :: rest) =>
        ensure (quote == '"' || quote == '\'')
        let (body, rest) ← need (upTo [quote] [] rest)
        let value ← attributeText lenient (body.length + 1) [] body
        attributes lenient n (⟨name, value⟩ :: done) rest
      | _ => .error .malformed

/-! ## Name spaces -/

/-- The prefixes in scope with the names of their spaces. -/
abbrev Scope := List (String × String)

/-- The name space of the prefix that is always bound. -/
def ownSpace : String := "http://www.w3.org/XML/1998/namespace"

/-- The name space of the attributes that bind prefixes. -/
def bindingSpace : String := "http://www.w3.org/2000/xmlns/"

/-- **May a prefix be bound to a name space?** Without a prefix, the space may be empty. -/
def mayBind (spacePrefix : Option String) (space : String) : Bool :=
  !(spacePrefix.isSome && space.isEmpty) && spacePrefix != some "xmlns"
    && !space.toList.contains '}' && space != bindingSpace
    && ((spacePrefix == some "xml") == (space == ownSpace))

/-- The binding that an attribute makes, if it makes one. -/
def Attribute.binding? (a : Attribute) : Option (Option String × String) :=
  match a.name with
  | ⟨none, "xmlns"⟩ => some (none, a.value)
  | ⟨some "xmlns", base⟩ => some (some base, a.value)
  | _ => none

/-- The scope of an element with some attributes inside another scope. -/
def Scope.extend (scope : Scope) (as : List Attribute) : Except Fault Scope := do
  let bindings := as.filterMap Attribute.binding?
  ensure (bindings.all fun b => mayBind b.1 b.2)
  .ok (bindings.filterMap (fun b => b.1.map (·, b.2)) ++ scope)

/-- The name space of a prefix. -/
def Scope.space? (scope : Scope) (spacePrefix : String) : Option String :=
  ((scope ++ [("xml", ownSpace)]).find? fun b => b.1 == spacePrefix).map (·.2)

/-- Are all items of a list different? -/
def allDistinct {α : Type} [BEq α] : List α → Bool
  | [] => true
  | a :: rest => !rest.contains a && allDistinct rest

/-- **The names of an element and of its attributes have to be in order**: no prefix without a
space, and no attribute twice, be it under two prefixes. -/
def checkNames (scope : Scope) (name : QualifiedName) (as : List Attribute) : Except Fault Unit := do
  ensure (allDistinct (as.map (·.name)))
  ensure ((name.spacePrefix.map fun p => (scope.space? p).isSome).getD true)
  let named := as.filter fun a => a.binding?.isNone && a.name.spacePrefix.isSome
  let full := named.map fun a => (a.name.spacePrefix.bind scope.space?, a.name.base)
  ensure (full.all fun f => f.1.isSome)
  ensure (allDistinct full)

/-! ## Elements -/

/-- **An element that has not been closed**: its text so far and its children, both reversed. -/
structure OpenElement where
  name : QualifiedName
  scope : Scope
  text : List Char
  children : List XmlElement

namespace OpenElement

/-- More text; what stands behind a child does not count. -/
def addText (e : OpenElement) (cs : List Char) : OpenElement :=
  if e.children.isEmpty then { e with text := cs.reverse ++ e.text } else e

def addChild (e : OpenElement) (c : XmlElement) : OpenElement :=
  { e with children := c :: e.children }

/-- The element, closed. -/
def close (e : OpenElement) : XmlElement :=
  .mk e.name.base (String.ofList e.text.reverse) e.children.reverse

end OpenElement

/-- What follows an end tag for a name, from behind its slash. -/
def afterEndTag (name : QualifiedName) (cs : List Char) : Except Fault (List Char) := do
  let written := (name.spacePrefix.map (· ++ ":")).getD "" ++ name.base
  let rest ← need (after? written cs)
  need (after? ">" (skipSpace rest))

/-- **The content of the elements that are open**, the innermost first, and what follows the
outermost. The number is above the length of the text. -/
def content (lenient : Bool) : Nat → OpenElement → List OpenElement → List Char →
    Except Fault (XmlElement × List Char)
  | 0, _, _, _ => .error .malformed
  | n + 1, e, outer, '<' :: '/' :: rest =>
    match afterEndTag e.name rest, outer with
    | .ok rest, [] => .ok (e.close, rest)
    | .ok rest, parent :: outer => content lenient n (parent.addChild e.close) outer rest
    | .error f, _ => .error f
  | n + 1, e, outer, '<' :: '?' :: rest =>
    match afterInstruction? rest with
    | some rest => content lenient n e outer rest
    | none => .error .malformed
  | n + 1, e, outer, '<' :: '!' :: rest =>
    match after? "--" rest, after? "[CDATA[" rest with
    | some rest, _ =>
      match afterComment? rest with
      | some rest => content lenient n e outer rest
      | none => .error .malformed
    | none, some rest =>
      match upTo [']', ']', '>'] [] rest with
      | some (body, rest) =>
        if body.all isDocumentChar then content lenient n (e.addText body) outer rest
        else .error .malformed
      | none => .error .malformed
    | none, none => .error .malformed
  | n + 1, e, outer, '<' :: rest =>
    let tag := do
      let (name, rest) ← need (qualifiedName? rest)
      let (as, isEmpty, rest) ← attributes lenient (n + 1) [] rest
      let scope ← e.scope.extend as
      checkNames scope name as
      .ok (OpenElement.mk name scope [] [], isEmpty, rest)
    match tag with
    | .ok (child, true, rest) => content lenient n (e.addChild child.close) outer rest
    | .ok (child, false, rest) => content lenient n child (e :: outer) rest
    | .error f => .error f
  | n + 1, e, outer, '&' :: rest =>
    match reference? rest with
    | some (.char c, rest) => content lenient n (e.addText [c]) outer rest
    | _ => .error .malformed
  | n + 1, e, outer, c :: rest =>
    if [']', ']', '>'].isPrefixOf (c :: rest) || !isDocumentChar c then .error .malformed
    else content lenient n (e.addText [c]) outer rest
  | _ + 1, _, _, [] => .error .malformed

/-! ## Documents -/

/-- What follows comments, instructions and white space. -/
def afterAsides : Nat → List Char → Except Fault (List Char)
  | 0, cs => .ok cs
  | n + 1, cs =>
    match skipSpace cs with
    | '<' :: '!' :: '-' :: '-' :: rest => do afterAsides n (← need (afterComment? rest))
    | '<' :: '?' :: rest => do afterAsides n (← need (afterInstruction? rest))
    | rest => .ok rest

/-- The document type in front, if there is one, and what follows. -/
def documentType (standalone : Bool) (cs : List Char) : Except Fault (DocState × List Char) :=
  match after? "<!" cs with
  | none => .ok (⟨standalone, false, true⟩, cs)
  | some rest =>
    match DocToken.opening? rest with
    | some (.opening "DOCTYPE", rest) => need (doctype? standalone rest)
    | _ => .error .malformed

/-- **The outermost element of the document that a text spells.** -/
def read (s : String) : Except Fault XmlElement := do
  let cs := match s.toList with
    | '\uFEFF' :: rest => rest
    | cs => cs
  let (d, rest) ← declared cs
  let rest ← (d.encoding.map fun e => inEncoding e rest).getD (.ok rest)
  let rest ← afterAsides rest.length rest
  let (state, rest) ← documentType d.standalone rest
  let rest ← afterAsides rest.length rest
  let (name, rest) ← need ((after? "<" rest).bind qualifiedName?)
  let (as, isEmpty, rest) ← attributes state.lenient (rest.length + 1) [] rest
  let scope ← Scope.extend [] as
  checkNames scope name as
  let root := OpenElement.mk name scope [] []
  let (e, rest) ←
    if isEmpty then .ok (root.close, rest)
    else content state.lenient (rest.length + 1) root [] rest
  let rest ← afterAsides rest.length rest
  ensure rest.isEmpty
  .ok e

end Xml
end Conventions
