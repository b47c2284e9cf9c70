import Conventions.Grammar.Type

/-!
# Grammar/Member — decorators and the members of objects and classes
-/

namespace Conventions
namespace Grammar

/-! ## Decorators -/

/-- A name, or a member of one, as a decorator names it. -/
def decoratorName : Parse Node := do
  let root ← identifier
  extend (fun left => do
    if ← skip? (mark ".") then
      let property ← anyName .propertyIdentifier
      some <$> node .memberExpression left.span.start
        [left.withField .object, property.withField .property]
    else pure none) root

/-- What a decorator applies: a name, or one call of it. -/
def decoratorTarget (self : Rules) : Parse Node := do
  let target ← decoratorName
  let types ← if ← hasTypes then maybe (do
      let ts ← typeArguments self
      require (← markAhead "(")
      pure ts) else pure none
  match ← maybe (arguments self) with
  | some args =>
    node .callExpression target.span.start
      (target.withField .function :: types.toList ++ [args.withField .arguments])
  | none => pure target

/-- **A decorator.** -/
def decorator (self : Rules) : Parse Node := do
  let s ← start
  mark "@"
  let target ← firstOf
    [decoratorTarget self,
      do
        let p ← start
        mark "("
        let inner ← decoratorTarget self
        mark ")"
        node .parenthesizedExpression p [inner]]
  node .decorator s [target]

def decorators (self : Rules) : Parse (List Node) := many (decorator self)

/-! ## Members of objects -/

/-- The body of a function, after its signature. -/
def functionBody (self : Rules) (inExpression : Bool) : Parse Node := do
  let b ← self (.block inExpression)
  pure (b.withField .body)

/-- A method after the words in front of its name. -/
def methodAfter (self : Rules) (s : Nat) (front : List Node) : Parse Node := do
  let _ ← skip? (mark "*")
  let n ← propertyName self
  let _ ← if ← hasTypes then skip? (mark "?") else pure false
  let sig ← signature self true
  let body ← functionBody self false
  node .methodDefinition s (front ++ n.withField .name :: sig ++ [body])

/-- A method in an object. -/
def objectMethod (self : Rules) : Parse Node := do
  let s ← start
  let decorated ← if ← hasTypes then pure [] else decorators self
  let words := if ← hasTypes then signatureWords else ["static", "async", "get", "set"]
  let modifiers ← memberModifiers words
  methodAfter self s (decorated ++ (modifiers.map (·.2)).flatten)

/-- **A member of an object**, or of a pattern that is read as one. -/
def objectMember (self : Rules) : Parse Node := firstOf
  [do
    let s ← start
    mark "..."
    let e ← self (.expression .element)
    otherNode "spread_element" s [e],
  do
    let s ← start
    let key ← propertyName self
    mark ":"
    let value ← self (.expression .element)
    node .pair s [key.withField .key, value.withField .value],
  objectMethod self,
  do
    let s ← start
    let short ← name .shorthandPropertyIdentifier
    match ← maybe (initializer self .inner) with
    | some value =>
      otherNode "object_assignment_pattern" s
        [({ short with kind := .other "shorthand_property_identifier_pattern" } : Node).withField
          .left, value.withField .right]
    | none => pure short]

/-- **An object.** -/
def object (self : Rules) : Parse Node := do
  let s ← start
  mark "\x7b"
  let members ← looseList (objectMember self)
  mark "\x7d"
  node .object s members

/-- **An array.** -/
def array (self : Rules) : Parse Node := do
  let s ← start
  mark "["
  let items ← looseList (spreadElement self .element)
  mark "]"
  otherNode "array" s items

/-! ## Members of classes -/

/-- The words that may stand before a member of a class. -/
def classWords : Bool → List String
  | true =>
    accessWords ++ ["static", "override", "readonly", "async", "get", "set", "declare", "abstract",
      "accessor"]
  | false => ["static", "async", "get", "set"]

/-- A block that runs once for the class. -/
def staticBlock (self : Rules) : Parse Node := do
  let s ← start
  keyword "static"
  require (← markAhead "\x7b")
  let body ← functionBody self false
  otherNode "class_static_block" s [body]

/-- The end of a member without a body. -/
def memberWithoutBodyEnd (p : Position) : Parse Unit := do
  if ← hasTypes then firstOf [mark ",", semicolon p] else semicolon p

/-- A field, after the words in front of its name. -/
def fieldAfter (self : Rules) (s : Nat) (front : List Node) : Parse Node := do
  let typed ← hasTypes
  let n ← propertyName self
  if typed then
    let _ ← skip? (firstOf [mark "?", markNot "!" ["!="]])
    let ascribed ← maybe (ascription self true)
    let value ← maybe (initializer self .ofStatement)
    let field ← otherNode "public_field_definition" s
      (front ++ n.withField .name :: ascribed.toList ++ value.toList)
    memberWithoutBodyEnd (if value.isSome then afterExpression else afterOther)
    pure field
  else
    let value ← maybe (initializer self .ofStatement)
    let field ← otherNode "field_definition" s (front ++ n.withField .property :: value.toList)
    memberWithoutBodyEnd (if value.isSome then afterExpression else afterOther)
    pure field

/-- A method that is only declared. -/
def declaredMethod (self : Rules) (s : Nat) (front : List Node) : Parse Node := do
  require (← hasTypes)
  let _ ← skip? (mark "*")
  let n ← propertyName self
  let _ ← skip? (mark "?")
  let sig ← signature self true
  let method ← otherNode "method_signature" s (front ++ n.withField .name :: sig)
  memberWithoutBodyEnd afterSignature
  pure method

/-- **A member of a class.** With types a method's decorators stand beside it, otherwise they are
part of it. -/
def classMember (self : Rules) : Parse (List Node) := do
  let typed ← hasTypes
  let s ← start
  let decorated ← decorators self
  let afterDecorators ← start
  firstOf
    [do
      require decorated.isEmpty
      let b ← staticBlock self
      pure [b],
    do
      require (typed && decorated.isEmpty)
      let i ← indexSignature self true
      memberWithoutBodyEnd afterOther
      pure [i],
    do
      let modifiers ← memberModifiers (classWords typed)
      let front := (modifiers.map (·.2)).flatten
      firstOf
        [do
          let m ← methodAfter self (if typed then afterDecorators else s)
            (if typed then front else decorated ++ front)
          let _ ← if typed then maybe (semicolon afterOther) else maybe (mark ";")
          pure (if typed then decorated ++ [m] else [m]),
        do
          require (decorated.isEmpty)
          let m ← declaredMethod self s front
          pure [m],
        do
          let f ← fieldAfter self s (decorated ++ front)
          pure [f]]]

/-- **The body of a class.** -/
def classBody (self : Rules) : Parse Node := do
  let s ← start
  mark "\x7b"
  let members ← many (firstOf [mark ";" *> pure [], classMember self])
  mark "\x7d"
  otherNode "class_body" s members.flatten

/-! ## Classes -/

/-- What a class extends, with its type arguments. -/
def extended (self : Rules) : Parse (List Node) := do
  let value ← self (.binary { Scope.inner with heritage := true } 0 true)
  let types ← maybe (typeArguments self)
  pure (value.withField .value :: types.toList)

/-- What a class extends and implements. -/
def heritage (self : Rules) : Parse (List Node) := do
  if ← hasTypes then
    let s ← start
    let extends_ ← maybe do
      keyword "extends"
      let parts ← sepBy1 (extended self) (mark ",")
      otherNode "extends_clause" s parts.flatten
    let at_ ← start
    let implements_ ← maybe do
      keyword "implements"
      let parts ← sepBy1 (self (.typeOf false true)) (mark ",")
      otherNode "implements_clause" at_ parts
    let clauses := extends_.toList ++ implements_.toList
    if clauses.isEmpty then pure []
    else
      let h ← otherNode "class_heritage" s clauses
      pure [h]
  else
    let h ← maybe do
      let s ← start
      keyword "extends"
      let e ← self (.expression { Scope.inner with heritage := true })
      otherNode "class_heritage" s [e]
    pure h.toList

/-- The name of a class, if it has one. -/
def className : Parse (Option Node) := maybe do
  let w ← peek word
  require (w != some "implements")
  if ← hasTypes then typeName else identifier

/-- **A class**, after its decorators, which began at `s`. A declaration has a name. -/
def classAfter (self : Rules) (s : Nat) (decorated : List Node) (declared : Bool) :
    Parse Node := do
  let abstract ← if ← hasTypes then skip? (keyword "abstract") else pure false
  keyword "class"
  let n ← className
  require (n.isSome || !declared)
  let types ← if ← hasTypes then maybe (typeParameters self) else pure none
  let h ← heritage self
  let body ← self .classBody
  if declared && !abstract then optionalSemicolon afterOther
  otherNode
    (if abstract then "abstract_class_declaration" else if declared then "class_declaration"
      else "class") s
    (decorated ++ (n.toList.map (·.withField .name)) ++ types.toList ++ h
      ++ [body.withField .body])

end Grammar
end Conventions
