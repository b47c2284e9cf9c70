import Conventions.Grammar.Cursor

/-!
# Grammar/Goal — what can be asked of the grammar, and its operators

The rules of the grammar refer to one another through goals. A rule is written over any answer to
the goals, `Rules`, and the knot is tied once, in `Grammar/Program`.

Operators that join two operands carry a precedence, and a higher one binds more closely. The
longest sign in front is the one that counts, so the table lists longer signs first.
-/

namespace Conventions
namespace Grammar

/-- **What surrounds an expression**, as far as that decides where it ends. -/
structure Scope where
  /-- The end of a line may end it. -/
  lineEnds : Bool
  /-- `in` is not an operator. -/
  noIn : Bool
  /-- Parentheses followed by a colon are not the parameters of a function. -/
  noReturnType : Bool
  /-- It names what a class extends, so that type arguments at its end are not its own. -/
  heritage : Bool
  /-- It may turn out to be a pattern. -/
  cover : Bool

namespace Scope

/-- An expression inside brackets of any kind. -/
def inner : Scope := ⟨false, false, false, false, false⟩

/-- An expression of a statement. -/
def ofStatement : Scope := { inner with lineEnds := true }

/-- An element of a literal that may turn out to be a pattern. -/
def element : Scope := { inner with cover := true }

end Scope

/-- **What can be asked for.** -/
inductive Goal where
  | statement
  | expression (scope : Scope)
  /-- Operands joined by operators of at least a precedence. With `bang`, what follows as a whole
  may be marked as present or given a type. -/
  | binary (scope : Scope) (least : Nat) (bang : Bool)
  /-- An operand with its signs in front. -/
  | unary (scope : Scope)
  /-- A block of statements, in an expression or not. -/
  | block (inExpression : Bool)
  | pattern
  | parameters
  | classBody
  /-- A type; the end of a line may end it, or a condition may follow it. -/
  | typeOf (lineEnds conditional : Bool)
  | typeArguments
  | objectType
  | markup

/-- An answer to every goal. -/
abbrev Rules := Goal → Parse Node

/-- A node that only carries its children, to be spliced into those of another. -/
def group (children : List Node) : Node := ⟨.other "group", none, ⟨0, 0⟩, children⟩

/-- The words that are never names. -/
def reservedWords : List String :=
  ["break", "case", "catch", "class", "const", "continue", "debugger", "default", "delete", "do",
    "else", "export", "extends", "false", "finally", "for", "function", "if", "import", "in",
    "instanceof", "new", "null", "return", "super", "switch", "this", "throw", "true", "try",
    "typeof", "var", "void", "while", "with"]

/-- **A name that is not reserved**, as a leaf of a kind. -/
def name (kind : Kind) : Parse Node := do
  let s ← start
  let w ← word
  require (!reservedWords.contains w)
  node kind s []

/-- Any word, as a leaf of a kind. -/
def anyName (kind : Kind) : Parse Node := leaf kind (do let _ ← word)

/-- An identifier. -/
def identifier : Parse Node := name .identifier

/-- A number. -/
def number : Parse Node := leaf .number <| token fun cs =>
  match numberLength cs with
  | 0 => none
  | n => some n

/-- A string. -/
def string : Parse Node := leaf .stringLiteral (token stringLength?)

/-- A private name. -/
def privateName : Parse Node := leaf (.other "private_property_identifier") <| token fun cs =>
  match cs with
  | '#' :: rest =>
    match nameLength rest with
    | 0 => none
    | n => some (n + 1)
  | _ => none

/-- **One expression or several with commas between them.** -/
def expressions (self : Rules) (scope : Scope) : Parse Node := do
  let s ← startOperand
  let first ← self (.expression scope)
  let rest ← many (do mark ","; self (.expression scope))
  if rest.isEmpty then pure first else otherNode "sequence_expression" s (first :: rest)

/-- A condition or a value in parentheses. -/
def parenthesized (self : Rules) : Parse Node := do
  let s ← start
  mark "("
  let inner ← expressions self .inner
  let ascribed ←
    if ← hasTypes then maybe (do mark ":"; self (.typeOf false true)) else pure none
  mark ")"
  node .parenthesizedExpression s (inner :: ascribed.toList)

/-- A name computed from an expression. -/
def computedName (self : Rules) : Parse Node := do
  let s ← start
  mark "["
  let e ← self (.expression .inner)
  mark "]"
  otherNode "computed_property_name" s [e]

/-- **The name of a member**: a word, a string, a number, a private or a computed name. -/
def propertyName (self : Rules) : Parse Node :=
  firstOf [anyName .propertyIdentifier, string, number, privateName, computedName self]

/-- A template with its substitutions. -/
def template (kind substitution : Kind) (inside : Parse Node) : Parse Node := do
  let s ← start
  mark "\x60"
  let parts ← many do
    tokenHere (templateTextLength? 0)
    let at_ ← (fun c => some (c.offset, c) : Parse Nat)
    markHere "$\x7b"
    let e ← inside
    mark "\x7d"
    node substitution at_ [e]
  tokenHere (templateTextLength? 0)
  markHere "\x60"
  node kind s parts

/-- A template string. -/
def templateString (self : Rules) : Parse Node :=
  template .templateString .templateSubstitution (expressions self .inner)

/-- A spread element or an expression. -/
def spreadElement (self : Rules) (scope : Scope) : Parse Node := do
  let s ← startOperand
  if ← skip? (mark "...") then
    let e ← self (.expression scope)
    otherNode "spread_element" s [e]
  else self (.expression scope)

/-- The arguments of a call. -/
def arguments (self : Rules) : Parse Node := do
  let s ← start
  mark "("
  let items ← looseList (spreadElement self .inner)
  mark ")"
  node .arguments s items

/-- A value given after an equals sign. -/
def initializer (self : Rules) (scope : Scope) : Parse Node := do
  markNot "=" ["==", "=>"]
  let e ← self (.expression scope)
  pure (e.withField .value)

/-! ## Signs between and in front of operands -/

/-- Assignments that first apply an operator. -/
def augmentedMarks : List String :=
  [">>>=", ">>=", "<<=", "**=", "&&=", "||=", "??=", "+=", "-=", "*=", "/=", "%=", "^=", "&=", "|="]

/-- **The signs that join two operands**, with their precedences. -/
def operatorMarks : List (String × Nat) :=
  [(">>>", 9), ("===", 7), ("!==", 7), ("**", 12), ("??", 1), ("||", 2), ("&&", 3), ("==", 7),
    ("!=", 7), ("<=", 8), (">=", 8), ("<<", 9), (">>", 9), ("|", 4), ("^", 5), ("&", 6), ("<", 8),
    (">", 8), ("+", 10), ("-", 10), ("*", 11), ("/", 11), ("%", 11)]

/-- The words that join two operands bind like comparisons. -/
def operatorWords : List String := ["in", "instanceof"]

/-- An operator that joins two operands, with its precedence. -/
def operator (scope : Scope) : Parse Nat := do
  match ← peek word with
  | some w =>
    require (operatorWords.contains w && !(scope.noIn && w == "in"))
    keyword w
    pure 8
  | none => fun c =>
    let c := c.atToken
    let inFront (m : String) : Bool := m.toList.isPrefixOf c.rest
    if augmentedMarks.any inFront then none
    else (operatorMarks.find? fun entry => inFront entry.1).map fun entry =>
      (entry.2, c.takeToken entry.1.length)

/-- The least precedence of the right operand: operators join to the left, powers to the right. -/
def rightPrecedence (precedence : Nat) : Nat :=
  if precedence = 12 then 12 else precedence + 1

/-- A precedence above every operator. -/
def operandPrecedence : Nat := 13

/-- The sign that assigns. -/
def assignMark : Parse Unit := markNot "=" ["==", "=>"]

/-- The signs that assign the result of an operator. -/
def augmentedMark : Parse Unit := firstOf (augmentedMarks.map mark)

/-- The sign of a choice between two values. -/
def choiceMark : Parse Unit := token fun cs =>
  match cs with
  | '?' :: '?' :: _ => none
  | '?' :: '.' :: d :: _ => if d.isDigit then some 1 else none
  | ['?', '.'] => none
  | '?' :: _ => some 1
  | _ => none

/-- The sign of a step that is taken only on a value. -/
def optionalChainMark : Parse Node := leaf (.other "optional_chain") <| token fun cs =>
  match cs with
  | '?' :: '.' :: rest => if (rest.head?.map Char.isDigit).getD false then none else some 2
  | _ => none

end Grammar
end Conventions
