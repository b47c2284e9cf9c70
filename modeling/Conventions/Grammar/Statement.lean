import Conventions.Grammar.Module

/-!
# Grammar/Statement — statements and declarations
-/

namespace Conventions
namespace Grammar

/-! ## Declarations of values -/

/-- A name that is declared, with its type and its value. -/
def declarator (self : Rules) : Parse Node := do
  let s ← start
  let typed ← hasTypes
  let n ← binding self
  let _ ← skip? (do require typed; markNot "!" ["!="]; require (← markAhead ":"))
  let ascribed ← if typed then maybe (ascription self true) else pure none
  let value ← maybe (initializer self .ofStatement)
  node .variableDeclarator s (n.withField .name :: ascribed.toList ++ value.toList)

/-- Does the last of some declared names have a value? -/
def lastHasValue (declared : List Node) : Bool :=
  match declared.getLast? with
  | some d => (d.child? .value).isSome
  | none => false

/-- A declaration of values after its word. -/
def declarationOf (self : Rules) (kind : String) (words : Parse Unit) : Parse Node := do
  let s ← start
  words
  let declared ← sepBy1 (declarator self) (mark ",")
  semicolon (if lastHasValue declared then afterExpression else afterOther)
  otherNode kind s declared

/-- The kind and the words of a declaration that begins with a word. -/
def declarationWords (w : String) : Option (String × Parse Unit) :=
  match w with
  | "var" => some ("variable_declaration", keyword "var")
  | "let" => some ("lexical_declaration", do
      keyword "let"
      require (← ahead (firstOf [identifier *> pure (), mark "[", mark "\x7b"])))
  | "const" => some ("lexical_declaration", keyword "const")
  | "using" => some ("using_declaration", usingWord)
  | "await" => some ("using_declaration", do keyword "await"; usingWord)
  | _ => none
where
  usingWord : Parse Unit := do
    require !(← hasTypes)
    keyword "using"
    require (← ahead (do let _ ← identifier; assignMark))

/-! ## Control -/

/-- A statement in some role. -/
def inner (self : Rules) (f : Field) : Parse Node := do
  let n ← self .statement
  pure (n.withField f)

/-- A choice between two statements. -/
def ifStatement (self : Rules) : Parse Node := do
  let s ← start
  keyword "if"
  let condition ← parenthesized self
  let yes ← self .statement
  let no ← maybe do
    let s ← start
    keyword "else"
    let n ← self .statement
    otherNode "else_clause" s [n]
  otherNode "if_statement" s (condition :: yes :: no.toList)

/-- What a loop over values declares. -/
def loopVariable (self : Rules) : Parse Node := do
  let w ← peek word
  match w with
  | some "var" =>
    keyword "var"
    binding self <* maybe (initializer self { Scope.inner with noIn := true })
  | some "const" =>
    keyword "const"
    binding self
  | _ =>
    firstOf
      [do
        let _ ← keywordOf ["let", "using"]
        require (!(← wordAhead "of") && !(← wordAhead "in"))
        binding self,
      do
        keyword "await"
        keyword "using"
        binding self,
      self .pattern,
      parenthesized self]

/-- The head of a loop over values. -/
def overHead (self : Rules) : Parse (List Node) := do
  mark "("
  let left ← loopVariable self
  let _ ← keywordOf ["of", "in"]
  let right ← expressions self .inner
  mark ")"
  pure [left.withField .left, right.withField .right]

/-- One part of the head of a counting loop. -/
def loopPart (self : Rules) : Parse (List Node) := do
  let e ← maybe (expressions self .inner)
  mark ";"
  pure e.toList

/-- The head of a counting loop. -/
def countHead (self : Rules) : Parse (List Node) := do
  mark "("
  let first ← firstOf [countDeclaration, loopPart self]
  let condition ← loopPart self
  let increment ← maybe (expressions self .inner)
  mark ")"
  pure (first ++ condition ++ increment.toList)
where
  countDeclaration : Parse (List Node) := do
    let s ← start
    match ← peek word with
    | some w =>
      match declarationWords w with
      | some (kind, words) =>
        words
        let declared ← sepBy1 (declarator self) (mark ",")
        mark ";"
        let d ← otherNode kind s declared
        pure [d]
      | none => failure
    | none => failure

/-- A loop with a head. -/
def forStatement (self : Rules) : Parse Node := do
  let s ← start
  keyword "for"
  let waits ← skip? (keyword "await")
  match ← maybe (overHead self) with
  | some parts =>
    let body ← inner self .body
    otherNode "for_in_statement" s (parts ++ [body])
  | none =>
    require !waits
    let parts ← countHead self
    let body ← inner self .body
    otherNode "for_statement" s (parts ++ [body])

/-- A loop with a condition in front. -/
def whileStatement (self : Rules) : Parse Node := do
  let s ← start
  keyword "while"
  let condition ← parenthesized self
  let body ← inner self .body
  otherNode "while_statement" s [condition, body]

/-- A loop with a condition at its end. -/
def doStatement (self : Rules) : Parse Node := do
  let s ← start
  keyword "do"
  let body ← inner self .body
  keyword "while"
  let condition ← parenthesized self
  let _ ← maybe (semicolon afterOther)
  otherNode "do_statement" s [body, condition]

/-- A statement with the names of an object in reach. -/
def withStatement (self : Rules) : Parse Node := do
  let s ← start
  keyword "with"
  let o ← parenthesized self
  let body ← inner self .body
  otherNode "with_statement" s [o, body]

/-- One case of a choice between many. -/
def switchCase (self : Rules) : Parse Node := do
  let s ← start
  firstOf
    [do
      keyword "case"
      let value ← expressions self .inner
      mark ":"
      let body ← many (self .statement)
      otherNode "switch_case" s (value.withField .value :: body),
    do
      keyword "default"
      mark ":"
      let body ← many (self .statement)
      otherNode "switch_default" s body]

/-- A choice between many cases. -/
def switchStatement (self : Rules) : Parse Node := do
  let s ← start
  keyword "switch"
  let value ← parenthesized self
  let b ← start
  mark "\x7b"
  let cases ← many (switchCase self)
  mark "\x7d"
  let body ← otherNode "switch_body" b cases
  otherNode "switch_statement" s [value.withField .value, body.withField .body]

/-- What is done when something was thrown. -/
def catchClause (self : Rules) : Parse Node := do
  let s ← start
  keyword "catch"
  let p ← maybe do
    mark "("
    let p ← binding self
    let ascribed ← if ← hasTypes then maybe (ascription self false) else pure none
    mark ")"
    pure (p.withField .parameter :: ascribed.toList)
  let body ← functionBody self false
  node .catchClause s (p.getD [] ++ [body])

/-- A block whose errors are caught. -/
def tryStatement (self : Rules) : Parse Node := do
  let s ← start
  keyword "try"
  let body ← functionBody self false
  let handler ← maybe (catchClause self)
  let last ← maybe do
    let s ← start
    keyword "finally"
    let body ← functionBody self false
    otherNode "finally_clause" s [body]
  node .tryStatement s
    (body :: (handler.toList.map (·.withField .handler)) ++ last.toList)

/-- A statement that leaves, perhaps with a value. -/
def leaving (self : Rules) (kind : Kind) (w : String) (bare : Bool) : Parse Node := do
  let s ← start
  keyword w
  let value ←
    if ← (do require bare; semicolonSupplied afterOther) <|> pure false then pure none
    else if bare then maybe (expressions self .ofStatement)
    else some <$> expressions self .ofStatement
  semicolon (if value.isSome then afterExpression else afterOther)
  node kind s value.toList

/-- A statement that leaves a loop or begins its next round. -/
def jump (kind w : String) : Parse Node := do
  let s ← start
  keyword w
  let label ←
    if ← semicolonSupplied afterOther then pure none
    else maybe (name (.other "statement_identifier"))
  semicolon afterOther
  otherNode kind s label.toList

/-! ## Functions and types -/

/-- A function with a name. -/
def functionDeclaration (self : Rules) : Parse Node := do
  let s ← start
  let _ ← skip? do keyword "async"; require (← wordAhead "function")
  keyword "function"
  let generator ← skip? (mark "*")
  let n ← identifier
  let sig ← signature self true
  let front := n.withField .name :: sig
  match ← maybe (functionBody self true) with
  | some body =>
    optionalSemicolon afterOther
    node (if generator then .generatorFunctionDeclaration else .functionDeclaration) s
      (front ++ [body])
  | none =>
    require ((← hasTypes) && !generator)
    semicolon afterSignature
    otherNode "function_signature" s front

/-- A class with a name; decorators may stand before it. -/
def classDeclaration (self : Rules) : Parse Node := do
  let s ← start
  let decorated ← decorators self
  classAfter self s decorated true

/-- An interface. -/
def interfaceDeclaration (self : Rules) : Parse Node := do
  let s ← start
  keyword "interface"
  let n ← typeName
  let types ← maybe (typeParameters self)
  let parents ← maybe do
    let s ← start
    keyword "extends"
    let ts ← sepBy1 (self (.typeOf false true)) (mark ",")
    otherNode "extends_type_clause" s ts
  let body ← self .objectType
  otherNode "interface_declaration" s
    (n.withField .name :: types.toList ++ parents.toList ++ [body.withField .body])

/-- Another name for a type. -/
def aliasDeclaration (self : Rules) : Parse Node := do
  let s ← start
  keyword "type"
  let n ← typeName
  let types ← maybe (typeParameters self)
  assignMark
  let t ← self (.typeOf true true)
  semicolon afterOther
  otherNode "type_alias_declaration" s (n.withField .name :: types.toList ++ [t.withField .value])

/-- A member of an enumeration. -/
def enumMember (self : Rules) : Parse Node := do
  let s ← start
  let n ← propertyName self
  match ← maybe (initializer self .inner) with
  | some value => otherNode "enum_assignment" s [n.withField .name, value]
  | none => pure n

/-- An enumeration. -/
def enumDeclaration (self : Rules) : Parse Node := do
  let s ← start
  let _ ← skip? (keyword "const")
  keyword "enum"
  let n ← identifier
  let b ← start
  mark "\x7b"
  let members ← maybe (commaList (enumMember self))
  mark "\x7d"
  let body ← otherNode "enum_body" b (members.getD [])
  otherNode "enum_declaration" s [n.withField .name, body.withField .body]

/-- A module or a namespace inside a file. -/
def moduleDeclaration (self : Rules) : Parse Node := do
  let s ← start
  let w ← keywordOf ["namespace", "module"]
  let n ← firstOf
    [string,
    do
      let root ← identifier
      extend (fun left => do
        if ← skip? (mark ".") then
          let next ← anyName .propertyIdentifier
          some <$> otherNode "nested_identifier" left.span.start [left, next]
        else pure none) root]
  let body ← maybe (functionBody self false)
  if body.isNone then semicolon afterOther
  otherNode (if w = "module" then "module" else "internal_module") s
    (n.withField .name :: body.toList)

/-- A declaration of something that exists elsewhere. -/
def ambientDeclaration (self : Rules) : Parse Node := do
  let s ← start
  keyword "declare"
  require (!(← semicolonSupplied afterOther))
  let d ← firstOf
    [do
      keyword "global"
      self (.block false),
    exportedDeclaration self]
  otherNode "ambient_declaration" s [d]

/-! ## Statements -/

/-- A statement behind a label. -/
def labelled (self : Rules) : Parse Node := do
  let s ← start
  let l ← name (.other "statement_identifier")
  mark ":"
  let body ← inner self .body
  otherNode "labeled_statement" s [l, body]

/-- An expression as a statement. -/
def expressionStatement (self : Rules) : Parse Node := do
  let s ← startOperand
  let e ← expressions self .ofStatement
  semicolon afterExpression
  otherNode "expression_statement" s [e]

/-- A block of statements. -/
def block (self : Rules) (inExpression : Bool) : Parse Node := do
  let s ← start
  mark "\x7b"
  let body ← many (self .statement)
  mark "\x7d"
  if !inExpression then optionalSemicolon afterOther
  node .statementBlock s body

/-- The statements that may begin with a word. -/
def wordStatements (self : Rules) (typed : Bool) (w : String) : List (Parse Node) :=
  match w with
  | "if" => [ifStatement self]
  | "for" => [forStatement self]
  | "while" => [whileStatement self]
  | "do" => [doStatement self]
  | "with" => [withStatement self]
  | "switch" => [switchStatement self]
  | "try" => [tryStatement self]
  | "return" => [leaving self .returnStatement "return" true]
  | "throw" => [leaving self .throwStatement "throw" false]
  | "break" => [jump "break_statement" "break"]
  | "continue" => [jump "continue_statement" "continue"]
  | "debugger" =>
    [do
      let s ← start
      keyword "debugger"
      semicolon afterOther
      otherNode "debugger_statement" s []]
  | "import" => [importStatement self]
  | "export" => [exportStatement self]
  | "function" | "async" => [functionDeclaration self]
  | "class" => [classDeclaration self]
  | _ =>
    let values := (declarationWords w).toList.map fun (kind, words) =>
      declarationOf self kind words
    if typed then
      match w with
      | "const" => enumDeclaration self :: values
      | "enum" => [enumDeclaration self]
      | "interface" => [interfaceDeclaration self]
      | "type" => [aliasDeclaration self]
      | "abstract" => [classDeclaration self]
      | "namespace" | "module" => [moduleDeclaration self]
      | "declare" => [ambientDeclaration self]
      | _ => values
    else values

/-- **A statement.** -/
def statement (self : Rules) : Parse Node := do
  let _ ← startOperand
  match ← peek word with
  | some w =>
    let typed ← hasTypes
    firstOf (wordStatements self typed w ++ [labelled self, expressionStatement self])
  | none =>
    if ← markAhead "\x7b" then firstOf [self (.block false), expressionStatement self]
    else if ← markAhead ";" then
      let s ← start
      mark ";"
      otherNode "empty_statement" s []
    else if ← markAhead "@" then
      firstOf [exportStatement self, classDeclaration self, expressionStatement self]
    else expressionStatement self

end Grammar
end Conventions
