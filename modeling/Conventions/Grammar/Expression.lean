import Conventions.Grammar.Goal
import Conventions.Grammar.Markup

/-!
# Grammar/Expression — expressions

An operand is something primary with the steps that follow it: members, calls and assignments.
`binary` joins operands by climbing precedences, and `expression` adds the choice between two
values.
-/

namespace Conventions
namespace Grammar

/-- Does the end of a line end the expression here? -/
def endsHere (scope : Scope) : Parse Bool :=
  if scope.lineEnds then semicolonSupplied afterExpression else pure false

/-- The same surroundings for a part that is a value and no pattern. -/
def Scope.value (scope : Scope) : Scope := { scope with cover := false, heritage := false }

/-! ## Functions -/

/-- The body of an arrow function. -/
def arrowBody (self : Rules) (scope : Scope) : Parse Node := do
  mark "=>"
  let body ← firstOf [self (.block true), self (.expression scope.value)]
  pure (body.withField .body)

/-- An arrow function with its parameters in parentheses. -/
def arrowWithParameters (self : Rules) (scope : Scope) : Parse Node := do
  let s ← start
  let _ ← skip? do
    keyword "async"
    require (← ahead (firstOf [mark "(", mark "<"]))
  let typed ← hasTypes
  let types ← if typed then maybe (typeParameters self) else pure none
  let ps ← self .parameters
  let result ←
    if typed && !scope.noReturnType then maybe (returnType self false) else pure none
  let body ← arrowBody self scope
  node .arrowFunction s (types.toList ++ ps.withField .parameters :: result.toList ++ [body])

/-- An arrow function with one name as its parameter. -/
def arrowWithName (self : Rules) (scope : Scope) : Parse Node := do
  let s ← start
  let _ ← skip? do
    keyword "async"
    require (← ahead (do let _ ← word; mark "=>"))
  let p ← identifier
  let body ← arrowBody self scope
  node .arrowFunction s [p.withField .parameter, body]

/-- A function as a value. -/
def functionExpression (self : Rules) : Parse Node := do
  let s ← start
  let _ ← skip? do keyword "async"; require (← wordAhead "function")
  keyword "function"
  let generator ← skip? (mark "*")
  let n ← maybe identifier
  let sig ← signature self true
  let body ← functionBody self true
  node (if generator then .generatorFunction else .functionExpression) s
    (n.toList.map (·.withField .name) ++ sig ++ [body])

/-! ## Primary expressions -/

/-- `undefined`, which is a name of its own. -/
def undefinedName : Parse Node := leaf (.other "undefined") (keyword "undefined")

/-- The module itself, or the function that loads one. -/
def importOperand : Parse Node := do
  let i ← leaf (.other "import") (keyword "import")
  if ← skip? (mark ".") then
    keyword "meta"
    otherNode "meta_property" i.span.start []
  else
    require (← markAhead "(")
    pure i

/-- A word that begins an operand. -/
def wordOperand (self : Rules) (scope : Scope) (w : String) : Parse Node :=
  match w with
  | "function" => functionExpression self
  | "class" => do
    let s ← start
    classAfter self s [] false
  | "this" => leaf .thisExpression (keyword w)
  | "super" => leaf (.other "super") (keyword w)
  | "null" => leaf .nullLiteral (keyword w)
  | "true" => leaf .trueLiteral (keyword w)
  | "false" => leaf .falseLiteral (keyword w)
  | "import" => importOperand
  | "undefined" => firstOf [arrowWithName self scope, undefinedName]
  | "async" =>
    firstOf
      [functionExpression self, arrowWithParameters self scope, arrowWithName self scope,
        identifier]
  | _ => firstOf [arrowWithName self scope, identifier]

/-- A private name that is looked for in an object. -/
def privateOperand : Parse Node := do
  let n ← privateName
  require (← wordAhead "in")
  pure n

/-- A class with decorators, as a value. -/
def decoratedClass (self : Rules) : Parse Node := do
  let s ← start
  let decorated ← decorators self
  require !decorated.isEmpty
  classAfter self s decorated false

/-- An operand that begins with a sign. -/
def markOperand (self : Rules) (scope : Scope) : Parse Node := fun c =>
  match (c.atToken).rest.head? with
  | some '(' => firstOf [arrowWithParameters self scope, parenthesized self] c
  | some '[' => array self c
  | some '{' => object self c
  | some '\x60' => templateString self c
  | some '"' | some '\'' => string c
  | some '/' => leaf .regex (token regexLength?) c
  | some '#' => privateOperand c
  | some '@' => decoratedClass self c
  | some '<' =>
    firstOf
      [do require (← hasTypes); arrowWithParameters self scope,
        do require (← hasMarkup); self .markup] c
  | _ => number c

/-- **Something primary**: an operand before the steps that follow it. -/
def primary (self : Rules) (scope : Scope) : Parse Node := do
  match ← peek word with
  | some w => wordOperand self scope w
  | none => markOperand self scope

/-! ## Steps -/

/-- A step to a member, without a call. -/
def memberChainStep (self : Rules) (left : Node) : Parse (Option Node) := do
  match ← maybe optionalChainMark with
  | some chain =>
    if ← skip? (mark "[") then
      let index ← expressions self .inner
      mark "]"
      some <$> node .subscriptExpression left.span.start
        [left.withField .object, chain, index.withField .index]
    else
      match ← maybe (firstOf [privateName, anyName .propertyIdentifier]) with
      | some property =>
        some <$> node .memberExpression left.span.start
          [left.withField .object, chain, property.withField .property]
      | none =>
        let types ← if ← hasTypes then maybe (typeArguments self) else pure none
        let args ← arguments self
        some <$> node .callExpression left.span.start
          (left.withField .function :: chain :: types.toList ++ [args.withField .arguments])
  | none => memberStep self left

/-- May an instantiation end here, so that what stands in angle brackets were types? -/
def instantiationEnds : Parse Bool := do
  if ← ahead (firstOf ([";", ",", ")", "]", "\x7d", ":", ".", "?."].map mark)) then pure true
  else semicolonSupplied afterExpression

/-- A step with type arguments: a call, or an instantiation. -/
def typedStep (self : Rules) (scope : Scope) (left : Node) : Parse Node := do
  require (← hasTypes)
  let types ← typeArguments self
  if ← markAhead "(" then
    let args ← arguments self
    node .callExpression left.span.start
      [left.withField .function, types, args.withField .arguments]
  else if ← markAhead "\x60" then
    let t ← templateString self
    node .callExpression left.span.start [left.withField .function, types, t.withField .arguments]
  else
    require (!scope.heritage)
    require (← instantiationEnds)
    otherNode "instantiation_expression" left.span.start [left, types]

/-- **A step that follows an operand**: a member, a call, an update. -/
def chainStep (self : Rules) (scope : Scope) (left : Node) : Parse (Option Node) := do
  if ← endsHere scope then pure none
  else if ← markAhead "(" then
    let args ← arguments self
    some <$> node .callExpression left.span.start
      [left.withField .function, args.withField .arguments]
  else if ← markAhead "\x60" then
    let t ← templateString self
    some <$> node .callExpression left.span.start
      [left.withField .function, t.withField .arguments]
  else if ← markAhead "<" then maybe (typedStep self scope left)
  else if ← skip? (firstOf [mark "++", mark "--"]) then
    some <$> otherNode "update_expression" left.span.start [left]
  else memberChainStep self left

/-! ## Assignments -/

/-- May a value be assigned to the node as it stands? -/
def isTarget (n : Node) : Bool :=
  [.memberExpression, .subscriptExpression, .identifier, .other "undefined",
    .parenthesizedExpression, .nonNullExpression].contains n.kind

/-- The assignment to something read, if one follows. -/
def assignmentTo (self : Rules) (scope : Scope) (left : Node) : Parse (Option Node) := do
  if ← endsHere scope then pure none
  else
    let target? := if isTarget left then some left else
      if left.kind == .object || left.kind == .other "array" then asPattern? left else none
    match target? with
    | none => pure none
    | some target =>
      if ← skip? assignMark then
        let right ← self (.expression scope.value)
        some <$> node .assignmentExpression left.span.start
          [target.withField .left, right.withField .right]
      else if ← skip? (do require (isTarget left); augmentedMark) then
        let right ← self (.expression scope.value)
        some <$> node .augmentedAssignmentExpression left.span.start
          [target.withField .left, right.withField .right]
      else pure none

/-- Something read, with the steps and the assignment that follow it. A literal that only a pattern
can be has to be assigned to, unless it stands where a pattern may still come of it. -/
def completed (self : Rules) (scope : Scope) (first : Node) : Parse Node := do
  if mustBePattern first then
    match ← assignmentTo self scope first with
    | some whole => pure whole
    | none =>
      require scope.cover
      pure first
  else
    let chain ← extend (chainStep self scope) first
    let whole ← assignmentTo self scope chain
    pure (whole.getD chain)

/-! ## Operands with signs in front -/

/-- What `new` makes an object of: something primary and its members, or another new object. -/
def newAfter (self : Rules) (scope : Scope) : Nat → Parse Node
  | 0 => failure
  | fuel + 1 => do
    let s ← start
    keyword "new"
    if ← skip? (mark ".") then
      keyword "target"
      otherNode "meta_property" s []
    else
      let constructor ←
        if ← wordAhead "new" then newAfter self scope fuel
        else do
          let first ← primary self scope
          extend (fun left => do
            if ← endsHere scope then pure none
            else if ← skip? (do require (← hasTypes); markNot "!" ["!="]) then
              some <$> node .nonNullExpression left.span.start [left]
            else if ← ahead (firstOf [markNot "." ["..."], mark "["]) then memberStep self left
            else pure none) first
      let types ← maybe do
        require (← hasTypes)
        let ts ← typeArguments self
        require ((← markAhead "(") || (← instantiationEnds))
        pure ts
      let args ← if ← endsHere scope then pure none else maybe (arguments self)
      otherNode "new_expression" s
        (constructor :: types.toList ++ (args.toList.map (·.withField .arguments)))

/-- A new object, or the target of the call that makes one. -/
def newExpression (self : Rules) (scope : Scope) : Parse Node := fun c =>
  newAfter self scope c.size c

/-- The operand of a word or a sign in front: what follows it does not mark it as present. -/
def signed (self : Rules) (scope : Scope) (kind : Kind) (sign : Parse Unit) : Parse Node := do
  let s ← start
  sign
  let e ← self (.unary scope.value)
  node kind s [e]

/-- What a function hands out between its start and its end. -/
def yielded (self : Rules) (scope : Scope) : Parse Node := do
  let s ← start
  keyword "yield"
  if ← endsHere scope then otherNode "yield_expression" s []
  else if ← skip? (mark "*") then
    let e ← self (.expression scope.value)
    otherNode "yield_expression" s [e]
  else
    let e ← maybe (self (.expression scope.value))
    otherNode "yield_expression" s e.toList

/-- A value that is waited for. -/
def awaited (self : Rules) (scope : Scope) : Parse Node := do
  let s ← start
  keyword "await"
  let e ← self (.binary scope.value operandPrecedence true)
  node .awaitExpression s [e]

/-- Something primary with all that follows it. -/
def plainOperand (self : Rules) (scope : Scope) : Parse Node := do
  let first ← primary self scope
  completed self scope first

/-- An assignment after the word that makes the value last as long as its scope. -/
def usingAssignment (self : Rules) (scope : Scope) : Parse Node := do
  require (← hasTypes)
  let s ← start
  keyword "using"
  let whole ← plainOperand self scope
  require (whole.kind == .assignmentExpression)
  node .assignmentExpression s whole.children

/-- An operand that begins with a word. -/
def wordUnary (self : Rules) (scope : Scope) (w : String) : Parse Node :=
  if ["typeof", "void", "delete"].contains w then
    signed self scope (.other "unary_expression") (keyword w)
  else if w = "new" then do
    let made ← newExpression self scope
    completed self scope made
  else if w = "await" then firstOf [awaited self scope, plainOperand self scope]
  else if w = "yield" then yielded self scope
  else if w = "using" then firstOf [usingAssignment self scope, plainOperand self scope]
  else plainOperand self scope

/-- A value given a type in front. -/
def typeAssertion (self : Rules) (scope : Scope) : Parse Node := do
  require ((← hasTypes) && !(← hasMarkup))
  let s ← start
  let types ← typeArguments self
  let e ← self (.unary scope.value)
  otherNode "type_assertion" s [types, e]

/-- **An operand** with the signs in front of it. -/
def unary (self : Rules) (scope : Scope) : Parse Node := do
  let _ ← startOperand
  match ← peek word with
  | some w => wordUnary self scope w
  | none =>
    if ← ahead (firstOf [mark "++", mark "--"]) then
      signed self scope (.other "update_expression") (firstOf [mark "++", mark "--"])
    else if ← ahead (firstOf (["!", "~", "+", "-"].map mark)) then
      signed self scope (.other "unary_expression") (firstOf (["!", "~", "+", "-"].map mark))
    else firstOf [plainOperand self scope, typeAssertion self scope]

/-! ## Operators and choices -/

/-- Something marked as present, or given a type. -/
def bangStep (self : Rules) (scope : Scope) (left : Node) : Parse (Option Node) := do
  require (← hasTypes)
  if ← skip? (markNot "!" ["!="]) then
    let present ← node .nonNullExpression left.span.start [left]
    some <$> completed self scope present
  else
    let w ← keywordOf ["as", "satisfies"]
    let t ← self (.typeOf scope.lineEnds true)
    some <$> otherNode (if w = "as" then "as_expression" else "satisfies_expression")
      left.span.start [left, t]

/-- A further operator with its right operand. -/
def binaryStep (self : Rules) (scope : Scope) (least : Nat) (bang : Bool) (left : Node) :
    Parse (Option Node) := do
  if ← endsHere scope then pure none
  else if ← ahead (do require ((← hasTypes) && scope.heritage); typeArguments self) then pure none
  else
    match ← maybe (do require bang; bangStep self scope left) with
    | some (some next) => pure (some next)
    | _ =>
      let found ← maybe do
        let precedence ← operator scope
        require (least ≤ precedence)
        pure precedence
      match found with
      | none => pure none
      | some precedence =>
        let right ← self (.binary scope.value (rightPrecedence precedence) (precedence == 12))
        some <$> otherNode "binary_expression" left.span.start
          [left.withField .left, right.withField .right]

/-- **Operands joined by operators.** -/
def binary (self : Rules) (scope : Scope) (least : Nat) (bang : Bool) : Parse Node := do
  let first ← self (.unary scope)
  if mustBePattern first then pure first
  else extend (binaryStep self scope least bang) first

/-- The two values to choose between. -/
def choices (self : Rules) (scope : Scope) : Parse (Node × Node) := do
  let yes ← self (.expression { scope.value with lineEnds := false, noIn := false })
  mark ":"
  let no ← self (.expression scope.value)
  pure (yes, no)

/-- **An expression.** -/
def expression (self : Rules) (scope : Scope) : Parse Node := do
  let condition ← self (.binary scope 0 true)
  if ← endsHere scope then pure condition
  else if mustBePattern condition then pure condition
  else if ← skip? choiceMark then
    let (yes, no) ← firstOf
      [choices self scope, choices self { scope with noReturnType := true }]
    otherNode "ternary_expression" condition.span.start [condition, yes, no]
  else pure condition

end Grammar
end Conventions
