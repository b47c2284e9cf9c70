import Conventions.Grammar.Pattern

/-!
# Grammar/Type — types

Types of the typed dialects. Unions and intersections are kept flat: their parts are what rules look
at. A type may stand where the end of a line ends a statement; it then stops there.
-/

namespace Conventions
namespace Grammar

/-- The end of a line ends the type here. -/
def stopsHere (lineEnds : Bool) : Parse Bool :=
  if lineEnds then semicolonSupplied afterOther else pure false

/-- The name of a type. -/
def typeName : Parse Node := name (.other "type_identifier")

/-- Types in angle brackets. -/
def typeArguments (self : Rules) : Parse Node := do
  let s ← start
  markNot "<" ["<<", "<="]
  let items ← commaList (self (.typeOf false true))
  mark ">"
  otherNode "type_arguments" s items

/-- One parameter of a type. -/
def typeParameter (self : Rules) : Parse Node := do
  let s ← start
  let _ ← skip? do keyword "const"; require (!(← ahead (firstOf [mark ",", mark ">"])))
  let n ← typeName
  let constraint ← maybe do
    let s ← start
    firstOf [keyword "extends", mark ":"]
    let t ← self (.typeOf false true)
    otherNode "constraint" s [t]
  let default ← maybe do
    let s ← start
    markNot "=" ["==", "=>"]
    let t ← self (.typeOf false true)
    otherNode "default_type" s [t]
  otherNode "type_parameter" s (n :: constraint.toList ++ default.toList)

/-- The parameters of a type, in angle brackets. -/
def typeParameters (self : Rules) : Parse Node := do
  let s ← start
  mark "<"
  let items ← commaList (typeParameter self)
  mark ">"
  otherNode "type_parameters" s items

/-! ## What a function returns -/

/-- A claim about the type of a name: `x is T`. -/
def typePredicate (self : Rules) (lineEnds : Bool) : Parse Node := do
  let s ← start
  let subject ← firstOf [leaf .thisExpression (keyword "this"), identifier]
  keyword "is"
  let t ← self (.typeOf lineEnds true)
  otherNode "type_predicate" s [subject.withField .name, t]

/-- An assertion about a name: `asserts x`, or `asserts x is T`. -/
def assertion (self : Rules) (lineEnds : Bool) : Parse Node := do
  let s ← start
  keyword "asserts"
  let inner ← firstOf
    [typePredicate self lineEnds, leaf .thisExpression (keyword "this"),
      do
        require (!(← wordAhead "is"))
        identifier]
  otherNode "asserts" s [inner]

/-- What a function returns: an assertion, a claim or a type. -/
def returned (self : Rules) (lineEnds : Bool) : Parse Node :=
  firstOf [assertion self lineEnds, typePredicate self lineEnds, self (.typeOf lineEnds true)]

/-- What a function returns, after a colon. -/
def returnType (self : Rules) (lineEnds : Bool) : Parse Node := do
  let s ← start
  mark ":"
  let t ← returned self lineEnds
  otherNode "type_annotation" s [t]

/-- **What a call of a function looks like**: the parameters of its types, its parameters and what
it returns. -/
def signature (self : Rules) (lineEnds : Bool) : Parse (List Node) := do
  if ← hasTypes then
    let types ← maybe (typeParameters self)
    let ps ← self .parameters
    let result ← maybe (returnType self lineEnds)
    pure (types.toList ++ ps.withField .parameters :: result.toList)
  else
    let ps ← self .parameters
    pure [ps.withField .parameters]

/-- The type of a function, or of a constructor. -/
def functionType (self : Rules) (lineEnds : Bool) : Parse Node := do
  let s ← start
  let abstract ← skip? do keyword "abstract"; require (← wordAhead "new")
  let constructor ← skip? (keyword "new")
  require (constructor || !abstract)
  let types ← maybe (typeParameters self)
  let ps ← self .parameters
  mark "=>"
  let result ← returned self lineEnds
  otherNode (if constructor then "constructor_type" else "function_type") s
    (types.toList ++ [ps.withField .parameters, result])

/-! ## Types of values that exist -/

/-- A further step of a chain that names a value. -/
def queryStep (self : Rules) (left : Node) : Parse (Option Node) := do
  let from_ := left.span.start
  if ← skip? (firstOf [markNot "." ["..."], mark "?."]) then
    if ← skip? (mark "[") then
      let index ← firstOf [string, number, anyName (.other "predefined_type")]
      mark "]"
      some <$> node .subscriptExpression from_
        [left.withField .object, index.withField .index]
    else
      let property ← firstOf [privateName, anyName .propertyIdentifier]
      some <$> node .memberExpression from_
        [left.withField .object, property.withField .property]
  else if ← ahead (do mark "["; firstOf [string, number] *> mark "]") then
    mark "["
    let index ← firstOf [string, number]
    mark "]"
    some <$> node .subscriptExpression from_ [left.withField .object, index.withField .index]
  else if ← markAhead "(" then
    let args ← arguments self
    some <$> node .callExpression from_
      [left.withField .function, args.withField .arguments]
  else pure none

/-- The beginning of a chain that names a value. -/
def queryRoot : Parse Node := firstOf
  [leaf .thisExpression (keyword "this"), leaf (.other "import") (keyword "import"), identifier]

/-- The type of a value: `typeof` and a chain. -/
def typeQuery (self : Rules) : Parse Node := do
  let s ← start
  keyword "typeof"
  let chain ← extend (queryStep self) (← queryRoot)
  match ← maybe (typeArguments self) with
  | some args =>
    let whole ← otherNode "instantiation_expression" chain.span.start [chain, args]
    otherNode "type_query" s [whole]
  | none => otherNode "type_query" s [chain]

/-- A type from another module: `import('m').T`. -/
def importedType (self : Rules) : Parse Node := do
  let root ← leaf (.other "import") (keyword "import")
  extend (queryStep self) root

/-! ## Primary types -/

/-- The words for types that are built in. -/
def builtInTypes : List String :=
  ["any", "number", "boolean", "string", "symbol", "void", "unknown", "never", "object"]

/-- A named type, perhaps in a namespace, perhaps with arguments. -/
def namedType (self : Rules) : Parse Node := do
  let s ← start
  let first ← typeName
  let rest ← many (do markNot "." ["..."]; anyName (.other "type_identifier"))
  let whole ←
    if rest.isEmpty then pure first else otherNode "nested_type_identifier" s (first :: rest)
  match ← maybe (typeArguments self) with
  | some args => node .genericType s [whole.withField .name, args]
  | none => pure whole

/-- A member of a tuple. -/
def tupleMember (self : Rules) : Parse Node := do
  let s ← start
  firstOf
    [do
      let rest ← skip? (mark "...")
      let n ← identifier
      let optional ← skip? (mark "?")
      let t ← ascription self false
      require (!(rest && optional))
      node (if optional then .optionalParameter else .requiredParameter) s
        [n.withField .name, t],
    do
      if ← skip? (mark "...") then
        let t ← self (.typeOf false true)
        otherNode "rest_type" s [t]
      else
        let t ← self (.typeOf false true)
        if ← skip? (mark "?") then otherNode "optional_type" s [t] else pure t]

/-- A literal as a type. -/
def literalType : Parse Node := do
  let s ← start
  let l ← firstOf
    [number, string, leaf .trueLiteral (keyword "true"), leaf .falseLiteral (keyword "false"),
      leaf .nullLiteral (keyword "null"), leaf (.other "undefined") (keyword "undefined"),
      do
        firstOf [mark "-", mark "+"]
        let n ← number
        otherNode "unary_expression" s [n]]
  otherNode "literal_type" s [l]

/-- **A type without operators around it.** -/
def primaryType (self : Rules) : Parse Node := do
  let s ← start
  firstOf
    [do
      let w ← keywordOf builtInTypes
      let _ := w
      otherNode "predefined_type" s [],
    do
      keyword "unique"
      keyword "symbol"
      otherNode "predefined_type" s [],
    literalType,
    leaf (.other "this_type") (keyword "this"),
    typeQuery self,
    importedType self,
    leaf (.other "const") (keyword "const"),
    namedType self,
    do
      mark "("
      let t ← self (.typeOf false true)
      mark ")"
      otherNode "parenthesized_type" s [t],
    self .objectType,
    do
      mark "["
      let items ← maybe (commaList (tupleMember self))
      mark "]"
      otherNode "tuple_type" s (items.getD []),
    template (.other "template_literal_type") (.other "template_type")
      (self (.typeOf false true)),
    do
      mark "*"
      otherNode "existential_type" s []]

/-- A further pair of brackets: a list of the type, or the type of a member. -/
def bracketStep (self : Rules) (lineEnds : Bool) (left : Node) : Parse (Option Node) := do
  if ← stopsHere lineEnds then pure none
  else if ← skip? (mark "[") then
    if ← skip? (mark "]") then some <$> otherNode "array_type" left.span.start [left]
    else
      let index ← self (.typeOf false true)
      mark "]"
      some <$> otherNode "lookup_type" left.span.start [left, index]
  else pure none

/-- A type with words in front of it. -/
def prefixedType (self : Rules) (lineEnds : Bool) : Nat → Parse Node
  | 0 => failure
  | fuel + 1 => do
    let s ← start
    let word? ← peek word
    match word? with
    | some "keyof" => tryWord s "keyof" "index_type_query" fuel
    | some "readonly" => tryWord s "readonly" "readonly_type" fuel
    | some "infer" =>
      firstOf
        [do
          keyword "infer"
          let n ← typeName
          let constraint ← maybe do
            keyword "extends"
            let t ← self (.typeOf lineEnds false)
            require (!(← markAhead "?"))
            pure t
          otherNode "infer_type" s (n :: constraint.toList),
        plain]
    | _ => plain
where
  plain : Parse Node := firstOf
    [functionType self lineEnds, do
      let t ← primaryType self
      extend (bracketStep self lineEnds) t]
  /-- A word in front of a type, unless the word is itself the name of one. -/
  tryWord (s : Nat) (w kind : String) (fuel : Nat) : Parse Node := firstOf
    [do
      keyword w
      let t ← prefixedType self lineEnds fuel
      otherNode kind s [t],
    plain]

/-- The marks that join types. -/
def joint : Parse Unit := firstOf [markNot "|" ["||", "|\x7d"], markNot "&" ["&&"]]

/-- Types joined by `|` and `&`. -/
def joinedType (self : Rules) (lineEnds : Bool) : Parse Node := do
  let s ← start
  let leading ← skip? joint
  let size ← (fun c => some (c.size, c) : Parse Nat)
  let one := prefixedType self lineEnds size
  let first ← one
  let rest ← many do
    require (!(← stopsHere lineEnds))
    joint
    one
  if rest.isEmpty && !leading then pure first else otherNode "union_type" s (first :: rest)

/-- **A type.** -/
def typeOf (self : Rules) (lineEnds conditional : Bool) : Parse Node := do
  let s ← start
  let left ← joinedType self lineEnds
  if conditional then
    if ← stopsHere lineEnds then pure left
    else
      let rest ← maybe do
        keyword "extends"
        let right ← self (.typeOf false false)
        mark "?"
        let yes ← self (.typeOf false true)
        mark ":"
        let no ← self (.typeOf lineEnds true)
        pure [right, yes, no]
      match rest with
      | some ts => otherNode "conditional_type" s (left :: ts)
      | none => pure left
  else pure left

/-! ## Types of objects -/

/-- Where what stands before cannot be the name of a member. -/
def memberNameAhead : Parse Bool := ahead <| firstOf
  [word *> pure (), string *> pure (), number *> pure (), privateName *> pure (), mark "[",
    mark "*"]

/-- A word in front of a member's name; the word is the name itself if no name follows, or if the
line ends after it. -/
def memberModifier (words : List String) : Parse String := do
  let w ← keywordOf words
  require (← memberNameAhead)
  require (!(← semicolonSupplied afterOther))
  pure w

/-- The node of a word in front of a member's name, if it has one. -/
def modifierNodes (s : Nat) (w : String) : Parse (List Node) := do
  if accessWords.contains w then
    let n ← otherNode "accessibility_modifier" s []
    pure [n]
  else if w = "override" then
    let n ← otherNode "override_modifier" s []
    pure [n]
  else pure []

/-- The words in front of a member's name, with the nodes that they make. -/
def memberModifiers (words : List String) : Parse (List (String × List Node)) := many do
  let s ← start
  let w ← memberModifier words
  let ns ← modifierNodes s w
  pure (w, ns)

/-- A member whose name is an index: `[key: string]: T`, or a name that runs over a type. -/
def indexSignature (self : Rules) (lineEnds : Bool) : Parse Node := do
  let s ← start
  let _ ← skip? do
    let _ ← skip? (firstOf [mark "-", mark "+"])
    keyword "readonly"
    require (← markAhead "[")
  mark "["
  let n ← anyName .identifier
  let inner ← firstOf
    [do
      mark ":"
      let t ← self (.typeOf false true)
      pure [n, t],
    do
      keyword "in"
      let t ← self (.typeOf false true)
      let alias_ ← maybe (do keyword "as"; self (.typeOf false true))
      let clause ← otherNode "mapped_type_clause" n.span.start (n :: t :: alias_.toList)
      pure [clause]]
  mark "]"
  let at_ ← start
  firstOf [mark "-?:", mark "+?:", mark "?:", mark ":"]
  let t ← self (.typeOf lineEnds true)
  let ascribed ← otherNode "type_annotation" at_ [t]
  otherNode "index_signature" s (inner ++ [ascribed])

/-- The words that may stand before a member of an object type. -/
def signatureWords : List String :=
  accessWords ++ ["static", "override", "readonly", "async", "get", "set"]

/-- A member of an object type. -/
def objectTypeMember (self : Rules) : Parse Node := do
  let s ← start
  firstOf
    [indexSignature self true,
    do
      let _ ← skip? do keyword "abstract"; require (← wordAhead "new")
      keyword "new"
      let types ← maybe (typeParameters self)
      let ps ← self .parameters
      let result ← maybe (ascription self true)
      otherNode "construct_signature" s (types.toList ++ ps :: result.toList),
    do
      let sig ← signature self true
      otherNode "call_signature" s sig,
    do
      let modifiers ← memberModifiers signatureWords
      let _ ← skip? (mark "*")
      let n ← propertyName self
      let _ ← skip? (mark "?")
      let front := (modifiers.map (·.2)).flatten ++ [n.withField .name]
      if ← ahead (firstOf [mark "(", mark "<"]) then
        let sig ← signature self true
        otherNode "method_signature" s (front ++ sig)
      else
        let ascribed ← maybe (ascription self true)
        otherNode "property_signature" s (front ++ ascribed.toList)]

/-- What stands between the members of an object type. -/
def memberEnd : Parse Unit := firstOf [mark ",", semicolon afterOther]

/-- **The type of an object.** -/
def objectType (self : Rules) : Parse Node := do
  let s ← start
  mark "\x7b"
  let exact ← skip? (markHere "|")
  let _ ← skip? (firstOf [mark ",", mark ";"])
  let first ← maybe (objectTypeMember self)
  let rest ← many (do memberEnd; objectTypeMember self)
  let _ ← skip? memberEnd
  mark (if exact then "|\x7d" else "\x7d")
  otherNode "object_type" s (first.toList ++ rest)

end Grammar
end Conventions
