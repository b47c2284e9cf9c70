/-!
# Syntax/Kind — kinds of nodes and the roles of children

`Kind` names the kinds that some rule of the library looks at; every other kind is kept by its
name. `Field` does the same for the roles that a child can have in its parent.
-/

namespace Conventions

/-- **The kind of a node.** -/
inductive Kind where
  | identifier
  | thisExpression
  | propertyIdentifier
  | shorthandPropertyIdentifier
  | memberExpression
  | subscriptExpression
  | nonNullExpression
  | callExpression
  | arguments
  | parenthesizedExpression
  | awaitExpression
  | assignmentExpression
  | augmentedAssignmentExpression
  | object
  | pair
  | stringLiteral
  | templateString
  | templateSubstitution
  | regex
  | comment
  | number
  | trueLiteral
  | falseLiteral
  | nullLiteral
  | arrowFunction
  | function
  | functionExpression
  | functionDeclaration
  | generatorFunction
  | generatorFunctionDeclaration
  | methodDefinition
  | requiredParameter
  | optionalParameter
  | assignmentPattern
  | variableDeclarator
  | decorator
  | tryStatement
  | catchClause
  | statementBlock
  | throwStatement
  | returnStatement
  | genericType
  | other (name : String)
  deriving DecidableEq, Repr, Inhabited

namespace Kind

/-- The kinds with a name of their own. -/
def named : List (String × Kind) :=
  [("identifier", identifier), ("this", thisExpression),
    ("property_identifier", propertyIdentifier),
    ("shorthand_property_identifier", shorthandPropertyIdentifier),
    ("member_expression", memberExpression), ("subscript_expression", subscriptExpression),
    ("non_null_expression", nonNullExpression), ("call_expression", callExpression),
    ("arguments", arguments), ("parenthesized_expression", parenthesizedExpression),
    ("await_expression", awaitExpression), ("assignment_expression", assignmentExpression),
    ("augmented_assignment_expression", augmentedAssignmentExpression), ("object", object),
    ("pair", pair), ("string", stringLiteral), ("template_string", templateString),
    ("template_substitution", templateSubstitution), ("regex", regex), ("comment", comment),
    ("number", number), ("true", trueLiteral), ("false", falseLiteral), ("null", nullLiteral),
    ("arrow_function", arrowFunction), ("function", function),
    ("function_expression", functionExpression), ("function_declaration", functionDeclaration),
    ("generator_function", generatorFunction),
    ("generator_function_declaration", generatorFunctionDeclaration),
    ("method_definition", methodDefinition), ("required_parameter", requiredParameter),
    ("optional_parameter", optionalParameter), ("assignment_pattern", assignmentPattern),
    ("variable_declarator", variableDeclarator), ("decorator", decorator),
    ("try_statement", tryStatement), ("catch_clause", catchClause),
    ("statement_block", statementBlock), ("throw_statement", throwStatement),
    ("return_statement", returnStatement), ("generic_type", genericType)]

/-- The kind of a name. -/
def ofName (name : String) : Kind :=
  match named.find? (·.1 == name) with
  | some entry => entry.2
  | none => .other name

/-- The name of a kind. -/
def name : Kind → String
  | .other n => n
  | k =>
    match named.find? (·.2 == k) with
    | some entry => entry.1
    | none => ""

/-- The kinds of functions, in the order of their names. -/
def functions : List Kind :=
  [arrowFunction, function, functionDeclaration, functionExpression, generatorFunction,
    generatorFunctionDeclaration, methodDefinition]

/-- Is this a kind of function? -/
def isFunction (k : Kind) : Bool := functions.contains k

/-- Is the inside of such a node never looked at? -/
def isOpaque (k : Kind) : Bool := [comment, stringLiteral, templateString, regex].contains k

end Kind

/-- **The role of a child in its parent.** -/
inductive Field where
  | function
  | arguments
  | object
  | property
  | index
  | left
  | right
  | name
  | value
  | key
  | parameter
  | parameters
  | body
  | pattern
  | handler
  | other (name : String)
  deriving DecidableEq, Repr, Inhabited

namespace Field

/-- The roles with a name of their own. -/
def named : List (String × Field) :=
  [("function", function), ("arguments", arguments), ("object", object), ("property", property),
    ("index", index), ("left", left), ("right", right), ("name", name), ("value", value),
    ("key", key), ("parameter", parameter), ("parameters", parameters), ("body", body),
    ("pattern", pattern), ("handler", handler)]

/-- The role of a name. -/
def ofName (s : String) : Field :=
  match named.find? (·.1 == s) with
  | some entry => entry.2
  | none => .other s

end Field
end Conventions
