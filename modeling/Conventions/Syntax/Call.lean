import Conventions.Syntax.Node

/-!
# Syntax/Call — literals, member paths, calls, and the shapes of functions

`a.b['c']` is read as the path `["a", "b", "c"]`. A path exists only when every segment is spelled
out: an identifier or `this` at the root, names and literal subscripts after it.

Reading a call: what is called, on what, and with which arguments. Reading a function: the names of
its parameters and its body. Reading an object: its keys.
-/

namespace Conventions
namespace Node

/-! ## Literals and member paths -/

/-- **The value of a literal**: a string, or a template without substitutions. -/
def literal? (s : Source) (n : Node) : Option String :=
  if n.kind = .stringLiteral ∨
      (n.kind = .templateString ∧ n.children.all fun c => c.kind != .templateSubstitution) then
    some (String.ofList ((s.slice n.span).drop 1).dropLast)
  else none

/-- **The segments of a member expression**, from the root on. -/
def path? (s : Source) (n : Node) : Option (List String) :=
  match n.kind with
  | .identifier | .thisExpression | .propertyIdentifier => some [n.text s]
  | .memberExpression =>
    match n.child? .property, h : n.child? .object with
    | some property, some object =>
      have := size_lt_of_child? h
      (object.path? s).map (· ++ [property.text s])
    | _, _ => none
  | .subscriptExpression =>
    match (n.child? .index).bind (literal? s), h : n.child? .object with
    | some segment, some object =>
      have := size_lt_of_child? h
      (object.path? s).map (· ++ [segment])
    | _, _ => none
  | .nonNullExpression =>
    match h : n.first? with
    | some inner =>
      have := size_lt_of_first? h
      inner.path? s
    | none => none
  | _ => none
  termination_by n.size

/-! ## Calls -/

/-- What a call calls. -/
def callee? (n : Node) : Option Node := n.child? .function

/-- The arguments of a call, comments left out. -/
def callArguments (n : Node) : List Node :=
  match n.child? .arguments with
  | some a => if a.kind = .arguments then a.children.filter (·.kind != .comment) else []
  | none => []

/-- The first argument of a call. -/
def firstArgument? (n : Node) : Option Node := n.callArguments.head?

/-- The text of a node that may be missing. -/
def textOf (s : Source) (n : Option Node) : String :=
  match n with
  | some n => n.text s
  | none => ""

/-- **The last segment of the called name**: `use` for `app.use`. -/
def calleeName (s : Source) (n : Node) : String :=
  match n.callee? with
  | some target =>
    match target.kind with
    | .identifier => target.text s
    | .memberExpression => textOf s (target.child? .property)
    | _ => ""
  | none => ""

/-- What a method is called on. -/
def receiver? (n : Node) : Option Node :=
  match n.callee? with
  | some target => if target.kind = .memberExpression then target.child? .object else none
  | none => none

/-- The path of what a call calls; empty if it has none. -/
def calleePath (s : Source) (n : Node) : List String :=
  ((n.callee?).bind (path? s)).getD []

/-- **The root of a chain**: `res` for `res.status(1).json`. -/
def rootName (s : Source) (n : Node) : String :=
  match n.kind with
  | .identifier | .thisExpression => n.text s
  | .memberExpression =>
    match h : n.child? .object with
    | some o =>
      have := size_lt_of_child? h
      o.rootName s
    | none => ""
  | .callExpression =>
    match h : n.child? .function with
    | some f =>
      have := size_lt_of_child? h
      f.rootName s
    | none => ""
  | .awaitExpression | .parenthesizedExpression =>
    match h : n.first? with
    | some i =>
      have := size_lt_of_first? h
      i.rootName s
    | none => ""
  | _ => ""
  termination_by n.size

/-- The root of a chain that may be missing. -/
def rootNameOf (s : Source) : Option Node → String
  | some n => n.rootName s
  | none => ""

/-- **The node inside any number of parentheses**; nothing if the parentheses are empty. -/
def unwrapped? (n : Node) : Option Node :=
  if n.kind = .parenthesizedExpression then
    match h : n.first? with
    | some i =>
      have := size_lt_of_first? h
      i.unwrapped?
    | none => none
  else some n
  termination_by n.size

/-! ## Objects -/

/-- The keys of an object with their values, in the order of their first writing; the last value
written for a key counts, and a key written by itself has none. -/
abbrev Keys := List (String × Option Node)

/-- Set the value of a key, at the place it already has. -/
def Keys.set (key : String) (value : Option Node) : Keys → Keys
  | [] => [(key, value)]
  | k :: rest => if k.1 = key then (key, value) :: rest else k :: Keys.set key value rest

def Keys.names (ks : Keys) : List String := ks.map (·.1)

/-- The key that a member of an object is written for, with its value. -/
def keyWritten? (s : Source) (member : Node) : Option (String × Option Node) :=
  match member.kind with
  | .pair => (member.child? .key).map fun key =>
      ((key.literal? s).getD (key.text s), member.child? .value)
  | .shorthandPropertyIdentifier => some (member.text s, none)
  | _ => none

/-- **The keys of an object**; any other node has none. -/
def objectKeys (s : Source) (n : Node) : Keys :=
  if n.kind = .object then
    (n.children.filterMap (keyWritten? s)).foldl (fun ks e => ks.set e.1 e.2) []
  else []

/-- The keys of an object that may be missing. -/
def objectKeysOf (s : Source) : Option Node → Keys
  | some n => n.objectKeys s
  | none => []

/-! ## Functions -/

/-- The name of one parameter, or `?` for a pattern. -/
def parameterName (s : Source) (parameter : Node) : String :=
  let target :=
    if parameter.kind = .requiredParameter ∨ parameter.kind = .optionalParameter then
      (parameter.child? .pattern).getD parameter
    else parameter
  let target :=
    if target.kind = .assignmentPattern then (target.child? .left).getD target else target
  if target.kind = .identifier then target.text s else "?"

/-- **The names of the parameters of a function.** -/
def parameterNames (s : Source) (n : Node) : List String :=
  match n.child? .parameter with
  | some single => [single.text s]
  | none =>
    match n.child? .parameters with
    | some ps => (ps.children.filter (·.kind != .comment)).map (parameterName s)
    | none => []

/-- The body of a function. -/
def body? (n : Node) : Option Node := n.child? .body

end Node
end Conventions
