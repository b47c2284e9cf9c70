import Conventions.Grammar.Statement
import Conventions.Text.Lower

/-!
# Grammar/Program — reading a whole file

`answer` gives every goal its rule and `rules` ties the knot: it bounds how deeply goals may nest by
the length of the text. Comments are read beside the tree and put into it at the end, each one into
the smallest node around it.
-/

namespace Conventions
namespace Grammar

/-! ## The knot -/

/-- **The rule for every goal**, over an answer to all goals. -/
def answer (self : Rules) : Rules
  | .statement => statement self
  | .expression scope => expression self scope
  | .binary scope least bang => binary self scope least bang
  | .unary scope => unary self scope
  | .block inExpression => block self inExpression
  | .pattern => pattern self
  | .parameters => parameters self (decorators self)
  | .classBody => classBody self
  | .typeOf lineEnds conditional => typeOf self lineEnds conditional
  | .typeArguments => typeArguments self
  | .objectType => objectType self
  | .markup => markup self

/-- **An answer to every goal** that nests goals at most `depth` deep. -/
def rules : Nat → Rules
  | 0, _ => failure
  | depth + 1, goal => answer (rules depth) goal

/-- A depth that no text of a size can need: between two characters lie at most this many goals. -/
def depthFor (size : Nat) : Nat := 20 * size + 100

/-! ## Comments -/

mutual

/-- Put a comment into the smallest node around it. -/
def withComment (comment : Node) : Node → Node
  | ⟨kind, field, span, children⟩ => ⟨kind, field, span, withCommentAmong comment children⟩

/-- Put a comment among the nodes of a list, or into one of them. -/
def withCommentAmong (comment : Node) : List Node → List Node
  | [] => [comment]
  | n :: rest =>
    if comment.span.start < n.span.start then comment :: n :: rest
    else if n.span.start < comment.span.start ∧ comment.span.stop ≤ n.span.stop then
      withComment comment n :: rest
    else n :: withCommentAmong comment rest

end

/-! ## Programs -/

/-- The length of the line in front that names the program to run a file with. -/
def runnerLength? : List Char → Option Nat
  | '#' :: '!' :: rest => some (2 + (rest.takeWhile (· != '\n')).length)
  | _ => none

/-- The end of the text. -/
def endOfText : Parse Unit := fun c =>
  let c := c.atOperand
  if c.rest.isEmpty then some ((), c) else none

/-- A whole program. -/
def program (self : Rules) : Parse Node := do
  let s ← (fun c => some (c.skipBlanks.offset, c) : Parse Nat)
  let runner ← maybe (leaf (.other "hash_bang_line") (token runnerLength?))
  let statements ← many (self .statement)
  endOfText
  otherNode "program" s (runner.toList ++ statements)

/-- **The syntax tree of a text**, if it has one. -/
def parse (d : Dialect) (text : String) : Option Node :=
  let cs := text.toList
  let start : Cursor := ⟨d, cs.length, cs, 0, 0, []⟩
  (program (rules (depthFor cs.length)) start).map fun (root, last) =>
    last.comments.foldl (fun root comment => withComment comment root) root

/-! ## Files -/

namespace Dialect

/-- **The dialect that an extension announces**, in any case. -/
def ofExtension? (extension : String) : Option Dialect :=
  let e := Text.lower extension
  if [".js", ".jsx", ".mjs", ".cjs"].contains e then some .plain
  else if [".ts", ".mts", ".cts"].contains e then some .typed
  else if e = ".tsx" then some .typedMarkup
  else none

end Dialect
end Grammar

/-- **Why a source has no syntax tree.** -/
inductive SourceFault where
  | unsupported
  | notText
  | malformed
  deriving DecidableEq, Repr

def SourceFault.message : SourceFault → String
  | .unsupported => "File extension is not supported."
  | .notText => "Source is not valid UTF-8."
  | .malformed => "Source contains syntax errors."

/-- **The syntax tree of a source** in the dialect of an extension. -/
def Source.parse (extension : String) (s : Source) : Except SourceFault Node :=
  match Grammar.Dialect.ofExtension? extension with
  | none => .error .unsupported
  | some d =>
    match s.text? with
    | none => .error .notText
    | some text =>
      match Grammar.parse d text with
      | none => .error .malformed
      | some root => .ok root

end Conventions
