import Conventions.Text.Utf8
import Conventions.Text.Blank

/-!
# Syntax/Source — a source file as bytes

Positions in a syntax tree are byte offsets. A slice that cuts a character is shown with
replacement characters.
-/

namespace Conventions

/-- A range of byte offsets, the end not included. -/
structure Span where
  start : Nat
  stop : Nat
  deriving DecidableEq, Repr, Inhabited

/-- **A source file**: its bytes. -/
structure Source where
  bytes : ByteArray

namespace Source

/-- The bytes of a span. -/
def bytesOf (s : Source) (span : Span) : List UInt8 :=
  (s.bytes.extract span.start span.stop).toList

/-- The text of a span. -/
def slice (s : Source) (span : Span) : List Char := Text.decodeLossy (s.bytesOf span)

/-- The number of the line that an offset lies on, counted from one. -/
def lineAt (s : Source) (offset : Nat) : Nat :=
  1 + (s.bytesOf ⟨0, offset⟩).countP (· == 10)

/-- The text of a file that is well-formed. -/
def text? (s : Source) : Option String := Text.decode? s.bytes

end Source

/-! ## Excerpts -/

namespace Excerpt

/-- The most characters of an excerpt. -/
def maxLength : Nat := 120

/-- Cut a long text, marking the cut by three dots. -/
def cut (cs : List Char) : List Char :=
  if maxLength < cs.length then cs.take (maxLength - 3) ++ ['.', '.', '.'] else cs

theorem length_cut_le (cs : List Char) : (cut cs).length ≤ maxLength := by
  unfold cut
  split
  · simp only [List.length_append, List.length_take, List.length_cons, List.length_nil, maxLength]
      at *
    omega
  · omega

end Excerpt

/-- **The excerpt of a span**: its words on one line, at most `Excerpt.maxLength` characters. -/
def Source.excerpt (s : Source) (span : Span) : String :=
  String.ofList (Excerpt.cut (Text.collapse (s.slice span)))

end Conventions
