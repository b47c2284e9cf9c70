import Conventions.Grammar.Lexeme

/-!
# Grammar/Semicolon — where the end of a line ends a statement

`semicolonAhead` decides, from the text right after a token, whether a semicolon is supplied there:
before a closing brace, at the end of the text, and at the end of a line unless the next line goes
on with what was begun.
-/

namespace Conventions
namespace Grammar

/-- The three variants of the language. -/
inductive Dialect where
  | plain
  | typed
  | typedMarkup
  deriving DecidableEq, Repr

namespace Dialect

/-- Are there types? -/
def hasTypes (d : Dialect) : Bool := d != .plain

/-- Is there markup? -/
def hasMarkup (d : Dialect) : Bool := d != .typed

end Dialect

/-- What a position allows besides a supplied semicolon. -/
structure Position where
  /-- A complete expression stands before it, so that an operator may follow. -/
  afterExpression : Bool
  /-- The signature of a function stands before it, so that a body may follow. -/
  afterSignature : Bool
  deriving DecidableEq, Repr

/-- How the blanks and comments in front end. -/
inductive GapEnd where
  | token
  | sameLine
  | slash
  deriving DecidableEq

/-- A blank of the scan for semicolons. -/
def isScanSpace (c : Char) : Bool := isSpace c && c != '\u00A0' && c != '\uFEFF' && c != '\u2060'

/-- The rest after a block comment, and whether it holds a line feed. -/
def afterBlock (newline : Bool) : List Char → Bool × List Char
  | '*' :: '/' :: rest => (newline, rest)
  | c :: rest => afterBlock (newline || c == '\n' || c == '\u2028' || c == '\u2029') rest
  | [] => (newline, [])

theorem length_afterBlock_le (newline : Bool) (cs : List Char) :
    (afterBlock newline cs).2.length ≤ cs.length := by
  fun_induction afterBlock newline cs with
  | case1 newline rest => simp; omega
  | case2 newline c rest _ ih => exact Nat.le_succ_of_le ih
  | case3 => simp

/-- Is the character a line end of the scan? -/
def isScanLineEnd (c : Char) : Bool := c == '\n' || c == '\u2028' || c == '\u2029'

theorem length_dropWhile_le {α : Type} (p : α → Bool) (xs : List α) :
    (xs.dropWhile p).length ≤ xs.length :=
  (List.dropWhile_sublist p).length_le

/-- The rest after blanks and comments, and how they end. With `pause` the scan stops after a block
comment that no slash follows. -/
def gap (pause newline : Bool) (cs : List Char) : GapEnd × List Char :=
  have hle := length_dropWhile_le isScanSpace cs
  match h : cs.dropWhile isScanSpace with
  | '/' :: '/' :: rest =>
    have := length_dropWhile_le (fun c => !isScanLineEnd c) rest
    have : (rest.dropWhile fun c => !isScanLineEnd c).length < cs.length := by
      rw [h] at hle
      simp only [List.length_cons] at hle
      omega
    gap pause newline (rest.dropWhile fun c => !isScanLineEnd c)
  | '/' :: '*' :: rest =>
    have := length_afterBlock_le false rest
    have : (afterBlock false rest).2.length < cs.length := by
      rw [h] at hle
      simp only [List.length_cons] at hle
      omega
    let newline := newline || (afterBlock false rest).1
    if pause && (afterBlock false rest).2.head? != some '/' then
      (if newline then .token else .sameLine, (afterBlock false rest).2)
    else gap pause newline (afterBlock false rest).2
  | '/' :: rest => (.slash, '/' :: rest)
  | rest => (.token, rest)
  termination_by cs.length

/-- Does a word in front say that the line goes on: `in` or `instanceof`? -/
def continuesWithWord (cs : List Char) : Bool :=
  let letters := cs.takeWhile fun c => c.isAlpha || 127 < c.val
  letters == "in".toList || letters == "instanceof".toList

/-- Does the next line, from its first token on, go on with what was begun? -/
def continues (d : Dialect) (p : Position) (cs : List Char) : Bool :=
  match cs with
  | [] => false
  | '.' :: rest => if d = .plain then !((rest.head?.map Char.isDigit).getD false) else true
  | '{' :: _ => d.hasTypes && p.afterSignature
  | '(' :: _ | '[' :: _ => d = .plain || p.afterExpression
  | '+' :: rest => rest.head? != some '+'
  | '-' :: rest => rest.head? != some '-'
  | '!' :: rest => rest.head? == some '='
  | 'i' :: _ => continuesWithWord cs
  | c :: _ => "\x60,:;*%><=?^|&/".toList.contains c

/-- At a closing brace: with types, a colon after it means that it closes a pattern. -/
def beforeBrace (d : Dialect) (p : Position) (afterBrace : List Char) : Bool :=
  if d.hasTypes && (afterBrace.dropWhile isScanSpace).head? == some ':' then p.afterExpression
  else true

/-- The decision after the end of a line. -/
def afterLineEnd (d : Dialect) (p : Position) (cs : List Char) : Bool :=
  match gap false false cs with
  | (.slash, _) => false
  | (_, next) => !continues d p next

theorem length_gap_le (pause newline : Bool) (cs : List Char) :
    (gap pause newline cs).2.length ≤ cs.length := by
  fun_induction gap pause newline cs with
  | case1 newline cs hle rest h h₁ h₂ ih => exact Nat.le_trans ih (Nat.le_of_lt h₂)
  | case2 newline cs hle rest h h₁ h₂ newline' hp => exact Nat.le_of_lt h₂
  | case3 newline cs hle rest h h₁ h₂ newline' hp ih => exact Nat.le_trans ih (Nat.le_of_lt h₂)
  | case4 newline cs hle rest _ _ h => rw [h] at hle; exact hle
  | case5 newline cs hle => exact hle

theorem length_lt_of_gap_eq {pause newline : Bool} {ending : GapEnd} {c : Char}
    {cs after : List Char} (h : gap pause newline cs = (ending, c :: after)) :
    after.length < cs.length := by
  have hle := length_gap_le pause newline cs
  rw [h] at hle
  exact Nat.lt_of_succ_le hle

/-- **Is a semicolon supplied right here?** With a comment in front, one that spans lines is enough
in the plain dialect, unless an operator may follow. -/
def semicolonAhead (d : Dialect) (p : Position) (cs : List Char) : Bool :=
  match cs with
  | [] => true
  | '/' :: rest =>
    match h : gap (d = .plain) false ('/' :: rest) with
    | (.slash, _) => false
    | (.token, []) | (.sameLine, []) => d = .plain && !p.afterExpression
    | (ending, c :: after) =>
      have : after.length < ('/' :: rest).length := length_lt_of_gap_eq h
      if d = .plain && ending == .token && !p.afterExpression && c != ',' && c != '=' then true
      else if c = '}' then beforeBrace d p after
      else if isScanLineEnd c then afterLineEnd d p after
      else if isScanSpace c then semicolonAhead d p after
      else false
  | c :: after =>
    if c = '}' then beforeBrace d p after
    else if isScanLineEnd c then afterLineEnd d p after
    else if isScanSpace c then semicolonAhead d p after
    else false
  termination_by cs.length
  decreasing_by
    · exact this
    · exact Nat.lt_succ_self _

end Grammar
end Conventions
