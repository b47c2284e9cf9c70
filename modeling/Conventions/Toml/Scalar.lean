import Conventions.Toml.Basic
import Conventions.Text.Word

/-!
# Toml/Scalar — how text, numbers and dates are written

Each reader takes the characters in front and gives a value with the characters that follow.
-/

namespace Conventions
namespace Toml

/-- **Why a text is no document**: it breaks a rule, or it goes beyond what is read. -/
inductive Fault where
  | malformed
  | tooManyDigits
  | tooDeep
  deriving DecidableEq, Repr

/-- A value in front of a text, and the rest. -/
abbrev Front (α : Type) := Except Fault (α × List Char)

/-! ## Characters -/

def isSpace (c : Char) : Bool := c == ' ' || c == '\t'

def isSpaceOrLine (c : Char) : Bool := isSpace c || c == '\n'

def skipSpace (cs : List Char) : List Char := cs.dropWhile isSpace

/-- Is a character one that no text and no comment of one line may hold? -/
def isControl (c : Char) : Bool := (c.toNat < 32 && c != '\t') || c.toNat == 127

/-- Is a character one that no text of several lines may hold? -/
def isControlInLines (c : Char) : Bool := isControl c && c != '\n'

def isBareKey (c : Char) : Bool := c.isAlphanum || c == '-' || c == '_'

/-- What follows a comment, if one is in front. -/
def skipComment : List Char → Except Fault (List Char)
  | '#' :: rest =>
    if (rest.takeWhile (· != '\n')).any isControl then .error .malformed
    else .ok (rest.dropWhile (· != '\n'))
  | cs => .ok cs

/-- What follows spaces, ends of lines and comments. -/
def skipGaps : Nat → List Char → Except Fault (List Char)
  | 0, cs => .ok cs
  | n + 1, cs =>
    match cs.dropWhile isSpaceOrLine with
    | '#' :: rest => (skipComment ('#' :: rest)).bind (skipGaps n)
    | rest => .ok rest

/-! ## Text -/

/-- Text between apostrophes, from behind the first one. -/
def literalText (cs : List Char) : Front String :=
  let body := cs.takeWhile (· != '\'')
  match cs.drop body.length with
  | [] => .error .malformed
  | _ :: rest => if body.any isControl then .error .malformed else .ok (String.ofList body, rest)

/-- Text of several lines between three apostrophes: what precedes the next three of them. -/
def literalLines : List Char → Front (List Char)
  | '\'' :: '\'' :: '\'' :: rest => .ok ([], rest)
  | [] => .error .malformed
  | c :: rest =>
    if isControlInLines c then .error .malformed
    else (literalLines rest).map fun (body, rest') => (c :: body, rest')

/-- A character given by the digits of its code. -/
def codedChar (count : Nat) (cs : List Char) : Front Char :=
  let digits := (cs.take count).filterMap Text.hexDigit?
  let code := digits.foldl (fun n d => 16 * n + d) 0
  if digits.length = count ∧ code.isValidChar then .ok (Char.ofNat code, cs.drop count)
  else .error .malformed

/-- The character that a letter behind a backslash stands for. -/
def escape? : Char → Option Char
  | 'b' => some '\x08'
  | 't' => some '\t'
  | 'n' => some '\n'
  | 'f' => some '\x0c'
  | 'r' => some '\r'
  | '"' => some '"'
  | '\\' => some '\\'
  | _ => none

/-- What a backslash stands for, from behind it. -/
def escaped (cs : List Char) : Front (List Char) :=
  match cs with
  | 'u' :: rest => (codedChar 4 rest).map fun (c, r) => ([c], r)
  | 'U' :: rest => (codedChar 8 rest).map fun (c, r) => ([c], r)
  | c :: rest =>
    match escape? c with
    | some d => .ok ([d], rest)
    | none => .error .malformed
  | [] => .error .malformed

/-- What a backslash at the end of a line stands for, from behind it: the gap up to the next text
is left out. -/
def joinedLines (cs : List Char) : Front (List Char) :=
  match skipSpace cs with
  | [] => .ok ([], [])
  | '\n' :: rest => .ok ([], rest.dropWhile isSpaceOrLine)
  | _ => .error .malformed

/-- Text between quotes, from behind the first of them; `done` is what has been read, reversed, and
the first number is above the length of the rest. -/
def quotedText (lines : Bool) :
    Nat → List Char → List Char → Except Fault (List Char × List Char)
  | 0, _, _ => .error .malformed
  | _ + 1, _, [] => .error .malformed
  | n + 1, done, '"' :: rest =>
    if lines then
      match rest with
      | '"' :: '"' :: rest' => .ok (done.reverse, rest')
      | _ => quotedText lines n ('"' :: done) rest
    else .ok (done.reverse, rest)
  | n + 1, done, '\\' :: rest => do
    let gap := lines && (rest.head?.map isSpaceOrLine).getD false
    let (cs, rest') ← if gap then joinedLines rest else escaped rest
    quotedText lines n (cs.reverse ++ done) rest'
  | n + 1, done, c :: rest =>
    if isControl c && !(lines && c == '\n') then .error .malformed
    else quotedText lines n (c :: done) rest

/-- Text of several lines may end in up to two marks of the kind that closes it. -/
def closingMarks (mark : Char) (body rest : List Char) : List Char × List Char :=
  match rest with
  | a :: b :: rest' =>
    if a = mark ∧ b = mark then (body ++ [mark, mark], rest')
    else if a = mark then (body ++ [mark], b :: rest')
    else (body, rest)
  | [a] => if a = mark then (body ++ [mark], []) else (body, rest)
  | [] => (body, [])

/-- Without the end of a line in front. -/
def withoutLine : List Char → List Char
  | '\n' :: rest => rest
  | cs => cs

/-- **A text in front**, if a quote or an apostrophe is. The number is above the length of all. -/
def text? (bound : Nat) : List Char → Option (Except Fault (String × List Char))
  | '"' :: '"' :: '"' :: rest => some do
    let (body, rest) ← quotedText true bound [] (withoutLine rest)
    let (body, rest) := closingMarks '"' body rest
    .ok (String.ofList body, rest)
  | '"' :: rest => some do
    let (body, rest) ← quotedText false bound [] rest
    .ok (String.ofList body, rest)
  | '\'' :: '\'' :: '\'' :: rest => some do
    let (body, rest) ← literalLines (withoutLine rest)
    let (body, rest) := closingMarks '\'' body rest
    .ok (String.ofList body, rest)
  | '\'' :: rest => some (literalText rest)
  | _ => none

/-! ## Numbers -/

/-- The digits in front that pass a test, with single underscores between them. -/
def digitsFrom (isDigit : Char → Bool) : List Char → List Char × List Char
  | '_' :: c :: rest =>
    if isDigit c then
      let (ds, r) := digitsFrom isDigit rest
      (c :: ds, r)
    else ([], '_' :: c :: rest)
  | c :: rest =>
    if isDigit c then
      let (ds, r) := digitsFrom isDigit rest
      (c :: ds, r)
    else ([], c :: rest)
  | [] => ([], [])

/-- The digits in front, if a digit comes first. -/
def digits? (isDigit : Char → Bool) (cs : List Char) : Option (List Char × List Char) :=
  if (cs.head?.map isDigit).getD false then some (digitsFrom isDigit cs) else none

/-- The value of some digits in a base. -/
def valueOf (base : Nat) (ds : List Char) : Nat :=
  ds.foldl (fun n d => base * n + (Text.hexDigit? d).getD 0) 0

/-- A whole number in another base: a zero and a letter stand in front. -/
def basedNumber? : List Char → Option (Nat × List Char)
  | '0' :: 'x' :: rest => (digits? Text.isHexDigit rest).map fun (ds, r) => (valueOf 16 ds, r)
  | '0' :: 'b' :: rest =>
    (digits? (fun c => c == '0' || c == '1') rest).map fun (ds, r) => (valueOf 2 ds, r)
  | '0' :: 'o' :: rest =>
    (digits? (fun c => '0' ≤ c && c ≤ '7') rest).map fun (ds, r) => (valueOf 8 ds, r)
  | _ => none

/-- A sign in front: is it a minus, and what follows? -/
def sign : List Char → Bool × List Char
  | '-' :: rest => (true, rest)
  | '+' :: rest => (false, rest)
  | cs => (false, cs)

/-- The digits before a point: a zero alone, or digits that begin with another one. -/
def wholeDigits? : List Char → Option (List Char × List Char)
  | '0' :: rest => some (['0'], rest)
  | cs => digits? Char.isDigit cs

/-- A fraction in front. -/
def fraction? : List Char → Option (List Char × List Char)
  | '.' :: rest => digits? Char.isDigit rest
  | _ => none

/-- An exponent in front. -/
def exponent? : List Char → Option (Int × List Char)
  | c :: rest =>
    if c = 'e' ∨ c = 'E' then
      let (negative, cs) := sign rest
      (digits? Char.isDigit cs).map fun (ds, r) =>
        (if negative then -(valueOf 10 ds : Int) else valueOf 10 ds, r)
    else none
  | [] => none

/-- The most digits that a decimal whole number may have. -/
def maxDigits : Nat := 4300

/-- **A number in front**, if there is one. -/
def number? (cs : List Char) : Option (Front Toml) :=
  match basedNumber? cs with
  | some (n, rest) => some (.ok (.int n, rest))
  | none =>
    let (negative, cs) := sign cs
    (wholeDigits? cs).map fun (whole, rest) =>
      match fraction? rest, exponent? ((fraction? rest).elim rest (·.2)) with
      | none, none =>
        if maxDigits < whole.length then .error .tooManyDigits
        else
          let n := valueOf 10 whole
          .ok (.int (if negative then -(n : Int) else n), rest)
      | frac, exp =>
        let places := (frac.map (·.1)).getD []
        let after := (exp.map (·.2)).getD ((frac.map (·.2)).getD rest)
        .ok (.float (.ofDecimal negative (valueOf 10 (whole ++ places))
          ((exp.map (·.1)).getD 0 - places.length)), after)

/-- The words for numbers that are not finite. -/
def specialNumber? (cs : List Char) : Option (Toml × List Char) :=
  let (negative, rest) := sign cs
  match rest with
  | 'i' :: 'n' :: 'f' :: r => some (.float (.infinite negative), r)
  | 'n' :: 'a' :: 'n' :: r => some (.float .nan, r)
  | _ => none

/-! ## Dates and times -/

/-- A number of exactly some digits in front, between two bounds. -/
def fixed? (count low high : Nat) (cs : List Char) : Option (Nat × List Char) :=
  let ds := cs.take count
  let n := valueOf 10 ds
  if ds.length = count ∧ ds.all Char.isDigit ∧ low ≤ n ∧ n ≤ high then some (n, cs.drop count)
  else none

/-- What follows a character in front. -/
def after? (c : Char) : List Char → Option (List Char)
  | d :: rest => if c = d then some rest else none
  | [] => none

/-- The microseconds behind a time: six digits of the fraction count. -/
def micros (cs : List Char) : Nat × List Char :=
  match cs with
  | '.' :: rest =>
    let ds := rest.takeWhile Char.isDigit
    if ds.isEmpty then (0, cs)
    else
      let six := ds.take 6
      (valueOf 10 (six ++ List.replicate (6 - six.length) '0'), rest.drop ds.length)
  | _ => (0, cs)

/-- **A time in front**, if there is one. -/
def time? (cs : List Char) : Option (DayTime × List Char) := do
  let (hour, cs) ← fixed? 2 0 23 cs
  let (minute, cs) ← (after? ':' cs).bind (fixed? 2 0 59)
  let (second, cs) ← (after? ':' cs).bind (fixed? 2 0 59)
  let (micros, cs) := micros cs
  pure (⟨hour, minute, second, micros⟩, cs)

/-- A date in front, if there is one; it may be no day of the calendar. -/
def date? (cs : List Char) : Option (CalendarDate × List Char) := do
  let (year, cs) ← fixed? 4 0 9999 cs
  let (month, cs) ← (after? '-' cs).bind (fixed? 2 1 12)
  let (day, cs) ← (after? '-' cs).bind (fixed? 2 1 31)
  pure (⟨year, month, day⟩, cs)

/-- The offset of a moment in front, if there is one, in minutes. -/
def offset? (cs : List Char) : Option Int × List Char :=
  match cs with
  | 'Z' :: rest | 'z' :: rest => (some 0, rest)
  | c :: rest =>
    if c = '+' ∨ c = '-' then
      let found := do
        let (hours, r) ← fixed? 2 0 23 rest
        let (minutes, r) ← (after? ':' r).bind (fixed? 2 0 59)
        pure ((60 * hours + minutes : Nat), r)
      match found with
      | some (n, r) => (some (if c = '-' then -(n : Int) else n), r)
      | none => (none, cs)
    else (none, cs)
  | [] => (none, [])

/-- The time of a moment, behind its date. -/
def timeOfMoment? : List Char → Option (DayTime × List Char)
  | c :: rest => if c = 'T' ∨ c = 't' ∨ c = ' ' then time? rest else none
  | [] => none

/-- **A date, a moment or a time in front**, if there is one. -/
def calendar? (cs : List Char) : Option (Front Toml) :=
  match date? cs with
  | some (d, rest) =>
    let (value, rest) := match timeOfMoment? rest with
      | some (t, rest) =>
        let (offset, rest) := offset? rest
        (Toml.moment d t offset, rest)
      | none => (.date d, rest)
    some (if d.isValid then .ok (value, rest) else .error .malformed)
  | none => (time? cs).map fun (t, rest) => .ok (.time t, rest)

end Toml
end Conventions
