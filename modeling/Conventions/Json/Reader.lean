import Conventions.Json.Basic
import Conventions.Text.Word

/-!
# Json/Reader — reading JSON text

`Json.read` reads one value with blanks around it, and says why it cannot. Besides JSON it knows
`NaN`, `Infinity` and `-Infinity`. Arrays and objects may be nested only so deep, and a whole
number may have only so many digits.
-/

namespace Conventions

/-- **Why a text is not a JSON value.** -/
inductive JsonFault where
  | byteOrderMark
  | expectedValue
  | expectedName
  | expectedColon
  | expectedComma
  | unterminatedString
  | controlCharacter
  | badEscape
  | badUnicodeEscape
  | extraData
  | tooManyDigits
  | tooDeep
  deriving DecidableEq, Repr

namespace JsonFault

/-- Is the text itself at fault, and not a limit on what is read? -/
def isMalformed : JsonFault → Bool
  | .tooManyDigits | .tooDeep => false
  | _ => true

def message : JsonFault → String
  | .byteOrderMark => "Unexpected UTF-8 BOM (decode using utf-8-sig)"
  | .expectedValue => "Expecting value"
  | .expectedName => "Expecting property name enclosed in double quotes"
  | .expectedColon => "Expecting ':' delimiter"
  | .expectedComma => "Expecting ',' delimiter"
  | .unterminatedString => "Unterminated string starting at"
  | .controlCharacter => "Invalid control character at"
  | .badEscape => "Invalid \\escape"
  | .badUnicodeEscape => "Invalid \\uXXXX escape"
  | .extraData => "Extra data"
  | .tooManyDigits => "Exceeds the limit for integer string conversion"
  | .tooDeep => "maximum nesting exceeded"

end JsonFault

namespace Json

/-- The four characters between tokens. -/
def isSpace (c : Char) : Bool := c == ' ' || c == '\t' || c == '\n' || c == '\r'

def skipSpace (cs : List Char) : List Char := cs.dropWhile isSpace

/-! ## Text -/

/-- Four hexadecimal digits. -/
def hex4? : List Char → Option (Nat × List Char)
  | a :: b :: c :: d :: rest => do
    let a ← Text.hexDigit? a
    let b ← Text.hexDigit? b
    let c ← Text.hexDigit? c
    let d ← Text.hexDigit? d
    some (((a * 16 + b) * 16 + c) * 16 + d, rest)
  | _ => none

/-- The character of a code in an escape; half of a surrogate pair is no character of its own. -/
def escapedChar (code : Nat) : Char :=
  if 0xD800 ≤ code ∧ code < 0xE000 then '\uFFFD' else Char.ofNat code

/-- The second half of a surrogate pair, if the text goes on with one. -/
def lowSurrogate (rest : List Char) : Except JsonFault (Option (Nat × List Char)) :=
  match rest with
  | '\\' :: 'u' :: more =>
    -- the pair must be followed by something
    if more.length < 5 then .ok none
    else
      match hex4? more with
      | none => .error .badUnicodeEscape
      | some (code, rest') =>
        .ok (if 0xDC00 ≤ code ∧ code < 0xE000 then some (code, rest') else none)
  | _ => .ok none

/-- A `\u` escape after its two first characters. At least one character has to follow its four
digits. -/
def unicodeEscape (cs : List Char) : Except JsonFault (Char × List Char) :=
  if cs.length < 5 then .error .badUnicodeEscape
  else
    match hex4? cs with
    | none => .error .badUnicodeEscape
    | some (high, rest) =>
      if 0xD800 ≤ high ∧ high < 0xDC00 then do
        match ← lowSurrogate rest with
        | some (low, rest') =>
          .ok (Char.ofNat (0x10000 + (high - 0xD800) * 0x400 + (low - 0xDC00)), rest')
        | none => .ok (escapedChar high, rest)
      else .ok (escapedChar high, rest)

/-- The character that a one-letter escape stands for. -/
def simpleEscape? : Char → Option Char
  | '"' => some '"'
  | '\\' => some '\\'
  | '/' => some '/'
  | 'b' => some '\x08'
  | 'f' => some '\x0C'
  | 'n' => some '\n'
  | 'r' => some '\r'
  | 't' => some '\t'
  | _ => none

/-- The rest of a string after its opening quote; `done` is what was read, reversed. The fuel
bounds the number of characters. -/
def stringBody : Nat → List Char → List Char → Except JsonFault (String × List Char)
  | 0, _, _ => .error .unterminatedString
  | _ + 1, _, [] => .error .unterminatedString
  | _ + 1, done, '"' :: rest => .ok (String.ofList done.reverse, rest)
  | _ + 1, _, ['\\'] => .error .unterminatedString
  | fuel + 1, done, '\\' :: 'u' :: rest => do
    let (c, rest') ← unicodeEscape rest
    stringBody fuel (c :: done) rest'
  | fuel + 1, done, '\\' :: c :: rest =>
    match simpleEscape? c with
    | some e => stringBody fuel (e :: done) rest
    | none => .error .badEscape
  | fuel + 1, done, c :: rest =>
    if c.val < 32 then .error .controlCharacter else stringBody fuel (c :: done) rest

/-! ## Numbers -/

/-- The longest run of digits in front. -/
def digitsOf (cs : List Char) : List Char × List Char :=
  (cs.takeWhile Char.isDigit, cs.dropWhile Char.isDigit)

def digitsValue (ds : List Char) : Nat := ds.foldl (fun n d => n * 10 + (d.toNat - 48)) 0

/-- A fraction after the whole part, if there is one. -/
def fraction? : List Char → Option (List Char × List Char)
  | '.' :: rest =>
    match digitsOf rest with
    | ([], _) => none
    | ds => some ds
  | _ => none

/-- An exponent, if there is one. -/
def exponent? : List Char → Option (Int × List Char)
  | e :: rest =>
    if e = 'e' ∨ e = 'E' then
      let (negative, rest) := match rest with
        | '-' :: r => (true, r)
        | '+' :: r => (false, r)
        | r => (false, r)
      match digitsOf rest with
      | ([], _) => none
      | (ds, rest') => some (if negative then -(digitsValue ds : Int) else digitsValue ds, rest')
    else none
  | [] => none

/-- The whole part of a number: a zero, or digits that start with another one. -/
def wholePart? : List Char → Option (List Char × List Char)
  | '0' :: rest => some (['0'], rest)
  | cs =>
    match digitsOf cs with
    | ([], _) => none
    | ds => some ds

/-- The most digits that a whole number may have. -/
def maxDigits : Nat := 4300

/-- A number: whole unless it has a fraction or an exponent. -/
def number (cs : List Char) : Except JsonFault (Json × List Char) :=
  let (negative, cs) := match cs with
    | '-' :: rest => (true, rest)
    | cs => (false, cs)
  match wholePart? cs with
  | none => .error .expectedValue
  | some (whole, rest) =>
    let (frac, rest₁, isFloat) := match fraction? rest with
      | some (ds, r) => (ds, r, true)
      | none => ([], rest, false)
    let (exp, rest₂, isFloat) := match exponent? rest₁ with
      | some (e, r) => (e, r, true)
      | none => ((0 : Int), rest₁, isFloat)
    let value := digitsValue (whole ++ frac)
    if isFloat then .ok (.float (Binary64.ofDecimal negative value (exp - frac.length)), rest₂)
    else if maxDigits < whole.length then .error .tooManyDigits
    else .ok (.int (if negative then -(value : Int) else value), rest₂)

/-- Is a whole number too long to be read or written? -/
def isLongNumber (i : Int) : Bool := decide (maxDigits < (Nat.toDigits 10 i.natAbs).length)

mutual

/-- Does a value have a whole number that is too long to be read or written? -/
def isLong : Json → Bool
  | .int i => isLongNumber i
  | .arr items => isLongItems items
  | .obj members => isLongMembers members
  | _ => false

def isLongItems : List Json → Bool
  | [] => false
  | x :: rest => isLong x || isLongItems rest

def isLongMembers : List (String × Json) → Bool
  | [] => false
  | (_, v) :: rest => isLong v || isLongMembers rest

end

/-! ## Values -/

/-- A text in front, if it is there. -/
def dropPrefix? (p cs : List Char) : Option (List Char) :=
  if p.isPrefixOf cs then some (cs.drop p.length) else none

/-- A value that is written as one word. -/
def word? (cs : List Char) : Option (Json × List Char) :=
  [("null", .null), ("true", .bool true), ("false", .bool false), ("NaN", .float .nan),
    ("Infinity", .float (.infinite false)), ("-Infinity", .float (.infinite true))].findSome?
      fun (w, v) => (dropPrefix? w.toList cs).map fun rest => (v, rest)

mutual

/-- A value in front. `depth` is how many arrays and objects may still be opened. -/
def value : Nat → Nat → List Char → Except JsonFault (Json × List Char)
  | 0, _, _ => .error .tooDeep
  | _ + 1, _, '"' :: rest => do
    let (s, rest') ← stringBody (rest.length + 1) [] rest
    .ok (.str s, rest')
  | fuel + 1, depth, '[' :: rest =>
    match depth with
    | 0 => .error .tooDeep
    | depth + 1 =>
      match skipSpace rest with
      | ']' :: rest' => .ok (.arr [], rest')
      | cs => elements fuel depth [] cs
  | fuel + 1, depth, '{' :: rest =>
    match depth with
    | 0 => .error .tooDeep
    | depth + 1 =>
      match skipSpace rest with
      | '}' :: rest' => .ok (.obj [], rest')
      | cs => members fuel depth [] cs
  | _ + 1, _, cs =>
    match word? cs with
    | some r => .ok r
    | none => number cs

/-- The items of an array from the next one on; `done` are those read, reversed. -/
def elements : Nat → Nat → List Json → List Char → Except JsonFault (Json × List Char)
  | 0, _, _, _ => .error .tooDeep
  | fuel + 1, depth, done, cs => do
    let (v, rest) ← value fuel depth cs
    match skipSpace rest with
    | ']' :: rest' => .ok (.arr (v :: done).reverse, rest')
    | ',' :: rest' => elements fuel depth (v :: done) (skipSpace rest')
    | _ => .error .expectedComma

/-- The members of an object from the next one on, after those read. -/
def members : Nat → Nat → List (String × Json) → List Char → Except JsonFault (Json × List Char)
  | 0, _, _, _ => .error .tooDeep
  | fuel + 1, depth, done, '"' :: rest => do
    let (key, rest) ← stringBody (rest.length + 1) [] rest
    match skipSpace rest with
    | ':' :: rest =>
      let (v, rest) ← value fuel depth (skipSpace rest)
      let done := insert key v done
      match skipSpace rest with
      | '}' :: rest' => .ok (.obj done, rest')
      | ',' :: rest' => members fuel depth done (skipSpace rest')
      | _ => .error .expectedComma
    | _ => .error .expectedColon
  | _ + 1, _, _, _ => .error .expectedName

end

/-- How deep arrays and objects may be nested. -/
def maxDepth : Nat := 990

/-- **The value that a text spells.** -/
def read (s : String) : Except JsonFault Json :=
  let cs := s.toList
  if cs.head? = some '\uFEFF' then .error .byteOrderMark
  else do
    let (v, rest) ← value (2 * cs.length + 2) maxDepth (skipSpace cs)
    match skipSpace rest with
    | [] => .ok v
    | _ => .error .extraData

end Json
end Conventions
