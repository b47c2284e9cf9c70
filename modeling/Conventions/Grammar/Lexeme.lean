import Conventions.Text.Word

/-!
# Grammar/Lexeme — what one token looks like

Each function looks at the front of a text and answers how many characters belong to a token of its
kind. Blanks, comments and names follow the language's own definition of white space.
-/

namespace Conventions
namespace Grammar

/-! ## Blanks and comments -/

/-- A blank between tokens. -/
def isSpace (c : Char) : Bool :=
  let n := c.toNat
  (9 ≤ n && n ≤ 13) || n == 32 || n == 0xA0 || n == 0x1680 || (0x2000 ≤ n && n ≤ 0x200B)
    || n == 0x2028 || n == 0x2029 || n == 0x202F || n == 0x205F || n == 0x2060 || n == 0x3000
    || n == 0xFEFF

/-- A character that ends a line comment. -/
def endsLine (c : Char) : Bool :=
  c == '\n' || c == '\r' || c == '\u2028' || c == '\u2029'

/-- The length of a block comment after its two first characters, up to and including its end;
`none` if it does not end. -/
def blockLength? : List Char → Option Nat
  | '*' :: '/' :: _ => some 2
  | _ :: rest => (blockLength? rest).map (· + 1)
  | [] => none

/-- **The length of a comment in front.** -/
def commentLength? : List Char → Option Nat
  | '/' :: '/' :: rest => some (2 + (rest.takeWhile fun c => !endsLine c).length)
  | '/' :: '*' :: rest => (blockLength? rest).map (· + 2)
  | _ => none

/-- The length of a comment in the style of markup, which runs to the end of its line. -/
def markupCommentLength? : List Char → Option Nat
  | '<' :: '!' :: '-' :: '-' :: rest =>
    some (4 + (rest.takeWhile fun c => !(c == '\n' || c == '\u2028' || c == '\u2029')).length)
  | '-' :: '-' :: '>' :: rest =>
    some (3 + (rest.takeWhile fun c => !(c == '\n' || c == '\u2028' || c == '\u2029')).length)
  | _ => none

/-! ## Names -/

/-- The ASCII characters that no name holds. -/
def marks : List Char := ":;\x60\"'@#.,|^&<=>+-*/\\%?!~()[]\x7b\x7d".toList

/-- May a name hold the character? -/
def isNameChar (c : Char) : Bool :=
  if c.val < 128 then 32 < c.val && !marks.contains c else !isSpace c

/-- The length of an escape in a name: `\u` and four digits, or digits in braces. -/
def nameEscapeLength? : List Char → Option Nat
  | '\\' :: 'u' :: '{' :: rest =>
    let digits := (rest.takeWhile Text.isHexDigit).length
    if 0 < digits ∧ rest[digits]? = some '}' then some (digits + 4) else none
  | '\\' :: 'u' :: a :: b :: c :: d :: _ =>
    if [a, b, c, d].all Text.isHexDigit then some 6 else none
  | _ => none

/-- The length of the rest of a name; `skip` characters are already known to belong to it. -/
def nameTail : Nat → List Char → Nat
  | _, [] => 0
  | skip + 1, _ :: rest => 1 + nameTail skip rest
  | 0, c :: rest =>
    if isNameChar c then 1 + nameTail 0 rest
    else
      match nameEscapeLength? (c :: rest) with
      | some n => 1 + nameTail (n - 1) rest
      | none => 0

/-- **The length of a name in front**; zero if there is none. -/
def nameLength : List Char → Nat
  | [] => 0
  | c :: rest => if c.isDigit then 0 else nameTail 0 (c :: rest)

/-! ## Numbers -/

/-- The length of further digits, each perhaps after an underscore. -/
def digitTail (ok : Char → Bool) : List Char → Nat
  | '_' :: d :: rest => if ok d then 2 + digitTail ok rest else 0
  | d :: rest => if ok d then 1 + digitTail ok rest else 0
  | [] => 0

/-- The length of digits with single underscores between them. -/
def digitRun (ok : Char → Bool) : List Char → Nat
  | d :: rest => if ok d then 1 + digitTail ok rest else 0
  | [] => 0

/-- The length of an exponent in front; zero if there is none. -/
def exponentLength : List Char → Nat
  | e :: rest =>
    if e = 'e' ∨ e = 'E' then
      let sign := match rest with
        | '+' :: _ | '-' :: _ => 1
        | _ => 0
      match digitRun Char.isDigit (rest.drop sign) with
      | 0 => 0
      | n => 1 + sign + n
    else 0
  | [] => 0

/-- The length of digits after a mark of their base, perhaps with the mark of a big number. -/
def radixLength (ok : Char → Bool) (cs : List Char) : Nat :=
  match digitRun ok cs with
  | 0 => 0
  | n => 2 + n + (if cs[n]? = some 'n' then 1 else 0)

/-- May digits be followed by a fraction or an exponent? Not after two leading zeros. -/
def isIntegerPart : List Char → Bool
  | '0' :: d :: _ => !(d == '0' || d == '_')
  | _ => true

/-- The length of a decimal number in front. -/
def decimalLength (cs : List Char) : Nat :=
  match digitRun Char.isDigit cs with
  | 0 =>
    match cs with
    | '.' :: rest =>
      match digitRun Char.isDigit rest with
      | 0 => 0
      | n => 1 + n + exponentLength (rest.drop n)
    | _ => 0
  | n =>
    let rest := cs.drop n
    if rest.head? = some 'n' then n + 1
    else if isIntegerPart (cs.take n) then
      match rest with
      | '.' :: rest' =>
        let m := digitRun Char.isDigit rest'
        n + 1 + m + exponentLength (rest'.drop m)
      | _ => n + exponentLength rest
    else n

/-- **The length of a number in front**; zero if there is none. -/
def numberLength (cs : List Char) : Nat :=
  let special := match cs with
    | '0' :: x :: rest =>
      if x = 'x' ∨ x = 'X' then radixLength Text.isHexDigit rest
      else if x = 'b' ∨ x = 'B' then radixLength (fun c => c == '0' || c == '1') rest
      else if x = 'o' ∨ x = 'O' then radixLength (fun c => '0' ≤ c && c ≤ '7') rest
      else 0
    | _ => 0
  if special = 0 then decimalLength cs else special

/-! ## Strings, templates and regular expressions -/

/-- The length of an escape in front, its backslash included; `none` if it is none. -/
def escapeLength? : List Char → Option Nat
  | '\\' :: 'u' :: '{' :: rest =>
    let digits := (rest.takeWhile Text.isHexDigit).length
    if 0 < digits ∧ rest[digits]? = some '}' then some (digits + 4) else none
  | '\\' :: 'u' :: rest =>
    if 4 ≤ rest.length ∧ (rest.take 4).all Text.isHexDigit then some 6 else none
  | '\\' :: 'x' :: rest =>
    if 2 ≤ rest.length ∧ (rest.take 2).all Text.isHexDigit then some 4 else none
  | '\\' :: '\r' :: '\n' :: _ => some 3
  | '\\' :: c :: rest =>
    if '0' ≤ c ∧ c ≤ '7' then
      some (2 + ((rest.take 2).takeWhile fun d => '0' ≤ d && d ≤ '7').length)
    else some 2
  | _ => none

/-- The length of the rest of a string up to and including its closing quote; `skip` characters
are already known to belong to it. -/
def stringTail? (quote : Char) : Nat → List Char → Option Nat
  | _, [] => none
  | skip + 1, _ :: rest => (stringTail? quote skip rest).map (· + 1)
  | 0, c :: rest =>
    if c = quote then some 1
    else if c = '\n' ∨ c = '\r' then none
    else if c = '\\' then
      match escapeLength? (c :: rest) with
      | some n => (stringTail? quote (n - 1) rest).map (· + 1)
      | none => none
    else (stringTail? quote 0 rest).map (· + 1)

/-- **The length of a string in front**, its quotes included. -/
def stringLength? : List Char → Option Nat
  | c :: rest => if c = '"' ∨ c = '\'' then (stringTail? c 0 rest).map (· + 1) else none
  | [] => none

/-- The length of the text of a template up to its end or its next substitution. -/
def templateTextLength? : Nat → List Char → Option Nat
  | _, [] => none
  | skip + 1, _ :: rest => (templateTextLength? skip rest).map (· + 1)
  | 0, '$' :: '{' :: _ => some 0
  | 0, c :: rest =>
    if c = '\x60' then some 0
    else if c = '\\' then
      match escapeLength? (c :: rest) with
      | some n => (templateTextLength? (n - 1) rest).map (· + 1)
      | none => none
    else (templateTextLength? 0 rest).map (· + 1)

/-- The length of the rest of a regular expression up to and including its closing slash; inside
a class of characters a slash does not close it. -/
def regexTail? (inClass : Bool) : List Char → Option Nat
  | [] => none
  | ['\\'] => none
  | '\\' :: c :: rest => if c = '\n' then none else (regexTail? inClass rest).map (· + 2)
  | c :: rest =>
    if c = '\n' then none
    else if inClass then (regexTail? (c != ']') rest).map (· + 1)
    else if c = '/' then some 1
    else (regexTail? (c == '[') rest).map (· + 1)

/-- **The length of a regular expression in front**, its flags included. -/
def regexLength? : List Char → Option Nat
  | '/' :: c :: rest =>
    if c = '/' ∨ c = '*' then none
    else
      (regexTail? false (c :: rest)).map fun n =>
        1 + n + (((c :: rest).drop n).takeWhile fun f => 'a' ≤ f && f ≤ 'z').length
  | _ => none

/-! ## Markup -/

/-- The length of a character reference in front, its semicolon included. -/
def referenceLength? : List Char → Option Nat
  | '&' :: '#' :: x :: rest =>
    let (hex, digits) :=
      if x = 'x' ∨ x = 'X' then (true, rest.takeWhile Text.isHexDigit)
      else (false, (x :: rest).takeWhile Char.isDigit)
    let skipped := if hex then 3 else 2
    let most := if hex then 6 else 5
    if 0 < digits.length ∧ digits.length ≤ most
        ∧ (rest.drop (if hex then digits.length else digits.length - 1)).head? = some ';' then
      some (skipped + digits.length + 1)
    else none
  | '&' :: rest =>
    let letters := rest.takeWhile Char.isAlpha
    if 0 < letters.length ∧ letters.length ≤ 30 ∧ rest[letters.length]? = some ';' then
      some (letters.length + 2)
    else none
  | [] => none
  | _ => none

/-- The length of the rest of an attribute's string up to and including its closing quote. An
ampersand before a letter or a number sign has to begin a reference. -/
def attributeTail? (quote : Char) : Nat → List Char → Option Nat
  | _, [] => none
  | skip + 1, _ :: rest => (attributeTail? quote skip rest).map (· + 1)
  | 0, c :: rest =>
    if c = quote then some 1
    else if c = '&' ∧ (rest.head?.map fun d => d == '#' || d.isAlpha).getD false then
      match referenceLength? (c :: rest) with
      | some n => (attributeTail? quote (n - 1) rest).map (· + 1)
      | none => none
    else (attributeTail? quote 0 rest).map (· + 1)

/-- The length of an attribute's string in front, its quotes included. -/
def attributeStringLength? : List Char → Option Nat
  | c :: rest => if c = '"' ∨ c = '\'' then (attributeTail? c 0 rest).map (· + 1) else none
  | [] => none

/-- The length of the text between tags, and whether it holds more than blanks: blanks that follow
a line feed do not count. -/
def markupText (atNewline said : Bool) : List Char → Nat × Bool
  | [] => (0, said)
  | c :: rest =>
    if ['<', '>', '{', '}', '&'].contains c then (0, said)
    else
      let blank := isSpace c
      let atNewline := if c = '\n' then true else atNewline && blank
      let said := said || (c != '\n' && !atNewline)
      let (n, r) := markupText atNewline said rest
      (n + 1, r)

end Grammar
end Conventions
