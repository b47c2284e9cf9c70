/-!
# Text/Blank — blanks, stripping and words

The blanks are the white-space characters together with the four ASCII separators.
-/

namespace Conventions.Text

/-- Is `c` a blank? -/
def isBlank (c : Char) : Bool :=
  let n := c.toNat
  (9 ≤ n && n ≤ 13) || (28 ≤ n && n ≤ 32) || n == 0x85 || n == 0xA0 || n == 0x1680
    || (0x2000 ≤ n && n ≤ 0x200A) || n == 0x2028 || n == 0x2029 || n == 0x202F || n == 0x205F
    || n == 0x3000

/-- Every white-space character of the core library is a blank. -/
theorem isBlank_of_isWhitespace (c : Char) (h : c.isWhitespace = true) : isBlank c = true := by
  simp only [Char.isWhitespace, Bool.or_eq_true, decide_eq_true_eq] at h
  rcases h with ((h | h) | h) | h <;> subst h <;> decide

/-- Drop the blanks in front. -/
def stripStart (cs : List Char) : List Char := cs.dropWhile isBlank

/-- Drop the blanks on both sides. -/
def stripChars (cs : List Char) : List Char :=
  (stripStart (stripStart cs).reverse).reverse

/-- **The text without the blanks on both sides.** -/
def strip (s : String) : String := String.ofList (stripChars s.toList)

/-- The maximal runs of characters that are not blanks; `word` is the run being read, reversed. -/
def wordsFrom (word : List Char) : List Char → List (List Char)
  | [] => if word = [] then [] else [word.reverse]
  | c :: rest =>
    if isBlank c then
      if word = [] then wordsFrom [] rest else word.reverse :: wordsFrom [] rest
    else wordsFrom (c :: word) rest

/-- **The words of a text**: its maximal runs without blanks. -/
def words (cs : List Char) : List (List Char) := wordsFrom [] cs

/-- The words with one space between them. -/
def collapse (cs : List Char) : List Char := [' '].intercalate (words cs)

/-- Is `c` an end of a line: one of the ASCII ones, the four separators, or the Unicode ones? -/
def isLineEnd (c : Char) : Bool :=
  let n := c.toNat
  (10 ≤ n && n ≤ 13) || (28 ≤ n && n ≤ 30) || n == 0x85 || n == 0x2028 || n == 0x2029

/-- The lines from here on; `line` is the one being read, reversed. A carriage return and a line
feed end one line together. -/
def linesFrom (line : List Char) : List Char → List (List Char)
  | [] => if line = [] then [] else [line.reverse]
  | '\r' :: '\n' :: rest => line.reverse :: linesFrom [] rest
  | c :: rest => if isLineEnd c then line.reverse :: linesFrom [] rest else linesFrom (c :: line) rest

/-- **The lines of a text**, without their ends. -/
def lines (s : String) : List String := (linesFrom [] s.toList).map String.ofList

/-- Every end of a line from here on is written as a line feed; `done` is what precedes, reversed. -/
def unifyFrom (done : List Char) : List Char → List Char
  | [] => done.reverse
  | '\r' :: '\n' :: rest => unifyFrom ('\n' :: done) rest
  | c :: rest => unifyFrom ((if c = '\r' then '\n' else c) :: done) rest

/-- Every end of a line is written as a line feed. -/
def unifyNewlines (cs : List Char) : List Char := unifyFrom [] cs

end Conventions.Text
