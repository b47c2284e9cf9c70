import Conventions.Files.Path

/-!
# Files/Glob — patterns for paths

In a glob a star stands for any text, a question mark for one character and a class in brackets for
one of its characters; slashes and line breaks are characters like others. A pattern without these
marks names a file, or a directory with all that lies below it.
-/

namespace Conventions

/-! ## Classes -/

/-- **A class of characters** in a glob: runs of characters, with a range from the last character
of each run to the first of the next. A class may be negated. -/
structure GlobClass where
  negated : Bool
  runs : List (List Char)
  deriving DecidableEq, Repr

namespace GlobClass

/-- The runs between the hyphens that make ranges. A hyphen makes a range only behind `wait` other
characters: one at the start, and two behind another range, whose end is not the start of the
next. -/
def splitRuns : Nat → List Char → List (List Char)
  | _, [] => [[]]
  | wait, c :: rest =>
    if wait = 0 ∧ c = '-' then [] :: splitRuns 2 rest
    else
      match splitRuns (wait - 1) rest with
      | run :: runs => (c :: run) :: runs
      | [] => [[c]]

/-- A hyphen at the end makes no range: it belongs to the run before it. -/
def closeRuns : List (List Char) → List (List Char)
  | [] => []
  | [run, []] => [run ++ ['-']]
  | run :: rest => run :: closeRuns rest

/-- Does the range between two runs hold no character? -/
def emptyRange (run next : List Char) : Bool :=
  match run.getLast?, next.head? with
  | some low, some high => decide (high < low)
  | _, _ => false

/-- Runs with an empty range between them are one run, without the two ends of the range. -/
def joinRuns : List (List Char) → List (List Char)
  | [] => []
  | run :: rest =>
    match joinRuns rest with
    | next :: others =>
      if emptyRange run next then (run.dropLast ++ next.tail) :: others else run :: next :: others
    | [] => [run]

/-- **The class written by the text between brackets.** An exclamation mark in front negates. -/
def ofText (text : List Char) : GlobClass :=
  let wait := if text.head? = some '!' then 2 else 1
  match joinRuns (closeRuns (splitRuns wait text)) with
  | ('!' :: run) :: rest => ⟨true, run :: rest⟩
  | runs => ⟨false, runs⟩

/-- Is a character in a range between two runs? Behind no character, the hyphen stands for
itself. -/
def inRange : List (List Char) → Char → Bool
  | run :: next :: rest, c =>
    (match run.getLast?, next.head? with
      | some low, some high => decide (low ≤ c ∧ c ≤ high)
      | none, _ => c == '-'
      | _, none => false) || inRange (next :: rest) c
  | _, _ => false

/-- **Is a character in the class?** -/
def holds (k : GlobClass) (c : Char) : Bool :=
  (k.runs.any (·.contains c) || inRange k.runs c) != k.negated

end GlobClass

/-! ## Globs -/

/-- A part of a glob. -/
inductive GlobItem where
  | char (c : Char)
  | one
  | many
  | oneOf (k : GlobClass)
  deriving DecidableEq, Repr

namespace Glob

/-- The text of a class, from behind its opening bracket, and what follows it; a closing bracket in
front is a character of the class. -/
def classText? (cs : List Char) : Option (List Char × List Char) :=
  let front := if cs.head? = some '!' then 1 else 0
  let front := if (cs.drop front).head? = some ']' then front + 1 else front
  let rest := cs.drop front
  match rest.dropWhile (· != ']') with
  | [] => none
  | _ :: after => some (cs.take front ++ rest.takeWhile (· != ']'), after)

theorem length_dropWhile_le (p : Char → Bool) (cs : List Char) :
    (cs.dropWhile p).length ≤ cs.length := by
  induction cs with
  | nil => simp
  | cons c rest ih =>
    simp only [List.dropWhile_cons]
    split
    · exact Nat.le_succ_of_le ih
    · simp

theorem length_of_classText? {cs text after : List Char} (h : classText? cs = some (text, after)) :
    after.length < cs.length := by
  simp only [classText?] at h
  split at h
  · simp at h
  · rename_i d tail hd
    have ht : tail = after := by simpa using (Prod.mk.inj (Option.some.inj h)).2
    have := length_dropWhile_le (· != ']')
      (cs.drop (if (cs.drop (if cs.head? = some '!' then 1 else 0)).head? = some ']' then
        (if cs.head? = some '!' then 1 else 0) + 1 else if cs.head? = some '!' then 1 else 0))
    rw [hd, List.length_cons, List.length_drop, ht] at this
    omega

/-- **The parts of a glob.** A bracket that is never closed stands for itself. -/
def items : List Char → List GlobItem
  | [] => []
  | '*' :: rest => .many :: items rest
  | '?' :: rest => .one :: items rest
  | '[' :: rest =>
    match h : classText? rest with
    | some (text, after) =>
      have : after.length < rest.length := length_of_classText? h
      .oneOf (.ofText text) :: items after
    | none => .char '[' :: items rest
  | c :: rest => .char c :: items rest
  termination_by cs => cs.length

/-- The text, and every text that is left of it when characters are taken from its front. -/
def suffixes : List Char → List (List Char)
  | [] => [[]]
  | c :: rest => (c :: rest) :: suffixes rest

/-- Does the text begin with a character that passes a test, and the rest go on as it should? -/
def headed (test : Char → Bool) (tail : List Char → Bool) : List Char → Bool
  | c :: rest => test c && tail rest
  | [] => false

/-- **Do the parts of a glob stand for a text?** -/
def standsFor : List GlobItem → List Char → Bool
  | [], text => text.isEmpty
  | .char c :: rest, text => headed (· == c) (standsFor rest) text
  | .one :: rest, text => headed (fun _ => true) (standsFor rest) text
  | .oneOf k :: rest, text => headed k.holds (standsFor rest) text
  | .many :: rest, text => (suffixes text).any (standsFor rest)

/-! ## Patterns for paths -/

/-- Is a character one of the marks of a glob? -/
def isMark (c : Char) : Bool := c == '*' || c == '?' || c == '['

/-- A text without the slashes at its end. -/
def withoutSlashes (cs : List Char) : List Char := (cs.reverse.dropWhile (· == '/')).reverse

/-- A pattern without a point and slash in front. -/
def withoutHere : List Char → List Char
  | '.' :: '/' :: rest => rest
  | cs => cs

/-- Does a path lie at or below a place, both given by their characters? -/
def atOrBelow (place path : List Char) : Bool := path == place || (place ++ ['/']).isPrefixOf path

/-- **Does a pattern cover a path?** A glob covers the paths that it stands for, and those whose
last name it stands for; any other pattern covers the place that it names and what lies below. -/
def covers (pattern path : String) : Bool :=
  let cs := withoutHere pattern.toList
  if cs.any isMark then
    standsFor (items cs) path.toList || standsFor (items cs) (Path.lastName path).toList
  else atOrBelow (withoutSlashes cs) path.toList

end Glob
end Conventions
