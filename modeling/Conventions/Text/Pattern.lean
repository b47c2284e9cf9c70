import Conventions.Text.Blank
import Conventions.Text.Word

/-!
# Text/Pattern — patterns over text

A pattern is built from character classes, sequence, ordered choice and counted repetition. At a
place in a text it has a list of matches, the preferred one first: the left branch of a choice
before the right one, and one more repetition before stopping. `replaceAll` rewrites the leftmost
matches that do not overlap.
-/

namespace Conventions.Text

/-- A place in a text: the character before it and the characters after it. -/
structure Place where
  before : Option Char
  rest : List Char

/-- **A pattern.** -/
inductive Pattern where
  | class (holds : Char → Bool)
  | seq (p q : Pattern)
  | choice (p q : Pattern)
  /-- The pattern at least `least` times, and `more` times beyond that at most. -/
  | times (p : Pattern) (least more : Nat)
  /-- The pattern at least `least` times, and as often beyond that as the text allows. -/
  | atLeast (p : Pattern) (least : Nat)
  /-- A place between a word character and something else. -/
  | wordEdge
  /-- A place after a character of a class. -/
  | after (holds : Char → Bool)
  /-- A place before a character of a class. -/
  | ahead (holds : Char → Bool)
  | empty

namespace Pattern

/-- Is the place between a word character and something else? -/
def atWordEdge (p : Place) : Bool :=
  let left := (p.before.map isWord).getD false
  let right := (p.rest.head?.map isWord).getD false
  left != right

/-- One match after the other, `least` times. -/
def exactly (step : Place → List Place) : Nat → Place → List Place
  | 0, p => [p]
  | k + 1, p => (step p).flatMap (exactly step k)

/-- Up to `more` further matches, more of them before fewer. A match that does not move on is not
repeated. -/
def upTo (step : Place → List Place) : Nat → Place → List Place
  | 0, p => [p]
  | k + 1, p =>
    ((step p).filter fun q => decide (q.rest.length < p.rest.length)).flatMap (upTo step k) ++ [p]

/-- **The places after the matches of a pattern**, the preferred one first. -/
def ends : Pattern → Place → List Place
  | .empty, p => [p]
  | .class holds, p =>
    match p.rest with
    | c :: rest => if holds c then [⟨some c, rest⟩] else []
    | [] => []
  | .seq a b, p => (a.ends p).flatMap b.ends
  | .choice a b, p => a.ends p ++ b.ends p
  | .times a least more, p => (exactly a.ends least p).flatMap (upTo a.ends more)
  | .atLeast a least, p => (exactly a.ends least p).flatMap fun q => upTo a.ends q.rest.length q
  | .wordEdge, p => if atWordEdge p then [p] else []
  | .after holds, p => if (p.before.map holds).getD false then [p] else []
  | .ahead holds, p => if (p.rest.head?.map holds).getD false then [p] else []

/-- The end of the preferred match at a place. -/
def end? (a : Pattern) (p : Place) : Option Place := (a.ends p).head?

/-- Does the pattern match somewhere from the place on? -/
def foundFrom (a : Pattern) : Option Char → List Char → Bool
  | before, [] => (a.end? ⟨before, []⟩).isSome
  | before, c :: rest => (a.end? ⟨before, c :: rest⟩).isSome || foundFrom a (some c) rest

/-- **Does the pattern match somewhere in the text?** -/
def foundIn (a : Pattern) (s : String) : Bool := a.foundFrom none s.toList

/-- The text from a place on, each leftmost match that moves on rewritten by `rewrite`, which gets
the place of the match and its end. -/
def rewriteFrom (a : Pattern) (rewrite : Place → Place → List Char) : Place → List Char
  | ⟨_, []⟩ => []
  | ⟨before, c :: rest⟩ =>
    match a.end? ⟨before, c :: rest⟩ with
    | some q =>
      if q.rest.length < (c :: rest).length then
        rewrite ⟨before, c :: rest⟩ q ++ rewriteFrom a rewrite q
      else c :: rewriteFrom a rewrite ⟨some c, rest⟩
    | none => c :: rewriteFrom a rewrite ⟨some c, rest⟩
  termination_by p => p.rest.length
  decreasing_by
    · assumption
    · exact Nat.lt_succ_self _
    · exact Nat.lt_succ_self _

/-- **The text with every leftmost match replaced.** -/
def replaceAll (a : Pattern) (by_ : String) (s : String) : String :=
  String.ofList (a.rewriteFrom (fun _ _ => by_.toList) ⟨none, s.toList⟩)

/-! ## Building patterns -/

/-- Exactly one character. -/
def char (c : Char) : Pattern := .class (· == c)

/-- One character of a set. -/
def oneOf (cs : List Char) : Pattern := .class cs.contains

/-- One after the other. -/
def all : List Pattern → Pattern
  | [] => .empty
  | [p] => p
  | p :: rest => .seq p (all rest)

/-- The first of a list that matches is preferred. -/
def first : List Pattern → Pattern
  | [] => .class fun _ => false
  | [p] => p
  | p :: rest => .choice p (first rest)

/-- A word, letter by letter. -/
def word (s : String) : Pattern := all (s.toList.map char)

/-- The letters that are the same letter as a small ASCII letter when case is ignored. -/
def sameLetter (letter c : Char) : Bool :=
  c.toLower == letter
    || (letter == 'i' && (c == 'İ' || c == 'ı'))
    || (letter == 'k' && c == '\u212A')
    || (letter == 's' && c == 'ſ')

/-- A word of small letters, in any case. -/
def anyCase (s : String) : Pattern := all (s.toList.map fun l => .class (sameLetter l))

/-- At most one. -/
def optional (p : Pattern) : Pattern := .times p 0 1

end Pattern
end Conventions.Text
