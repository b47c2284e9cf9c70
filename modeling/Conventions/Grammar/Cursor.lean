import Conventions.Grammar.Semicolon
import Conventions.Syntax.Node

/-!
# Grammar/Cursor — reading a source from left to right

A cursor is a place in a source with the comments met so far. A `Parse` reads something at a cursor
and moves it, or fails and leaves it where it was. Blanks and comments before a token are skipped
when the token is read, so that a cursor stands right after the token read last.
-/

namespace Conventions
namespace Grammar

/-- **A place in a source.** -/
structure Cursor where
  dialect : Dialect
  /-- The number of characters of the source, which bounds every repetition. -/
  size : Nat
  rest : List Char
  /-- The bytes before `rest`. -/
  offset : Nat
  /-- Where the last token ended; a supplied semicolon is a token without length. -/
  stop : Nat
  /-- The comments met so far, the last one first. -/
  comments : List Node

/-- **Reading something at a cursor**, or failing. -/
abbrev Parse := StateT Cursor Option

namespace Cursor

/-- The place after the next `n` characters. -/
def skipChars (n : Nat) (c : Cursor) : Cursor :=
  { c with rest := c.rest.drop n, offset := c.offset + Text.byteLength (c.rest.take n) }

/-- The place after a token of `n` characters. -/
def takeToken (n : Nat) (c : Cursor) : Cursor :=
  let c := c.skipChars n
  { c with stop := c.offset }

/-- The place after the blanks in front. -/
def skipBlanks (c : Cursor) : Cursor := c.skipChars (c.rest.takeWhile isSpace).length

/-- The place after a comment of `n` characters, which is kept. -/
def takeComment (kind : Kind) (n : Nat) (c : Cursor) : Cursor :=
  let next := c.skipChars n
  { next with comments := ⟨kind, none, ⟨c.offset, next.offset⟩, []⟩ :: c.comments }

/-- The place after blanks and one comment, if a comment comes next. -/
def skipComment? (markup : Bool) (c : Cursor) : Option Cursor :=
  let c := c.skipBlanks
  match commentLength? c.rest with
  | some n => some (c.takeComment .comment n)
  | none =>
    if markup then
      (markupCommentLength? c.rest).map fun n => c.takeComment (.other "html_comment") n
    else none

/-- The place after at most `fuel` comments and the blanks around them. -/
def skipGap (markup : Bool) : Nat → Cursor → Cursor
  | 0, c => c.skipBlanks
  | fuel + 1, c =>
    match c.skipComment? markup with
    | some next => skipGap markup fuel next
    | none => c.skipBlanks

/-- **The place of the next token.** -/
def atToken (c : Cursor) : Cursor := c.skipGap false c.size

/-- The place of the next token where an operand or a statement begins; comments in the style of
markup are known there. -/
def atOperand (c : Cursor) : Cursor := c.skipGap true c.size

/-- The place after a supplied semicolon, if one is supplied here or after further comments. -/
def suppliedSemicolon? (p : Position) : Nat → Cursor → Option Cursor
  | 0, _ => none
  | fuel + 1, c =>
    if semicolonAhead c.dialect p c.rest then some { c with stop := c.offset }
    else (c.skipComment? false).bind (suppliedSemicolon? p fuel)

end Cursor

/-! ## Combinators -/

/-- Fail unless the condition holds. -/
def require (condition : Bool) : Parse Unit := fun c => if condition then some ((), c) else none

/-- Would it succeed here? The cursor stays. -/
def ahead {α : Type} (p : Parse α) : Parse Bool := fun c => some ((p c).isSome, c)

/-- What it would read here. The cursor stays. -/
def peek {α : Type} (p : Parse α) : Parse (Option α) := fun c => some ((p c).map (·.1), c)

/-- Read it if it is there. -/
def maybe {α : Type} (p : Parse α) : Parse (Option α) := fun c =>
  match p c with
  | some (a, next) => some (some a, next)
  | none => some (none, c)

/-- Is it there? If so, read it. -/
def skip? {α : Type} (p : Parse α) : Parse Bool := fun c =>
  match p c with
  | some (_, next) => some (true, next)
  | none => some (false, c)

/-- Read it as often as it is there, at most `fuel` times. -/
def repeatUpTo {α : Type} (p : Parse α) : Nat → Parse (List α)
  | 0 => pure []
  | fuel + 1 => fun c =>
    match p c with
    | some (a, next) =>
      if c.offset < next.offset then
        match repeatUpTo p fuel next with
        | some (rest, last) => some (a :: rest, last)
        | none => none
      else some ([], c)
    | none => some ([], c)

/-- **Read it as often as it is there.** -/
def many {α : Type} (p : Parse α) : Parse (List α) := fun c => repeatUpTo p c.size c

/-- Extend something read as long as that is possible, at most `fuel` times. -/
def extendUpTo {α : Type} (step : α → Parse (Option α)) : Nat → α → Parse α
  | 0, a => pure a
  | fuel + 1, a => do
    match ← step a with
    | some next => extendUpTo step fuel next
    | none => pure a

/-- **Extend something read** as long as that is possible. -/
def extend {α : Type} (step : α → Parse (Option α)) (a : α) : Parse α := fun c =>
  extendUpTo step c.size a c

/-- The first of a list that succeeds. -/
def firstOf {α : Type} : List (Parse α) → Parse α
  | [] => failure
  | p :: rest => fun c =>
    match p c with
    | some r => some r
    | none => firstOf rest c

/-! ## Tokens -/

def hasTypes : Parse Bool := fun c => some (c.dialect.hasTypes, c)

def hasMarkup : Parse Bool := fun c => some (c.dialect.hasMarkup, c)

/-- A token whose length at the front of a text is known. -/
def token (length? : List Char → Option Nat) : Parse Unit := fun c =>
  let c := c.atToken
  match length? c.rest with
  | some n => some ((), c.takeToken n)
  | none => none

/-- A token right here, without blanks before it. -/
def tokenHere (length? : List Char → Option Nat) : Parse Unit := fun c =>
  match length? c.rest with
  | some n => some ((), c.takeToken n)
  | none => none

/-- The length of a mark, if it is in front. -/
def markLength? (mark : String) (cs : List Char) : Option Nat :=
  let ms := mark.toList
  if ms.isPrefixOf cs then some ms.length else none

/-- **A mark of punctuation.** -/
def mark (m : String) : Parse Unit := token (markLength? m)

/-- A mark right here, without blanks before it. -/
def markHere (m : String) : Parse Unit := tokenHere (markLength? m)

/-- A mark that is not the beginning of a longer one. -/
def markNot (m : String) (longer : List String) : Parse Unit := token fun cs =>
  if longer.any fun l => l.toList.isPrefixOf cs then none else markLength? m cs

/-- **A word**, with its text. -/
def word : Parse String := fun c =>
  let c := c.atToken
  match nameLength c.rest with
  | 0 => none
  | n => some (String.ofList (c.rest.take n), c.takeToken n)

/-- A given word. -/
def keyword (w : String) : Parse Unit := do
  let found ← word
  require (found == w)

/-- One of some words. -/
def keywordOf (ws : List String) : Parse String := do
  let found ← word
  require (ws.contains found)
  pure found

/-- Is a given word next? -/
def wordAhead (w : String) : Parse Bool := ahead (keyword w)

/-- Is a mark next? -/
def markAhead (m : String) : Parse Bool := ahead (mark m)

/-- **Move to the next token** and say where it starts. -/
def start : Parse Nat := fun c =>
  let c := c.atToken
  some (c.offset, c)

/-- Move to the next operand or statement and say where it starts. -/
def startOperand : Parse Nat := fun c =>
  let c := c.atOperand
  some (c.offset, c)

/-- **The node read since a place**, up to the last token. -/
def node (kind : Kind) (start : Nat) (children : List Node) : Parse Node := fun c =>
  some (⟨kind, none, ⟨start, c.stop⟩, children⟩, c)

/-- A node of a kind that no rule looks at. -/
def otherNode (name : String) (start : Nat) (children : List Node) : Parse Node :=
  node (.other name) start children

/-- A leaf made of one token. -/
def leaf (kind : Kind) (token : Parse Unit) : Parse Node := do
  let s ← start
  token
  node kind s []

/-- Is a semicolon supplied here? The cursor stays. -/
def semicolonSupplied (p : Position) : Parse Bool := fun c =>
  some ((c.suppliedSemicolon? p c.size).isSome, c)

/-- **The end of a statement**: a semicolon, written or supplied. -/
def semicolon (p : Position) : Parse Unit := fun c =>
  match c.suppliedSemicolon? p c.size with
  | some next => some ((), next)
  | none => mark ";" c

/-- A supplied semicolon, if there is one. -/
def optionalSemicolon (p : Position) : Parse Unit := fun c =>
  match c.suppliedSemicolon? p c.size with
  | some next => some ((), next)
  | none => some ((), c)

/-- Right after a complete expression. -/
def afterExpression : Position := ⟨true, false⟩

/-- Where no expression is complete. -/
def afterOther : Position := ⟨false, false⟩

/-- Right after the signature of a function without a body. -/
def afterSignature : Position := ⟨false, true⟩

/-! ## Lists -/

/-- One or more with commas between them. -/
def sepBy1 {α : Type} (p : Parse α) (separator : Parse Unit) : Parse (List α) := do
  let first ← p
  let rest ← many (do separator; p)
  pure (first :: rest)

/-- One or more with commas between them, and perhaps a comma at the end. -/
def commaList {α : Type} (p : Parse α) : Parse (List α) := do
  let items ← sepBy1 p (mark ",")
  let _ ← skip? (mark ",")
  pure items

/-- Any number with commas between them; between two commas nothing need stand. -/
def looseList {α : Type} (p : Parse α) : Parse (List α) := do
  let first ← maybe p
  let rest ← many (do mark ","; maybe p)
  pure ((first :: rest).filterMap id)

end Grammar
end Conventions
