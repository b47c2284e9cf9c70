import Conventions.Xml.Basic
import Conventions.Text.CodePage

/-!
# Xml/Declaration — the first line of a document

The declaration at the very start of a document gives a version and may give an encoding. What
follows it is read in that encoding.
-/

namespace Conventions
namespace Xml

/-- **The declaration** of a document. -/
structure Declaration where
  encoding : Option String
  standalone : Bool
  deriving DecidableEq, Repr

/-- May a character stand in a value of the declaration? -/
def isDeclarationChar (c : Char) : Bool := c.isAlphanum || c == '.' || c == '-' || c == '_'

/-- The pairs of names and values in the declaration, each behind white space. -/
def declarationPairs : Nat → List Char → Option (List (String × String))
  | 0, _ => none
  | n + 1, cs =>
    let body := skipSpace cs
    if body.isEmpty then some []
    else if body.length = cs.length then none
    else
      let name := body.takeWhile fun c => !isSpace c && c != '='
      match skipSpace (body.drop name.length) with
      | '=' :: rest =>
        match skipSpace rest with
        | quote :: rest =>
          let value := rest.takeWhile isDeclarationChar
          match rest.drop value.length with
          | close :: rest =>
            if (quote = '"' ∨ quote = '\'') ∧ close = quote ∧ !name.isEmpty then
              (declarationPairs n rest).map ((String.ofList name, String.ofList value) :: ·)
            else none
          | [] => none
        | [] => none
      | _ => none

/-- What the declaration says about being complete in itself. -/
def standalone? : List (String × String) → Option Bool
  | [] => some false
  | [("standalone", "yes")] => some true
  | [("standalone", "no")] => some false
  | _ => none

/-- **The declaration that some pairs make**: a version, then an encoding and a word on being
complete in itself, both of them optional. -/
def declaration? : List (String × String) → Option Declaration
  | ("version", _) :: ("encoding", e) :: rest =>
    if (e.toList.head?.map Char.isAlpha).getD false then
      (standalone? rest).map fun s => ⟨some e, s⟩
    else none
  | ("version", _) :: rest => (standalone? rest).map fun s => ⟨none, s⟩
  | _ => none

/-- The declaration in front, and what follows. A document without one is text in UTF-8. -/
def declared (cs : List Char) : Except Fault (Declaration × List Char) :=
  match after? "<?xml" cs with
  | some rest =>
    if (rest.head?.map isNameChar).getD false then .ok (⟨none, false⟩, cs)
    else do
      let (body, rest) ← need (upTo ['?', '>'] [] rest)
      let d ← need ((declarationPairs (body.length + 1) body).bind declaration?)
      .ok (d, rest)
  | none => .ok (⟨none, false⟩, cs)

/-! ## Encodings -/

/-- The characters of some text when its bytes are read in a code page; bytes that are none are
characters that no document may hold. -/
def inCodePage (p : Text.CodePage) (cs : List Char) : List Char :=
  let upper := p.upper.toList.toArray
  (String.ofList cs).toUTF8.toList.map fun b => (p.decode upper b).getD '\uFFFF'

/-- The characters of some text when its bytes are read as ISO 8859-1. -/
def inLatin1 (cs : List Char) : List Char :=
  (String.ofList cs).toUTF8.toList.map fun b => Char.ofNat b.toNat

/-- **The characters of some text when it is read in an encoding.** The text has been read in UTF-8,
so that an encoding with wider units is wrong. -/
def inEncoding (name : String) (cs : List Char) : Except Fault (List Char) :=
  match String.ofList (name.toList.map Char.toUpper) with
  | "UTF-8" => .ok cs
  | "ISO-8859-1" => .ok (inLatin1 cs)
  | "US-ASCII" => .ok (inCodePage ⟨[], ""⟩ cs)
  | "UTF-16" | "UTF-16BE" | "UTF-16LE" => .error .malformed
  | _ =>
    match Text.CodePage.named name with
    | .page p => .ok (inCodePage p cs)
    | .wide => .error .wideEncoding
    | .foreign => .error .malformed
    | .broken => .error .brokenEncoding
    | .unknown => .error .unknownEncoding

end Xml
end Conventions
