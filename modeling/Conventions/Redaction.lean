import Conventions.Text.Pattern
import Conventions.Text.Word
import Conventions.Json.Basic

/-!
# Redaction — what is kept out of excerpts and public answers

Excerpts lose secrets: the values of secret settings, tokens and long opaque literals. Public
answers lose paths and network addresses. What is taken out is replaced by `[redacted]`.
-/

namespace Conventions
namespace Redaction

open Text (Pattern Place)
open Text.Pattern (char oneOf all first word anyCase)

/-- What stands in place of what was taken out. -/
def placeholder : String := "[redacted]"

/-! ## Secrets in excerpts -/

def isQuote (c : Char) : Bool := c == '\'' || c == '"' || c == '\x60'

/-- The characters of tokens. -/
def isTokenChar (c : Char) : Bool := c.isAlphanum || c == '_' || c == '-'

/-- The characters of long opaque literals. -/
def isOpaqueChar (c : Char) : Bool := c.isAlphanum || "+/_=-".toList.contains c

/-- A hyphen or an underscore, or nothing. -/
def joint : Pattern := .optional (oneOf ['_', '-'])

/-- The name of a secret setting, in any case. -/
def secretName : Pattern :=
  first [anyCase "password", anyCase "passwd", anyCase "secret",
    all [anyCase "api", joint, anyCase "key"], all [anyCase "private", joint, anyCase "key"]]

/-- The name of a secret setting and the sign after it, with blanks around the sign. -/
def secretHead : Pattern :=
  all [secretName, .atLeast (.class Text.isBlank) 0, oneOf [':', '='],
    .atLeast (.class Text.isBlank) 0]

/-- A quoted value: some characters that are no quotes, between two equal quotes. -/
def quotedValue : Pattern :=
  first (['\'', '"', '\x60'].map fun q =>
    all [char q, .atLeast (.class fun c => !isQuote c) 1, char q])

/-- A secret setting with its quoted value. -/
def secretAssignment : Pattern := .seq secretHead quotedValue

/-- What was matched between two places. -/
def matched (p q : Place) : List Char := p.rest.take (p.rest.length - q.rest.length)

/-- A setting with its value taken out. The value ends with the quote that it begins with, and
nothing before it is a quote. -/
def hideValue (p q : Place) : List Char :=
  let text := matched p q
  let head := text.takeWhile fun c => !isQuote c
  match text.drop head.length with
  | quote :: _ => head ++ quote :: placeholder.toList ++ [quote]
  | [] => text

/-- Signed tokens, keys that begin with the mark of their vendor, and long opaque literals. -/
def secretToken : Pattern :=
  let part : Pattern := .atLeast (.class isTokenChar) 8
  first
    [all [word "eyJ", part, char '.', part, char '.', part],
      all [first [word "sk", word "pk", word "rk", word "ghp", word "gho",
          all [word "xox", oneOf ['a', 'b', 'p']]],
        oneOf ['_', '-'], .atLeast (.class isTokenChar) 12],
      all [.after isQuote, .atLeast (.class isOpaqueChar) 32, .ahead isQuote]]

/-- **An excerpt without its secrets.** -/
def secrets (excerpt : String) : String :=
  secretToken.replaceAll placeholder
    (String.ofList (secretAssignment.rewriteFrom hideValue ⟨none, excerpt.toList⟩))

/-! ## Paths and addresses in public answers -/

/-- A letter of any case, with those that fold to one. -/
def isAnyLetter (c : Char) : Bool :=
  c.isAlpha || c == 'İ' || c == 'ı' || c == 'ſ' || c == '\u212A'

/-- Beginnings of paths. -/
def rawPath : Pattern :=
  first [all [.class isAnyLetter, char ':', char '\\', char '\\'], anyCase "/home/",
    anyCase "/root/", anyCase "/users/", anyCase "/tmp/", anyCase "/var/", word "./", word ".."]

/-- An address of the network, in any of three spellings. -/
def networkAddress : Pattern :=
  let digits : Pattern := .times (.class Text.isDecimalDigit) 1 2
  let group : Pattern := .times (.class Text.isHexDigit) 1 3
  let octet : Pattern := .times (.class Text.isHexDigit) 2 0
  first
    [all [.wordEdge, .times (.seq digits (char '.')) 3 0, digits, .wordEdge],
      all [.wordEdge, group, .times (.seq (char ':') group) 2 5, .wordEdge],
      all [.wordEdge, .times (.seq octet (oneOf [':', '-'])) 5 0, octet, .wordEdge]]

/-- **Text without network addresses.** -/
def identifiers (s : String) : String := networkAddress.replaceAll placeholder s

/-- **Text without paths and network addresses.** -/
def scrub (s : String) : String := identifiers (rawPath.replaceAll placeholder s)

/-- An answer with every value written as text and scrubbed. -/
def publicAnswer (members : List (String × Json)) : List (String × String) :=
  members.map fun (key, value) => (key, scrub value.text)

/-- **The document of a public answer.** -/
def publicDocument (members : List (String × Json)) : Json :=
  .obj ((publicAnswer members).map fun (key, value) => (key, .str value))

end Redaction
end Conventions
