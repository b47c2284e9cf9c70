import Conventions.Xml.Basic

/-!
# Xml/Doctype — the document type

The document type is read into tokens, and the tokens are checked against the grammar of its
declarations. No entity may be declared, apart from those that every document has.
-/

namespace Conventions
namespace Xml

/-- **A token of the document type.** A mark behind a name or a group says how often it occurs. -/
inductive DocToken where
  | opening (keyword : String)
  | closing
  | bracket
  | endBracket
  | group
  | endGroup (mark : Option Char)
  | comma
  | bar
  | percent
  | name (s : String)
  | prefixed (s : String)
  | token (s : String)
  | marked
  | keyword (s : String)
  | literal (body : List Char)
  | parameter
  | aside
  deriving DecidableEq, Repr

namespace DocToken

/-- The characters that may follow a name. -/
def endsName (c : Char) : Bool := isSpace c || [')', '>', ',', '|', '[', '%'].contains c

def isMark (c : Char) : Bool := c == '?' || c == '*' || c == '+'

/-- The token of a run of name characters, colons included. -/
def ofRun (run : List Char) : DocToken :=
  let s := String.ofList run
  match plainName? run with
  | some (_, []) => .name s
  | some (_, ':' :: base) =>
    if base.isEmpty || base.contains ':' then .token s else .prefixed s
  | _ => .token s

/-- A name or a name token in front. -/
def named? (cs : List Char) : Option (DocToken × List Char) :=
  let run := cs.takeWhile fun c => isNameChar c || c == ':'
  match run, ofRun run, cs.drop run.length with
  | _ :: _, t, c :: rest =>
    if endsName c then some (t, c :: rest)
    else if isMark c && !(t matches .token _) then some (.marked, rest)
    else none
  | _, _, _ => none

/-- A literal, from behind its quote. -/
def literal? (quote : Char) (cs : List Char) : Option (DocToken × List Char) := do
  let (body, rest) ← upTo [quote] [] cs
  let next ← rest.head?
  if body.all isDocumentChar && (isSpace next || next == '>' || next == '%' || next == '[') then
    some (.literal body, rest)
  else none

/-- A keyword behind a number sign. -/
def keyword? (cs : List Char) : Option (DocToken × List Char) := do
  let (word, rest) ← plainName? cs
  let next ← rest.head?
  if isSpace next || [')', '>', '%', '|'].contains next then some (.keyword word, rest) else none

/-- The opening of a declaration, from behind its first two characters. -/
def opening? (cs : List Char) : Option (DocToken × List Char) :=
  let isLetter (c : Char) := isNameStart c && c.toNat < 128
  let word := cs.takeWhile isLetter
  match word, cs.drop word.length with
  | _ :: _, '%' :: c :: rest =>
    if isSpace c || c == '%' then none else some (.opening (String.ofList word), '%' :: c :: rest)
  | _ :: _, c :: rest => if isSpace c then some (.opening (String.ofList word), c :: rest) else none
  | _, _ => none

/-- What a percent sign begins. -/
def percent? (cs : List Char) : Option (DocToken × List Char) :=
  match plainName? cs with
  | some (_, ';' :: rest) => some (.parameter, rest)
  | some _ => none
  | none =>
    if (cs.head?.map fun c => isSpace c || c == '%').getD false then some (.percent, cs) else none

/-- The end of a group, from behind its parenthesis. -/
def endGroup? (cs : List Char) : Option (DocToken × List Char) :=
  match cs with
  | c :: rest =>
    if isMark c then some (.endGroup (some c), rest)
    else if isSpace c || ['>', ',', '|', ')'].contains c then some (.endGroup none, c :: rest)
    else none
  | [] => none

/-- **The next token**, without white space. -/
def next? (cs : List Char) : Option (DocToken × List Char) :=
  match skipSpace cs with
  | '<' :: '!' :: '-' :: '-' :: rest => (afterComment? rest).map fun r => (.aside, r)
  | '<' :: '!' :: rest => opening? rest
  | '<' :: '?' :: rest => (afterInstruction? rest).map fun r => (.aside, r)
  | '"' :: rest => literal? '"' rest
  | '\'' :: rest => literal? '\'' rest
  | '%' :: rest => percent? rest
  | '#' :: rest => keyword? rest
  | ',' :: rest => some (.comma, rest)
  | '|' :: rest => some (.bar, rest)
  | '[' :: rest => some (.bracket, rest)
  | ']' :: rest => if [']', '>'].isPrefixOf rest then none else some (.endBracket, rest)
  | '(' :: rest => some (.group, rest)
  | ')' :: rest => endGroup? rest
  | '>' :: rest => some (.closing, rest)
  | rest => named? rest

/-- The tokens up to the end of the document type, and what follows. Brackets hold declarations,
which have ends of their own. -/
def upToEnd : Nat → Bool → List DocToken → List Char → Option (List DocToken × List Char)
  | 0, _, _, _ => none
  | n + 1, inside, done, cs =>
    match next? cs with
    | none => none
    | some (.closing, rest) =>
      if inside then upToEnd n true (.closing :: done) rest else some (done.reverse, rest)
    | some (.bracket, rest) => upToEnd n true (.bracket :: done) rest
    | some (.endBracket, rest) => upToEnd n false (.endBracket :: done) rest
    | some (t, rest) => upToEnd n inside (t :: done) rest

end DocToken

/-! ## Declarations -/

/-- May a public identifier hold a character? -/
def isPublicChar (c : Char) : Bool :=
  c.isAlphanum || c == ' ' || c == '\n' || c == '\r' || "-'()+,./:=?;!*#@$_%".toList.contains c

/-- **An external identifier in front.** The public one may stand alone in a notation. -/
def external? (alone : Bool) : List DocToken → Option (List DocToken)
  | .name "SYSTEM" :: .literal _ :: rest => some rest
  | .name "PUBLIC" :: .literal p :: .literal _ :: rest =>
    if p.all isPublicChar then some rest else none
  | .name "PUBLIC" :: .literal p :: rest =>
    if alone && p.all isPublicChar then some rest else none
  | _ => none

/-- Alternatives that are named, up to the end of their group. -/
def alternatives (isItem : DocToken → Bool) : List DocToken → Option (Option Char × List DocToken)
  | item :: .bar :: rest => if isItem item then alternatives isItem rest else none
  | item :: .endGroup mark :: rest => if isItem item then some (mark, rest) else none
  | _ => none

def isName : DocToken → Bool
  | .name _ | .prefixed _ => true
  | _ => false

def isToken : DocToken → Bool
  | .token _ => true
  | t => isName t

/-- Is this a group of elements, from behind its parenthesis? Every group that is open keeps the mark
between its items; `atItem` says that an item comes next. -/
def isModel : Bool → List (Option DocToken) → List DocToken → Bool
  | true, open_, .group :: rest => isModel true (none :: open_) rest
  | true, open_, t :: rest => (isName t || t == .marked) && isModel false open_ rest
  | false, _ :: open_, .endGroup _ :: rest =>
    if open_.isEmpty then rest.isEmpty else isModel false open_ rest
  | false, mark :: open_, t :: rest =>
    (t == .comma || t == .bar) && (mark.isNone || mark == some t)
      && isModel true (some t :: open_) rest
  | _, _, _ => false

/-- Is this what an element may contain? -/
def isContent : List DocToken → Bool
  | [.name "EMPTY"] | [.name "ANY"] => true
  | [.group, .keyword "PCDATA", .endGroup mark] => mark == none || mark == some '*'
  | .group :: .keyword "PCDATA" :: .bar :: rest => alternatives isName rest == some (some '*', [])
  | .group :: rest => isModel true [none] rest
  | _ => false

/-- The types of attributes that are named by a word. -/
def attributeTypes : List String :=
  ["CDATA", "ID", "IDREF", "IDREFS", "ENTITY", "ENTITIES", "NMTOKEN", "NMTOKENS"]

/-- What follows the type of an attribute. -/
def afterType? : List DocToken → Option (List DocToken)
  | .name "NOTATION" :: .group :: rest =>
    match alternatives (fun t => t matches .name _) rest with
    | some (none, rest) => some rest
    | _ => none
  | .name s :: rest =>
    if attributeTypes.contains s then some rest else none
  | .group :: rest =>
    match alternatives isToken rest with
    | some (none, rest) => some rest
    | _ => none
  | _ => none

/-- Are these the attributes of an element? Values are checked by `isValue`. -/
def areAttributes (isValue : List Char → Bool) : Nat → List DocToken → Bool
  | 0, _ => false
  | _ + 1, [] => true
  | n + 1, name :: rest =>
    isName name &&
      match afterType? rest with
      | some (.keyword "IMPLIED" :: rest) | some (.keyword "REQUIRED" :: rest) =>
        areAttributes isValue n rest
      | some (.keyword "FIXED" :: .literal v :: rest) | some (.literal v :: rest) =>
        isValue v && areAttributes isValue n rest
      | _ => false

/-- Is this the text of an entity? It refers to no parameter. -/
def isEntityText : Nat → List Char → Bool
  | 0, _ => false
  | _ + 1, [] => true
  | n + 1, '&' :: rest =>
    match reference? rest with
    | some (_, rest) => isEntityText n rest
    | none => false
  | _ + 1, '%' :: _ => false
  | n + 1, _ :: rest => isEntityText n rest

/-- **What a document type leaves behind**: do undeclared names count as faults, and do further
declarations count? -/
structure DocState where
  standalone : Bool
  hasParameters : Bool
  keeps : Bool
  deriving DecidableEq, Repr

namespace DocState

/-- May a name that is not known stand in the text of an attribute? -/
def lenient (s : DocState) : Bool := s.hasParameters && !s.standalone

/-- Is the text of an attribute well-formed? -/
def isValue (s : DocState) (v : List Char) : Bool :=
  !s.keeps || (attributeText s.lenient (v.length + 1) [] v).toBool

/-- Is this the declaration of an entity that every document has? Further ones are refused, unless
declarations do not count any more. -/
def allowsEntity (s : DocState) : List DocToken → Bool
  | .percent :: .name _ :: rest =>
    !s.keeps && (rest matches [.literal _] || external? false rest == some [])
  | [.name e, .literal v] =>
    !s.keeps || ((predefined? e).isSome && isEntityText (v.length + 1) v)
  | .name e :: rest =>
    (!s.keeps || (predefined? e).isSome) &&
      match external? false rest with
      | some [] => true
      | some [.name "NDATA", .name _] => true
      | _ => false
  | _ => false

/-- Is this the body of a declaration? -/
def allows (s : DocState) (keyword : String) (body : List DocToken) : Bool :=
  match keyword, body with
  | "ELEMENT", name :: rest => isName name && isContent rest
  | "ATTLIST", name :: rest => isName name && areAttributes s.isValue (rest.length + 1) rest
  | "NOTATION", .name _ :: rest => external? true rest == some []
  | "ENTITY", _ => s.allowsEntity body
  | _, _ => false

/-- The declarations of a document type, up to the bracket that ends them. -/
def declarations : Nat → DocState → List DocToken → Option DocState
  | 0, _, _ => none
  | _ + 1, s, [.endBracket] => some s
  | n + 1, s, .aside :: rest => declarations n s rest
  | n + 1, s, .parameter :: rest =>
    declarations n { s with hasParameters := true, keeps := s.standalone } rest
  | n + 1, s, .opening keyword :: rest =>
    let body := rest.takeWhile (· != .closing)
    if s.allows keyword body then declarations n s (rest.drop (body.length + 1)) else none
  | _ + 1, _, _ => none

end DocState

/-- **A document type in front**, from behind its keyword. -/
def doctype? (standalone : Bool) (cs : List Char) : Option (DocState × List Char) := do
  let (tokens, rest) ← DocToken.upToEnd (cs.length + 1) false [] cs
  match tokens with
  | name :: tokens =>
    if !isName name then none
    else
      let (isExternal, tokens) := match external? false tokens with
        | some tokens => (true, tokens)
        | none => (false, tokens)
      let s : DocState := ⟨standalone, isExternal, true⟩
      match tokens with
      | [] => some (s, rest)
      | .bracket :: tokens => (s.declarations (tokens.length + 1) tokens).map fun s => (s, rest)
      | _ => none
  | [] => none

end Xml
end Conventions
