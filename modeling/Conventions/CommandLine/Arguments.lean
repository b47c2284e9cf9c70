import Conventions.Text.Word

/-!
# CommandLine/Arguments — the words of a command

A command takes one operand and options. An option is written out or cut short, as long as only one
option begins so, and its value follows it, or an equals sign. A word that is a negative number is
no option, nor is one with a blank that names none; behind two dashes every word is an operand.
-/

namespace Conventions

/-- **An option of a command**: its name with the dashes, whether it takes a value, and which values
it takes. -/
structure OptionForm where
  name : String
  takesValue : Bool
  accepts : String → Bool

/-- **What the words of a command come to**: the operand and the values of the options in their
order, a call for help, or nothing. -/
inductive ArgumentsResult where
  | given (operand : String) (values : List (String × String))
  | help
  | refused
  deriving DecidableEq, Repr

namespace Arguments

/-- The option that asks for help; it has a short name too. -/
def helpForm : OptionForm := ⟨"--help", false, fun _ => false⟩

/-- **What a word may be.** -/
inductive Sign where
  | operand
  | separator
  | option (form : OptionForm) (attached : Option (List Char))
  | unknown

/-- Is a text a negative number? A line break may follow it. -/
def isNegativeNumber (cs : List Char) : Bool :=
  match (if cs.getLast? = some '\n' then cs.dropLast else cs) with
  | '-' :: rest =>
    let behind := rest.dropWhile Text.isDecimalDigit
    match behind with
    | [] => !rest.isEmpty
    | '.' :: decimals => !decimals.isEmpty && decimals.all Text.isDecimalDigit
    | _ => false
  | _ => false

/-- The text before the first equals sign, and the one behind it, if there is a sign. -/
def splitValue (cs : List Char) : List Char × Option (List Char) :=
  match cs.dropWhile (· != '=') with
  | _ :: value => (cs.takeWhile (· != '='), some value)
  | [] => (cs, none)

/-- The options that a word with dashes may mean. -/
def meanings (forms : List OptionForm) (cs : List Char) : List Sign :=
  match cs with
  | '-' :: '-' :: _ =>
    let (name, value) := splitValue cs
    (forms.filter fun f => name.isPrefixOf f.name.toList).map fun f => .option f value
  | '-' :: 'h' :: rest => [.option helpForm (if rest.isEmpty then none else some rest)]
  | _ => []

/-- **What a word is**; nothing is said of one that may mean several options. -/
def sign? (forms : List OptionForm) (word : String) : Option Sign :=
  let cs := word.toList
  let (name, value) := splitValue cs
  if cs.head? ≠ some '-' ∨ cs = ['-'] then some .operand
  else
    match forms.find? fun f => f.name.toList == cs, forms.find? fun f => f.name.toList == name with
    | some f, _ => some (.option f none)
    | none, some f => some (.option f value)
    | none, none =>
      match meanings forms cs with
      | [sign] => some sign
      | [] => if isNegativeNumber cs || cs.contains ' ' then some .operand else some .unknown
      | _ => none

/-- **What the words of a command are.** -/
def signs? (forms : List OptionForm) : List String → Option (List (Sign × String))
  | [] => some []
  | word :: rest =>
    if word = "--" then some ((.separator, word) :: rest.map fun w => (.operand, w))
    else do
      let sign ← sign? forms word
      let signs ← signs? forms rest
      pure ((sign, word) :: signs)

/-- Does a help option with something attached to its short name still ask for help? -/
def helpsWith (attached : Option (List Char)) : Bool :=
  match attached with
  | none => true
  | some cs => !cs.isEmpty && cs.all (· == 'h')

/-- **How far a command has been read**: the operand, whether it was the word before, the values of
options, the last one first, and whether some word has had no place. -/
structure State where
  operand : Option String
  fresh : Bool
  values : List (String × String)
  spoilt : Bool

/-- The state in which reading begins. -/
def State.start : State := ⟨none, false, [], false⟩

/-- The state after an option. -/
def State.withValue (s : State) (name value : String) : State :=
  { s with fresh := false, values := (name, value) :: s.values }

/-- The state after a word that gives nothing; one that has no place spoils the command. -/
def State.pass (s : State) (hasPlace : Bool) : State :=
  { s with fresh := false, spoilt := s.spoilt || !hasPlace }

/-- **Take words one after the other.** A word that has no place spoils the command in the end, one
that an option misses or does not take spoils it at once. Two dashes have a place next to the
operand. -/
def take (s : State) : List (Sign × String) → ArgumentsResult
  | [] =>
    match s.operand with
    | some path => if s.spoilt then .refused else .given path s.values.reverse
    | none => .refused
  | (.operand, word) :: rest =>
    if s.operand.isNone then take { s with operand := some word, fresh := true } rest
    else take (s.pass false) rest
  | (.separator, _) :: rest => take (s.pass (s.operand.isNone || s.fresh)) rest
  | (.unknown, _) :: rest => take (s.pass false) rest
  | (.option form attached, _) :: rest =>
    if form.name = helpForm.name then (if helpsWith attached then .help else .refused)
    else
      match attached with
      | some cs =>
        let value := String.ofList cs
        if form.takesValue && form.accepts value then take (s.withValue form.name value) rest
        else .refused
      | none =>
        if form.takesValue then
          match rest with
          | (.operand, value) :: later =>
            if form.accepts value then take (s.withValue form.name value) later else .refused
          | _ => .refused
        else take (s.withValue form.name "") rest

/-- **Read the words of a command** with some options. -/
def read (forms : List OptionForm) (words : List String) : ArgumentsResult :=
  ((signs? (helpForm :: forms) words).map (take .start)).getD .refused

/-- The values of an option, in the order in which they were given. -/
def valuesOf (name : String) (values : List (String × String)) : List String :=
  (values.filter fun v => v.1 == name).map (·.2)

/-- The value of an option that was given last. -/
def lastOf (name : String) (values : List (String × String)) : Option String :=
  (valuesOf name values).getLast?

end Arguments
end Conventions
