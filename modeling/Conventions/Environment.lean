import Conventions.Number.Numeral

/-!
# Environment — settings that come from outside

Settings are texts by name. A setting that is left out, blank or no number gives the default.
-/

namespace Conventions

/-- **The settings of the environment**, by name. -/
abbrev Environment := List (String × String)

namespace Environment

/-- The text of a setting. -/
def get? (env : Environment) (name : String) : Option String :=
  (env.find? fun e => e.1 == name).map (·.2)

/-- The text of a setting that is not blank. -/
def filled? (env : Environment) (name : String) : Option String :=
  (env.get? name).filter fun s => Text.strip s != ""

/-- **A whole number from a setting**, at least `least`; a number above `most` becomes `most`. -/
def whole (env : Environment) (name : String) (default least : Int) (most : Option Int) : Int :=
  match (env.filled? name).bind Numeral.whole? with
  | none => default
  | some i =>
    if i < least then default
    else
      match most with
      | some m => min i m
      | none => i

/-- **A time in seconds from a setting**; zero and less mean none. -/
def seconds? (env : Environment) (name : String) : Option Binary64 :=
  ((env.filled? name).bind Numeral.binary64?).filter fun x => !x.le .zero

end Environment
end Conventions
