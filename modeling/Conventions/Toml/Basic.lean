import Conventions.Number.Shortest

/-!
# Toml/Basic — TOML values, and a document while it is read

A TOML document is a table. Apart from tables and arrays its values are text, numbers, truth values,
dates and times, and `Toml.spelled?` spells those.

Tables of a document may be opened in several places until they have been declared; values are never
touched again. `Draft.edit` goes along a key and changes what it leads to.
-/

namespace Conventions

/-- **A day of the calendar.** -/
structure CalendarDate where
  year : Nat
  month : Nat
  day : Nat
  deriving DecidableEq, Repr

/-- **A time of a day**, to the microsecond. -/
structure DayTime where
  hour : Nat
  minute : Nat
  second : Nat
  micros : Nat
  deriving DecidableEq, Repr

/-- **A TOML value.** The offset of a moment is given in minutes. -/
inductive Toml where
  | str (s : String)
  | int (i : Int)
  | float (x : Binary64)
  | bool (b : Bool)
  | date (d : CalendarDate)
  | time (t : DayTime)
  | moment (d : CalendarDate) (t : DayTime) (offset : Option Int)
  | arr (items : List Toml)
  | table (members : List (String × Toml))
  deriving Inhabited

/-- A number with zeros in front, up to some places. -/
def zeroPadded (places n : Nat) : String :=
  let digits := toString n
  String.ofList (List.replicate (places - digits.length) '0') ++ digits

namespace CalendarDate

def isLeap (year : Nat) : Bool := (year % 4 == 0 && year % 100 != 0) || year % 400 == 0

/-- The days of a month. -/
def daysIn (year month : Nat) : Nat :=
  if month = 2 then (if isLeap year then 29 else 28)
  else if month = 4 ∨ month = 6 ∨ month = 9 ∨ month = 11 then 30
  else 31

/-- Is this a day of the calendar? Years begin with the year one. -/
def isValid (d : CalendarDate) : Bool :=
  1 ≤ d.year && 1 ≤ d.month && d.month ≤ 12 && 1 ≤ d.day && d.day ≤ daysIn d.year d.month

def text (d : CalendarDate) : String :=
  zeroPadded 4 d.year ++ "-" ++ zeroPadded 2 d.month ++ "-" ++ zeroPadded 2 d.day

end CalendarDate

/-- A time, with its microseconds if there are any. -/
def DayTime.text (t : DayTime) : String :=
  zeroPadded 2 t.hour ++ ":" ++ zeroPadded 2 t.minute ++ ":" ++ zeroPadded 2 t.second
    ++ (if t.micros = 0 then "" else "." ++ zeroPadded 6 t.micros)

namespace Toml

/-- An offset with its sign, in hours and minutes. -/
def offsetText (minutes : Int) : String :=
  (if minutes < 0 then "-" else "+") ++ zeroPadded 2 (minutes.natAbs / 60) ++ ":"
    ++ zeroPadded 2 (minutes.natAbs % 60)

/-- **The text of a value** that is no table and no array. -/
def spelled? : Toml → Option String
  | .str s => some s
  | .int i => some (toString i)
  | .float x => some x.text
  | .bool b => some (if b then "True" else "False")
  | .date d => some d.text
  | .time t => some t.text
  | .moment d t offset => some (d.text ++ " " ++ t.text ++ (offset.map offsetText).getD "")
  | .arr _ | .table _ => none

/-- The value of a key in a table. -/
def get? (key : String) : Toml → Option Toml
  | .table members => (members.find? fun m => m.1 == key).map (·.2)
  | _ => none

/-! ## A document while it is read -/

/-- **What a name stands for while a document is read**: a value, a table, or the tables of an
array, of which the last one is open. -/
inductive Draft where
  | value (v : Toml)
  | table (declared : Bool) (members : List (String × Draft))
  | tables (earlier : List (List (String × Draft))) (last : List (String × Draft))

namespace Draft

/-- The draft of a name. -/
def find? (name : String) (members : List (String × Draft)) : Option Draft :=
  (members.find? fun m => m.1 == name).map (·.2)

/-- The members with a name set: in place if it is there, else at the end. -/
def set (name : String) (d : Draft) : List (String × Draft) → List (String × Draft)
  | [] => [(name, d)]
  | m :: rest => if m.1 = name then (name, d) :: rest else m :: set name d rest

/-- A part of a key on the way to its last name. A part inside a line may not lead through a table
that has been declared elsewhere. -/
structure Step where
  name : String
  inLine : Bool

/-- **Change what a key leads to**, making the tables on the way. -/
def edit (change : Option Draft → Option Draft) (last : String) :
    List Step → List (String × Draft) → Option (List (String × Draft))
  | [], members => (change (find? last members)).map fun d => set last d members
  | step :: rest, members => do
    let next ← match find? step.name members with
      | none => (edit change last rest []).map (.table false)
      | some (.table declared inner) =>
        if step.inLine && declared then none
        else (edit change last rest inner).map (.table declared)
      | some (.tables earlier inner) =>
        if step.inLine then none else (edit change last rest inner).map (.tables earlier)
      | some (.value _) => none
    pure (set step.name next members)

/-- A value is only written where nothing is. -/
def assign (v : Toml) : Option Draft → Option Draft
  | none => some (.value v)
  | some _ => none

/-- A table is declared once. -/
def declare : Option Draft → Option Draft
  | none => some (.table true [])
  | some (.table false members) => some (.table true members)
  | some _ => none

/-- One more table of an array of tables. -/
def extend : Option Draft → Option Draft
  | none => some (.tables [] [])
  | some (.tables earlier last) => some (.tables (earlier ++ [last]) [])
  | some _ => none

/-- A table counts as declared. -/
def close : Option Draft → Option Draft
  | some (.table _ members) => some (.table true members)
  | d => d

mutual

/-- **The value that a draft has become.** -/
def finish : Draft → Toml
  | .value v => v
  | .table _ members => .table (finishMembers members)
  | .tables earlier last => .arr (finishTables earlier ++ [.table (finishMembers last)])

def finishMembers : List (String × Draft) → List (String × Toml)
  | [] => []
  | (name, d) :: rest => (name, d.finish) :: finishMembers rest

def finishTables : List (List (String × Draft)) → List Toml
  | [] => []
  | members :: rest => .table (finishMembers members) :: finishTables rest

end

end Draft
end Toml
end Conventions
