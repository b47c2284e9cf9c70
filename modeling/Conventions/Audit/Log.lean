import Conventions.Environment
import Conventions.Files.Path
import Conventions.Files.Tree
import Conventions.Json.Writer

/-!
# Audit/Log — a file of events

The environment says where events go and when the file rolls over. They are appended to the file, one
a line. A file that has reached its size is moved aside before the next line is written. What goes
wrong is never a fault of the one who appends: it is noted, each kind of trouble at most once in a
while.
-/

namespace Conventions

/-! ## Where it goes -/

/-- **The configuration of an audit log.** -/
structure AuditConfig where
  /-- The file; none stands for the place that the program keeps by itself. -/
  file : Option String
  /-- The size from which on the file rolls over; without one it never does. -/
  maxBytes : Option Nat
  /-- The seconds between two warnings about the same operation. -/
  warningInterval : Binary64
  deriving DecidableEq, Repr, Inhabited

namespace AuditConfig

/-- The name of the file. -/
def fileName : String := "audit.jsonl"

/-- The usual size from which on a file rolls over. -/
def standardMaxBytes : Nat := 1000000

/-- The usual seconds between two warnings. -/
def standardInterval : Binary64 := .ofNat 60

/-- The size that a setting gives; zero and less mean none. -/
def maxBytesOf (setting : Option String) : Option Nat :=
  match setting.bind Numeral.whole? with
  | none => some standardMaxBytes
  | some i => if 0 < i then some i.toNat else none

/-- **The configuration under an environment.** -/
def ofEnvironment (env : Environment) : AuditConfig where
  file := ((env.get? "PATTERNSCOUT_AUDIT_DIR").filter (· != "")).map fun directory =>
    Path.join directory fileName
  maxBytes := maxBytesOf (env.filled? "PATTERNSCOUT_AUDIT_MAX_BYTES")
  warningInterval := standardInterval

end AuditConfig

/-! ## The file -/

/-- **What may go wrong** when a line is appended. -/
inductive AuditTrouble where
  | createDirectory
  | rotate
  | write
  deriving DecidableEq, Repr

/-- The words for what was tried. -/
def AuditTrouble.words : AuditTrouble → String
  | .createDirectory => "create directory for"
  | .rotate => "rotate"
  | .write => "write"

/-- **The writer of an audit file**, with the times of its last warnings. -/
structure AuditLog where
  file : List String
  maxBytes : Option Nat
  warningInterval : Binary64
  warned : List (AuditTrouble × Binary64)
  deriving Repr

namespace AuditLog

/-- **The log of a configuration**, in a file that may have to be found otherwise. -/
def ofConfig (c : AuditConfig) (file : List String) : AuditLog :=
  ⟨file, c.maxBytes, c.warningInterval, []⟩

/-- The place of the file that is moved aside. -/
def backup (log : AuditLog) : List String :=
  log.file.dropLast ++ [(log.file.getLast?.getD "") ++ ".1"]

/-- **An event as a line**: its keys are in order. -/
def line (event : List (String × Json)) : String := (Json.sorted (.obj event)).compact ++ "\n"

/-- **Move a full file aside.** A file that is missing, or has room, stays as it is. -/
def rollOver (log : AuditLog) (top : FileNode) : Except PathFault FileNode :=
  match log.maxBytes with
  | none => .ok top
  | some limit =>
    let moved := do
      let size ← top.sizeAt log.file
      if size < limit then .ok top else top.move log.file log.backup
    match moved with
    | .error .missing => .ok top
    | moved => moved

/-- Write a line at the end of the file. -/
def writeLine (log : AuditLog) (top : FileNode) (line : String) (time : Binary64) :
    Except PathFault FileNode :=
  match top.content log.file with
  | .ok (content, _) => top.write log.file (content ++ line.toUTF8) time
  | .error .missing => top.write log.file line.toUTF8 time
  | .error fault => .error fault

/-- **Is a warning due?** Not if one about the same trouble was given less than the interval ago. -/
def isDue (log : AuditLog) (trouble : AuditTrouble) (now : Binary64) : Bool :=
  match log.warned.find? fun w => w.1 == trouble with
  | some (_, last) => !(now.sub last).lt log.warningInterval
  | none => true

/-- Note some trouble: the log and the warning, if one is due. -/
def warn (log : AuditLog) (trouble : AuditTrouble) (now : Binary64) :
    AuditLog × List AuditTrouble :=
  if log.isDue trouble now then
    ({ log with warned := (trouble, now) :: log.warned.filter fun w => w.1 != trouble }, [trouble])
  else (log, [])

/-- **What came of appending a line.** -/
structure Outcome where
  written : Bool
  warnings : List AuditTrouble
  top : FileNode
  log : AuditLog

/-- **Append an event.** -/
def append (log : AuditLog) (top : FileNode) (now : Binary64) (event : List (String × Json)) :
    Outcome :=
  match top.makeDirectories log.file.dropLast with
  | .error _ =>
    let (log, warnings) := log.warn .createDirectory now
    ⟨false, warnings, top, log⟩
  | .ok top =>
    let (top, log, warnings) := match log.rollOver top with
      | .ok top => (top, log, [])
      | .error _ =>
        let (log, warnings) := log.warn .rotate now
        (top, log, warnings)
    match log.writeLine top (line event) now with
    | .ok top => ⟨true, warnings, top, log⟩
    | .error _ =>
      let (log, more) := log.warn .write now
      ⟨false, warnings ++ more, top, log⟩

end AuditLog
end Conventions
