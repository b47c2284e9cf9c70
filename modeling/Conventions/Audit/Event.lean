import Conventions.Json.Numeric

/-!
# Audit/Event — scans that were cut short

A scan that does not cover a whole project leaves an event with its counts. It names no paths.
-/

namespace Conventions

/-- **Why a scan was cut short.** -/
inductive CapReason where
  | maxFiles
  | scanTimeout
  deriving DecidableEq, Repr

namespace CapReason

def name : CapReason → String
  | .maxFiles => "MAX_FILES"
  | .scanTimeout => "SCAN_TIMEOUT"

def ofName? (s : String) : Option CapReason := [maxFiles, scanTimeout].find? fun r => r.name == s

theorem ofName?_name (r : CapReason) : ofName? r.name = some r := by cases r <;> decide

end CapReason

/-- **How much of a project a scan has covered.** -/
structure CapEvent where
  reason : CapReason
  limits : List (String × Json)
  discovered : Int
  scanned : Int
  skipped : Int
  elapsed : Quantity

namespace CapEvent

/-- The name of the event. -/
def eventName : String := "SCAN_CAP_APPLIED"

/-- The files that were not looked at. -/
def unscanned (e : CapEvent) : Int := max (e.discovered - (e.scanned + e.skipped)) 0

/-- The members of an event as JSON. -/
def members (e : CapEvent) : List (String × Json) :=
  [("event", .str eventName), ("cap_reason", .str e.reason.name), ("limits", .obj e.limits),
    ("files_discovered", .int e.discovered), ("files_scanned", .int e.scanned),
    ("files_skipped", .int e.skipped), ("files_unscanned", .int e.unscanned),
    ("elapsed_seconds", .ofQuantity (e.elapsed.roundTo 3))]

def document (e : CapEvent) : Json := .obj e.members

end CapEvent

/-- **The events of a process**, kept in the order of time, and who writes them down. -/
structure AuditTrail (Writer : Type) where
  events : List CapEvent
  writer : Option Writer

namespace AuditTrail

variable {Writer : Type}

/-- Install a writer, or none. -/
def withWriter (t : AuditTrail Writer) (w : Option Writer) : AuditTrail Writer :=
  { t with writer := w }

/-- **Keep an event, and hand it to the writer** if there is one. Writing changes what is given
along. -/
def record {σ : Type} (write : Writer → CapEvent → σ → σ) (t : AuditTrail Writer) (s : σ)
    (e : CapEvent) : AuditTrail Writer × σ :=
  ({ t with events := t.events ++ [e] }, t.writer.elim s fun w => write w e s)

/-- Forget the events. -/
def clear (t : AuditTrail Writer) : AuditTrail Writer := { t with events := [] }

end AuditTrail
end Conventions
