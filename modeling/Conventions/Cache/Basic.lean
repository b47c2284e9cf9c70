import Conventions.Evidence
import Conventions.Number.Binary64

/-!
# Cache/Basic — extractions that have been made

A cache keeps the extraction of a content of a file under the path and the fingerprint, so that a
changed file is extracted again and one that is changed back is not. Asking is done in two locked
steps: `ask` finds an entry, joins an extraction that is running or starts one, and `complete` or
`abandon` ends the one that was started.
-/

namespace Conventions

/-- **What an entry belongs to**: a content of the file at a path. -/
structure CacheKey where
  path : String
  fingerprint : String
  deriving DecidableEq, Repr

/-- **An extraction that is kept**, with the fingerprint of its content and the time it was made. -/
structure CacheEntry where
  fingerprint : String
  extraction : Extraction
  extractedAt : Binary64
  deriving DecidableEq, Repr

/-- **A cache of extractions.** Extractions that are running have tickets. -/
structure EvidenceCache where
  entries : List (CacheKey × CacheEntry)
  running : List (CacheKey × Nat)
  nextTicket : Nat
  hits : Nat
  misses : Nat
  extractions : Nat
  deriving Repr

/-- **What comes of extracting**: the extraction, an exception, or no end. -/
inductive Attempt where
  | gives (x : Extraction)
  | raises (reason : String)
  | hangs
  deriving DecidableEq, Repr

/-- What one who asked is told: the extraction and whether it was there, the exception, or
nothing. -/
def Attempt.answer (cached : Bool) : Attempt → Option (Except String (Extraction × Bool))
  | .gives x => some (.ok (x, cached))
  | .raises reason => some (.error reason)
  | .hangs => none

namespace EvidenceCache

/-- **A cache without entries.** -/
def empty : EvidenceCache := ⟨[], [], 0, 0, 0, 0⟩

instance : Inhabited EvidenceCache := ⟨empty⟩

/-- What a key is paired with in a list. -/
def paired? {α : Type} (k : CacheKey) (xs : List (CacheKey × α)) : Option α :=
  (xs.find? fun p => p.1 == k).map (·.2)

/-- The list with a key paired anew: in place if it is there, else at the end. -/
def pair {α : Type} (k : CacheKey) (a : α) : List (CacheKey × α) → List (CacheKey × α)
  | [] => [(k, a)]
  | p :: rest => if p.1 = k then (k, a) :: rest else p :: pair k a rest

/-- The entry of a key. -/
def entryOf? (c : EvidenceCache) (k : CacheKey) : Option CacheEntry := paired? k c.entries

/-- The cache with an entry. -/
def withEntry (c : EvidenceCache) (k : CacheKey) (e : CacheEntry) : EvidenceCache :=
  { c with entries := pair k e c.entries }

/-- The cache with further entries, which replace those with the same keys. -/
def withEntries (c : EvidenceCache) (records : List (CacheKey × CacheEntry)) : EvidenceCache :=
  records.foldl (fun c r => c.withEntry r.1 r.2) c

/-! ## Looking up and keeping -/

/-- **Look an extraction up.** An entry counts if it is of the content that is asked for. -/
def get (c : EvidenceCache) (k : CacheKey) : Option Extraction × EvidenceCache :=
  match (c.entryOf? k).filter fun e => e.fingerprint == k.fingerprint with
  | some e => (some e.extraction, { c with hits := c.hits + 1 })
  | none => (none, { c with misses := c.misses + 1 })

/-- **Keep an extraction** that was made elsewhere. -/
def put (c : EvidenceCache) (k : CacheKey) (x : Extraction) (time : Binary64) : EvidenceCache :=
  c.withEntry k ⟨k.fingerprint, x, time⟩

/-! ## Asking -/

/-- **What happens to one who asks**: an entry is found, an extraction that is running is joined, or
one is started. -/
inductive Admission where
  | found (x : Extraction)
  | joined (ticket : Nat)
  | started (ticket : Nat)
  deriving DecidableEq, Repr

/-- **Ask for an extraction.** -/
def ask (c : EvidenceCache) (k : CacheKey) : Admission × EvidenceCache :=
  match c.entryOf? k with
  | some e => (.found e.extraction, { c with hits := c.hits + 1 })
  | none =>
    match paired? k c.running with
    | some ticket => (.joined ticket, { c with hits := c.hits + 1 })
    | none =>
      (.started c.nextTicket,
        { c with
          running := (k, c.nextTicket) :: c.running
          nextTicket := c.nextTicket + 1
          misses := c.misses + 1 })

/-- **End an extraction that was started**, keeping what it gave. -/
def complete (c : EvidenceCache) (k : CacheKey) (x : Extraction) (time : Binary64) :
    EvidenceCache :=
  { c.withEntry k ⟨k.fingerprint, x, time⟩ with
    running := c.running.filter fun p => p.1 != k
    extractions := c.extractions + 1 }

/-- **End an extraction that gave nothing.** -/
def abandon (c : EvidenceCache) (k : CacheKey) : EvidenceCache :=
  { c with running := c.running.filter fun p => p.1 != k }

/-- End an extraction that was started. One that hangs is given up in the end. -/
def finish (c : EvidenceCache) (k : CacheKey) (time : Binary64) : Attempt → EvidenceCache
  | .gives x => c.complete k x time
  | _ => c.abandon k

/-- **Ask for an extraction, and make it if need be.** The answer says whether it was there, or was
being made by someone else. -/
def getOrExtract (c : EvidenceCache) (k : CacheKey) (extract : Unit → Attempt) (time : Binary64) :
    Option (Except String (Extraction × Bool)) × EvidenceCache :=
  match c.ask k with
  | (.found x, c) => (some (.ok (x, true)), c)
  | (.joined _, c) => ((extract ()).answer true, c)
  | (.started _, c) =>
    let attempt := extract ()
    (attempt.answer false, c.finish k time attempt)

/-! ## Forgetting -/

/-- The text that the paths below a directory begin with. -/
def below (root : String) : List Char :=
  (root.toList.reverse.dropWhile (· == '/')).reverse ++ ['/']

/-- Is a key one of a path below a directory that is not among those present? -/
def isStale (root : String) (present : List String) (k : CacheKey) : Bool :=
  (below root).isPrefixOf k.path.toList && !present.contains k.path

/-- **Forget the paths below a directory that are not present.** -/
def retain (c : EvidenceCache) (root : String) (present : List String) : EvidenceCache :=
  { c with entries := c.entries.filter fun p => !isStale root present p.1 }

/-- **Forget all entries.** -/
def clear (c : EvidenceCache) : EvidenceCache := { c with entries := [] }

/-- The counts of a cache. -/
def stats (c : EvidenceCache) : List (String × Nat) :=
  [("entries", c.entries.length), ("hits", c.hits), ("misses", c.misses),
    ("extractions", c.extractions)]

end EvidenceCache
end Conventions
