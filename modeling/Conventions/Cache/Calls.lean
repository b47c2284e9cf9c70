import Conventions.Cache.Basic

/-!
# Cache/Calls — many who ask at the same time

Those who ask take steps in any order. Between the step that ends an extraction and the one that
hands it out, others may ask or take entries away. `CacheCalls.step` makes one step; a step that
cannot be made changes nothing.
-/

namespace Conventions

/-- **How far a call has come.** -/
inductive CallState where
  | extracting (ticket : Nat)
  | ended (ticket : Nat) (result : Except String Extraction)
  | waiting (ticket : Nat)
  | answered (answer : Except String (Extraction × Bool))

/-- **A cache with the calls made to it**, in the order in which they were made, and what the
extractions with some tickets gave. -/
structure CacheCalls where
  cache : EvidenceCache
  calls : List (CacheKey × CallState)
  results : List (Nat × Except String Extraction)

/-- **A step**: one locked step of a call, given by its place, or something else done to the
cache. -/
inductive CacheStep where
  | call (k : CacheKey)
  | succeed (i : Nat) (x : Extraction) (time : Binary64)
  | raise (i : Nat) (reason : String)
  | handOut (i : Nat)
  | receive (i : Nat)
  | get (k : CacheKey)
  | put (k : CacheKey) (x : Extraction) (time : Binary64)
  | load (records : List (CacheKey × CacheEntry))
  | retain (root : String) (present : List String)
  | clear
  | stats

namespace CacheCalls

/-- Calls to a cache before the first one. -/
def start (cache : EvidenceCache) : CacheCalls := ⟨cache, [], []⟩

/-- The state of the call at a place. -/
def state? (s : CacheCalls) (i : Nat) : Option (CacheKey × CallState) := s.calls[i]?

/-- The call at a place comes to another state. -/
def move (s : CacheCalls) (i : Nat) (k : CacheKey) (state : CallState) : CacheCalls :=
  { s with calls := s.calls.set i (k, state) }

/-- What the extraction with a ticket gave. -/
def result? (s : CacheCalls) (ticket : Nat) : Option (Except String Extraction) :=
  (s.results.find? fun r => r.1 == ticket).map (·.2)

/-- The state in which a call begins. -/
def stateOf : EvidenceCache.Admission → CallState
  | .found x => .answered (.ok (x, true))
  | .joined ticket => .waiting ticket
  | .started ticket => .extracting ticket

/-- **Make a step.** -/
def step (s : CacheCalls) : CacheStep → CacheCalls
  | .call k =>
    let (admission, cache) := s.cache.ask k
    { s with cache := cache, calls := s.calls ++ [(k, stateOf admission)] }
  | .succeed i x time =>
    match s.state? i with
    | some (k, .extracting ticket) =>
      { s with cache := s.cache.complete k x time }.move i k (.ended ticket (.ok x))
    | _ => s
  | .raise i reason =>
    match s.state? i with
    | some (k, .extracting ticket) =>
      { s with cache := s.cache.abandon k }.move i k (.ended ticket (.error reason))
    | _ => s
  | .handOut i =>
    match s.state? i with
    | some (k, .ended ticket result) =>
      { s with results := (ticket, result) :: s.results }.move i k
        (.answered (result.map fun x => (x, false)))
    | _ => s
  | .receive i =>
    match s.state? i with
    | some (k, .waiting ticket) =>
      match s.result? ticket with
      | some result => s.move i k (.answered (result.map fun x => (x, true)))
      | none => s
    | _ => s
  | .get k => { s with cache := (s.cache.get k).2 }
  | .put k x time => { s with cache := s.cache.put k x time }
  | .load records => { s with cache := s.cache.withEntries records }
  | .retain root present => { s with cache := s.cache.retain root present }
  | .clear => { s with cache := s.cache.clear }
  | .stats => s

/-- Make some steps, one after the other. -/
def run (s : CacheCalls) (steps : List CacheStep) : CacheCalls := steps.foldl step s

/-- The answers of the calls that have one. -/
def answers (s : CacheCalls) : List (Except String (Extraction × Bool)) :=
  s.calls.filterMap fun c =>
    match c.2 with
    | .answered a => some a
    | _ => none

/-- **Several who ask for the same before the first is done**: the first one extracts, the others
wait for what it hands out. -/
def together (cache : EvidenceCache) (callers : Nat) (k : CacheKey)
    (result : Except String Extraction) (time : Binary64) : CacheCalls :=
  let finish := match result with
    | .ok x => CacheStep.succeed 0 x time
    | .error reason => .raise 0 reason
  (start cache).run <|
    List.replicate callers (.call k) ++ [finish, .handOut 0]
      ++ (List.range callers).map CacheStep.receive

end CacheCalls
end Conventions
