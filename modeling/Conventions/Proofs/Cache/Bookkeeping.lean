import Conventions.Proofs.Cache.Keyed
import Conventions.Proofs.Cache.Trace
import Mathlib.Data.List.Induction

/-!
# Proofs/Cache/Bookkeeping — what the counts of a cache count

Any number of callers and other operations work on a cache with a store, their steps in any order. The
counts of the cache are compared with what happened in the run (`tally`): lookups, lookups that failed,
extractions that were started, and how these ended. `Posts` says once what each action adds to the counts,
and `bookkeeping_after` sums this up over a run.
-/

namespace Conventions

/-- **Something done to a cache with a store**: a locked step of a call or of another operation, loading
a store, or writing one. What is loaded is what the files held when they were read, which is before the
cache is locked. -/
inductive CacheAction where
  | take (st : CacheStep) (other : ∀ records, st ≠ .load records)
  | load (top : FileNode) (path : List String)
  | flush (top : FileNode) (path : List String) (time : Binary64)

namespace CallState

/-- Is a call extracting? -/
def isExtracting : CallState → Bool
  | .extracting _ => true
  | _ => false

/-- Has a call extracted successfully, by itself? -/
def hasExtracted : CallState → Bool
  | .ended _ (.ok _) | .answered (.ok (_, false)) => true
  | _ => false

end CallState

/-! ## What happens at an action -/

namespace CacheAction

/-- A key is looked up. -/
def looksUp : CacheAction → Bool
  | .take (.get _) _ | .take (.call _) _ => true
  | _ => false

/-- A key is looked up to get its extraction, and there is none. -/
def getFails (s : CacheCalls) : CacheAction → Bool
  | .take (.get k) _ => (s.cache.get k).1.isNone
  | _ => false

/-- An extraction is started. -/
def starts (s : CacheCalls) : CacheAction → Bool
  | .take (.call k) _ => (CacheCalls.stateOf (s.cache.ask k).1).isExtracting
  | _ => false

/-- Is the call at a place extracting? -/
def isRunning (s : CacheCalls) (i : Nat) : Bool := (s.state? i).any (·.2.isExtracting)

/-- An extraction that is running gives something. -/
def succeeds (s : CacheCalls) : CacheAction → Bool
  | .take (.succeed i _ _) _ => isRunning s i
  | _ => false

/-- An extraction that is running raises an exception. -/
def raises (s : CacheCalls) : CacheAction → Bool
  | .take (.raise i _) _ => isRunning s i
  | _ => false

end CacheAction

namespace CacheCalls

/-- **Do something.** A store that cannot be loaded, and one that is written, leave the cache as it
is. -/
def perform (s : CacheCalls) : CacheAction → CacheCalls
  | .take st _ => s.step st
  | .load top path =>
    match s.cache.load top path with
    | .ok (cache, _, _) => { s with cache := cache }
    | .error _ => s
  | .flush .. => s

/-- The calls after some actions, beginning at the empty cache. -/
def performed (actions : List CacheAction) : CacheCalls := actions.foldl perform (start .empty)

/-- What is done in a run, each action with the calls as they were before it. -/
def history (s : CacheCalls) : List CacheAction → List (CacheCalls × CacheAction)
  | [] => []
  | a :: rest => (s, a) :: history (s.perform a) rest

/-- **How often something happened** in a run. -/
def tally (event : CacheCalls → CacheAction → Bool) (actions : List CacheAction) : Nat :=
  ((start .empty).history actions).countP fun e => event e.1 e.2

variable {s s' : CacheCalls} {a : CacheAction} {i : Nat} {k : CacheKey} {state state' : CallState}
  {actions : List CacheAction}

theorem history_append (s : CacheCalls) (xs ys : List CacheAction) :
    s.history (xs ++ ys) = s.history xs ++ (xs.foldl perform s).history ys := by
  induction xs generalizing s with
  | nil => rfl
  | cons x xs ih => simp only [List.cons_append, history, ih, List.foldl_cons]

@[simp] theorem tally_nil (event : CacheCalls → CacheAction → Bool) : tally event [] = 0 := rfl

@[simp] theorem tally_snoc (event : CacheCalls → CacheAction → Bool) (actions : List CacheAction)
    (a : CacheAction) : tally event (actions ++ [a]) =
      tally event actions + (event (performed actions) a).toNat := by
  rw [tally, history_append, List.countP_append, ← tally, history, history, List.countP_singleton]
  rw [← performed]
  cases event (performed actions) a <;> rfl

@[simp] theorem performed_snoc (actions : List CacheAction) (a : CacheAction) :
    performed (actions ++ [a]) = (performed actions).perform a := by
  rw [performed, List.foldl_append, ← performed, List.foldl_cons, List.foldl_nil]

/-! ## The states of calls -/

/-- The number of calls that have come to some state. -/
def countStates (p : CallState → Bool) (s : CacheCalls) : Nat := s.calls.countP fun c => p c.2

theorem isRunning_of_extracting {t : Nat} (h : s.state? i = some (k, .extracting t)) :
    CacheAction.isRunning s i = true := by
  rw [CacheAction.isRunning, h]
  rfl

theorem isRunning_eq_false (h : ∀ k t, s.state? i ≠ some (k, .extracting t)) :
    CacheAction.isRunning s i = false := by
  rw [CacheAction.isRunning]
  cases hi : s.state? i with
  | none => rfl
  | some c =>
    obtain ⟨k, state⟩ := c
    cases state with
    | extracting t => exact absurd hi (h k t)
    | _ => rfl

/-- **A call that comes to another state** leaves the states of the others. -/
theorem countStates_move (hcalls : s'.calls = s.calls) (h : s.state? i = some (k, state))
    (p : CallState → Bool) (state' : CallState) :
    (s'.move i k state').countStates p + (p state).toNat = s.countStates p + (p state').toNat := by
  obtain ⟨hlt, hget⟩ := List.getElem?_eq_some_iff.1 h
  have hsplit : s.calls = s.calls.take i ++ (k, state) :: s.calls.drop (i + 1) := by
    rw [← hget, ← List.drop_eq_getElem_cons hlt, List.take_append_drop]
  have hset : (s'.move i k state').calls =
      s.calls.take i ++ (k, state') :: s.calls.drop (i + 1) := by
    rw [move, hcalls, List.set_eq_take_append_cons_drop, if_pos hlt]
  rw [countStates, hset, countStates]
  conv_rhs => rw [hsplit]
  simp only [List.countP_append, List.countP_cons]
  cases p state <;> cases p state' <;> simp <;> omega

theorem countStates_move_of_eq (hcalls : s'.calls = s.calls) (h : s.state? i = some (k, state))
    {p : CallState → Bool} (hp : p state' = p state) :
    (s'.move i k state').countStates p = s.countStates p := by
  have hmove := countStates_move hcalls h p state'
  rw [hp] at hmove
  exact Nat.add_right_cancel hmove

theorem countStates_append (p : CallState → Bool) (c : CacheKey × CallState) :
    (s.calls ++ [c]).countP (fun c => p c.2) = s.countStates p + (p c.2).toNat := by
  rw [List.countP_append, List.countP_singleton]
  cases p c.2 <;> rfl

/-! ## What an action adds to the counts -/

/-- **What an action adds to the counts.** -/
structure Posts (s : CacheCalls) (a : CacheAction) (s' : CacheCalls) : Prop where
  lookups : s'.cache.hits + s'.cache.misses = s.cache.hits + s.cache.misses + a.looksUp.toNat
  misses : s'.cache.misses = s.cache.misses + (a.getFails s).toNat + (a.starts s).toNat
  extractions : s'.cache.extractions = s.cache.extractions + (a.succeeds s).toNat
  extracted : s'.countStates CallState.hasExtracted =
    s.countStates CallState.hasExtracted + (a.succeeds s).toNat
  running : s'.countStates CallState.isExtracting + (a.succeeds s).toNat + (a.raises s).toNat =
    s.countStates CallState.isExtracting + (a.starts s).toNat

theorem posts_call (other : ∀ records, CacheStep.call k ≠ .load records) :
    Posts s (.take (.call k) other) (s.step (.call k)) := by
  have calls (p : CallState → Bool) : (s.step (.call k)).countStates p =
      s.countStates p + (p (stateOf (s.cache.ask k).1)).toNat := countStates_append p _
  have hextracted : (stateOf (s.cache.ask k).1).hasExtracted = false := by
    cases (s.cache.ask k).1 <;> rfl
  have hcounts : (s.cache.ask k).2.hits + (s.cache.ask k).2.misses =
        s.cache.hits + s.cache.misses + 1 ∧
      (s.cache.ask k).2.misses =
        s.cache.misses + (stateOf (s.cache.ask k).1).isExtracting.toNat ∧
      (s.cache.ask k).2.extractions = s.cache.extractions := by
    unfold EvidenceCache.ask
    split
    · exact ⟨Nat.add_right_comm .., rfl, rfl⟩
    · split
      · exact ⟨Nat.add_right_comm .., rfl, rfl⟩
      · exact ⟨rfl, rfl, rfl⟩
  refine ⟨hcounts.1, hcounts.2.1, hcounts.2.2, ?_, calls _⟩
  rw [calls, hextracted]
  rfl

theorem posts_get (other : ∀ records, CacheStep.get k ≠ .load records) :
    Posts s (.take (.get k) other) (s.step (.get k)) := by
  have hcounts : (s.cache.get k).2.hits + (s.cache.get k).2.misses =
        s.cache.hits + s.cache.misses + 1 ∧
      (s.cache.get k).2.misses = s.cache.misses + (s.cache.get k).1.isNone.toNat ∧
      (s.cache.get k).2.extractions = s.cache.extractions := by
    unfold EvidenceCache.get
    split
    · exact ⟨Nat.add_right_comm .., rfl, rfl⟩
    · exact ⟨rfl, rfl, rfl⟩
  exact ⟨hcounts.1, hcounts.2.1, hcounts.2.2, rfl, rfl⟩

theorem posts_succeed {x : Extraction} {time : Binary64}
    (other : ∀ records, CacheStep.succeed i x time ≠ .load records) :
    Posts s (.take (.succeed i x time) other) (s.step (.succeed i x time)) := by
  simp only [step]
  split
  case h_1 k t h =>
    have hrun := isRunning_of_extracting h
    have hcalls : { s with cache := s.cache.complete k x time }.calls = s.calls := rfl
    have hmove (p : CallState → Bool) := countStates_move hcalls h p (.ended t (.ok x))
    refine ⟨rfl, rfl, ?_, ?_, ?_⟩
    · rw [CacheAction.succeeds, hrun]
      rfl
    · rw [CacheAction.succeeds, hrun]
      exact hmove CallState.hasExtracted
    · rw [CacheAction.succeeds, hrun]
      exact hmove CallState.isExtracting
  case h_2 h =>
    have hidle := isRunning_eq_false h
    refine ⟨rfl, rfl, ?_, ?_, ?_⟩ <;> rw [CacheAction.succeeds, hidle] <;> rfl

theorem posts_raise {reason : String}
    (other : ∀ records, CacheStep.raise i reason ≠ .load records) :
    Posts s (.take (.raise i reason) other) (s.step (.raise i reason)) := by
  simp only [step]
  split
  case h_1 k t h =>
    refine ⟨rfl, rfl, rfl, countStates_move_of_eq rfl h rfl, ?_⟩
    rw [CacheAction.raises, isRunning_of_extracting h]
    exact countStates_move rfl h CallState.isExtracting (.ended t (.error reason))
  case h_2 h =>
    refine ⟨rfl, rfl, rfl, rfl, ?_⟩
    rw [CacheAction.raises, isRunning_eq_false h]
    rfl

theorem posts_handOut (other : ∀ records, CacheStep.handOut i ≠ .load records) :
    Posts s (.take (.handOut i) other) (s.step (.handOut i)) := by
  simp only [step]
  split
  case h_1 k t r h =>
    refine ⟨rfl, rfl, rfl, countStates_move_of_eq rfl h ?_, countStates_move_of_eq rfl h rfl⟩
    cases r <;> rfl
  case h_2 => exact ⟨rfl, rfl, rfl, rfl, rfl⟩

theorem posts_receive (other : ∀ records, CacheStep.receive i ≠ .load records) :
    Posts s (.take (.receive i) other) (s.step (.receive i)) := by
  simp only [step]
  split
  case h_1 k t h =>
    split
    case h_1 r _ =>
      refine ⟨rfl, rfl, rfl, countStates_move_of_eq rfl h ?_, countStates_move_of_eq rfl h rfl⟩
      cases r <;> rfl
    case h_2 => exact ⟨rfl, rfl, rfl, rfl, rfl⟩
  case h_2 => exact ⟨rfl, rfl, rfl, rfl, rfl⟩

theorem others_of_load {c c' : EvidenceCache} {top : FileNode} {path : List String} {n : Nat}
    {notes : List StoreNote} (h : c.load top path = .ok (c', n, notes)) :
    c' = { c with entries := c'.entries } := by
  cases hcontent : top.content path with
  | error fault =>
    rw [EvidenceCache.load, hcontent] at h
    cases fault <;> (cases h; rfl)
  | ok found => exact (EvidenceCache.loadsFrom_of_load hcontent h).others

theorem posts_load (top : FileNode) (path : List String) :
    Posts s (.load top path) (s.perform (.load top path)) := by
  rw [perform]
  split
  case h_1 cache n notes h =>
    rw [others_of_load h]
    exact ⟨rfl, rfl, rfl, rfl, rfl⟩
  case h_2 => exact ⟨rfl, rfl, rfl, rfl, rfl⟩

/-- **Every action adds to the counts what happened at it.** -/
theorem posts_perform (s : CacheCalls) (a : CacheAction) : Posts s a (s.perform a) := by
  cases a with
  | take st other =>
    cases st with
    | call k => exact posts_call other
    | succeed i x time => exact posts_succeed other
    | raise i reason => exact posts_raise other
    | handOut i => exact posts_handOut other
    | receive i => exact posts_receive other
    | get k => exact posts_get other
    | load records => exact absurd rfl (other records)
    | put | retain | clear | stats => exact ⟨rfl, rfl, rfl, rfl, rfl⟩
  | load top path => exact posts_load top path
  | flush top path time => exact ⟨rfl, rfl, rfl, rfl, rfl⟩

/-! ## What stands in the cache -/

theorem made_step {st : CacheStep} (other : ∀ records, st ≠ .load records) (h : s.cache.Made) :
    (s.step st).cache.Made := by
  cases st with
  | call k => exact h.ask k
  | succeed i x time =>
    simp only [step]
    split
    · exact h.complete _ x time
    · exact h
  | raise i reason =>
    simp only [step]
    split
    · exact h.abandon _
    · exact h
  | handOut i =>
    simp only [step]
    split <;> exact h
  | receive i =>
    simp only [step]
    split
    · split <;> exact h
    · exact h
  | get k => exact h.get k
  | put k x time => exact h.put k x time
  | load records => exact absurd rfl (other records)
  | retain root present => exact h.retain root present
  | clear => exact h.clear
  | stats => exact h

/-- **The cache of a run is one that operations have made.** -/
theorem made_performed (actions : List CacheAction) : (performed actions).cache.Made := by
  induction actions using List.reverseRecOn with
  | nil => exact .empty
  | append_singleton actions a h =>
    rw [performed_snoc]
    cases a with
    | take st other => exact made_step other h
    | load top path =>
      rw [perform]
      split
      case h_1 cache n notes hload => exact h.load hload
      case h_2 => exact h
    | flush top path time => exact h

/-- Where entries stand under the keys that they belong to, one gets what stands there. -/
theorem get_eq_none_iff {c : EvidenceCache} (h : c.Keyed) :
    (c.get k).1 = none ↔ k ∉ c.entries.map (·.1) := by
  rw [← EvidenceCache.paired?_eq_none_iff_notMem, ← EvidenceCache.entryOf?, EvidenceCache.get]
  cases he : c.entryOf? k with
  | none => exact iff_of_true rfl rfl
  | some e =>
    have hfilter : (some e).filter (fun e => e.fingerprint == k.fingerprint) = some e := by
      rw [Option.filter_some, if_pos]
      exact beq_iff_eq.2 (h.fingerprint_eq k e he)
    rw [hfilter]
    exact iff_of_false (Option.some_ne_none _) (Option.some_ne_none _)

/-! ## Runs -/

/-- **The counts of a cache count what happened** in a run. -/
structure Counted (actions : List CacheAction) : Prop where
  lookups : (performed actions).cache.hits + (performed actions).cache.misses =
    tally (fun _ => CacheAction.looksUp) actions
  misses : (performed actions).cache.misses =
    tally CacheAction.getFails actions + tally CacheAction.starts actions
  /-- The extractions are the calls that have extracted successfully. -/
  extractions : (performed actions).cache.extractions =
    (performed actions).countStates CallState.hasExtracted
  /-- An extraction that was started has given something, has raised an exception, or is running. -/
  started : tally CacheAction.starts actions = (performed actions).cache.extractions +
    tally CacheAction.raises actions + (performed actions).countStates CallState.isExtracting

theorem counted_performed (actions : List CacheAction) : Counted actions := by
  induction actions using List.reverseRecOn with
  | nil => exact ⟨rfl, rfl, rfl, rfl⟩
  | append_singleton actions a ih =>
    obtain ⟨lookups, misses, extractions, started⟩ := ih
    have hposts := posts_perform (performed actions) a
    constructor <;> simp only [performed_snoc, tally_snoc]
    · rw [hposts.lookups, lookups]
    · rw [hposts.misses, misses, Nat.add_add_add_comm, Nat.add_assoc]
    · rw [hposts.extractions, hposts.extracted, extractions]
    · have hextractions := hposts.extractions
      have hrunning := hposts.running
      omega

/-- **The books of a cache are in order** after a run. -/
structure Bookkeeping (actions : List CacheAction) : Prop extends Counted actions where
  keyed : ∀ p ∈ (performed actions).cache.entries, p.2.fingerprint = p.1.fingerprint
  nodup : ((performed actions).cache.entries.map (·.1)).Nodup
  /-- Only a key that is not there is missed. -/
  missed : ∀ k, ((performed actions).cache.get k).1 = none ↔
    k ∉ (performed actions).cache.entries.map (·.1)

/-- **The books are in order after every run.** -/
theorem bookkeeping_after (actions : List CacheAction) : Bookkeeping actions where
  toCounted := counted_performed actions
  keyed p hp := by
    have hkeyed := (made_performed actions).keyed
    exact hkeyed.fingerprint_eq p.1 p.2 ((EvidenceCache.paired?_eq_some_iff hkeyed.nodup).2 hp)
  nodup := (made_performed actions).keyed.nodup
  missed _ := get_eq_none_iff (made_performed actions).keyed

end CacheCalls
end Conventions
