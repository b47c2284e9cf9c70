import Conventions.Cache.Calls
import Conventions.Proofs.Cache.Entries

/-!
# Proofs/Cache/Trace — what happened in a run of calls to a cache

A run is a list of steps, beginning at the empty cache. `Took` says that something happened at one
of its steps, and the events below say what can happen: a call finds an entry, joins an extraction
or starts one, an extraction ends, something is stored under a key.

`step_transition` lists once what a step can do to the calls; what a run keeps true is shown by
going through that list.
-/

namespace Conventions

/-- Does a step leave the entries that are there? -/
def CacheStep.Keeps : CacheStep → Prop
  | .retain _ _ | .clear => False
  | _ => True

namespace CacheCalls

variable {s : CacheCalls} {st : CacheStep} {i j : Nat} {k l : CacheKey} {t u : Nat}

/-! ## Events -/

/-- The run of some steps, beginning at the empty cache. -/
def after (steps : List CacheStep) : CacheCalls := (start .empty).run steps

/-- **At one of the steps of a run** this happened. -/
def Took (steps : List CacheStep) (P : CacheCalls → CacheStep → Prop) : Prop :=
  ∃ before st rest, steps = before ++ st :: rest ∧ P (after before) st

/-- The call at a place begins, and finds an extraction. -/
def Finds (i : Nat) (k : CacheKey) (x : Extraction) (s : CacheCalls) (st : CacheStep) : Prop :=
  st = .call k ∧ i = s.calls.length ∧ ∃ e, s.cache.entryOf? k = some e ∧ e.extraction = x

/-- The call at a place begins, finds nothing, and joins the extraction that another one runs. -/
def Joins (i j : Nat) (k : CacheKey) (s : CacheCalls) (st : CacheStep) : Prop :=
  st = .call k ∧ i = s.calls.length ∧ s.cache.entryOf? k = none ∧
    ∃ t, s.state? j = some (k, .extracting t)

/-- The call at a place begins, finds nothing that is there or running, and starts to extract. -/
def Starts (i : Nat) (k : CacheKey) (t : Nat) (s : CacheCalls) (st : CacheStep) : Prop :=
  st = .call k ∧ i = s.calls.length ∧ s.cache.entryOf? k = none ∧
    (∀ u, (k, u) ∉ s.cache.running) ∧ t = s.cache.nextTicket

/-- The extraction of the call at a place ends, with an extraction or with an exception. -/
def Ends (i : Nat) (k : CacheKey) (r : Except String Extraction) (s : CacheCalls)
    (st : CacheStep) : Prop :=
  (∃ t, s.state? i = some (k, .extracting t)) ∧
    ((∃ x time, st = .succeed i x time ∧ r = .ok x) ∨ ∃ reason, st = .raise i reason ∧
      r = .error reason)

/-- **An extraction is stored under a key**: put there, loaded, or made for it. -/
def Stores (k : CacheKey) (x : Extraction) (s : CacheCalls) (st : CacheStep) : Prop :=
  (∃ time, st = .put k x time) ∨
    (∃ records e, st = .load records ∧ (k, e) ∈ records ∧ e.extraction = x) ∨
    ∃ i, Ends i k (.ok x) s st

/-! ## Runs -/

@[simp] theorem after_nil : after [] = start .empty := rfl

theorem after_append (steps rest : List CacheStep) :
    after (steps ++ rest) = (after steps).run rest :=
  List.foldl_append

@[simp] theorem after_snoc (steps : List CacheStep) (st : CacheStep) :
    after (steps ++ [st]) = (after steps).step st :=
  after_append steps [st]

section Took

variable {steps : List CacheStep} {P : CacheCalls → CacheStep → Prop}

@[simp] theorem not_took_nil : ¬ Took [] P := by
  rintro ⟨before, st, rest, h, -⟩
  simp at h

/-- **What happened in a run** happened before the last step or at it. -/
theorem took_snoc : Took (steps ++ [st]) P ↔ Took steps P ∨ P (after steps) st := by
  constructor
  · rintro ⟨before, st', rest, h, hP⟩
    obtain rfl | ⟨rest', last, rfl⟩ := List.eq_nil_or_concat rest
    · obtain ⟨rfl, heq⟩ := List.append_inj' h rfl
      obtain rfl := List.singleton_inj.1 heq
      exact .inr hP
    · have hshort : steps ++ [st] = (before ++ st' :: rest') ++ [last] := by simpa using h
      exact .inl ⟨before, st', rest', (List.append_inj' hshort rfl).1, hP⟩
  · rintro (⟨before, st', rest, rfl, hP⟩ | hP)
    · exact ⟨before, st', rest ++ [st], by simp, hP⟩
    · exact ⟨steps, st, [], rfl, hP⟩

theorem Took.snoc (h : Took steps P) : Took (steps ++ [st]) P := took_snoc.2 (.inl h)

theorem Took.last (h : P (after steps) st) : Took (steps ++ [st]) P := took_snoc.2 (.inr h)

theorem Took.imp {Q : CacheCalls → CacheStep → Prop} (h : Took steps P)
    (hPQ : ∀ s st, P s st → Q s st) : Took steps Q := by
  obtain ⟨before, st, rest, hsteps, hP⟩ := h
  exact ⟨before, st, rest, hsteps, hPQ _ _ hP⟩

end Took

/-! ## The state of a call -/

theorem state?_append {α : Type} {c : α} {calls : List α} :
    (calls ++ [c])[i]? = if i = calls.length then some c else calls[i]? := by
  split
  case isTrue h => simp [h]
  case isFalse h =>
    obtain hlt | hge := Nat.lt_or_ge i calls.length
    · rw [List.getElem?_append_left hlt]
    · rw [List.getElem?_eq_none hge, List.getElem?_eq_none]
      simp only [List.length_append, List.length_singleton]
      omega

theorem lt_length_of_state? {c : CacheKey × CallState} (h : s.state? i = some c) :
    i < s.calls.length :=
  (List.getElem?_eq_some_iff.1 h).1

theorem state?_append_of_state? {c d : CacheKey × CallState} (h : s.state? i = some c) :
    (s.calls ++ [d])[i]? = some c := by
  rw [state?_append, if_neg (Nat.ne_of_lt (lt_length_of_state? h))]
  exact h

theorem last_or_state?_of_append {c d : CacheKey × CallState}
    (h : (s.calls ++ [d])[i]? = some c) :
    i = s.calls.length ∧ d = c ∨ s.state? i = some c := by
  rw [state?_append] at h
  split at h
  case isTrue hlen => exact .inl ⟨hlen, Option.some.inj h⟩
  case isFalse => exact .inr h

theorem state?_move {c : CacheKey × CallState} (h : s.state? i = some c) (state : CallState) :
    (s.move i k state).state? j = if j = i then some (k, state) else s.state? j := by
  rw [state?, move, List.getElem?_set]
  by_cases hj : i = j
  · rw [if_pos hj, if_pos hj.symm, if_pos (lt_length_of_state? h)]
  · rw [if_neg hj, if_neg (Ne.symm hj), state?]

/-! ## What a step can do -/

/-- **What a step can do.** A call begins in one of three ways and then comes from one state to the
next; any other step does not touch the calls or what is running. -/
inductive Transition (s : CacheCalls) : CacheStep → CacheCalls → Prop where
  | find {k : CacheKey} {e : CacheEntry} (entry : s.cache.entryOf? k = some e) :
    Transition s (.call k)
      ⟨{ s.cache with hits := s.cache.hits + 1 },
        s.calls ++ [(k, .answered (.ok (e.extraction, true)))], s.results⟩
  | join {k : CacheKey} {t : Nat} (entry : s.cache.entryOf? k = none)
      (running : (k, t) ∈ s.cache.running) :
    Transition s (.call k)
      ⟨{ s.cache with hits := s.cache.hits + 1 }, s.calls ++ [(k, .waiting t)], s.results⟩
  | start {k : CacheKey} (entry : s.cache.entryOf? k = none)
      (idle : ∀ t, (k, t) ∉ s.cache.running) :
    Transition s (.call k)
      ⟨{ s.cache with
          running := (k, s.cache.nextTicket) :: s.cache.running
          nextTicket := s.cache.nextTicket + 1
          misses := s.cache.misses + 1 },
        s.calls ++ [(k, .extracting s.cache.nextTicket)], s.results⟩
  | finish {st : CacheStep} {cache : EvidenceCache} {i : Nat} {k : CacheKey} {t : Nat}
      {r : Except String Extraction} (state : s.state? i = some (k, .extracting t))
      (ends : Ends i k r s st)
      (running : cache.running = s.cache.running.filter fun p => p.1 != k)
      (nextTicket : cache.nextTicket = s.cache.nextTicket)
      (entry : ∀ k e, cache.entryOf? k = some e →
        s.cache.entryOf? k = some e ∨ Stores k e.extraction s st) :
    Transition s st ({ s with cache := cache }.move i k (.ended t r))
  | handOut {i : Nat} {k : CacheKey} {t : Nat} {r : Except String Extraction}
      (state : s.state? i = some (k, .ended t r)) :
    Transition s (.handOut i)
      ({ s with results := (t, r) :: s.results }.move i k (.answered (r.map fun x => (x, false))))
  | receive {i : Nat} {k : CacheKey} {t : Nat} {r : Except String Extraction}
      (state : s.state? i = some (k, .waiting t)) (result : (t, r) ∈ s.results) :
    Transition s (.receive i) (s.move i k (.answered (r.map fun x => (x, true))))
  | other {st : CacheStep} {cache : EvidenceCache} (call : ∀ k, st ≠ .call k)
      (ends : ∀ i k r, ¬ Ends i k r s st) (running : cache.running = s.cache.running)
      (nextTicket : cache.nextTicket = s.cache.nextTicket)
      (entry : ∀ k e, cache.entryOf? k = some e →
        s.cache.entryOf? k = some e ∨ Stores k e.extraction s st) :
    Transition s st { s with cache := cache }

theorem mem_results_of_result? {r : Except String Extraction} (h : s.result? t = some r) :
    (t, r) ∈ s.results := by
  obtain ⟨⟨u, r'⟩, hfind, rfl⟩ := Option.map_eq_some_iff.1 h
  have hu : u = t := by simpa using List.find?_some hfind
  exact hu ▸ List.mem_of_find?_eq_some hfind

/-- A step that leaves the calls and the cache as they are. -/
theorem Transition.none (call : ∀ k, st ≠ .call k) (ends : ∀ i k r, ¬ Ends i k r s st) :
    Transition s st s :=
  .other call ends rfl rfl fun _ _ => .inl

theorem transition_call (k : CacheKey) : Transition s (.call k) (s.step (.call k)) := by
  simp only [step, EvidenceCache.ask]
  split
  case h_1 e he => exact .find he
  case h_2 he =>
    split
    case h_1 t ht => exact .join he (EvidenceCache.mem_of_paired? ht)
    case h_2 hidle => exact .start he (EvidenceCache.paired?_eq_none_iff.1 hidle)

theorem transition_succeed {x : Extraction} {time : Binary64}
    (state : s.state? i = some (k, .extracting t)) :
    Transition s (.succeed i x time)
      ({ s with cache := s.cache.complete k x time }.move i k (.ended t (.ok x))) := by
  have ends : Ends i k (.ok x) s (.succeed i x time) := ⟨⟨t, state⟩, .inl ⟨x, time, rfl, rfl⟩⟩
  refine .finish state ends rfl rfl fun l e he => ?_
  rw [EvidenceCache.entryOf?_complete] at he
  split at he
  case isTrue hk =>
    obtain rfl := Option.some.inj he
    exact .inr (.inr (.inr ⟨i, hk ▸ ends⟩))
  case isFalse => exact .inl he

theorem transition_raise {reason : String} (state : s.state? i = some (k, .extracting t)) :
    Transition s (.raise i reason)
      ({ s with cache := s.cache.abandon k }.move i k (.ended t (.error reason))) :=
  .finish state ⟨⟨t, state⟩, .inr ⟨reason, rfl, rfl⟩⟩ rfl rfl fun _ _ => .inl

theorem extracting_of_ends_succeed {x : Extraction} {time : Binary64}
    {r : Except String Extraction} (h : Ends j k r s (.succeed i x time)) :
    ∃ t, s.state? i = some (k, .extracting t) := by
  obtain ⟨hstate, ⟨y, time', hst, -⟩ | ⟨reason, hst, -⟩⟩ := h
  · cases hst
    exact hstate
  · cases hst

theorem extracting_of_ends_raise {reason : String} {r : Except String Extraction}
    (h : Ends j k r s (.raise i reason)) : ∃ t, s.state? i = some (k, .extracting t) := by
  obtain ⟨hstate, ⟨y, time, hst, -⟩ | ⟨reason', hst, -⟩⟩ := h
  · cases hst
  · cases hst
    exact hstate

theorem transition_get (k : CacheKey) : Transition s (.get k) (s.step (.get k)) := by
  refine .other (by simp) (by simp [Ends]) EvidenceCache.running_get EvidenceCache.nextTicket_get
    fun l e he => ?_
  rw [EvidenceCache.entryOf?_get] at he
  exact .inl he

theorem transition_put (k : CacheKey) (x : Extraction) (time : Binary64) :
    Transition s (.put k x time) (s.step (.put k x time)) := by
  refine .other (by simp) (by simp [Ends]) rfl rfl fun l e he => ?_
  rw [EvidenceCache.put, EvidenceCache.entryOf?_withEntry] at he
  split at he
  case isTrue hk =>
    obtain rfl := Option.some.inj he
    exact .inr (.inl ⟨time, by rw [hk]⟩)
  case isFalse => exact .inl he

theorem transition_load (records : List (CacheKey × CacheEntry)) :
    Transition s (.load records) (s.step (.load records)) := by
  refine .other (by simp) (by simp [Ends]) (EvidenceCache.running_withEntries _)
    (EvidenceCache.nextTicket_withEntries _) fun l e he => ?_
  obtain he | hmem := EvidenceCache.entryOf?_withEntries he
  · exact .inl he
  · exact .inr (.inr (.inl ⟨records, e, rfl, hmem, rfl⟩))

theorem transition_retain (root : String) (present : List String) :
    Transition s (.retain root present) (s.step (.retain root present)) := by
  refine .other (by simp) (by simp [Ends]) rfl rfl fun l e he => ?_
  rw [EvidenceCache.entryOf?_retain] at he
  split at he
  · cases he
  · exact .inl he

/-- **Every step is one of the transitions.** -/
theorem step_transition (s : CacheCalls) (st : CacheStep) : Transition s st (s.step st) := by
  cases st with
  | call k => exact transition_call k
  | succeed i x time =>
    simp only [step]
    split
    case h_1 hs => exact transition_succeed hs
    case h_2 hs =>
      refine .none (by simp) fun j k r h => ?_
      obtain ⟨t, ht⟩ := extracting_of_ends_succeed h
      exact hs k t ht
  | raise i reason =>
    simp only [step]
    split
    case h_1 hs => exact transition_raise hs
    case h_2 hs =>
      refine .none (by simp) fun j k r h => ?_
      obtain ⟨t, ht⟩ := extracting_of_ends_raise h
      exact hs k t ht
  | handOut i =>
    simp only [step]
    split
    case h_1 hs => exact .handOut hs
    case h_2 => exact .none (by simp) (by simp [Ends])
  | receive i =>
    simp only [step]
    split
    case h_1 hs =>
      split
      case h_1 hr => exact .receive hs (mem_results_of_result? hr)
      case h_2 => exact .none (by simp) (by simp [Ends])
    case h_2 => exact .none (by simp) (by simp [Ends])
  | get k => exact transition_get k
  | put k x time => exact transition_put k x time
  | load records => exact transition_load records
  | retain root present => exact transition_retain root present
  | clear => exact .other (by simp) (by simp [Ends]) rfl rfl fun _ _ he => nomatch he
  | stats => exact .none (by simp) (by simp [Ends])

/-! ## What becomes of a call -/

/-- **What becomes of a call** at one step: it stays where it was, or comes to its next state. -/
inductive Becomes (s : CacheCalls) (st : CacheStep) (i : Nat) (k : CacheKey) :
    CallState → CallState → Prop where
  | same (a : CallState) : Becomes s st i k a a
  | ended (t : Nat) {r : Except String Extraction} (ends : Ends i k r s st) :
    Becomes s st i k (.extracting t) (.ended t r)
  | handedOut (t : Nat) (r : Except String Extraction) :
    Becomes s st i k (.ended t r) (.answered (r.map fun x => (x, false)))
  | received {t : Nat} {r : Except String Extraction} (result : (t, r) ∈ s.results) :
    Becomes s st i k (.waiting t) (.answered (r.map fun x => (x, true)))

/-- A call becomes what it is moved to, or stays. -/
theorem exists_becomes_move {s' : CacheCalls} (hcalls : s'.calls = s.calls) {a b : CallState}
    (b' : CallState) (h : s.state? i = some (k, a)) (hj : s.state? j = some (l, b))
    (hb : Becomes s st j l b b') :
    ∃ c, (s'.move j l b').state? i = some (k, c) ∧ Becomes s st i k a c := by
  have hj' : s'.state? j = some (l, b) := by rw [state?, hcalls, ← state?, hj]
  rw [state?_move hj']
  split
  case isTrue hij =>
    subst hij
    obtain ⟨rfl, rfl⟩ := Prod.mk.inj (Option.some.inj (hj.symm.trans h))
    exact ⟨b', rfl, hb⟩
  case isFalse => exact ⟨a, by rw [state?, hcalls, ← state?, h], .same a⟩

/-- **A call keeps its key**, and goes on if at all. -/
theorem exists_becomes {a : CallState} (h : s.state? i = some (k, a)) (st : CacheStep) :
    ∃ b, (s.step st).state? i = some (k, b) ∧ Becomes s st i k a b := by
  have happend : ∀ c, (s.calls ++ [c])[i]? = some (k, a) := by
    intro c
    rw [List.getElem?_append_left (lt_length_of_state? h)]
    exact h
  have hstep := step_transition s st
  generalize s.step st = s' at hstep
  cases hstep with
  | find => exact ⟨a, happend _, .same a⟩
  | join => exact ⟨a, happend _, .same a⟩
  | start => exact ⟨a, happend _, .same a⟩
  | finish state ends => exact exists_becomes_move rfl _ h state (.ended _ ends)
  | handOut state => exact exists_becomes_move rfl _ h state (.handedOut _ _)
  | receive state result => exact exists_becomes_move rfl _ h state (.received result)
  | other => exact ⟨a, h, .same a⟩

/-- No call begins at another step. -/
theorem length_calls_step (hst : ∀ k, st ≠ .call k) : (s.step st).calls.length = s.calls.length := by
  have hstep := step_transition s st
  generalize s.step st = s' at hstep
  cases hstep with
  | find => exact absurd rfl (hst _)
  | join => exact absurd rfl (hst _)
  | start => exact absurd rfl (hst _)
  | finish => exact List.length_set
  | handOut => exact List.length_set
  | receive => exact List.length_set
  | other => rfl

end CacheCalls
end Conventions
