import Conventions.Proofs.Cache.Consistency

/-!
# Proofs/Cache/SingleFlight — an extraction is made at most once

Any number of callers ask a cache for any keys, their steps in any order, with other operations
between them. `SingleFlight` says what they can rely on, and `singleFlight` that they can after
every run.
-/

namespace Conventions
namespace CacheCalls

variable {steps rest : List CacheStep} {s : CacheCalls} {st : CacheStep}
variable {i j : Nat} {k : CacheKey} {t u : Nat}

/-! ## What is promised -/

/-- **What the callers of a cache can rely on** after the steps of a run. -/
structure SingleFlight (steps : List CacheStep) : Prop where
  /-- At most one extraction of a key is running. -/
  one_running : ∀ i j k t u, (after steps).state? i = some (k, .extracting t) →
    (after steps).state? j = some (k, .extracting u) → i = j
  /-- One is started only if the key has neither an entry nor an extraction that is running. -/
  start_needed : ∀ st i k t, (after steps).state? i ≠ some (k, .extracting t) →
    ((after steps).step st).state? i = some (k, .extracting t) →
      st = .call k ∧ (after steps).cache.entryOf? k = none ∧
        ∀ j u, (after steps).state? j ≠ some (k, .extracting u)
  /-- If entries are not taken away, no second extraction of a key succeeds. -/
  one_success : (∀ st ∈ steps, st.Keeps) → ∀ before st rest, steps = before ++ st :: rest →
    ∀ i j k x y, Took before (Ends i k (.ok x)) → ¬ Ends j k (.ok y) (after before) st
  /-- Everyone is told the entry that was found, or how the extraction ended that they made or
  joined. -/
  told : ∀ i k a, (after steps).state? i = some (k, .answered a) → Answered steps i k a
  /-- Nobody waits for an extraction that is over. -/
  waited_for : ∀ i k t, (after steps).state? i = some (k, .waiting t) →
    ∃ j, Took steps (Joins i j k) ∧
      ((∃ u, (after steps).state? j = some (k, .extracting u)) ∨
        (∃ u r, (after steps).state? j = some (k, .ended u r)) ∨
          ∃ a, ((after steps).step (.receive i)).state? i = some (k, .answered a))
  /-- Those are told that it was not there whose own extraction succeeded, and no others. -/
  cached : ∀ i k a, (after steps).state? i = some (k, .answered a) →
    ((∃ x, a = .ok (x, false)) ↔ ∃ x, Took steps (Ends i k (.ok x)))
  /-- An extraction that fails leaves the entries as they are. -/
  failure : ∀ st i k reason, Ends i k (.error reason) (after steps) st →
    ((after steps).step st).cache.entries = (after steps).cache.entries
  /-- What a call is told was stored under its own key. -/
  own_key : ∀ i k x cached, (after steps).state? i = some (k, .answered (.ok (x, cached))) →
    Took steps (Stores k x)
  /-- What is looked up was stored under the key. -/
  get_own_key : ∀ k x, ((after steps).cache.get k).1 = some x → Took steps (Stores k x)

/-! ## Success leaves an entry -/

theorem isSome_entryOf?_step (hst : st.Keeps) (h : (s.cache.entryOf? k).isSome) :
    ((s.step st).cache.entryOf? k).isSome := by
  cases st with
  | call l =>
    simp only [step, EvidenceCache.ask]
    split
    · exact h
    · split <;> exact h
  | succeed i x time =>
    simp only [step]
    split
    case h_1 l t hs =>
      rw [move, EvidenceCache.entryOf?_complete]
      split
      · rfl
      · exact h
    case h_2 => exact h
  | raise i reason =>
    simp only [step]
    split <;> exact h
  | handOut i =>
    simp only [step]
    split <;> exact h
  | receive i =>
    simp only [step]
    split
    · split <;> exact h
    · exact h
  | get l =>
    rw [step, EvidenceCache.entryOf?_get]
    exact h
  | put l x time =>
    rw [step, EvidenceCache.put, EvidenceCache.entryOf?_withEntry]
    split
    · rfl
    · exact h
  | load records => exact EvidenceCache.isSome_entryOf?_withEntries records h
  | retain root present => exact hst.elim
  | clear => exact hst.elim
  | stats => exact h

/-- What is running after a step was running before it, or there was neither an entry nor an
extraction. -/
theorem running_step (h : (k, t) ∈ (s.step st).cache.running) :
    (k, t) ∈ s.cache.running ∨
      st = .call k ∧ s.cache.entryOf? k = none ∧ ∀ u, (k, u) ∉ s.cache.running := by
  have step := step_transition s st
  generalize s.step st = s' at step h
  cases step with
  | find | join | handOut | receive => exact .inl h
  | start entry idle =>
    obtain heq | h := List.mem_cons.1 h
    · cases heq
      exact .inr ⟨rfl, entry, idle⟩
    · exact .inl h
  | finish _ _ running =>
    rw [move, running] at h
    exact .inl (List.mem_filter.1 h).1
  | other _ _ running => exact .inl (running ▸ h)

/-- **Where an extraction of a key has succeeded**, there is an entry from then on, and no further
extraction. -/
theorem entry_of_success {x : Extraction} (keeps : ∀ st ∈ steps, st.Keeps)
    (h : Took steps (Ends i k (.ok x))) :
    ((after steps).cache.entryOf? k).isSome ∧ ∀ t, (k, t) ∉ (after steps).cache.running := by
  induction steps using List.reverseRecOn with
  | nil => exact absurd h not_took_nil
  | append_singleton steps st ih =>
    rw [after_snoc]
    obtain h | ⟨⟨t, ht⟩, ⟨y, time, rfl, -⟩ | ⟨_, _, heq⟩⟩ := took_snoc.1 h
    · obtain ⟨hsome, hidle⟩ := ih (fun st hst => keeps st (List.mem_append_left _ hst)) h
      refine ⟨isSome_entryOf?_step (keeps st (by simp)) hsome, fun t ht => ?_⟩
      obtain ht | ⟨-, hnone, -⟩ := running_step ht
      · exact hidle t ht
      · simp [hnone] at hsome
    · have hstep : (after steps).step (.succeed i y time) =
          { after steps with cache := (after steps).cache.complete k y time }.move i k
            (.ended t (.ok y)) := by
        simp only [step, ht]
      rw [hstep]
      refine ⟨?_, fun u hu => ?_⟩
      · rw [move, EvidenceCache.entryOf?_complete, if_pos rfl]
        rfl
      · simp [move, EvidenceCache.complete] at hu
    · cases heq

/-! ## What was found was stored -/

theorem Took.append {P : CacheCalls → CacheStep → Prop} (h : Took steps P) :
    Took (steps ++ rest) P := by
  obtain ⟨before, st, tail, rfl, hP⟩ := h
  exact ⟨before, st, tail ++ rest, by simp, hP⟩

theorem took_stores_of_finds {x : Extraction} (h : Took steps (Finds i k x)) :
    Took steps (Stores k x) := by
  obtain ⟨before, st, rest, rfl, -, -, e, he, rfl⟩ := h
  exact ((consistent_after before).stored he).append

theorem took_stores_of_ends {x : Extraction} (h : Took steps (Ends i k (.ok x))) :
    Took steps (Stores k x) :=
  h.imp fun _ _ hends => .inr (.inr ⟨i, hends⟩)

theorem Answered.took_stores {x : Extraction} {cached : Bool}
    (h : Answered steps i k (.ok (x, cached))) : Took steps (Stores k x) := by
  generalize ha : (Except.ok (x, cached) : Except String (Extraction × Bool)) = a at h
  cases h with
  | found finds =>
    cases ha
    exact took_stores_of_finds finds
  | @own t r _ ends =>
    cases r with
    | error reason => cases ha
    | ok y =>
      cases ha
      exact took_stores_of_ends ends
  | @shared j r _ ends =>
    cases r with
    | error reason => cases ha
    | ok y =>
      cases ha
      exact took_stores_of_ends ends

/-! ## What holds after every run -/

/-- Who is told that the extraction was not there has made it. -/
theorem Answered.took_ends {x : Extraction} (h : Answered steps i k (.ok (x, false))) :
    Took steps (Ends i k (.ok x)) := by
  generalize ha : (Except.ok (x, false) : Except String (Extraction × Bool)) = a at h
  cases h with
  | found finds => cases ha
  | @own t r _ ends =>
    cases r with
    | error reason => cases ha
    | ok y =>
      cases ha
      exact ends
  | @shared j r _ ends => cases r <;> cases ha

theorem result?_of_mem {r : Except String Extraction} (h : (t, r) ∈ s.results) :
    ∃ q, s.result? t = some q := by
  rw [result?, ← Option.isSome_iff_exists, Option.isSome_map, List.find?_isSome]
  exact ⟨(t, r), h, by simp⟩

/-- **Callers of a cache can rely on all of this after every run.** -/
theorem singleFlight (steps : List CacheStep) : SingleFlight steps where
  one_running i j k t u hi hj := by
    have h := consistent_after steps
    obtain rfl := h.once (h.running hi) (h.running hj)
    exact (h.owner (h.explained hi) (h.explained hj)).1
  start_needed st i k t hold hnew := by
    have h := consistent_after steps
    have hlater := consistent_after (steps ++ [st])
    rw [after_snoc] at hlater
    obtain hrun | ⟨hst, hnone, hidle⟩ := running_step (hlater.running hnew)
    · obtain ⟨j, hj⟩ := h.runner hrun
      have starts : Took steps (Starts j k t) := h.explained hj
      -- the ticket is one that was there, so the call was extracting already
      obtain ⟨rfl, -⟩ := hlater.owner starts.snoc (hlater.explained hnew)
      exact absurd hj hold
    · exact ⟨hst, hnone, fun j u hj => hidle u (h.running hj)⟩
  one_success keeps before st rest hsteps i j k x y hends := by
    rintro ⟨⟨t, ht⟩, -⟩
    have hkeeps : ∀ st ∈ before, st.Keeps := fun st hst =>
      keeps st (hsteps ▸ List.mem_append_left _ hst)
    exact (entry_of_success hkeeps hends).2 t ((consistent_after before).running ht)
  told i k a hi := (consistent_after steps).explained hi
  waited_for i k t hi := by
    have h := consistent_after steps
    obtain ⟨j, joins, starts⟩ : ∃ j, Took steps (Joins i j k) ∧ Took steps (Starts j k t) :=
      h.explained hi
    refine ⟨j, joins, ?_⟩
    obtain hj | ⟨r, hj⟩ | ⟨r, hr⟩ := h.served starts
    · exact .inl ⟨t, hj⟩
    · exact .inr (.inl ⟨t, r, hj⟩)
    · obtain ⟨q, hq⟩ := result?_of_mem hr
      refine .inr (.inr ⟨q.map fun x => (x, true), ?_⟩)
      simp only [step, hi, hq]
      rw [state?_move hi, if_pos rfl]
  cached i k a hi := by
    have h := consistent_after steps
    constructor
    · rintro ⟨x, rfl⟩
      exact ⟨x, Answered.took_ends (h.explained hi)⟩
    · rintro ⟨x, hx⟩
      obtain ⟨t, hended⟩ | hanswered := h.settled hx
      · simp [hi] at hended
      · rw [hi] at hanswered
        cases hanswered
        exact ⟨x, rfl⟩
  failure st i k reason hends := by
    obtain ⟨⟨t, ht⟩, ⟨_, _, _, heq⟩ | ⟨_, rfl, -⟩⟩ := hends
    · cases heq
    · simp only [step, ht]
      rfl
  own_key i k x cached hi := Answered.took_stores ((consistent_after steps).explained hi)
  get_own_key k x h := by
    obtain ⟨e, he, rfl⟩ := EvidenceCache.entryOf?_of_get h
    exact (consistent_after steps).stored he

end CacheCalls
end Conventions
