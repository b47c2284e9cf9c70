import Conventions.Proofs.Cache.Trace

/-!
# Proofs/Cache/Solo — calls for keys that nobody else asks for

If every key is asked for once, and nothing was being extracted before, then no call waits for another
one. A call either finds what the cache had or extracts by itself (`Solo.found`, `Solo.own`); what the
cache had stays in its place, and what was extracted is added behind it, once for each call that was
given something (`Added`). This is what one scan does to a cache that it has for itself: its files have
different paths, so its keys are different.
-/

namespace Conventions

/-- **What a call got by its own extraction**, when this has ended. -/
def CallState.made? : CallState → Option (Except String Extraction)
  | .ended _ r => some r
  | .answered (.ok (x, false)) => some (.ok x)
  | .answered (.error reason) => some (.error reason)
  | _ => none

/-- **Is a call at its own extraction**, or past it? -/
def CallState.IsOwn (state : CallState) : Prop :=
  (∃ t, state = .extracting t) ∨ ∃ r, state.made? = some r

/-- What is handed out is what was made. -/
theorem CallState.made?_handOut (r : Except String Extraction) :
    (CallState.answered (r.map fun x => (x, false))).made? = some r := by
  cases r <;> rfl

/-- A call that begins has made nothing. -/
theorem CacheCalls.made?_stateOf (a : EvidenceCache.Admission) : (stateOf a).made? = none := by
  cases a <;> rfl

namespace CacheCalls

variable {before : EvidenceCache} {s : CacheCalls} {i : Nat} {k l : CacheKey} {state : CallState}
  {x : Extraction} {added : List (CacheKey × CacheEntry)}

/-- **Was an extraction made for a key** by the call for it? -/
def Gave (s : CacheCalls) (k : CacheKey) (x : Extraction) : Prop :=
  ∃ i state, s.state? i = some (k, state) ∧ state.made? = some (.ok x)

/-- **What calls have added to a cache**, behind what it had: what they were given, each under its
key. -/
structure Added (before : EvidenceCache) (s : CacheCalls)
    (added : List (CacheKey × CacheEntry)) : Prop where
  entries : s.cache.entries = before.entries ++ added
  nodup : (added.map (·.1)).Nodup
  fingerprint : ∀ p ∈ added, p.2.fingerprint = p.1.fingerprint
  gave : ∀ p ∈ added, s.Gave p.1 p.2.extraction
  all : ∀ k x, s.Gave k x → k ∈ added.map (·.1)
  extractions : s.cache.extractions = before.extractions + added.length

/-- **Calls that nobody gets in the way of.** -/
structure Solo (before : EvidenceCache) (s : CacheCalls) : Prop where
  keys : (s.calls.map (·.1)).Nodup
  found : ∀ i k state e, s.state? i = some (k, state) → before.entryOf? k = some e →
    state = .answered (.ok (e.extraction, true))
  own : ∀ i k state, s.state? i = some (k, state) → before.entryOf? k = none → state.IsOwn
  running : ∀ p ∈ s.cache.running, ∃ i, s.state? i = some (p.1, .extracting p.2)
  added : ∃ added, Added before s added

theorem solo_start (h : before.running = []) : Solo before (start before) where
  keys := List.nodup_nil
  found i k state e hstate := by simp [start, state?] at hstate
  own i k state hstate := by simp [start, state?] at hstate
  running p hp := by
    rw [start, h] at hp
    cases hp
  added := by
    refine ⟨[], (List.append_nil _).symm, List.nodup_nil, by simp, by simp, ?_, rfl⟩
    rintro k x ⟨i, state, hstate, -⟩
    simp [start, state?] at hstate

/-! ## Where a call stands -/

/-- **One key has one call.** -/
theorem eq_of_state? (h : (s.calls.map (·.1)).Nodup) {j : Nat} {state' : CallState}
    (hi : s.state? i = some (k, state)) (hj : s.state? j = some (k, state')) : i = j := by
  have hlt : i < (s.calls.map (·.1)).length := by
    rw [List.length_map]
    exact lt_length_of_state? hi
  refine (List.getElem?_inj hlt h).1 ?_
  rw [List.getElem?_map, List.getElem?_map, ← state?, hi, ← state?, hj]
  rfl

theorem gave_iff (h : (s.calls.map (·.1)).Nodup) (hi : s.state? i = some (k, state)) :
    s.Gave k x ↔ state.made? = some (.ok x) := by
  refine ⟨?_, fun hmade => ⟨i, state, hi, hmade⟩⟩
  rintro ⟨j, state', hj, hmade⟩
  obtain rfl := eq_of_state? h hi hj
  obtain rfl := (Prod.mk.inj (Option.some.inj (hi.symm.trans hj))).2
  exact hmade

theorem mem_keys_of_state? (h : s.state? i = some (k, state)) : k ∈ s.calls.map (·.1) :=
  List.mem_map_of_mem (List.mem_of_getElem? h)

theorem keys_move (hi : s.state? i = some (k, state)) (state' : CallState) :
    (s.move i k state').calls.map (·.1) = s.calls.map (·.1) := by
  obtain ⟨hlt, hget⟩ := List.getElem?_eq_some_iff.1 hi
  have hlt : i < (s.calls.map (·.1)).length := by rwa [List.length_map]
  have hk : k = (s.calls.map (·.1))[i] := by rw [List.getElem_map, hget]
  rw [move, List.map_set, hk]
  exact List.set_getElem_self _

/-- What a call is given makes a difference to its own key alone. -/
theorem gave_move (h : (s.calls.map (·.1)).Nodup) (hi : s.state? i = some (k, state))
    (state' : CallState) : (s.move i k state').Gave l x ↔
      if l = k then state'.made? = some (.ok x) else s.Gave l x := by
  split_ifs with hl
  · subst hl
    have hself : (s.move i l state').state? i = some (l, state') := by
      rw [state?_move hi, if_pos rfl]
    exact gave_iff (by rwa [keys_move hi]) hself
  · refine exists_congr fun j => exists_congr fun other => and_congr_left fun _ => ?_
    rw [state?_move hi]
    split_ifs with hj
    · subst hj
      rw [hi]
      simp [Ne.symm hl]
    · rfl

theorem Added.notMem (h : Added before s added) (hk : ∀ x, ¬ s.Gave k x) :
    k ∉ added.map (·.1) := by
  intro hmem
  obtain ⟨p, hp, rfl⟩ := List.mem_map.1 hmem
  exact hk _ (h.gave p hp)

/-- A key that was given nothing stands where it stood. -/
theorem Added.entryOf?_eq (h : Added before s added) (hk : ∀ x, ¬ s.Gave k x) :
    s.cache.entryOf? k = before.entryOf? k := by
  rw [EvidenceCache.entryOf?, h.entries, EvidenceCache.paired?_append,
    EvidenceCache.paired?_eq_none_iff_notMem.2 (h.notMem hk), Option.or_none]
  rfl

theorem Added.keep (h : Added before s added) {s' : CacheCalls}
    (entries : s'.cache.entries = s.cache.entries)
    (extractions : s'.cache.extractions = s.cache.extractions)
    (gave : ∀ k x, s'.Gave k x ↔ s.Gave k x) : Added before s' added where
  entries := entries.trans h.entries
  nodup := h.nodup
  fingerprint := h.fingerprint
  gave p hp := (gave _ _).2 (h.gave p hp)
  all k x hx := h.all k x ((gave k x).1 hx)
  extractions := extractions.trans h.extractions

/-! ## Calls that begin -/

namespace Solo

theorem not_gave_of_notMem (hk : k ∉ s.calls.map (·.1)) : ¬ s.Gave k x := by
  rintro ⟨i, state, hstate, -⟩
  exact hk (mem_keys_of_state? hstate)

/-- A call begins that finds what there is, or extracts. -/
theorem begin (h : Solo before s) (hk : k ∉ s.calls.map (·.1)) {cache : EvidenceCache}
    (entries : cache.entries = s.cache.entries)
    (extractions : cache.extractions = s.cache.extractions)
    (running : ∀ p ∈ cache.running, p ∈ s.cache.running ∨ p.1 = k ∧ state = .extracting p.2)
    (found : ∀ e, before.entryOf? k = some e → state = .answered (.ok (e.extraction, true)))
    (own : before.entryOf? k = none → ∃ t, state = .extracting t) :
    Solo before ⟨cache, s.calls ++ [(k, state)], s.results⟩ := by
  have hmade : ∀ x, state.made? ≠ some (.ok x) := by
    intro x
    cases hentry : before.entryOf? k with
    | some e =>
      rw [found e hentry]
      simp [CallState.made?]
    | none =>
      obtain ⟨t, rfl⟩ := own hentry
      simp [CallState.made?]
  constructor
  case keys =>
    rw [List.map_append, List.map_singleton, ← List.concat_eq_append]
    exact h.keys.concat hk
  case found =>
    intro i l other e hother he
    obtain ⟨-, ⟨⟩⟩ | hother := last_or_state?_of_append hother
    · exact found e he
    · exact h.found i l other e hother he
  case own =>
    intro i l other hother hnone
    obtain ⟨-, ⟨⟩⟩ | hother := last_or_state?_of_append hother
    · exact .inl (own hnone)
    · exact h.own i l other hother hnone
  case running =>
    intro p hp
    obtain hp | ⟨rfl, rfl⟩ := running p hp
    · obtain ⟨i, hi⟩ := h.running p hp
      exact ⟨i, state?_append_of_state? hi⟩
    · exact ⟨s.calls.length, by rw [state?, state?_append, if_pos rfl]⟩
  case added =>
    obtain ⟨added, hadded⟩ := h.added
    refine ⟨added, hadded.keep entries extractions fun l x => ?_⟩
    constructor
    · rintro ⟨i, other, hother, hx⟩
      obtain ⟨-, ⟨⟩⟩ | hother := last_or_state?_of_append hother
      · exact absurd hx (hmade x)
      · exact ⟨i, other, hother, hx⟩
    · rintro ⟨i, other, hother, hx⟩
      exact ⟨i, other, state?_append_of_state? hother, hx⟩

/-- **A call for a new key** finds what there was, or extracts. -/
theorem call (h : Solo before s) (hk : k ∉ s.calls.map (·.1)) : Solo before (s.step (.call k)) := by
  obtain ⟨added, hadded⟩ := h.added
  have hentry := hadded.entryOf?_eq fun x => not_gave_of_notMem hk
  have hstep := transition_call (s := s) k
  generalize s.step (.call k) = s' at hstep
  cases hstep with
  | find entry =>
    rw [hentry] at entry
    refine h.begin hk rfl rfl (fun p hp => .inl hp) (fun e he => ?_) fun hnone => ?_
    · rw [Option.some.inj (entry.symm.trans he)]
    · rw [entry] at hnone
      cases hnone
  | join entry running =>
    obtain ⟨i, hi⟩ := h.running _ running
    exact absurd (mem_keys_of_state? hi) hk
  | start entry idle =>
    rw [hentry] at entry
    refine h.begin hk rfl rfl (fun p hp => ?_) (fun e he => ?_) fun _ => ⟨_, rfl⟩
    · obtain rfl | hp := List.mem_cons.1 hp
      · exact .inr ⟨rfl, rfl⟩
      · exact .inl hp
    · rw [entry] at he
      cases he
  | finish state ends =>
    obtain ⟨-, ⟨x, time, hst, -⟩ | ⟨reason, hst, -⟩⟩ := ends
    · cases hst
    · cases hst
  | other call => exact absurd rfl (call k)

/-! ## Calls that go on -/

/-- A call at its own extraction found nothing. -/
theorem entryOf?_eq_none (h : Solo before s) (hi : s.state? i = some (k, state))
    (hstate : ∀ x, state ≠ .answered (.ok (x, true))) : before.entryOf? k = none := by
  cases hentry : before.entryOf? k with
  | none => rfl
  | some e => exact absurd (h.found i k state e hi hentry) (hstate _)

/-- A call at its own extraction comes to another state. -/
theorem goOn (h : Solo before s) (hi : s.state? i = some (k, state))
    (hnone : before.entryOf? k = none) (s' : CacheCalls) (hcalls : s'.calls = s.calls)
    (state' : CallState) (own : state'.IsOwn)
    (running : ∀ p ∈ s'.cache.running, ∃ j, j ≠ i ∧ s.state? j = some (p.1, .extracting p.2))
    (added : ∃ added, Added before (s'.move i k state') added) :
    Solo before (s'.move i k state') := by
  have hstates (j : Nat) : s'.state? j = s.state? j := by rw [state?, state?, hcalls]
  have hi' : s'.state? i = some (k, state) := (hstates i).trans hi
  constructor
  case keys =>
    rw [keys_move hi', hcalls]
    exact h.keys
  case found =>
    intro j l other e hother he
    rw [state?_move hi', hstates] at hother
    split_ifs at hother
    · obtain ⟨rfl, rfl⟩ := Prod.mk.inj (Option.some.inj hother)
      rw [hnone] at he
      cases he
    · exact h.found j l other e hother he
  case own =>
    intro j l other hother hl
    rw [state?_move hi', hstates] at hother
    split_ifs at hother
    · obtain ⟨rfl, rfl⟩ := Prod.mk.inj (Option.some.inj hother)
      exact own
    · exact h.own j l other hother hl
  case running =>
    intro p hp
    obtain ⟨j, hj, hstate⟩ := running p hp
    exact ⟨j, by rw [state?_move hi', if_neg hj, hstates, hstate]⟩
  case added => exact added

/-- What is running beside a call that ends. -/
theorem running_filter (h : Solo before s) (hi : s.state? i = some (k, state)) :
    ∀ p ∈ s.cache.running.filter fun p => p.1 != k,
      ∃ j, j ≠ i ∧ s.state? j = some (p.1, .extracting p.2) := by
  intro p hp
  obtain ⟨hp, hne⟩ := List.mem_filter.1 hp
  obtain ⟨j, hj⟩ := h.running p hp
  refine ⟨j, ?_, hj⟩
  rintro rfl
  rw [hi] at hj
  exact bne_iff_ne.1 hne (Prod.mk.inj (Option.some.inj hj)).1.symm

/-- **An extraction that succeeds** is added behind what is there. -/
theorem succeed (h : Solo before s) (i : Nat) (x : Extraction) (time : Binary64) :
    Solo before (s.step (.succeed i x time)) := by
  rw [step]
  split
  case h_2 => exact h
  case h_1 k t hi =>
    have hnone := h.entryOf?_eq_none hi fun _ => by simp
    obtain ⟨added, hadded⟩ := h.added
    have hnot : ∀ x, ¬ s.Gave k x := fun x hx => by simp [gave_iff h.keys hi, CallState.made?] at hx
    have hkeys : k ∉ s.cache.entries.map (·.1) := by
      rw [← EvidenceCache.paired?_eq_none_iff_notMem]
      exact (hadded.entryOf?_eq hnot).trans hnone
    let s' : CacheCalls := { s with cache := s.cache.complete k x time }
    have hgave (l : CacheKey) (y : Extraction) : (s'.move i k (.ended t (.ok x))).Gave l y ↔
        if l = k then x = y else s.Gave l y := by
      rw [gave_move (s := s') h.keys hi]
      simp [CallState.made?, Gave, s', state?]
    refine h.goOn hi hnone s' rfl (.ended t (.ok x)) (.inr ⟨.ok x, rfl⟩) (h.running_filter hi)
      ⟨added ++ [(k, ⟨k.fingerprint, x, time⟩)], ?_⟩
    constructor
    case entries =>
      have hentries := EvidenceCache.pair_of_notMem (a := ⟨k.fingerprint, x, time⟩) hkeys
      rw [← List.append_assoc, ← hadded.entries]
      exact hentries
    case nodup =>
      rw [List.map_append, List.map_singleton, ← List.concat_eq_append]
      exact hadded.nodup.concat (hadded.notMem hnot)
    case fingerprint =>
      rw [List.forall_mem_append]
      exact ⟨hadded.fingerprint, by simp⟩
    case gave =>
      rw [List.forall_mem_append]
      refine ⟨fun p hp => ?_, by simp [hgave]⟩
      have hne : p.1 ≠ k := fun heq => hnot _ (heq ▸ hadded.gave p hp)
      rw [hgave, if_neg hne]
      exact hadded.gave p hp
    case all =>
      intro l y hy
      rw [hgave] at hy
      rw [List.map_append, List.mem_append]
      split_ifs at hy with hl
      · exact .inr (by simp [hl])
      · exact .inl (hadded.all l y hy)
    case extractions =>
      rw [List.length_append, ← Nat.add_assoc, ← hadded.extractions]
      rfl

/-- **An extraction that ends with an exception** adds nothing. -/
theorem raise (h : Solo before s) (i : Nat) (reason : String) :
    Solo before (s.step (.raise i reason)) := by
  rw [step]
  split
  case h_2 => exact h
  case h_1 k t hi =>
    obtain ⟨added, hadded⟩ := h.added
    let s' : CacheCalls := { s with cache := s.cache.abandon k }
    refine h.goOn hi (h.entryOf?_eq_none hi fun _ => by simp) s' rfl _
      (.inr ⟨.error reason, rfl⟩) (h.running_filter hi) ⟨added, hadded.keep rfl rfl fun l y => ?_⟩
    rw [gave_move (s := s') h.keys hi]
    split_ifs with hl
    · subst hl
      simp [gave_iff h.keys hi, CallState.made?]
    · rfl

/-- **What is handed out** is what was made. -/
theorem handOut (h : Solo before s) (i : Nat) : Solo before (s.step (.handOut i)) := by
  rw [step]
  split
  case h_2 => exact h
  case h_1 k t r hi =>
    obtain ⟨added, hadded⟩ := h.added
    let s' : CacheCalls := { s with results := (t, r) :: s.results }
    have hmade := CallState.made?_handOut r
    refine h.goOn hi (h.entryOf?_eq_none hi fun _ => by simp) s' rfl _ (.inr ⟨r, hmade⟩)
      (fun p hp => ?_) ⟨added, hadded.keep rfl rfl fun l y => ?_⟩
    · obtain ⟨j, hj⟩ := h.running p hp
      refine ⟨j, ?_, hj⟩
      rintro rfl
      rw [hi] at hj
      cases hj
    · rw [gave_move (s := s') h.keys hi, hmade]
      split_ifs with hl
      · subst hl
        rw [gave_iff h.keys hi]
        rfl
      · rfl

/-- **Nobody waits.** -/
theorem not_waiting (h : Solo before s) {t : Nat} : s.state? i ≠ some (k, .waiting t) := by
  intro hi
  have hnone := h.entryOf?_eq_none hi fun _ => by simp
  obtain ⟨u, hu⟩ | ⟨r, hr⟩ := h.own i k _ hi hnone
  · cases hu
  · cases hr

theorem receive (h : Solo before s) (i : Nat) : s.step (.receive i) = s := by
  rw [step]
  split
  case h_2 => rfl
  case h_1 k t hi => exact absurd hi h.not_waiting

/-- **What a call got by its own extraction**, it has already or gets at the step. -/
theorem made?_of_becomes (h : Solo before s) {st : CacheStep} {a b : CallState}
    (hi : s.state? i = some (k, a)) (hb : Becomes s st i k a b) {r : Except String Extraction}
    (hmade : b.made? = some r) : a.made? = some r ∨ Ends i k r s st := by
  cases hb with
  | same => exact .inl hmade
  | ended t ends =>
    obtain rfl := Option.some.inj hmade
    exact .inr ends
  | handedOut t r' =>
    rw [CallState.made?_handOut] at hmade
    exact .inl hmade
  | received => exact absurd hi h.not_waiting

end Solo
end CacheCalls
end Conventions
