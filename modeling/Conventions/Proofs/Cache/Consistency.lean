import Conventions.Proofs.Cache.Trace
import Mathlib.Data.List.Induction

/-!
# Proofs/Cache/Consistency — the calls, what is running and what was told agree

`Consistent` is the invariant of a cache with many callers. It ties the list of what is running to
the calls that extract, and the state of each call to what happened in the run (`Explained`).

Most steps neither start nor end an extraction; they keep the invariant for one reason
(`Consistent.quiet`). The two that do are `Consistent.start` and `Consistent.finish`.
-/

namespace Conventions
namespace CacheCalls

variable {steps : List CacheStep} {s : CacheCalls} {st : CacheStep}
variable {i j : Nat} {k l m : CacheKey} {t u : Nat}

/-! ## Why a call is where it is -/

/-- **Why a call has its answer**: it found one, extracted itself, or joined an extraction that
ended so. -/
inductive Answered (steps : List CacheStep) (i : Nat) (k : CacheKey) :
    Except String (Extraction × Bool) → Prop where
  | found {x : Extraction} (finds : Took steps (Finds i k x)) : Answered steps i k (.ok (x, true))
  | own {t : Nat} {r : Except String Extraction} (starts : Took steps (Starts i k t))
      (ends : Took steps (Ends i k r)) : Answered steps i k (r.map fun x => (x, false))
  | shared {j : Nat} {r : Except String Extraction} (joins : Took steps (Joins i j k))
      (ends : Took steps (Ends j k r)) : Answered steps i k (r.map fun x => (x, true))

/-- **Why a call is in its state.** -/
def Explained (steps : List CacheStep) (i : Nat) : CacheKey × CallState → Prop
  | (k, .extracting t) => Took steps (Starts i k t)
  | (k, .ended t r) => Took steps (Starts i k t) ∧ Took steps (Ends i k r)
  | (k, .waiting t) => ∃ j, Took steps (Joins i j k) ∧ Took steps (Starts j k t)
  | (k, .answered a) => Answered steps i k a

theorem Answered.snoc {a : Except String (Extraction × Bool)} (h : Answered steps i k a) :
    Answered (steps ++ [st]) i k a := by
  cases h with
  | found finds => exact .found finds.snoc
  | own starts ends => exact .own starts.snoc ends.snoc
  | shared joins ends => exact .shared joins.snoc ends.snoc

theorem Explained.snoc {c : CacheKey × CallState} (h : Explained steps i c) :
    Explained (steps ++ [st]) i c := by
  obtain ⟨k, state⟩ := c
  cases state with
  | extracting t => exact Took.snoc h
  | ended t r => exact ⟨h.1.snoc, h.2.snoc⟩
  | waiting t =>
    obtain ⟨j, joins, starts⟩ := h
    exact ⟨j, joins.snoc, starts.snoc⟩
  | answered a => exact Answered.snoc h

/-! ## The invariant -/

/-- **What holds after every run.** -/
structure Consistent (steps : List CacheStep) (s : CacheCalls) : Prop where
  /-- What is running is being extracted by a call. -/
  runner : ∀ {k t}, (k, t) ∈ s.cache.running → ∃ i, s.state? i = some (k, .extracting t)
  /-- What a call extracts is running. -/
  running : ∀ {i k t}, s.state? i = some (k, .extracting t) → (k, t) ∈ s.cache.running
  /-- Nothing runs twice. -/
  once : ∀ {k t u}, (k, t) ∈ s.cache.running → (k, u) ∈ s.cache.running → t = u
  /-- The next ticket is a new one. -/
  fresh : ∀ {i k t}, Took steps (Starts i k t) → t < s.cache.nextTicket
  /-- A ticket belongs to one call. -/
  owner : ∀ {i j k l t}, Took steps (Starts i k t) → Took steps (Starts j l t) → i = j ∧ k = l
  /-- Every call is in its state for a reason. -/
  explained : ∀ {i c}, s.state? i = some c → Explained steps i c
  /-- What is handed out with a ticket is how the extraction with that ticket ended. -/
  result : ∀ {t r}, (t, r) ∈ s.results →
    ∃ j k, Took steps (Starts j k t) ∧ Took steps (Ends j k r)
  /-- A call whose extraction has ended keeps to how it ended. -/
  settled : ∀ {i k r}, Took steps (Ends i k r) →
    (∃ t, s.state? i = some (k, .ended t r)) ∨
      s.state? i = some (k, .answered (r.map fun x => (x, false)))
  /-- An extraction that was started is running, has ended or was handed out. -/
  served : ∀ {j k t}, Took steps (Starts j k t) →
    s.state? j = some (k, .extracting t) ∨ (∃ r, s.state? j = some (k, .ended t r)) ∨
      ∃ r, (t, r) ∈ s.results
  /-- What stands under a key was stored under it. -/
  stored : ∀ {k e}, s.cache.entryOf? k = some e → Took steps (Stores k e.extraction)

theorem consistent_nil : Consistent [] (start .empty) where
  runner h := nomatch h
  running h := nomatch h
  once h := nomatch h
  fresh h := absurd h not_took_nil
  owner h := absurd h not_took_nil
  explained h := nomatch h
  result h := nomatch h
  settled h := absurd h not_took_nil
  served h := absurd h not_took_nil
  stored h := nomatch h

/-- **A key is extracted by one call**, with one ticket. -/
theorem Consistent.extracting_unique (h : Consistent steps s)
    (hi : s.state? i = some (k, .extracting t)) (hj : s.state? j = some (k, .extracting u)) :
    i = j ∧ t = u := by
  obtain rfl := h.once (h.running hi) (h.running hj)
  exact ⟨(h.owner (h.explained hi) (h.explained hj)).1, rfl⟩

/-- What a call still extracts has not ended. -/
theorem Consistent.not_ended {r : Except String Extraction} (h : Consistent steps s)
    (hi : s.state? i = some (k, .extracting t)) : ¬ Took steps (Ends i l r) := by
  intro he
  obtain ⟨u, hu⟩ | hu := h.settled he <;> simp [hi] at hu

/-! ## Steps that neither start nor end an extraction -/

/-- **Such a step keeps the invariant** if it leaves what is running, gives reasons for what it
changes, and keeps what has ended. -/
theorem Consistent.quiet {s' : CacheCalls} (h : Consistent steps (after steps))
    (starts : ∀ i k t, ¬ Starts i k t (after steps) st)
    (ends : ∀ i k r, ¬ Ends i k r (after steps) st)
    (running : s'.cache.running = (after steps).cache.running)
    (nextTicket : s'.cache.nextTicket = (after steps).cache.nextTicket)
    (extracting : ∀ i k t, s'.state? i = some (k, .extracting t) ↔
      (after steps).state? i = some (k, .extracting t))
    (explained : ∀ i c, s'.state? i = some c →
      (after steps).state? i = some c ∨ Explained (steps ++ [st]) i c)
    (ended : ∀ i k t r, (after steps).state? i = some (k, .ended t r) →
      s'.state? i = some (k, .ended t r) ∨
        s'.state? i = some (k, .answered (r.map fun x => (x, false))) ∧ (t, r) ∈ s'.results)
    (answered : ∀ i k a, (after steps).state? i = some (k, .answered a) →
      s'.state? i = some (k, .answered a))
    (kept : ∀ p ∈ (after steps).results, p ∈ s'.results)
    (result : ∀ t r, (t, r) ∈ s'.results → (t, r) ∈ (after steps).results ∨
      ∃ j k, Took steps (Starts j k t) ∧ Took steps (Ends j k r))
    (stored : ∀ k e, s'.cache.entryOf? k = some e →
      (after steps).cache.entryOf? k = some e ∨ Stores k e.extraction (after steps) st) :
    Consistent (steps ++ [st]) s' := by
  have oldStart {i k t} (hs : Took (steps ++ [st]) (Starts i k t)) : Took steps (Starts i k t) :=
    (took_snoc.1 hs).resolve_right (starts i k t)
  have oldEnd {i k r} (he : Took (steps ++ [st]) (Ends i k r)) : Took steps (Ends i k r) :=
    (took_snoc.1 he).resolve_right (ends i k r)
  constructor
  case runner =>
    intro k t hrun
    rw [running] at hrun
    obtain ⟨i, hi⟩ := h.runner hrun
    exact ⟨i, (extracting i k t).2 hi⟩
  case running =>
    intro i k t hi
    rw [running]
    exact h.running ((extracting i k t).1 hi)
  case once =>
    intro k t u ht hu
    rw [running] at ht hu
    exact h.once ht hu
  case fresh =>
    intro i k t hs
    rw [nextTicket]
    exact h.fresh (oldStart hs)
  case owner =>
    intro i j k l t hi hj
    exact h.owner (oldStart hi) (oldStart hj)
  case explained =>
    intro i c hi
    obtain hi | hi := explained i c hi
    · exact (h.explained hi).snoc
    · exact hi
  case result =>
    intro t r hr
    obtain hr | ⟨j, k, hs, he⟩ := result t r hr
    · obtain ⟨j, k, hs, he⟩ := h.result hr
      exact ⟨j, k, hs.snoc, he.snoc⟩
    · exact ⟨j, k, hs.snoc, he.snoc⟩
  case settled =>
    intro i k r he
    obtain ⟨t, hi⟩ | hi := h.settled (oldEnd he)
    · obtain hi | ⟨hi, -⟩ := ended i k t r hi
      · exact .inl ⟨t, hi⟩
      · exact .inr hi
    · exact .inr (answered i k _ hi)
  case served =>
    intro j k t hs
    obtain hj | ⟨r, hj⟩ | ⟨r, hr⟩ := h.served (oldStart hs)
    · exact .inl ((extracting j k t).2 hj)
    · obtain hj | ⟨-, hr⟩ := ended j k t r hj
      · exact .inr (.inl ⟨r, hj⟩)
      · exact .inr (.inr ⟨r, hr⟩)
    · exact .inr (.inr ⟨r, kept _ hr⟩)
  case stored =>
    intro k e he
    obtain he | he := stored k e he
    · exact (h.stored he).snoc
    · exact .last he

/-- A call that begins without extracting. -/
theorem Consistent.begin {cache : EvidenceCache} {state : CallState}
    (h : Consistent steps (after steps))
    (starts : ∀ i k t, ¬ Starts i k t (after steps) st)
    (ends : ∀ i k r, ¬ Ends i k r (after steps) st)
    (running : cache.running = (after steps).cache.running)
    (nextTicket : cache.nextTicket = (after steps).cache.nextTicket)
    (entry : ∀ k, cache.entryOf? k = (after steps).cache.entryOf? k)
    (waits : ∀ t, state ≠ .extracting t)
    (explained : Explained (steps ++ [st]) (after steps).calls.length (k, state)) :
    Consistent (steps ++ [st])
      ⟨cache, (after steps).calls ++ [(k, state)], (after steps).results⟩ := by
  refine h.quiet starts ends running nextTicket
    (fun i l t => ⟨fun hi => ?_, state?_append_of_state?⟩) (fun i c hi => ?_)
    (fun i l t r hi => .inl (state?_append_of_state? hi)) (fun i l a => state?_append_of_state?)
    (fun _ => id) (fun _ _ => .inl) (fun l e he => .inl (entry l ▸ he))
  · obtain ⟨-, hc⟩ | hi := last_or_state?_of_append hi
    · exact absurd (congrArg Prod.snd hc) (waits t)
    · exact hi
  · obtain ⟨rfl, rfl⟩ | hi := last_or_state?_of_append hi
    · exact .inr explained
    · exact .inl hi

theorem Consistent.find {e : CacheEntry} (h : Consistent steps (after steps))
    (entry : (after steps).cache.entryOf? k = some e) :
    Consistent (steps ++ [.call k])
      ⟨{ (after steps).cache with hits := (after steps).cache.hits + 1 },
        (after steps).calls ++ [(k, .answered (.ok (e.extraction, true)))],
        (after steps).results⟩ := by
  refine h.begin (fun i l t hs => ?_) (by simp [Ends]) rfl rfl (fun _ => rfl) (by simp) ?_
  · obtain ⟨hst, -, hnone, -⟩ := hs
    cases hst
    simp [entry] at hnone
  · exact .found (.last ⟨rfl, rfl, e, entry, rfl⟩)

theorem Consistent.join (h : Consistent steps (after steps))
    (entry : (after steps).cache.entryOf? k = none)
    (running : (k, t) ∈ (after steps).cache.running) :
    Consistent (steps ++ [.call k])
      ⟨{ (after steps).cache with hits := (after steps).cache.hits + 1 },
        (after steps).calls ++ [(k, .waiting t)], (after steps).results⟩ := by
  refine h.begin (fun i l u hs => ?_) (by simp [Ends]) rfl rfl (fun _ => rfl) (by simp) ?_
  · obtain ⟨hst, -, -, hidle, -⟩ := hs
    cases hst
    exact hidle t running
  · obtain ⟨j, hj⟩ := h.runner running
    have starts : Took steps (Starts j k t) := h.explained hj
    exact ⟨j, .last ⟨rfl, rfl, entry, t, hj⟩, starts.snoc⟩

/-- A call that is answered, whose extraction is not running. -/
theorem Consistent.answer {c : CallState} {results : List (Nat × Except String Extraction)}
    {a : Except String (Extraction × Bool)} (h : Consistent steps (after steps))
    (starts : ∀ i k t, ¬ Starts i k t (after steps) st)
    (ends : ∀ i k r, ¬ Ends i k r (after steps) st)
    (state : (after steps).state? i = some (k, c)) (idle : ∀ t, c ≠ .extracting t)
    (unanswered : ∀ b, c ≠ .answered b)
    (explained : Answered (steps ++ [st]) i k a)
    (ended : ∀ t r, c = .ended t r → a = r.map (fun x => (x, false)) ∧ (t, r) ∈ results)
    (kept : ∀ p ∈ (after steps).results, p ∈ results)
    (result : ∀ t r, (t, r) ∈ results → (t, r) ∈ (after steps).results ∨
      ∃ j k, Took steps (Starts j k t) ∧ Took steps (Ends j k r)) :
    Consistent (steps ++ [st])
      ({ after steps with results := results }.move i k (.answered a)) := by
  have moved (j : Nat) :
      ({ after steps with results := results }.move i k (.answered a)).state? j =
        if j = i then some (k, .answered a) else (after steps).state? j := state?_move state _
  refine h.quiet starts ends rfl rfl (fun j l t => ?_) (fun j d hj => ?_) (fun j l t r hj => ?_)
    (fun j l b hj => ?_) kept result (fun l e => .inl)
  · rw [moved]
    split
    case isTrue hj =>
      rw [hj, state]
      refine ⟨fun hi => ?_, fun hi => ?_⟩
      · simp at hi
      · exact absurd (congrArg Prod.snd (Option.some.inj hi)) (idle t)
    case isFalse => rfl
  · rw [moved] at hj
    split at hj
    case isTrue hi =>
      obtain rfl := Option.some.inj hj
      exact .inr (hi ▸ explained)
    case isFalse => exact .inl hj
  · rw [moved]
    split
    case isTrue hi =>
      rw [hi, state] at hj
      obtain ⟨rfl, hc⟩ := Prod.ext_iff.1 (Option.some.inj hj)
      obtain ⟨rfl, hr⟩ := ended t r hc
      exact .inr ⟨rfl, hr⟩
    case isFalse => exact .inl hj
  · rw [moved, if_neg]
    · exact hj
    · rintro rfl
      rw [state] at hj
      exact unanswered b (congrArg Prod.snd (Option.some.inj hj))

theorem Consistent.handOut {r : Except String Extraction} (h : Consistent steps (after steps))
    (state : (after steps).state? i = some (k, .ended t r)) :
    Consistent (steps ++ [.handOut i])
      ({ after steps with results := (t, r) :: (after steps).results }.move i k
        (.answered (r.map fun x => (x, false)))) := by
  obtain ⟨hstarts, hends⟩ : Took steps (Starts i k t) ∧ Took steps (Ends i k r) := h.explained state
  refine h.answer (by simp [Starts]) (by simp [Ends]) state (by simp) (by simp)
    (.own hstarts.snoc hends.snoc) (fun u q hq => ?_) (fun p => List.mem_cons_of_mem _)
    (fun u q hq => ?_)
  · cases hq
    exact ⟨rfl, List.mem_cons_self⟩
  · obtain heq | hq := List.mem_cons.1 hq
    · cases heq
      exact .inr ⟨i, k, hstarts, hends⟩
    · exact .inl hq

theorem Consistent.receive {r : Except String Extraction} (h : Consistent steps (after steps))
    (state : (after steps).state? i = some (k, .waiting t)) (hr : (t, r) ∈ (after steps).results) :
    Consistent (steps ++ [.receive i])
      ((after steps).move i k (.answered (r.map fun x => (x, true)))) := by
  obtain ⟨j, joins, starts⟩ : ∃ j, Took steps (Joins i j k) ∧ Took steps (Starts j k t) :=
    h.explained state
  obtain ⟨j', k', starts', ends⟩ := h.result hr
  -- the ticket says whose extraction was joined
  obtain ⟨rfl, rfl⟩ := h.owner starts starts'
  exact h.answer (by simp [Starts]) (by simp [Ends]) state (by simp) (by simp)
    (.shared joins.snoc ends.snoc) (by simp) (fun _ => id) (fun _ _ => .inl)

/-! ## Starting and ending -/

theorem newest_of_starts_call (h : Starts i l t s (.call k)) :
    i = s.calls.length ∧ l = k ∧ t = s.cache.nextTicket := by
  obtain ⟨hst, hi, -, -, ht⟩ := h
  cases hst
  exact ⟨hi, rfl, ht⟩

/-- **The next ticket goes to one call**: older tickets lie below it. -/
theorem Consistent.owner_call (h : Consistent steps (after steps))
    (hi : Took (steps ++ [.call k]) (Starts i l t)) (hj : Took (steps ++ [.call k]) (Starts j m t)) :
    i = j ∧ l = m := by
  obtain hi | hi := took_snoc.1 hi <;> obtain hj | hj := took_snoc.1 hj
  · exact h.owner hi hj
  · obtain ⟨-, -, rfl⟩ := newest_of_starts_call hj
    exact absurd (h.fresh hi) (Nat.lt_irrefl _)
  · obtain ⟨-, -, rfl⟩ := newest_of_starts_call hi
    exact absurd (h.fresh hj) (Nat.lt_irrefl _)
  · obtain ⟨rfl, rfl, -⟩ := newest_of_starts_call hi
    obtain ⟨rfl, rfl, -⟩ := newest_of_starts_call hj
    exact ⟨rfl, rfl⟩

theorem Consistent.start (h : Consistent steps (after steps))
    (entry : (after steps).cache.entryOf? k = none)
    (idle : ∀ t, (k, t) ∉ (after steps).cache.running) :
    Consistent (steps ++ [.call k])
      ⟨{ (after steps).cache with
          running := (k, (after steps).cache.nextTicket) :: (after steps).cache.running
          nextTicket := (after steps).cache.nextTicket + 1
          misses := (after steps).cache.misses + 1 },
        (after steps).calls ++ [(k, .extracting (after steps).cache.nextTicket)],
        (after steps).results⟩ := by
  have starts : Starts (after steps).calls.length k (after steps).cache.nextTicket (after steps)
      (.call k) := ⟨rfl, rfl, entry, idle, rfl⟩
  have last : ((after steps).calls ++ [(k, .extracting (after steps).cache.nextTicket)])[
      (after steps).calls.length]? = some (k, .extracting (after steps).cache.nextTicket) := by
    rw [state?_append, if_pos rfl]
  constructor
  case runner =>
    intro l t hrun
    obtain heq | hrun := List.mem_cons.1 hrun
    · cases heq
      exact ⟨_, last⟩
    · obtain ⟨i, hi⟩ := h.runner hrun
      exact ⟨i, state?_append_of_state? hi⟩
  case running =>
    intro i l t hi
    obtain ⟨-, hc⟩ | hi := last_or_state?_of_append hi
    · cases hc
      exact List.mem_cons_self
    · exact List.mem_cons_of_mem _ (h.running hi)
  case once =>
    intro l t u ht hu
    obtain ht | ht := List.mem_cons.1 ht <;> obtain hu | hu := List.mem_cons.1 hu
    · exact (congrArg Prod.snd ht).trans (congrArg Prod.snd hu).symm
    · cases ht
      exact absurd hu (idle u)
    · cases hu
      exact absurd ht (idle t)
    · exact h.once ht hu
  case fresh =>
    intro i l t hs
    obtain hs | hs := took_snoc.1 hs
    · exact Nat.lt_succ_of_lt (h.fresh hs)
    · obtain ⟨-, -, rfl⟩ := newest_of_starts_call hs
      exact Nat.lt_succ_self _
  case owner => exact h.owner_call
  case explained =>
    intro i c hi
    obtain ⟨rfl, rfl⟩ | hi := last_or_state?_of_append hi
    · exact .last starts
    · exact (h.explained hi).snoc
  case result =>
    intro t r hr
    obtain ⟨j, l, hs, he⟩ := h.result hr
    exact ⟨j, l, hs.snoc, he.snoc⟩
  case settled =>
    intro i l r he
    have he : Took steps (Ends i l r) := (took_snoc.1 he).resolve_right (by simp [Ends])
    obtain ⟨t, hi⟩ | hi := h.settled he
    · exact .inl ⟨t, state?_append_of_state? hi⟩
    · exact .inr (state?_append_of_state? hi)
  case served =>
    intro j l t hs
    obtain hs | hs := took_snoc.1 hs
    · obtain hj | ⟨r, hj⟩ | hr := h.served hs
      · exact .inl (state?_append_of_state? hj)
      · exact .inr (.inl ⟨r, state?_append_of_state? hj⟩)
      · exact .inr (.inr hr)
    · obtain ⟨rfl, rfl, rfl⟩ := newest_of_starts_call hs
      exact .inl last
  case stored =>
    intro l e he
    exact (h.stored he).snoc

theorem ends_unique {m : CacheKey} {q r : Except String Extraction} (hi : Ends i k r s st)
    (hj : Ends j m q s st) : j = i ∧ m = k ∧ q = r := by
  obtain ⟨⟨t, ht⟩, hi⟩ := hi
  obtain ⟨⟨u, hu⟩, hj⟩ := hj
  have hji : j = i ∧ q = r := by
    obtain ⟨x, time, rfl, rfl⟩ | ⟨reason, rfl, rfl⟩ := hi <;>
      obtain ⟨y, time', hst, rfl⟩ | ⟨reason', hst, rfl⟩ := hj <;> cases hst
    · exact ⟨rfl, rfl⟩
    · exact ⟨rfl, rfl⟩
  obtain ⟨rfl, rfl⟩ := hji
  rw [ht] at hu
  cases hu
  exact ⟨rfl, rfl, rfl⟩

theorem not_starts_of_ends {r : Except String Extraction} (h : Ends i k r s st) :
    ¬ Starts j l t s st := by
  rintro ⟨rfl, -⟩
  simp [Ends] at h

theorem Consistent.finish {cache : EvidenceCache} {r : Except String Extraction}
    (h : Consistent steps (after steps)) (state : (after steps).state? i = some (k, .extracting t))
    (ends : Ends i k r (after steps) st)
    (running : cache.running = (after steps).cache.running.filter fun p => p.1 != k)
    (nextTicket : cache.nextTicket = (after steps).cache.nextTicket)
    (entry : ∀ k e, cache.entryOf? k = some e →
      (after steps).cache.entryOf? k = some e ∨ Stores k e.extraction (after steps) st) :
    Consistent (steps ++ [st])
      ({ after steps with cache := cache }.move i k (.ended t r)) := by
  have oldStart {j l u} (hs : Took (steps ++ [st]) (Starts j l u)) : Took steps (Starts j l u) :=
    (took_snoc.1 hs).resolve_right (not_starts_of_ends ends)
  have moved (j : Nat) : ({ after steps with cache := cache }.move i k (.ended t r)).state? j =
      if j = i then some (k, .ended t r) else (after steps).state? j := state?_move state _
  have mem_running {l u} : (l, u) ∈ cache.running ↔ (l, u) ∈ (after steps).cache.running ∧ l ≠ k := by
    simp [running]
  have starts : Took steps (Starts i k t) := h.explained state
  constructor
  case runner =>
    intro l u hrun
    obtain ⟨hrun, hne⟩ := mem_running.1 hrun
    obtain ⟨j, hj⟩ := h.runner hrun
    refine ⟨j, ?_⟩
    rw [moved, if_neg]
    · exact hj
    · rintro rfl
      rw [state] at hj
      cases hj
      exact hne rfl
  case running =>
    intro j l u hj
    rw [moved] at hj
    split at hj
    case isTrue => simp at hj
    case isFalse hne =>
      refine mem_running.2 ⟨h.running hj, ?_⟩
      rintro rfl
      exact hne (h.extracting_unique hj state).1
  case once =>
    intro l u v hu hv
    exact h.once (mem_running.1 hu).1 (mem_running.1 hv).1
  case fresh =>
    intro j l u hs
    exact nextTicket ▸ h.fresh (oldStart hs)
  case owner =>
    intro j m l n u hj hm
    exact h.owner (oldStart hj) (oldStart hm)
  case explained =>
    intro j c hj
    rw [moved] at hj
    split at hj
    case isTrue hji =>
      cases hj
      exact ⟨hji ▸ starts.snoc, .last (hji ▸ ends)⟩
    case isFalse => exact (h.explained hj).snoc
  case result =>
    intro u q hq
    obtain ⟨j, l, hs, he⟩ := h.result hq
    exact ⟨j, l, hs.snoc, he.snoc⟩
  case settled =>
    intro j l q he
    obtain he | he := took_snoc.1 he
    · rw [moved, if_neg]
      · exact h.settled he
      · rintro rfl
        exact h.not_ended state he
    · obtain ⟨rfl, rfl, rfl⟩ := ends_unique ends he
      exact .inl ⟨t, by rw [moved, if_pos rfl]⟩
  case served =>
    intro j l u hs
    rw [moved]
    split
    case isTrue hji =>
      obtain ⟨rfl, rfl⟩ | hj | hr : (k = l ∧ t = u) ∨
          (∃ q, (after steps).state? j = some (l, .ended u q)) ∨
            ∃ q, (u, q) ∈ (after steps).results := by
        simpa [hji, state] using h.served (oldStart hs)
      · exact .inr (.inl ⟨r, rfl⟩)
      · simp [hji, state] at hj
      · exact .inr (.inr hr)
    case isFalse => exact h.served (oldStart hs)
  case stored =>
    intro l e he
    obtain he | he := entry l e he
    · exact (h.stored he).snoc
    · exact .last he

/-- A step that touches neither the calls nor what is running. -/
theorem Consistent.other {cache : EvidenceCache} (h : Consistent steps (after steps))
    (call : ∀ k, st ≠ .call k) (ends : ∀ i k r, ¬ Ends i k r (after steps) st)
    (running : cache.running = (after steps).cache.running)
    (nextTicket : cache.nextTicket = (after steps).cache.nextTicket)
    (entry : ∀ k e, cache.entryOf? k = some e →
      (after steps).cache.entryOf? k = some e ∨ Stores k e.extraction (after steps) st) :
    Consistent (steps ++ [st]) { after steps with cache := cache } :=
  h.quiet (fun _ k _ hs => call k hs.1) ends running nextTicket (fun _ _ _ => .rfl) (fun _ _ => .inl)
    (fun _ _ _ _ => .inl) (fun _ _ _ => id) (fun _ => id) (fun _ _ => .inl) entry

/-- **The invariant holds after every run.** -/
theorem consistent_after (steps : List CacheStep) : Consistent steps (after steps) := by
  induction steps using List.reverseRecOn with
  | nil => exact consistent_nil
  | append_singleton steps st h =>
    rw [after_snoc]
    have step := step_transition (after steps) st
    generalize (after steps).step st = s' at step
    cases step with
    | find entry => exact h.find entry
    | join entry running => exact h.join entry running
    | start entry idle => exact h.start entry idle
    | finish state ends running nextTicket entry =>
      exact h.finish state ends running nextTicket entry
    | handOut state => exact h.handOut state
    | receive state result => exact h.receive state result
    | other call ends running nextTicket entry => exact h.other call ends running nextTicket entry

end CacheCalls
end Conventions
