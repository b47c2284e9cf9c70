import Conventions.Proofs.Text.Pattern

/-!
# Proofs/Text/Locality — what a match depends on

A match depends on what it reads and, if the pattern looks around, on the characters beside that, but on
nothing further away (`mem_ends_of_passes`). So a match can be carried to another text. What a match
reads begins and ends with characters that are told by the pattern (`begins`, `finishes`), and a pattern
that consumes reads something at every match. How much it reads at least is told as well
(`least_le_length`).
-/

namespace Conventions.Text

namespace Place.Passes

variable {p q p' q' : Place} {read more : List Char}

theorem read_eq (h : p.Passes read q) (h' : p.Passes more q) : read = more :=
  List.append_cancel_right (h.rest.symm.trans h'.rest)

theorem eq_nil (h : p.Passes read p) : read = [] := h.read_eq (.refl p)

/-- Where two texts go on after the same characters, they agree there on the next one if they do at
the end. -/
theorem head?_eq (h : p.Passes read q) (h' : p'.Passes read q')
    (hnext : q.rest.head? = q'.rest.head?) : p.rest.head? = p'.rest.head? := by
  rw [h.rest, h'.rest]
  cases read with
  | nil => exact hnext
  | cons c read => rfl

theorem before_eq (h : p.Passes read q) (h' : p'.Passes read q')
    (hbefore : p.before = p'.before) : q.before = q'.before := by
  rw [h.before, h'.before, hbefore]

end Place.Passes

namespace Pattern

variable {a b : Pattern} {p q p' q' : Place} {c : Char} {read : List Char}

/-! ## What is looked at -/

/-- **Does a pattern look around**: at characters that it does not read? -/
def looks : Pattern → Bool
  | .class _ => false
  | .seq a b => a.looks || b.looks
  | .choice a b => a.looks || b.looks
  | .times a _ _ => a.looks
  | .atLeast a _ => a.looks
  | .wordEdge => true
  | .after _ => true
  | .ahead _ => true
  | .empty => false

/-- **A step that sees no more than it reads** and, if it looks around, the characters beside that. -/
def Local (looks : Bool) (step : Place → List Place) : Prop :=
  ∀ ⦃p q p' q' : Place⦄ ⦃read : List Char⦄, q ∈ step p → p.Passes read q → p'.Passes read q' →
    (looks = true → p.before = p'.before ∧ q.rest.head? = q'.rest.head?) → q' ∈ step p'

namespace Local

variable {l l' : Bool} {step step' : Place → List Place} {holds holds' : Char → Prop}

theorem mono (h : Local l step) (hl : l = true → l' = true) : Local l' step :=
  fun _ _ _ _ _ hq hread hread' halike => h hq hread hread' fun h => halike (hl h)

theorem seq (h : Local l step) (h' : Local l step') (hw : Within holds step)
    (hw' : Within holds' step') : Local l fun p => (step p).flatMap step' := by
  intro p q p' q' read hq hread hread' halike
  obtain ⟨m, hm, hq⟩ := List.mem_flatMap.1 hq
  obtain ⟨front, hfront, -⟩ := hw p m hm
  obtain ⟨back, hback, -⟩ := hw' m q hq
  obtain ⟨m', hfront', hback'⟩ := hread'.split front back ((hfront.trans hback).read_eq hread)
  refine List.mem_flatMap.2 ⟨m', h hm hfront hfront' fun hl => ?_, h' hq hback hback' fun hl => ?_⟩
  · exact ⟨(halike hl).1, hback.head?_eq hback' (halike hl).2⟩
  · exact ⟨hfront.before_eq hfront' (halike hl).1, (halike hl).2⟩

/-- A test of the characters beside a place sees no more than these. -/
theorem guard {test : Place → Bool} (h : ∀ p p' : Place, p.before = p'.before →
      p.rest.head? = p'.rest.head? → test p = test p') :
    Local true fun p => if test p then [p] else [] := by
  intro p q p' q' read hq hread hread' halike
  simp only at hq
  split at hq
  case isTrue htest =>
    obtain rfl := List.mem_singleton.1 hq
    obtain rfl := hread.eq_nil
    obtain rfl := hread'.eq (.refl p')
    obtain ⟨hbefore, hnext⟩ := halike rfl
    have htest' : test q' = true := (h q q' hbefore hnext).symm.trans htest
    simp [htest']
  case isFalse => cases hq

theorem exactly (h : Local l step) (hw : Within holds step) (n : Nat) :
    Local l (exactly step n) := by
  induction n with
  | zero =>
    intro p q p' q' read hq hread hread' _
    obtain rfl := List.mem_singleton.1 hq
    obtain rfl := hread.eq_nil
    exact List.mem_singleton.2 (hread'.eq (.refl p'))
  | succ n ih => exact h.seq ih hw (hw.exactly n)

/-- Steps that move on can be repeated in another text, as often as there or as often as characters are
read. -/
theorem mem_upTo (h : Local l step) (hw : Within holds step) {n n' : Nat}
    (hq : q ∈ upTo step n p) (hread : p.Passes read q) (hread' : p'.Passes read q')
    (halike : l = true → p.before = p'.before ∧ q.rest.head? = q'.rest.head?)
    (hn : n ≤ n' ∨ read.length ≤ n') : q' ∈ upTo step n' p' := by
  have hstay {n' : Nat} {p p' q' : Place} {read : List Char} (hread : p.Passes read p)
      (hread' : p'.Passes read q') : q' ∈ upTo step n' p' := by
    obtain rfl := hread.eq_nil
    obtain rfl := hread'.eq (.refl p')
    cases n' with
    | zero => exact List.mem_singleton.2 rfl
    | succ n' => exact List.mem_append_right _ (List.mem_singleton.2 rfl)
  induction n generalizing p p' read n' with
  | zero =>
    obtain rfl := List.mem_singleton.1 hq
    exact hstay hread hread'
  | succ n ih =>
    obtain hq | hq := List.mem_append.1 hq
    · obtain ⟨m, hm, hq⟩ := List.mem_flatMap.1 hq
      obtain ⟨hm, hmoves⟩ := List.mem_filter.1 hm
      obtain ⟨front, hfront, -⟩ := hw p m hm
      obtain ⟨back, hback, -⟩ := hw.upTo n m q hq
      obtain rfl := (hfront.trans hback).read_eq hread
      obtain ⟨m', hfront', hback'⟩ := hread'.split front back rfl
      have hpos : front.length ≠ 0 := by
        rw [decide_eq_true_iff, hfront.rest, List.length_append] at hmoves
        omega
      obtain ⟨n', rfl⟩ : ∃ k, n' = k + 1 := by
        refine ⟨n' - 1, ?_⟩
        rw [List.length_append] at hn
        omega
      refine List.mem_append_left _ (List.mem_flatMap.2 ⟨m', List.mem_filter.2 ⟨?_, ?_⟩, ?_⟩)
      · exact h hm hfront hfront' fun hl => ⟨(halike hl).1, hback.head?_eq hback' (halike hl).2⟩
      · rw [decide_eq_true_iff, hfront'.rest, List.length_append]
        omega
      · refine ih hq hback hback'
          (fun hl => ⟨hfront.before_eq hfront' (halike hl).1, (halike hl).2⟩) ?_
        rw [List.length_append] at hn
        omega
    · obtain rfl := List.mem_singleton.1 hq
      exact hstay hread hread'

end Local

/-- **A match can be carried to another text**: only what it reads counts and, if the pattern looks
around, the characters beside that. -/
theorem mem_ends_of_passes (a : Pattern) : Local a.looks a.ends := by
  induction a with
  | «class» holds =>
    intro p q p' q' read hq hread hread' _
    obtain ⟨c, hc, hone⟩ := mem_ends_class.1 hq
    obtain rfl := hone.read_eq hread
    exact mem_ends_class.2 ⟨c, hc, hread'⟩
  | seq a b iha ihb =>
    exact (iha.mono fun h => Bool.or_eq_true_iff.2 (.inl h)).seq
      (ihb.mono fun h => Bool.or_eq_true_iff.2 (.inr h)) (reads_of_mem_ends a) (reads_of_mem_ends b)
  | choice a b iha ihb =>
    intro p q p' q' read hq hread hread' halike
    obtain hq | hq := List.mem_append.1 hq
    · exact List.mem_append_left _
        (iha hq hread hread' fun h => halike (Bool.or_eq_true_iff.2 (.inl h)))
    · exact List.mem_append_right _
        (ihb hq hread hread' fun h => halike (Bool.or_eq_true_iff.2 (.inr h)))
  | times a least more ih =>
    have hw := reads_of_mem_ends a
    have hmore : Local a.looks (upTo a.ends more) := fun _ _ _ _ _ hq hread hread' halike =>
      ih.mem_upTo hw hq hread hread' halike (.inl (Nat.le_refl _))
    exact (ih.exactly hw least).seq hmore (hw.exactly least) (hw.upTo more)
  | atLeast a least ih =>
    have hw := reads_of_mem_ends a
    have hmore : Local a.looks fun q => upTo a.ends q.rest.length q := by
      intro p q p' q' read hq hread hread' halike
      refine ih.mem_upTo hw hq hread hread' halike (.inr ?_)
      rw [hread'.rest, List.length_append]
      exact Nat.le_add_right _ _
    exact (ih.exactly hw least).seq hmore (hw.exactly least) fun p q => hw.upTo p.rest.length p q
  | wordEdge =>
    exact .guard fun p p' hbefore hnext => by rw [atWordEdge, atWordEdge, hbefore, hnext]
  | after holds => exact .guard fun p p' hbefore _ => by rw [hbefore]
  | ahead holds => exact .guard fun p p' _ hnext => by rw [hnext]
  | empty =>
    intro p q p' q' read hq hread hread' _
    obtain rfl := List.mem_singleton.1 hq
    obtain rfl := hread.eq_nil
    exact List.mem_singleton.2 (hread'.eq (.refl p'))

/-- A match of a pattern that does not look around can be carried to any text. -/
theorem mem_ends_of_passes_of_not_looks (ha : a.looks = false) (hq : q ∈ a.ends p)
    (hread : p.Passes read q) (hread' : p'.Passes read q') : q' ∈ a.ends p' :=
  mem_ends_of_passes a hq hread hread' fun h => absurd (ha.symm.trans h) Bool.false_ne_true

/-- **What stands behind a character that is never read** does not matter. -/
theorem ends_append_eq_nil {before : Option Char} {front rest : List Char} (hc : a.reads c = false)
    (h : a.ends ⟨before, front ++ [c]⟩ = []) : a.ends ⟨before, front ++ c :: rest⟩ = [] := by
  refine List.eq_nil_iff_forall_not_mem.2 fun q hq => ?_
  obtain ⟨read, hread, hall⟩ := reads_of_mem_ends a _ q hq
  obtain ⟨more, hfront, hrest⟩ :=
    exists_append_of_not_mem hread.rest.symm (notMem_of_reads hc hall)
  have hread' : Place.Passes ⟨before, front ++ [c]⟩ read ⟨q.before, more ++ [c]⟩ := by
    refine ⟨?_, hread.before⟩
    rw [hfront, List.append_assoc]
  have hmem := mem_ends_of_passes a hq hread hread' fun _ => ⟨rfl, by rw [hrest]; cases more <;> rfl⟩
  rw [h] at hmem
  cases hmem

/-! ## What is read first and last -/

/-- **Does every match read something?** -/
def consumes : Pattern → Bool
  | .class _ => true
  | .seq a b => a.consumes || b.consumes
  | .choice a b => a.consumes && b.consumes
  | .times a least _ => least != 0 && a.consumes
  | .atLeast a least => least != 0 && a.consumes
  | .wordEdge => false
  | .after _ => false
  | .ahead _ => false
  | .empty => false

/-- **Can what a match reads begin with a character?** -/
def begins : Pattern → Char → Bool
  | .class holds, c => holds c
  | .seq a b, c => a.begins c || (!a.consumes && b.begins c)
  | .choice a b, c => a.begins c || b.begins c
  | .times a _ _, c => a.begins c
  | .atLeast a _, c => a.begins c
  | .wordEdge, _ => false
  | .after _, _ => false
  | .ahead _, _ => false
  | .empty, _ => false

/-- **Can what a match reads end with a character?** -/
def finishes : Pattern → Char → Bool
  | .class holds, c => holds c
  | .seq a b, c => b.finishes c || (!b.consumes && a.finishes c)
  | .choice a b, c => a.finishes c || b.finishes c
  | .times a _ _, c => a.finishes c
  | .atLeast a _, c => a.finishes c
  | .wordEdge, _ => false
  | .after _, _ => false
  | .ahead _, _ => false
  | .empty, _ => false

/-- **The bounds of what is read**: whether it is never empty, and what it begins and ends with. -/
structure Bounds (full : Bool) (first last : Char → Bool) (read : List Char) : Prop where
  ne_nil : full = true → read ≠ []
  first : ∀ c ∈ read.head?, first c = true
  last : ∀ c ∈ read.getLast?, last c = true

namespace Bounds

variable {full full' : Bool} {first last first' last' : Char → Bool} {more : List Char}

theorem nil : Bounds false first last [] :=
  ⟨fun h => (nomatch h), fun _ h => (nomatch h), fun _ h => nomatch h⟩

theorem mono (h : Bounds full first last read) (hfull : full' = true → full = true)
    (hfirst : ∀ c, first c = true → first' c = true) (hlast : ∀ c, last c = true → last' c = true) :
    Bounds full' first' last' read where
  ne_nil := fun h' => h.ne_nil (hfull h')
  first := fun c hc => hfirst c (h.first c hc)
  last := fun c hc => hlast c (h.last c hc)

theorem append (h : Bounds full first last read) (h' : Bounds full' first' last' more) :
    Bounds (full || full') (fun c => first c || (!full && first' c))
      (fun c => last' c || (!full' && last c)) (read ++ more) where
  ne_nil := by
    intro hfull hnil
    obtain ⟨rfl, rfl⟩ := List.append_eq_nil_iff.1 hnil
    obtain hfull | hfull := Bool.or_eq_true_iff.1 hfull
    · exact h.ne_nil hfull rfl
    · exact h'.ne_nil hfull rfl
  first := by
    intro c hc
    cases read with
    | nil =>
      have hfull : full = false := Bool.eq_false_iff.2 fun hfull => h.ne_nil hfull rfl
      simp [h'.first c hc, hfull]
    | cons d read => simp [h.first c hc]
  last := by
    intro c hc
    cases more with
    | nil =>
      have hfull : full' = false := Bool.eq_false_iff.2 fun hfull => h'.ne_nil hfull rfl
      rw [List.append_nil] at hc
      simp [h.last c hc, hfull]
    | cons d more =>
      rw [List.getLast?_append_of_ne_nil _ (List.cons_ne_nil d more)] at hc
      simp [h'.last c hc]

end Bounds

/-- A step whose matches read texts within some bounds. -/
def Bounded (full : Bool) (first last : Char → Bool) (step : Place → List Place) : Prop :=
  ∀ p, ∀ q ∈ step p, ∃ read, p.Passes read q ∧ Bounds full first last read

namespace Bounded

variable {full full' : Bool} {first last first' last' : Char → Bool} {step step' : Place → List Place}

theorem seq (h : Bounded full first last step) (h' : Bounded full' first' last' step') :
    Bounded (full || full') (fun c => first c || (!full && first' c))
      (fun c => last' c || (!full' && last c)) fun p => (step p).flatMap step' := by
  intro p q hq
  obtain ⟨m, hm, hq⟩ := List.mem_flatMap.1 hq
  obtain ⟨read, hread, hbounds⟩ := h p m hm
  obtain ⟨more, hmore, hbounds'⟩ := h' m q hq
  exact ⟨read ++ more, hread.trans hmore, hbounds.append hbounds'⟩

theorem mono (h : Bounded full first last step) (hfull : full' = true → full = true)
    (hfirst : ∀ c, first c = true → first' c = true) (hlast : ∀ c, last c = true → last' c = true) :
    Bounded full' first' last' step := by
  intro p q hq
  obtain ⟨read, hread, hbounds⟩ := h p q hq
  exact ⟨read, hread, hbounds.mono hfull hfirst hlast⟩

theorem stay (h : ∀ p, ∀ q ∈ step p, q = p) : Bounded false first last step := by
  intro p q hq
  obtain rfl := h p q hq
  exact ⟨[], .refl _, .nil⟩

/-- Repeating a step keeps its bounds. -/
theorem repeated (h : Bounded full first last step) (h' : Bounded full' first last step') :
    Bounded (full || full') first last fun p => (step p).flatMap step' :=
  (h.seq h').mono id (by simp +contextual [or_imp]) (by simp +contextual [or_imp])

theorem exactly (h : Bounded full first last step) (n : Nat) :
    Bounded (n != 0 && full) first last (exactly step n) := by
  induction n with
  | zero => exact .stay fun p q hq => List.mem_singleton.1 hq
  | succ n ih => exact (h.repeated ih).mono (by simp +contextual) (fun _ => id) fun _ => id

theorem upTo (h : Bounded full first last step) (n : Nat) :
    Bounded false first last (upTo step n) := by
  induction n with
  | zero => exact .stay fun p q hq => List.mem_singleton.1 hq
  | succ n ih =>
    have hfurther : Bounded full first last fun p =>
        (step p).filter fun q => decide (q.rest.length < p.rest.length) :=
      fun p q hq => h p q (List.mem_filter.1 hq).1
    intro p q hq
    obtain hq | hq := List.mem_append.1 hq
    · exact (hfurther.repeated ih).mono (by simp) (fun _ => id) (fun _ => id) p q hq
    · exact ⟨[], List.mem_singleton.1 hq ▸ .refl p, .nil⟩

end Bounded

/-- **What a match reads** has the bounds of the pattern. -/
theorem bounded_ends (a : Pattern) : Bounded a.consumes a.begins a.finishes a.ends := by
  induction a with
  | «class» holds =>
    intro p q hq
    obtain ⟨c, hc, hread⟩ := mem_ends_class.1 hq
    exact ⟨[c], hread, fun _ => List.cons_ne_nil _ _, by simpa [begins], by simpa [finishes]⟩
  | seq a b iha ihb => exact iha.seq ihb
  | choice a b iha ihb =>
    intro p q hq
    obtain hq | hq := List.mem_append.1 hq
    · exact iha.mono (by simp +contextual [consumes]) (by simp +contextual [begins])
        (by simp +contextual [finishes]) p q hq
    · exact ihb.mono (by simp [consumes]) (by simp +contextual [begins])
        (by simp +contextual [finishes]) p q hq
  | times a least more ih =>
    exact ((ih.exactly least).repeated (ih.upTo more)).mono (by simp [consumes]) (fun _ => id)
      fun _ => id
  | atLeast a least ih =>
    have hmore : Bounded false a.begins a.finishes fun q => upTo a.ends q.rest.length q :=
      fun p q hq => ih.upTo p.rest.length p q hq
    exact ((ih.exactly least).repeated hmore).mono (by simp [consumes]) (fun _ => id) fun _ => id
  | wordEdge => exact .stay fun p q hq => (mem_ends_wordEdge_iff.1 hq).1
  | after holds => exact .stay fun p q hq => (mem_ends_after_iff.1 hq).1
  | ahead holds => exact .stay fun p q hq => (mem_ends_ahead_iff.1 hq).1
  | empty => exact .stay fun p q hq => List.mem_singleton.1 hq

theorem reads_of_passes (hq : q ∈ a.ends p) (hread : p.Passes read q) : ∀ c ∈ read, a.reads c = true := by
  obtain ⟨read', hread', hall⟩ := reads_of_mem_ends a p q hq
  exact hread'.read_eq hread ▸ hall

theorem bounds_of_mem_ends (hq : q ∈ a.ends p) (hread : p.Passes read q) :
    Bounds a.consumes a.begins a.finishes read := by
  obtain ⟨read', hread', hbounds⟩ := bounded_ends a p q hq
  exact hread'.read_eq hread ▸ hbounds

/-- **A match of a pattern that consumes** moves on. -/
theorem length_lt_of_mem_ends (ha : a.consumes = true) (hq : q ∈ a.ends p) :
    q.rest.length < p.rest.length := by
  obtain ⟨read, hread, hbounds⟩ := bounded_ends a p q hq
  have hpos := List.length_pos_iff.2 (hbounds.ne_nil ha)
  rw [hread.rest, List.length_append]
  omega

/-- No match of a pattern that consumes is at the end of a text. -/
theorem ends_nil (ha : a.consumes = true) (before : Option Char) : a.ends ⟨before, []⟩ = [] :=
  List.eq_nil_iff_forall_not_mem.2 fun _ hq => Nat.not_lt_zero _ (length_lt_of_mem_ends ha hq)

/-- No match of a pattern that consumes is before a character that is never read. -/
theorem ends_cons_eq_nil (ha : a.consumes = true) (hc : a.reads c = false) (before : Option Char)
    (rest : List Char) : a.ends ⟨before, c :: rest⟩ = [] := by
  refine List.eq_nil_iff_forall_not_mem.2 fun q hq => ?_
  obtain ⟨read, hread, hall⟩ := reads_of_mem_ends a _ q hq
  have hne := (bounds_of_mem_ends hq hread).ne_nil ha
  obtain ⟨d, read, rfl⟩ := List.exists_cons_of_ne_nil hne
  obtain rfl : c = d := (List.cons.inj hread.rest).1
  exact notMem_of_reads hc hall List.mem_cons_self

/-- No match of a pattern that consumes is before a character that it does not begin with. -/
theorem ends_cons_eq_nil_of_begins (ha : a.consumes = true) (hc : a.begins c = false)
    (before : Option Char) (rest : List Char) : a.ends ⟨before, c :: rest⟩ = [] := by
  refine List.eq_nil_iff_forall_not_mem.2 fun q hq => ?_
  obtain ⟨read, hread, hbounds⟩ := bounded_ends a _ q hq
  obtain ⟨d, read, rfl⟩ := List.exists_cons_of_ne_nil (hbounds.ne_nil ha)
  obtain rfl : c = d := (List.cons.inj hread.rest).1
  rw [hbounds.first c rfl] at hc
  cases hc

/-- Behind a match of a pattern that consumes stands a character that it finishes with. -/
theorem exists_before_of_mem_ends (ha : a.consumes = true) (hq : q ∈ a.ends p) :
    ∃ d, q.before = some d ∧ a.finishes d = true := by
  obtain ⟨read, hread, hbounds⟩ := bounded_ends a p q hq
  have hlast := List.getLast?_eq_some_getLast (hbounds.ne_nil ha)
  refine ⟨_, ?_, hbounds.last _ hlast⟩
  rw [hread.before, hlast, Option.some_or]

/-! ## How much is read -/

/-- **The least number of characters that a match reads.** -/
def least : Pattern → Nat
  | .class _ => 1
  | .seq a b => a.least + b.least
  | .choice a b => min a.least b.least
  | .times a n _ => n * a.least
  | .atLeast a n => n * a.least
  | .wordEdge => 0
  | .after _ => 0
  | .ahead _ => 0
  | .empty => 0

/-- A step that leaves at least some number of characters behind. -/
def Leaves (n : Nat) (step : Place → List Place) : Prop :=
  ∀ p, ∀ q ∈ step p, q.rest.length + n ≤ p.rest.length

namespace Leaves

variable {n n' : Nat} {holds : Char → Prop} {step step' : Place → List Place}

theorem seq (h : Leaves n step) (h' : Leaves n' step') :
    Leaves (n + n') fun p => (step p).flatMap step' := by
  intro p q hq
  obtain ⟨m, hm, hq⟩ := List.mem_flatMap.1 hq
  have := h p m hm
  have := h' m q hq
  omega

/-- A step that leads over characters never goes back. -/
theorem of_within (h : Within holds step) : Leaves 0 step := by
  intro p q hq
  obtain ⟨read, hread, -⟩ := h p q hq
  rw [hread.rest, List.length_append]
  omega

theorem exactly (h : Leaves n step) (k : Nat) : Leaves (k * n) (exactly step k) := by
  induction k with
  | zero =>
    intro p q hq
    obtain rfl := List.mem_singleton.1 hq
    omega
  | succ k ih =>
    rw [Nat.succ_mul, Nat.add_comm]
    exact h.seq ih

end Leaves

theorem leaves_ends (a : Pattern) : Leaves a.least a.ends := by
  induction a with
  | «class» holds =>
    intro p q hq
    obtain ⟨c, -, hread⟩ := mem_ends_class.1 hq
    rw [hread.rest, List.length_append, Nat.add_comm]
    exact Nat.le_refl _
  | seq a b iha ihb => exact iha.seq ihb
  | choice a b iha ihb =>
    intro p q hq
    obtain hq | hq := List.mem_append.1 hq
    · exact Nat.le_trans (Nat.add_le_add_left (Nat.min_le_left _ _) _) (iha p q hq)
    · exact Nat.le_trans (Nat.add_le_add_left (Nat.min_le_right _ _) _) (ihb p q hq)
  | times a n more ih =>
    exact (ih.exactly n).seq (.of_within ((reads_of_mem_ends a).upTo more))
  | atLeast a n ih =>
    have hmore : Leaves 0 fun q => upTo a.ends q.rest.length q := fun p q hq =>
      Leaves.of_within ((reads_of_mem_ends a).upTo p.rest.length) p q hq
    exact (ih.exactly n).seq hmore
  | wordEdge => exact .of_within (reads_of_mem_ends .wordEdge)
  | after holds => exact .of_within (reads_of_mem_ends (.after holds))
  | ahead holds => exact .of_within (reads_of_mem_ends (.ahead holds))
  | empty => exact .of_within (reads_of_mem_ends .empty)

/-- **A match reads at least as many characters** as the pattern asks for. -/
theorem least_le_length (h : q ∈ a.ends p) (hread : p.Passes read q) : a.least ≤ read.length := by
  have hleaves := leaves_ends a p q h
  rw [hread.rest, List.length_append] at hleaves
  omega

end Pattern
end Conventions.Text
