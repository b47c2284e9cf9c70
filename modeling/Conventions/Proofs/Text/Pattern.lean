import Conventions.Text.Pattern
import Mathlib.Data.List.Forall2

/-!
# Proofs/Text/Pattern — what matches read

A match leads over the characters that it reads, each of which some class of the pattern holds
(`reads_of_mem_ends`). So a character that a pattern never reads cuts a text in two for it: what
stands before is rewritten by itself, and the character stays (`rewriteFrom_append_cons`).
-/

namespace Conventions.Text

/-! ## From place to place -/

/-- **The place after some characters** of a text: the character before it is the last one read. -/
structure Place.Passes (p : Place) (read : List Char) (q : Place) : Prop where
  rest : p.rest = read ++ q.rest
  before : q.before = read.getLast?.or p.before

namespace Place.Passes

variable {p q r : Place} {read more : List Char}

theorem refl (p : Place) : p.Passes [] p := ⟨rfl, rfl⟩

theorem trans (h : p.Passes read q) (h' : q.Passes more r) : p.Passes (read ++ more) r where
  rest := by rw [h.rest, h'.rest, List.append_assoc]
  before := by rw [h'.before, h.before, List.getLast?_append, Option.or_assoc]

theorem eq (h : p.Passes read q) (h' : p.Passes read r) : q = r := by
  obtain ⟨before, rest⟩ := q
  obtain ⟨before', rest'⟩ := r
  obtain rfl : before = before' := h.before.trans h'.before.symm
  obtain rfl : rest = rest' := List.append_cancel_left (h.rest.symm.trans h'.rest)
  rfl

/-- What is read can be read in two parts. -/
theorem split (h : p.Passes read q) (front back : List Char) (hread : front ++ back = read) :
    ∃ m : Place, p.Passes front m ∧ m.Passes back q := by
  subst hread
  refine ⟨⟨front.getLast?.or p.before, back ++ q.rest⟩, ⟨?_, rfl⟩, ⟨rfl, ?_⟩⟩
  · rw [h.rest, List.append_assoc]
  · rw [h.before, List.getLast?_append, Option.or_assoc]

theorem uncons {c : Char} (h : p.Passes (c :: read) q) :
    ∃ m : Place, p.Passes [c] m ∧ m.Passes read q :=
  h.split [c] read rfl

end Place.Passes

namespace Pattern

variable {a b : Pattern} {p q : Place} {c : Char} {read : List Char}

/-! ## Tests of a place -/

/-- A guarded step stays where its test holds. -/
theorem mem_guard_iff {test : Bool} : (q ∈ if test then [p] else []) ↔ q = p ∧ test = true := by
  cases test <;> simp

theorem mem_ends_wordEdge_iff : q ∈ (Pattern.wordEdge).ends p ↔ q = p ∧ atWordEdge p = true := by
  rw [ends, mem_guard_iff]

theorem mem_ends_after_iff {holds : Char → Bool} :
    q ∈ (Pattern.after holds).ends p ↔ q = p ∧ ∃ c, p.before = some c ∧ holds c = true := by
  rw [ends, mem_guard_iff]
  cases p.before <;> simp

theorem mem_ends_ahead_iff {holds : Char → Bool} :
    q ∈ (Pattern.ahead holds).ends p ↔ q = p ∧ ∃ c, p.rest.head? = some c ∧ holds c = true := by
  rw [ends, mem_guard_iff]
  cases p.rest.head? <;> simp

/-! ## What a match reads -/

/-- **Can a match read a character?** -/
def reads : Pattern → Char → Bool
  | .class holds, c => holds c
  | .seq a b, c => a.reads c || b.reads c
  | .choice a b, c => a.reads c || b.reads c
  | .times a _ _, c => a.reads c
  | .atLeast a _, c => a.reads c
  | .wordEdge, _ => false
  | .after _, _ => false
  | .ahead _, _ => false
  | .empty, _ => false

theorem ends_class_cons (holds : Char → Bool) (before : Option Char) (c : Char) (rest : List Char) :
    (Pattern.class holds).ends ⟨before, c :: rest⟩ =
      if holds c = true then [⟨some c, rest⟩] else [] :=
  rfl

/-- A step that leads over characters of a class only. -/
def Within (holds : Char → Prop) (step : Place → List Place) : Prop :=
  ∀ p, ∀ q ∈ step p, ∃ read, p.Passes read q ∧ ∀ c ∈ read, holds c

namespace Within

variable {holds : Char → Prop} {step step' : Place → List Place}

theorem mono {holds' : Char → Prop} (h : Within holds step) (himp : ∀ c, holds c → holds' c) :
    Within holds' step := by
  intro p q hq
  obtain ⟨read, hread, hall⟩ := h p q hq
  exact ⟨read, hread, fun c hc => himp c (hall c hc)⟩

theorem stay {step : Place → List Place} (h : ∀ p, ∀ q ∈ step p, q = p) : Within holds step := by
  intro p q hq
  obtain rfl := h p q hq
  exact ⟨[], .refl _, fun _ h => nomatch h⟩

theorem seq (h : Within holds step) (h' : Within holds step') :
    Within holds fun p => (step p).flatMap step' := by
  intro p q hq
  obtain ⟨m, hm, hq⟩ := List.mem_flatMap.1 hq
  obtain ⟨read, hread, hall⟩ := h p m hm
  obtain ⟨more, hmore, hall'⟩ := h' m q hq
  exact ⟨read ++ more, hread.trans hmore, List.forall_mem_append.2 ⟨hall, hall'⟩⟩

theorem exactly (h : Within holds step) (n : Nat) : Within holds (exactly step n) := by
  induction n with
  | zero => exact .stay fun p q hq => List.mem_singleton.1 hq
  | succ n ih => exact h.seq ih

theorem upTo (h : Within holds step) (n : Nat) : Within holds (upTo step n) := by
  induction n with
  | zero => exact .stay fun p q hq => List.mem_singleton.1 hq
  | succ n ih =>
    have hfurther : Within holds fun p =>
        (step p).filter fun q => decide (q.rest.length < p.rest.length) :=
      fun p q hq => h p q (List.mem_filter.1 hq).1
    intro p q hq
    obtain hq | hq := List.mem_append.1 hq
    · exact hfurther.seq ih p q hq
    · exact ⟨[], List.mem_singleton.1 hq ▸ .refl p, fun _ h => nomatch h⟩

end Within

/-- **A match leads over characters that the pattern reads.** -/
theorem reads_of_mem_ends (a : Pattern) : Within (a.reads · = true) a.ends := by
  induction a with
  | «class» holds =>
    rintro ⟨before, rest⟩ q hq
    cases rest with
    | nil => cases hq
    | cons c rest =>
      rw [ends_class_cons] at hq
      split at hq
      case isTrue hc =>
        obtain rfl := List.mem_singleton.1 hq
        exact ⟨[c], ⟨rfl, rfl⟩, List.forall_mem_singleton.2 hc⟩
      case isFalse => cases hq
  | seq a b iha ihb =>
    refine Within.seq (iha.mono fun c hc => ?_) (ihb.mono fun c hc => ?_)
    · exact Bool.or_eq_true_iff.2 (.inl hc)
    · exact Bool.or_eq_true_iff.2 (.inr hc)
  | choice a b iha ihb =>
    intro p q hq
    obtain hq | hq := List.mem_append.1 hq
    · exact iha.mono (fun c hc => Bool.or_eq_true_iff.2 (.inl hc)) p q hq
    · exact ihb.mono (fun c hc => Bool.or_eq_true_iff.2 (.inr hc)) p q hq
  | times a least more ih => exact (Within.exactly ih least).seq (.upTo ih more)
  | atLeast a least ih =>
    have hmore : Within (a.reads · = true) fun q => upTo a.ends q.rest.length q :=
      fun p q hq => Within.upTo ih p.rest.length p q hq
    exact (Within.exactly ih least).seq hmore
  | wordEdge => exact .stay fun p q hq => (mem_ends_wordEdge_iff.1 hq).1
  | after holds => exact .stay fun p q hq => (mem_ends_after_iff.1 hq).1
  | ahead holds => exact .stay fun p q hq => (mem_ends_ahead_iff.1 hq).1
  | empty => exact .stay fun p q hq => List.mem_singleton.1 hq

/-- A character that is never read is not among those that are. -/
theorem notMem_of_reads (hc : a.reads c = false) (hall : ∀ d ∈ read, a.reads d = true) : c ∉ read := by
  intro hmem
  rw [hall c hmem] at hc
  cases hc

/-! ## Which matches there are -/

theorem mem_ends_class {holds : Char → Bool} :
    q ∈ (Pattern.class holds).ends p ↔ ∃ c, holds c = true ∧ p.Passes [c] q := by
  obtain ⟨before, rest⟩ := p
  cases rest with
  | nil =>
    refine ⟨fun h => (nomatch h), ?_⟩
    rintro ⟨c, -, hrest, -⟩
    cases hrest
  | cons d rest =>
    have hd : Place.Passes ⟨before, d :: rest⟩ [d] ⟨some d, rest⟩ := ⟨rfl, rfl⟩
    rw [ends_class_cons]
    constructor
    · intro h
      split at h
      case isTrue hholds =>
        obtain rfl := List.mem_singleton.1 h
        exact ⟨d, hholds, hd⟩
      case isFalse => cases h
    · rintro ⟨c, hholds, hpasses⟩
      obtain rfl : d = c := (List.cons.inj hpasses.rest).1
      rw [if_pos hholds, List.mem_singleton]
      exact hpasses.eq hd

theorem mem_ends_seq : q ∈ (Pattern.seq a b).ends p ↔ ∃ m ∈ a.ends p, q ∈ b.ends m :=
  List.mem_flatMap

theorem mem_ends_all {rest : List Pattern} :
    q ∈ (all (a :: rest)).ends p ↔ ∃ m ∈ a.ends p, q ∈ (all rest).ends m := by
  cases rest with
  | nil => simp [all, ends]
  | cons b rest => exact mem_ends_seq

theorem mem_ends_first {ps : List Pattern} : q ∈ (first ps).ends p ↔ ∃ a ∈ ps, q ∈ a.ends p := by
  induction ps with
  | nil => simp [first, mem_ends_class]
  | cons a rest ih =>
    cases rest with
    | nil => simp [first]
    | cons b rest =>
      rw [first, ends, List.mem_append, ih]
      · simp
      · exact List.cons_ne_nil _ _

/-- **Characters of some classes**, one after the other, are a match. -/
theorem mem_ends_all_class {classes : List (Char → Bool)}
    (h : List.Forall₂ (fun holds c => holds c = true) classes read) (hread : p.Passes read q) :
    q ∈ (all (classes.map Pattern.class)).ends p := by
  induction h generalizing p with
  | nil => exact List.mem_singleton.2 (hread.eq (.refl p))
  | cons hc _ ih =>
    obtain ⟨m, hm, hrest⟩ := hread.uncons
    exact mem_ends_all.2 ⟨m, mem_ends_class.2 ⟨_, hc, hm⟩, ih hrest⟩

section Repeated

variable {holds : Char → Bool}

theorem mem_exactly_class (hall : ∀ c ∈ read, holds c = true) (hread : p.Passes read q) :
    q ∈ exactly (Pattern.class holds).ends read.length p := by
  induction read generalizing p with
  | nil => exact List.mem_singleton.2 (hread.eq (.refl p))
  | cons c read ih =>
    obtain ⟨m, hm, hrest⟩ := hread.uncons
    rw [List.forall_mem_cons] at hall
    exact List.mem_flatMap.2 ⟨m, mem_ends_class.2 ⟨c, hall.1, hm⟩, ih hall.2 hrest⟩

theorem mem_upTo_class {n : Nat} (hn : read.length ≤ n) (hall : ∀ c ∈ read, holds c = true)
    (hread : p.Passes read q) : q ∈ upTo (Pattern.class holds).ends n p := by
  induction n generalizing p read with
  | zero =>
    obtain rfl := List.length_eq_zero_iff.1 (Nat.le_zero.1 hn)
    exact List.mem_singleton.2 (hread.eq (.refl p))
  | succ n ih =>
    cases read with
    | nil => exact List.mem_append_right _ (List.mem_singleton.2 (hread.eq (.refl p)))
    | cons c read =>
      obtain ⟨m, hm, hrest⟩ := hread.uncons
      rw [List.forall_mem_cons] at hall
      refine List.mem_append_left _ (List.mem_flatMap.2 ⟨m, List.mem_filter.2 ⟨?_, ?_⟩, ?_⟩)
      · exact mem_ends_class.2 ⟨c, hall.1, hm⟩
      · rw [decide_eq_true_iff, hm.rest]
        exact Nat.lt_succ_self _
      · exact ih (Nat.le_of_succ_le_succ hn) hall.2 hrest

/-- **Characters of one class**, as many as asked for or more, are a match. -/
theorem mem_ends_atLeast_class {least : Nat} (hleast : least ≤ read.length)
    (hall : ∀ c ∈ read, holds c = true) (hread : p.Passes read q) :
    q ∈ (Pattern.atLeast (.class holds) least).ends p := by
  obtain ⟨m, hfront, hback⟩ := hread.split (read.take least) (read.drop least)
    (List.take_append_drop least read)
  have hlength : (read.take least).length = least := List.length_take_of_le hleast
  refine List.mem_flatMap.2 ⟨m, ?_, mem_upTo_class ?_ (fun c hc => ?_) hback⟩
  · rw [← hlength]
    exact mem_exactly_class (fun c hc => hall c (List.mem_of_mem_take hc)) hfront
  · rw [hback.rest, List.length_append]
    exact Nat.le_add_right _ _
  · exact hall c (List.mem_of_mem_drop hc)

end Repeated

/-! ## What is rewritten -/

variable {rewrite : Place → Place → List Char} {before : Option Char} {rest : List Char}

theorem rewriteFrom_nil : a.rewriteFrom rewrite ⟨before, []⟩ = [] := by rw [rewriteFrom]

/-- A match that reads something is rewritten. -/
theorem rewriteFrom_of_end? (h : a.end? p = some q) (hread : q.rest.length < p.rest.length) :
    a.rewriteFrom rewrite p = rewrite p q ++ a.rewriteFrom rewrite q := by
  obtain ⟨before, rest⟩ := p
  cases rest with
  | nil => cases hread
  | cons c rest => rw [rewriteFrom, h]; exact if_pos hread

/-- Where the preferred match reads nothing, a character stays. -/
theorem rewriteFrom_cons
    (h : ∀ q, a.end? ⟨before, c :: rest⟩ = some q → (c :: rest).length ≤ q.rest.length) :
    a.rewriteFrom rewrite ⟨before, c :: rest⟩ = c :: a.rewriteFrom rewrite ⟨some c, rest⟩ := by
  rw [rewriteFrom]
  split
  case h_1 q hq => rw [if_neg (Nat.not_lt.2 (h q hq))]
  case h_2 => rfl

/-- **A text without a match** stays as it is. -/
theorem rewriteFrom_eq_self (h : ∀ before cs, cs <:+ rest → cs ≠ [] → a.ends ⟨before, cs⟩ = []) :
    a.rewriteFrom rewrite ⟨before, rest⟩ = rest := by
  induction rest generalizing before with
  | nil => exact rewriteFrom_nil
  | cons c rest ih =>
    have hnone := h before (c :: rest) (List.suffix_refl _) (List.cons_ne_nil _ _)
    rw [rewriteFrom_cons (by rw [end?, hnone]; exact fun q hq => nomatch hq)]
    exact congrArg (c :: ·) (ih fun before cs hcs => h before cs (hcs.trans (List.suffix_cons _ _)))

/-- What is read without reading a character is a part of what stands before it. -/
theorem exists_append_of_not_mem {read rest front back : List Char}
    (h : read ++ rest = front ++ c :: back) (hc : c ∉ read) :
    ∃ more, front = read ++ more ∧ rest = more ++ c :: back := by
  obtain ⟨more, hfront, hrest⟩ | ⟨further, hread, hback⟩ := List.append_eq_append_iff.1 h
  · exact ⟨more, hfront, hrest⟩
  · cases further with
    | nil => exact ⟨[], by simpa using hread.symm, hback.symm⟩
    | cons d further =>
      obtain rfl := (List.cons.inj hback).1
      exact absurd (hread ▸ List.mem_append_right front List.mem_cons_self) hc

/-- **A character that is never read** stays, and what follows it is rewritten by itself. -/
theorem rewriteFrom_append_cons (hc : a.reads c = false)
    (rewrite : Place → Place → List Char) (before : Option Char) (rest front : List Char) :
    ∃ out, a.rewriteFrom rewrite ⟨before, front ++ c :: rest⟩ =
      out ++ c :: a.rewriteFrom rewrite ⟨some c, rest⟩ := by
  have hskips : ∀ {p q : Place}, q ∈ a.ends p → ∀ front : List Char, p.rest = front ++ c :: rest →
      ∃ more, q.rest = more ++ c :: rest := by
    intro p q hq front hp
    obtain ⟨read, hread, hall⟩ := reads_of_mem_ends a p q hq
    obtain ⟨more, -, hrest⟩ :=
      exists_append_of_not_mem (hread.rest.symm.trans hp) (notMem_of_reads hc hall)
    exact ⟨more, hrest⟩
  -- every match and every character that stays leave a shorter text in front
  induction hn : front.length using Nat.strongRecOn generalizing front before with
  | _ n ih =>
    subst hn
    cases front with
    | nil =>
      refine ⟨[], rewriteFrom_cons fun q hq => ?_⟩
      obtain ⟨more, hrest⟩ := hskips (List.mem_of_head? hq) [] rfl
      rw [hrest, List.length_append]
      exact Nat.le_add_left _ _
    | cons d front =>
      by_cases hstays : ∀ q, a.end? ⟨before, d :: (front ++ c :: rest)⟩ = some q →
          (d :: (front ++ c :: rest)).length ≤ q.rest.length
      · obtain ⟨out, hout⟩ := ih front.length (Nat.lt_succ_self _) (some d) front rfl
        refine ⟨d :: out, ?_⟩
        rw [List.cons_append, rewriteFrom_cons hstays, hout, List.cons_append]
      · simp only [Classical.not_forall, exists_prop] at hstays
        obtain ⟨⟨before', rest'⟩, hq, hle⟩ := hstays
        have hlt := Nat.lt_of_not_le hle
        obtain ⟨more, rfl⟩ := hskips (List.mem_of_head? hq) (d :: front) rfl
        have hmore : more.length < (d :: front).length := by
          simp only [List.length_append, List.length_cons] at hlt ⊢
          omega
        obtain ⟨out, hout⟩ := ih more.length hmore before' more rfl
        rw [List.cons_append, rewriteFrom_of_end? hq hlt, hout, ← List.append_assoc]
        exact ⟨_, rfl⟩

end Pattern
end Conventions.Text
