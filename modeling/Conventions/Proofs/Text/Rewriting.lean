import Conventions.Proofs.Text.Locality
import Mathlib.Algebra.GroupWithZero.Nat

/-!
# Proofs/Text/Rewriting — what rewriting leaves

A rewritten text is the old one with some matches rewritten (`rewriteFrom_induct`). Where every match is
replaced by one word, what stands between the words stood in the old text, at a place where no match
begins (`exists_passes_of_rewriteFrom`). So no match is left, if the word is no part of one and if no
match is made by what stands beside a word (`foundFrom_rewriteFrom`).

A rewritten text is longer by what is written for the matches that are rewritten (`matchesFrom`) and
shorter by what these read (`length_rewriteFrom`).
-/

namespace Conventions.Text
namespace Pattern

variable {a b : Pattern} {p q : Place} {c : Char} {before : Option Char} {read rest out : List Char}
  {rewrite : Place → Place → List Char} {word : List Char}

/-! ## How a text is rewritten -/

/-- **Rewriting goes on** behind a character where no match begins, and behind a match. -/
theorem rewriteFrom_induct (rewrite : Place → Place → List Char) (ha : a.consumes = true)
    {motive : Place → List Char → Prop}
    (nil : ∀ before, motive ⟨before, []⟩ [])
    (stay : ∀ before c rest, a.ends ⟨before, c :: rest⟩ = [] →
      motive ⟨some c, rest⟩ (a.rewriteFrom rewrite ⟨some c, rest⟩) →
        motive ⟨before, c :: rest⟩ (c :: a.rewriteFrom rewrite ⟨some c, rest⟩))
    (hit : ∀ p q, a.end? p = some q → motive q (a.rewriteFrom rewrite q) →
      motive p (rewrite p q ++ a.rewriteFrom rewrite q))
    (p : Place) : motive p (a.rewriteFrom rewrite p) := by
  induction hn : p.rest.length using Nat.strongRecOn generalizing p with
  | _ n ih =>
    obtain ⟨before, rest⟩ := p
    cases rest with
    | nil =>
      rw [rewriteFrom_nil]
      exact nil before
    | cons c rest =>
      cases hend : a.end? ⟨before, c :: rest⟩ with
      | some q =>
        have hlt := length_lt_of_mem_ends ha (List.mem_of_head? hend)
        rw [rewriteFrom_of_end? hend hlt]
        exact hit _ q hend (ih _ (hn ▸ hlt) q rfl)
      | none =>
        have hnone : a.ends ⟨before, c :: rest⟩ = [] := List.head?_eq_none_iff.1 hend
        rw [rewriteFrom_cons fun q hq => nomatch hend.symm.trans hq]
        exact stay before c rest hnone (ih _ (by rw [← hn]; exact Nat.lt_succ_self _) _ rfl)

theorem rewriteFrom_cons_of_ends_eq_nil (h : a.ends ⟨before, c :: rest⟩ = []) :
    a.rewriteFrom rewrite ⟨before, c :: rest⟩ = c :: a.rewriteFrom rewrite ⟨some c, rest⟩ :=
  rewriteFrom_cons fun q hq => by
    rw [end?, h] at hq
    cases hq

/-- **What a rewriting keeps of each match** it keeps of the text. -/
theorem filter_rewriteFrom {keep : Char → Bool} (ha : a.consumes = true)
    (h : ∀ p' q read, p'.rest <:+ p.rest → a.end? p' = some q → p'.Passes read q →
      (rewrite p' q).filter keep = read.filter keep) :
    (a.rewriteFrom rewrite p).filter keep = p.rest.filter keep := by
  refine rewriteFrom_induct rewrite ha (motive := fun p' out =>
    p'.rest <:+ p.rest → out.filter keep = p'.rest.filter keep) ?_ ?_ ?_ p (List.suffix_refl _)
  · exact fun _ _ => rfl
  · intro before c rest _ ih hsuffix
    rw [List.filter_cons, ih ((List.suffix_cons c rest).trans hsuffix), ← List.filter_cons]
  · intro p' q hend ih hsuffix
    obtain ⟨read, hread, -⟩ := reads_of_mem_ends a p' q (List.mem_of_head? hend)
    have hq : q.rest <:+ p.rest := .trans ⟨read, hread.rest.symm⟩ hsuffix
    rw [List.filter_append, ih hq, h p' q read hsuffix hend hread, ← List.filter_append, hread.rest]

/-- **The characters of a rewritten text** are those of the text, and what a rewriting brings in. -/
theorem mem_of_mem_rewriteFrom (new : List Char) (ha : a.consumes = true)
    (h : ∀ p q read, a.end? p = some q → p.Passes read q →
      ∀ c ∈ rewrite p q, c ∈ read ∨ c ∈ new) :
    ∀ c ∈ a.rewriteFrom rewrite p, c ∈ p.rest ∨ c ∈ new := by
  refine rewriteFrom_induct rewrite ha (motive := fun p out =>
    ∀ c ∈ out, c ∈ p.rest ∨ c ∈ new) ?_ ?_ ?_ p
  · exact fun _ c hc => absurd hc List.not_mem_nil
  · intro before d rest _ ih c hc
    obtain rfl | hc := List.mem_cons.1 hc
    · exact .inl List.mem_cons_self
    · exact (ih c hc).imp_left (List.mem_cons_of_mem d)
  · intro p q hend ih c hc
    obtain ⟨read, hread, -⟩ := reads_of_mem_ends a p q (List.mem_of_head? hend)
    rw [hread.rest]
    obtain hc | hc := List.mem_append.1 hc
    · exact (h p q read hend hread c hc).imp_left (List.mem_append_left _)
    · exact (ih c hc).imp_left (List.mem_append_right _)

/-- **A text whose matches are rewritten as they are** stays as it is. -/
theorem rewriteFrom_eq_self_of_rewrite_eq (ha : a.consumes = true)
    (h : ∀ p' q read, p'.rest <:+ p.rest → a.end? p' = some q → p'.Passes read q →
      rewrite p' q = read) : a.rewriteFrom rewrite p = p.rest := by
  have hkeep : (a.rewriteFrom rewrite p).filter (fun _ => true) = p.rest.filter fun _ => true :=
    filter_rewriteFrom ha fun p' q read hsuffix hend hread =>
      congrArg _ (h p' q read hsuffix hend hread)
  rwa [List.filter_true, List.filter_true] at hkeep

/-! ## Where a word is put in place of every match -/

/-- **What stands before the next word** stood in the old text, and the rest is rewritten from there. -/
theorem exists_passes_of_rewriteFrom {mark : Char} (ha : a.consumes = true)
    (hmark : word.head? = some mark) (hread : mark ∉ read)
    (h : a.rewriteFrom (fun _ _ => word) p = read ++ out) :
    ∃ q, p.Passes read q ∧ out = a.rewriteFrom (fun _ _ => word) q := by
  induction read generalizing p with
  | nil => exact ⟨p, .refl p, h.symm⟩
  | cons c read ih =>
    rw [List.mem_cons, not_or] at hread
    obtain ⟨before, rest⟩ := p
    cases rest with
    | nil =>
      rw [rewriteFrom_nil] at h
      cases h
    | cons d rest =>
      cases hend : a.end? ⟨before, d :: rest⟩ with
      | some q =>
        rw [rewriteFrom_of_end? hend (length_lt_of_mem_ends ha (List.mem_of_head? hend))] at h
        have hhead := congrArg List.head? h
        rw [List.head?_append, hmark, List.cons_append, List.head?_cons] at hhead
        exact absurd (Option.some.inj hhead) hread.1
      | none =>
        rw [rewriteFrom_cons fun q hq => nomatch hend.symm.trans hq] at h
        obtain ⟨rfl, hrest⟩ := List.cons.inj h
        obtain ⟨q, hpasses, hout⟩ := ih hread.2 hrest
        have hone : Place.Passes ⟨before, d :: rest⟩ [d] ⟨some d, rest⟩ := ⟨rfl, rfl⟩
        exact ⟨q, hone.trans hpasses, hout⟩

/-- A match that reads nothing of the word reads what stood in the old text. -/
theorem exists_passes_of_mem_ends {mark : Char} {before' : Option Char} {q' : Place}
    (ha : a.consumes = true) (hmark : word.head? = some mark) (hb : b.reads mark = false)
    (h : q' ∈ b.ends ⟨before', a.rewriteFrom (fun _ _ => word) p⟩) :
    ∃ read q, Place.Passes ⟨before', a.rewriteFrom (fun _ _ => word) p⟩ read q' ∧
      p.Passes read q ∧ q'.rest = a.rewriteFrom (fun _ _ => word) q := by
  obtain ⟨read, hread, hall⟩ := reads_of_mem_ends b _ q' h
  obtain ⟨q, hpasses, hout⟩ :=
    exists_passes_of_rewriteFrom ha hmark (notMem_of_reads hb hall) hread.rest
  exact ⟨read, q, hread, hpasses, hout⟩

/-- **No match is made** of a pattern that does not look around. -/
theorem ends_rewriteFrom_of_not_looks {mark : Char} {before' : Option Char}
    (ha : a.consumes = true) (hmark : word.head? = some mark) (hb : b.reads mark = false)
    (hlooks : b.looks = false) (h : b.ends p = []) :
    b.ends ⟨before', a.rewriteFrom (fun _ _ => word) p⟩ = [] := by
  refine List.eq_nil_iff_forall_not_mem.2 fun q' hq' => ?_
  obtain ⟨read, q, hread', hread, -⟩ := exists_passes_of_mem_ends ha hmark hb hq'
  have hq := mem_ends_of_passes_of_not_looks hlooks hq' hread' hread
  rw [h] at hq
  cases hq

/-- **What begins a rewritten text** began the old one, or is the beginning of the word, in place of a
match. -/
theorem head?_rewriteFrom {mark : Char} (ha : a.consumes = true) (hmark : word.head? = some mark) :
    (a.rewriteFrom (fun _ _ => word) p).head? = p.rest.head? ∨
      (a.rewriteFrom (fun _ _ => word) p).head? = some mark ∧ a.ends p ≠ [] := by
  refine rewriteFrom_induct (fun _ _ => word) ha (motive := fun p out =>
    out.head? = p.rest.head? ∨ out.head? = some mark ∧ a.ends p ≠ []) ?_ ?_ ?_ p
  · exact fun _ => .inl rfl
  · exact fun _ _ _ _ _ => .inl rfl
  · intro p q hend _
    refine .inr ⟨?_, List.ne_nil_of_mem (List.mem_of_head? hend)⟩
    rw [List.head?_append, hmark, Option.some_or]

/-- **A pattern is not found** in a text that has no match at any place. -/
theorem foundFrom_eq_false_iff : a.foundFrom before rest = false ↔
    ∀ front back, rest = front ++ back → a.ends ⟨front.getLast?.or before, back⟩ = [] := by
  have hend (p : Place) : (a.end? p).isSome = false ↔ a.ends p = [] := by
    rw [end?, Option.isSome_eq_false_iff, Option.isNone_iff_eq_none, List.head?_eq_none_iff]
  induction rest generalizing before with
  | nil =>
    rw [foundFrom, hend]
    constructor
    · intro h front back hnil
      obtain ⟨rfl, rfl⟩ := List.append_eq_nil_iff.1 hnil.symm
      exact h
    · exact fun h => h [] [] rfl
  | cons c rest ih =>
    rw [foundFrom, Bool.or_eq_false_iff, hend]
    constructor
    · rintro ⟨hhere, hrest⟩ front back hback
      cases front with
      | nil =>
        obtain rfl : c :: rest = back := hback
        exact hhere
      | cons d front =>
        obtain ⟨rfl, hrest'⟩ := List.cons.inj hback
        have hlast : (c :: front).getLast?.or before = front.getLast?.or (some c) := by
          cases front <;> simp [List.getLast?_cons]
        exact hlast ▸ ih.1 hrest front back hrest'
    · refine fun h => ⟨h [] (c :: rest) rfl, ih.2 fun front back hback => ?_⟩
      have hlast : (c :: front).getLast?.or before = front.getLast?.or (some c) := by
        cases front <;> simp [List.getLast?_cons]
      exact hlast ▸ h (c :: front) back (congrArg (c :: ·) hback)

/-- Where a pattern that does not look around is not found, it is not found in the rest of the text. -/
theorem ends_eq_nil_of_foundFrom (hlooks : a.looks = false) (h : a.foundFrom before rest = false)
    (hp : p.rest <:+ rest) : a.ends p = [] := by
  obtain ⟨front, rfl⟩ := hp
  have hnone := foundFrom_eq_false_iff.1 h front p.rest rfl
  refine List.eq_nil_iff_forall_not_mem.2 fun q hq => ?_
  obtain ⟨read, hread, -⟩ := reads_of_mem_ends a p q hq
  have hread' : Place.Passes ⟨front.getLast?.or before, p.rest⟩ read
      ⟨read.getLast?.or (front.getLast?.or before), q.rest⟩ := ⟨hread.rest, rfl⟩
  have hmatch := mem_ends_of_passes_of_not_looks hlooks hq hread hread'
  rw [hnone] at hmatch
  cases hmatch

/-- A text where a pattern is not found stays as it is. -/
theorem rewriteFrom_eq_self_of_foundFrom (h : a.foundFrom before rest = false) :
    a.rewriteFrom rewrite ⟨before, rest⟩ = rest := by
  induction rest generalizing before with
  | nil => exact rewriteFrom_nil
  | cons c rest ih =>
    have hnone : a.ends ⟨before, c :: rest⟩ = [] := foundFrom_eq_false_iff.1 h [] (c :: rest) rfl
    rw [foundFrom, Bool.or_eq_false_iff] at h
    rw [rewriteFrom_cons_of_ends_eq_nil hnone, ih h.2]

/-- **Does no match begin in a word**, whatever stands around it? -/
def Avoids (a : Pattern) (word : List Char) : Prop :=
  ∀ front back, word = front ++ back → back ≠ [] →
    ∀ before rest, a.ends ⟨front.getLast?.or before, back ++ rest⟩ = []

/-- A word that is avoided stays. -/
theorem rewriteFrom_append_of_avoids (h : a.Avoids word) (before : Option Char) (rest : List Char) :
    a.rewriteFrom rewrite ⟨before, word ++ rest⟩ =
      word ++ a.rewriteFrom rewrite ⟨word.getLast?.or before, rest⟩ := by
  have hstays : ∀ front back, word = front ++ back →
      a.rewriteFrom rewrite ⟨front.getLast?.or before, back ++ rest⟩ =
        back ++ a.rewriteFrom rewrite ⟨word.getLast?.or before, rest⟩ := by
    intro front back hword
    induction back generalizing front with
    | nil => rw [hword, List.append_nil, List.nil_append, List.nil_append]
    | cons c back ih =>
      have hnone := h front (c :: back) hword (List.cons_ne_nil _ _) before rest
      rw [List.cons_append] at hnone
      rw [List.cons_append, rewriteFrom_cons_of_ends_eq_nil hnone, List.cons_append,
        ← ih (front ++ [c]) (by simpa using hword)]
      simp
  exact hstays [] word rfl

/-- **A word between two marks** that are never read is avoided, if the pattern is not found in it. -/
theorem avoids_of_foundFrom {opening closing : Char} {body : List Char} (ha : a.consumes = true)
    (hopening : a.reads opening = false) (hclosing : a.reads closing = false)
    (h : a.foundFrom none (opening :: (body ++ [closing])) = false) :
    a.Avoids (opening :: (body ++ [closing])) := by
  intro front back hword hback before rest
  cases front with
  | nil =>
    rw [← List.nil_append back, ← hword]
    exact ends_cons_eq_nil ha hopening _ _
  | cons d front =>
    have hnone := foundFrom_eq_false_iff.1 h (d :: front) back hword
    obtain ⟨back, last, rfl⟩ := (List.eq_nil_or_concat back).resolve_left hback
    rw [List.concat_eq_append] at hword hnone ⊢
    have hlast : closing = last := by
      have hlast := congrArg List.getLast? hword
      simpa [List.getLast?_cons, List.getLast?_append] using hlast
    subst hlast
    rw [List.append_assoc]
    have hbefore : (d :: front).getLast?.or before = (d :: front).getLast?.or none := by
      cases hsome : (d :: front).getLast? with
      | none => exact absurd (List.getLast?_eq_none_iff.1 hsome) (List.cons_ne_nil _ _)
      | some e => rfl
    rw [hbefore]
    exact ends_append_eq_nil hclosing hnone

/-- **No match is left** where every match of a pattern is replaced by a word: not of another pattern
(or the same one) that has no match in the word, if at the places that stay no match is made by the
changes. The character before such a place is the one of the old text, or the last one of the word behind
a match. -/
theorem foundFrom_rewriteFrom (ha : a.consumes = true) (hb : b.consumes = true)
    (hne : word ≠ []) (havoids : b.Avoids word)
    (hstay : ∀ past p' before', p.Passes past p' → a.ends p' = [] →
      (before' = p'.before ∨ (∃ p₀, p' ∈ a.ends p₀) ∧ before' = word.getLast?) →
        b.ends ⟨before', a.rewriteFrom (fun _ _ => word) p'⟩ = []) :
    b.foundFrom p.before (a.rewriteFrom (fun _ _ => word) p) = false := by
  have hend (before : Option Char) : b.foundFrom before [] = false := by
    rw [foundFrom, end?, ends_nil hb]
    rfl
  refine rewriteFrom_induct (fun _ _ => word) ha (motive := fun p' out =>
    ∀ past, p.Passes past p' → ∀ before', (before' = p'.before ∨ (∃ p₀, p' ∈ a.ends p₀) ∧
      before' = word.getLast?) → b.foundFrom before' out = false) ?_ ?_ ?_ p [] (.refl p) p.before
    (.inl rfl)
  · exact fun _ _ _ before' _ => hend before'
  · intro before c rest hnone ih past hpasses before' hbefore
    have hhere := hstay past ⟨before, c :: rest⟩ before' hpasses hnone hbefore
    rw [rewriteFrom_cons_of_ends_eq_nil hnone] at hhere
    rw [foundFrom, end?, hhere, List.head?_nil, Option.isSome_none, Bool.false_or]
    exact ih (past ++ [c]) (hpasses.trans ⟨rfl, rfl⟩) (some c) (.inl rfl)
  · intro p' q hend ih past hpasses before' _
    have hq := List.mem_of_head? hend
    obtain ⟨read, hread, -⟩ := reads_of_mem_ends a p' q hq
    have hrest := ih (past ++ read) (hpasses.trans hread) word.getLast? (.inr ⟨⟨p', hq⟩, rfl⟩)
    rw [foundFrom_eq_false_iff] at hrest ⊢
    intro front back hout
    obtain ⟨more, rfl, hback⟩ | ⟨more, hword, rfl⟩ := List.append_eq_append_iff.1 hout
    · have hlast : (word ++ more).getLast?.or before' = more.getLast?.or word.getLast? := by
        rw [List.getLast?_append, Option.or_assoc, List.getLast?_eq_some_getLast hne, Option.some_or]
      exact hlast ▸ hrest more back hback
    · cases more with
      | nil =>
        rw [List.append_nil] at hword
        have hnone := hrest [] _ rfl
        rw [List.getLast?_nil, Option.none_or] at hnone
        rw [List.nil_append, ← hword, List.getLast?_eq_some_getLast hne, Option.some_or,
          ← List.getLast?_eq_some_getLast hne]
        exact hnone
      | cons d more => exact havoids front (d :: more) hword (List.cons_ne_nil _ _) before' _

/-! ## The matches that are rewritten -/

/-- **The leftmost matches** of a pattern from a place on, one after the other: the place of each and its
end. -/
def matchesFrom (a : Pattern) : Place → List (Place × Place)
  | ⟨_, []⟩ => []
  | ⟨before, c :: rest⟩ =>
    match a.end? ⟨before, c :: rest⟩ with
    | some q =>
      if q.rest.length < (c :: rest).length then (⟨before, c :: rest⟩, q) :: matchesFrom a q
      else matchesFrom a ⟨some c, rest⟩
    | none => matchesFrom a ⟨some c, rest⟩
  termination_by p => p.rest.length
  decreasing_by
    · assumption
    · exact Nat.lt_succ_self _
    · exact Nat.lt_succ_self _

theorem matchesFrom_nil : a.matchesFrom ⟨before, []⟩ = [] := by rw [matchesFrom]

theorem matchesFrom_cons_of_ends_eq_nil (h : a.ends ⟨before, c :: rest⟩ = []) :
    a.matchesFrom ⟨before, c :: rest⟩ = a.matchesFrom ⟨some c, rest⟩ := by
  have hnone : a.end? ⟨before, c :: rest⟩ = none := by rw [end?, h, List.head?_nil]
  rw [matchesFrom, hnone]

theorem matchesFrom_of_end? (ha : a.consumes = true) (h : a.end? p = some q) :
    a.matchesFrom p = (p, q) :: a.matchesFrom q := by
  have hlt := length_lt_of_mem_ends ha (List.mem_of_head? h)
  obtain ⟨before, rest⟩ := p
  cases rest with
  | nil => cases hlt
  | cons c rest => rw [matchesFrom, h]; exact if_pos hlt

/-- The leftmost matches are matches. -/
theorem mem_ends_of_mem_matchesFrom (ha : a.consumes = true) {m : Place × Place}
    (hm : m ∈ a.matchesFrom p) : m.2 ∈ a.ends m.1 := by
  -- what is written does not matter
  refine rewriteFrom_induct (fun _ _ => []) ha
    (motive := fun p _ => m ∈ a.matchesFrom p → m.2 ∈ a.ends m.1) ?_ ?_ ?_ p hm
  · intro before hm
    rw [matchesFrom_nil] at hm
    cases hm
  · intro before c rest hnone ih hm
    exact ih (matchesFrom_cons_of_ends_eq_nil hnone ▸ hm)
  · intro p q hend ih hm
    rw [matchesFrom_of_end? ha hend] at hm
    obtain rfl | hm := List.mem_cons.1 hm
    · exact List.mem_of_head? hend
    · exact ih hm

/-- **The length of a rewritten text** is that of the text, less what the matches read, and what is written
for them. -/
theorem length_rewriteFrom (rewrite : Place → Place → List Char) (ha : a.consumes = true) (p : Place) :
    (a.rewriteFrom rewrite p).length +
        ((a.matchesFrom p).map fun m => m.1.rest.length - m.2.rest.length).sum =
      p.rest.length + ((a.matchesFrom p).map fun m => (rewrite m.1 m.2).length).sum := by
  refine rewriteFrom_induct rewrite ha (motive := fun p out => out.length +
      ((a.matchesFrom p).map fun m => m.1.rest.length - m.2.rest.length).sum =
    p.rest.length + ((a.matchesFrom p).map fun m => (rewrite m.1 m.2).length).sum) ?_ ?_ ?_ p
  · intro before
    rw [matchesFrom_nil]
    rfl
  · intro before c rest hnone ih
    rw [matchesFrom_cons_of_ends_eq_nil hnone, List.length_cons, List.length_cons]
    dsimp only at ih
    omega
  · intro p q hend ih
    have hlt := length_lt_of_mem_ends ha (List.mem_of_head? hend)
    rw [matchesFrom_of_end? ha hend, List.map_cons, List.map_cons, List.sum_cons, List.sum_cons,
      List.length_append]
    dsimp only
    omega

end Pattern
end Conventions.Text
