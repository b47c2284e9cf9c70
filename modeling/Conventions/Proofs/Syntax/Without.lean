import Conventions.Syntax.Walk
import Conventions.Proofs.Text.Utf8

/-!
# Proofs/Syntax/Without — a source file and its tree without some comments

`Source.without` takes the bytes of some comments out of a file and `Node.without` takes the
comments out of its tree, moving every other node to where its bytes then stand.

The bytes of a node that stays are its old ones with the comments left out (`bytesOf_without`), so
a node that no comment touches keeps its text (`text_without`).
-/

namespace Conventions

/-- **Some comments**, by the bytes that they take. -/
abbrev Comments := List Span

namespace Comments

/-- Does an offset lie in one of the comments? -/
def covers (gone : Comments) (x : Nat) : Bool :=
  gone.any fun e => decide (e.start ≤ x) && decide (x < e.stop)

theorem covers_iff {gone : Comments} {x : Nat} :
    gone.covers x = true ↔ ∃ e ∈ gone, e.start ≤ x ∧ x < e.stop := by
  simp [covers]

/-- What of a list remains if it begins at an offset. -/
def remain {α : Type} (gone : Comments) (i : Nat) : List α → List α
  | [] => []
  | a :: rest => if gone.covers i then remain gone (i + 1) rest else a :: remain gone (i + 1) rest

/-- How many of the offsets from one on remain. -/
def remaining (gone : Comments) (i : Nat) : Nat → Nat
  | 0 => 0
  | n + 1 => if gone.covers i then remaining gone (i + 1) n else remaining gone (i + 1) n + 1

/-- **Where an offset is** once the comments are gone. -/
def moved (gone : Comments) (x : Nat) : Nat := gone.remaining 0 x

/-- Where a span is once the comments are gone. -/
def span (gone : Comments) (place : Span) : Span := ⟨gone.moved place.start, gone.moved place.stop⟩

section

variable {α : Type} {gone : Comments}

theorem take_remain (i n : Nat) (xs : List α) :
    (gone.remain i xs).take (gone.remaining i n) = gone.remain i (xs.take n) := by
  induction n generalizing i xs with
  | zero => simp [remaining, remain]
  | succ n ih =>
    cases xs with
    | nil => simp [remain]
    | cons a rest =>
      rw [remaining, List.take_succ_cons, remain, remain]
      split
      · exact ih (i + 1) rest
      · rw [List.take_succ_cons, ih]

theorem drop_remain (i n : Nat) (xs : List α) :
    (gone.remain i xs).drop (gone.remaining i n) = gone.remain (i + n) (xs.drop n) := by
  induction n generalizing i xs with
  | zero => rfl
  | succ n ih =>
    cases xs with
    | nil => simp [remain]
    | cons a rest =>
      rw [remaining, List.drop_succ_cons, remain, show i + (n + 1) = i + 1 + n by omega]
      split
      · exact ih (i + 1) rest
      · rw [List.drop_succ_cons]
        exact ih (i + 1) rest

/-- Where no comment is, everything remains. -/
theorem remain_eq_self {i : Nat} {xs : List α}
    (h : ∀ x, i ≤ x → x < i + xs.length → gone.covers x = false) : gone.remain i xs = xs := by
  induction xs generalizing i with
  | nil => rfl
  | cons a rest ih =>
    rw [List.length_cons] at h
    rw [remain, h i (Nat.le_refl i) (by omega), if_neg Bool.false_ne_true,
      ih fun x hx hlt => h x (by omega) (by omega)]

theorem remaining_add (i m n : Nat) :
    gone.remaining i (m + n) = gone.remaining i m + gone.remaining (i + m) n := by
  induction m generalizing i with
  | zero => simp [remaining]
  | succ m ih =>
    rw [Nat.succ_add, remaining, remaining, ih, show i + (m + 1) = i + 1 + m by omega]
    split
    · rfl
    · omega

theorem moved_le {x y : Nat} (h : x ≤ y) : gone.moved x ≤ gone.moved y := by
  obtain ⟨d, rfl⟩ := Nat.exists_eq_add_of_le h
  rw [moved, moved, remaining_add]
  omega

/-- After an offset that remains comes the next one. -/
theorem moved_succ {x : Nat} (hx : gone.covers x = false) :
    gone.moved (x + 1) = gone.moved x + 1 := by
  rw [moved, moved, remaining_add]
  simp [remaining, hx]

theorem moved_lt {x y : Nat} (hx : gone.covers x = false) (h : x < y) :
    gone.moved x < gone.moved y := by
  refine Nat.lt_of_lt_of_le ?_ (moved_le h)
  rw [moved_succ hx]
  exact Nat.lt_succ_self _

/-- **Two offsets that remain** are told apart. -/
theorem moved_inj {x y : Nat} (hx : gone.covers x = false) (hy : gone.covers y = false)
    (h : gone.moved x = gone.moved y) : x = y := by
  obtain hlt | rfl | hlt := Nat.lt_trichotomy x y
  · exact absurd h (Nat.ne_of_lt (moved_lt hx hlt))
  · rfl
  · exact absurd h.symm (Nat.ne_of_lt (moved_lt hy hlt))

end

/-! ## Spans -/

/-- Does no comment touch a span? -/
def Spares (gone : Comments) (place : Span) : Prop :=
  ∀ x, place.start ≤ x → x < place.stop → gone.covers x = false

theorem exists_of_not_spares {gone : Comments} {place : Span} (h : ¬ gone.Spares place) :
    ∃ x, place.start ≤ x ∧ x < place.stop ∧ gone.covers x = true := by
  simpa [Spares] using h

/-- Is a span more than nothing, and does it neither begin nor end with a comment? -/
def Tight (gone : Comments) (place : Span) : Prop :=
  place.start < place.stop ∧ gone.covers place.start = false ∧ gone.covers (place.stop - 1) = false

/-- **Two tight spans** are told apart. -/
theorem span_inj {gone : Comments} {a b : Span} (ha : gone.Tight a) (hb : gone.Tight b)
    (h : gone.span a = gone.span b) : a = b := by
  obtain ⟨a₀, a₁⟩ := a
  obtain ⟨b₀, b₁⟩ := b
  obtain ⟨halt, ha₀, ha₁⟩ := ha
  obtain ⟨hblt, hb₀, hb₁⟩ := hb
  obtain ⟨hstart, hstop⟩ := Span.mk.injEq .. ▸ h
  obtain rfl : a₀ = b₀ := moved_inj ha₀ hb₀ hstart
  -- the last offsets remain, and the spans end right after them
  have hlast {z : Nat} (hz : a₀ < z) (hc : gone.covers (z - 1) = false) :
      gone.moved z = gone.moved (z - 1) + 1 := by
    rw [← moved_succ hc, show z - 1 + 1 = z by omega]
  have hends : gone.moved a₁ = gone.moved b₁ := hstop
  rw [hlast halt ha₁, hlast hblt hb₁] at hends
  have hlasts : a₁ - 1 = b₁ - 1 := moved_inj ha₁ hb₁ (Nat.succ.inj hends)
  have ha : a₀ < a₁ := halt
  have hb : a₀ < b₁ := hblt
  rw [show a₁ = b₁ by omega]

end Comments

/-! ## The file -/

/-- **A source file without some comments.** -/
def Source.without (s : Source) (gone : Comments) : Source :=
  ⟨⟨(gone.remain 0 s.bytes.data.toList).toArray⟩⟩

theorem Source.bytesOf_without (s : Source) (gone : Comments) (place : Span) :
    (s.without gone).bytesOf (gone.span place) = gone.remain place.start (s.bytesOf place) := by
  rw [bytesOf_eq, bytesOf_eq, without, Comments.span, Comments.moved, Comments.moved,
    Comments.take_remain, Comments.drop_remain, Nat.zero_add]

theorem Source.length_bytesOf_le (s : Source) (place : Span) :
    (s.bytesOf place).length ≤ place.stop - place.start := by
  rw [bytesOf_eq, List.length_drop, List.length_take]
  omega

theorem Source.slice_without {s : Source} {gone : Comments} {place : Span} (h : gone.Spares place) :
    (s.without gone).slice (gone.span place) = s.slice place := by
  rw [slice, slice, bytesOf_without, Comments.remain_eq_self fun x hx hlt => h x hx ?_]
  have := s.length_bytesOf_le place
  omega

/-- A stretch of a file shows whatever a stretch within it shows. -/
theorem Source.mem_bytesOf_of_within {s : Source} {e place : Span} {b : UInt8}
    (hstart : place.start ≤ e.start) (hstop : e.stop ≤ place.stop) (h : b ∈ s.bytesOf e) :
    b ∈ s.bytesOf place := by
  rw [bytesOf_eq] at h ⊢
  have hlonger : ((s.bytes.data.toList.take e.stop).drop e.start).Sublist
      ((s.bytes.data.toList.take place.stop).drop place.start) :=
    (List.drop_sublist_drop_left _ hstart).trans ((List.take_sublist_take_left hstop).drop _)
  exact hlonger.subset h

/-! ## The tree -/

namespace Node

/-- Is a node one of the comments: without a role, and without anything below it? -/
def isGone (gone : Comments) (n : Node) : Bool :=
  n.kind == .comment && n.field == none && n.children.isEmpty && gone.contains n.span

mutual

/-- **A tree without some comments.** -/
def without (gone : Comments) : Node → Node
  | ⟨kind, field, span, children⟩ => ⟨kind, field, gone.span span, withoutAll gone children⟩

/-- A forest without some comments. -/
def withoutAll (gone : Comments) : List Node → List Node
  | [] => []
  | n :: rest => if n.isGone gone then withoutAll gone rest else without gone n :: withoutAll gone rest

end

section

variable {gone : Comments} {n c : Node}

theorem withoutAll_eq (gone : Comments) (ns : List Node) :
    withoutAll gone ns = (ns.filter fun n => !n.isGone gone).map (without gone) := by
  induction ns with
  | nil => rfl
  | cons n rest ih =>
    rw [withoutAll, List.filter_cons]
    cases n.isGone gone <;> simp [ih]

@[simp] theorem kind_without : (n.without gone).kind = n.kind := by
  cases n
  rfl

@[simp] theorem field_without : (n.without gone).field = n.field := by
  cases n
  rfl

@[simp] theorem span_without : (n.without gone).span = gone.span n.span := by
  cases n
  rfl

@[simp] theorem children_without :
    (n.without gone).children = (n.children.filter fun c => !c.isGone gone).map (without gone) := by
  cases n
  rw [without, withoutAll_eq]

theorem isGone_iff : n.isGone gone = true ↔
    n.kind = .comment ∧ n.field = none ∧ n.children = [] ∧ n.span ∈ gone := by
  simp [isGone, and_assoc]

theorem isGone_of_kind (h : n.kind ≠ .comment) : n.isGone gone = false := by
  simp [isGone, h]

theorem isGone_of_field {f : Field} (h : n.field = some f) : n.isGone gone = false := by
  simp [isGone, h]

/-! ## Children -/

/-- **A child with a role** is never one of the comments. -/
theorem child?_without (f : Field) :
    (n.without gone).child? f = (n.child? f).map (without gone) := by
  rw [child?, child?, children_without, List.find?_map]
  refine congrArg (Option.map _) ?_
  rw [List.find?_filter]
  refine congrArg (List.find? · n.children) (funext fun c => ?_)
  simp only [Function.comp_apply, field_without]
  cases hc : c.isGone gone with
  | true => simp [(isGone_iff.1 hc).2.1]
  | false => cases c.field == some f <;> rfl

theorem first?_without (h : ∀ c, n.first? = some c → c.isGone gone = false) :
    (n.without gone).first? = n.first?.map (without gone) := by
  rw [first?, first?, children_without, List.head?_map]
  cases hcs : n.children with
  | nil => rfl
  | cons c rest =>
    have hc : c.isGone gone = false := h c (by rw [first?, hcs]; rfl)
    simp [hc]

theorem field_of_child? {f : Field} (h : n.child? f = some c) : c.field = some f := by
  simpa using List.find?_some h

end
end Node
end Conventions
