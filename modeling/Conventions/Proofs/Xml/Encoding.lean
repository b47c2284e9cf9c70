import Conventions.Proofs.Fallible
import Conventions.Xml.Reader

/-!
# Proofs/Xml/Encoding — which documents cannot be read for their encoding

Whatever stands in a document, it is at worst malformed, with one exception: the declaration in front
may name an encoding that is not read, and then what follows it does not matter
(`read_eq_error_iff`).
-/

namespace Conventions
namespace Xml

open Fallible

/-! ## What is at worst malformed -/

/-- **A step that is at worst malformed.** -/
def AtWorstMalformed {α : Type} (m : Except Fault α) : Prop := ∀ f, m = .error f → f = .malformed

namespace AtWorstMalformed

variable {α β : Type} {m : Except Fault α} {g : α → Except Fault β}

theorem ok (a : α) : AtWorstMalformed (.ok a) := fun _ h => nomatch h

theorem malformed : AtWorstMalformed (α := α) (.error .malformed) := fun _ h =>
  (Except.error.inj h).symm

theorem bind (hm : AtWorstMalformed m) (hg : ∀ a, AtWorstMalformed (g a)) :
    AtWorstMalformed (m >>= g) := by
  intro f h
  obtain h | ⟨a, -, h⟩ := bind_eq_error_iff.1 h
  · exact hm f h
  · exact hg a f h

theorem ensure (b : Bool) : AtWorstMalformed (Xml.ensure b) := by
  cases b
  · exact malformed
  · exact ok ()

theorem need (a : Option α) : AtWorstMalformed (Xml.need a) := by
  cases a
  · exact malformed
  · exact ok _

/-- The fault of a step that is at worst malformed may end a longer one. -/
theorem error {f : Fault} (hm : AtWorstMalformed m) (h : m = .error f) :
    AtWorstMalformed (α := β) (.error f) := by
  intro f' h'
  cases h'
  exact hm f h

end AtWorstMalformed

/-! ## Parts of a document -/

theorem attributeText_atWorst (lenient : Bool) (n : Nat) (done cs : List Char) :
    AtWorstMalformed (attributeText lenient n done cs) := by
  fun_induction attributeText lenient n done cs with
  | case1 => exact .malformed
  | case2 => exact .ok _
  | case3 n done rest ihChar ihNamed =>
    refine .bind (.need _) fun found => ?_
    split
    · exact ihChar _ _
    · split
      · exact ihNamed _
      · exact .malformed
  | case4 => exact .malformed
  | case5 _ _ _ _ _ _ ih => exact ih

theorem attributes_atWorst (lenient : Bool) (n : Nat) (done : List Attribute) (cs : List Char) :
    AtWorstMalformed (attributes lenient n done cs) := by
  induction n generalizing done cs with
  | zero => exact .malformed
  | succ n ih =>
    rw [attributes]
    split
    · exact .ok _
    · exact .ok _
    · refine .bind (.ensure _) fun _ => .bind (.need _) fun ⟨name, rest⟩ => ?_
      dsimp only
      split
      · refine .bind (.ensure _) fun _ => .bind (.need _) fun closed => ?_
        exact .bind (attributeText_atWorst lenient _ _ _) fun _ => ih _ _
      · exact .malformed

theorem extend_atWorst (scope : Scope) (as : List Attribute) :
    AtWorstMalformed (scope.extend as) := .bind (.ensure _) fun _ => .ok _

theorem checkNames_atWorst (scope : Scope) (name : QualifiedName) (as : List Attribute) :
    AtWorstMalformed (checkNames scope name as) :=
  .bind (.ensure _) fun _ => .bind (.ensure _) fun _ => .bind (.ensure _) fun _ => .ensure _

theorem afterEndTag_atWorst (name : QualifiedName) (cs : List Char) :
    AtWorstMalformed (afterEndTag name cs) := .bind (.need _) fun _ => .need _

/-- Only end tags and other tags pass a fault on; whatever else is wrong in a content is malformed. -/
theorem content_atWorst (lenient : Bool) (n : Nat) (e : OpenElement) (outer : List OpenElement)
    (cs : List Char) : AtWorstMalformed (content lenient n e outer cs) := by
  fun_induction content lenient n e outer cs
  case case4 h => exact (afterEndTag_atWorst _ _).error h
  case case15 tag f htag =>
    refine AtWorstMalformed.error (.bind (.need _) fun ⟨name, rest⟩ => ?_) htag
    refine .bind (attributes_atWorst _ _ _ _) fun ⟨as, isEmpty, rest⟩ => ?_
    exact .bind (extend_atWorst _ _) fun _ => .bind (checkNames_atWorst _ _ _) fun _ => .ok _
  all_goals first
    | exact .malformed
    | exact .ok _
    | assumption

theorem afterAsides_atWorst (n : Nat) (cs : List Char) : AtWorstMalformed (afterAsides n cs) := by
  induction n generalizing cs with
  | zero => exact .ok _
  | succ n ih =>
    rw [afterAsides]
    split
    · exact .bind (.need _) fun _ => ih _
    · exact .bind (.need _) fun _ => ih _
    · exact .ok _

theorem documentType_atWorst (standalone : Bool) (cs : List Char) :
    AtWorstMalformed (documentType standalone cs) := by
  unfold documentType
  split
  · exact .ok _
  · split
    · exact .need _
    · exact .malformed

theorem declared_atWorst (cs : List Char) : AtWorstMalformed (declared cs) := by
  unfold declared
  split
  · split
    · exact .ok _
    · exact .bind (.need _) fun _ => .bind (.need _) fun _ => .ok _
  · exact .ok _

/-! ## Documents -/

/-- What follows the mark of the byte order. -/
def behindMark : List Char → List Char
  | '\uFEFF' :: rest => rest
  | cs => cs

/-- **The encoding that a document declares.** -/
def declaredEncoding? (s : String) : Option String :=
  match declared (behindMark s.toList) with
  | .ok (d, _) => d.encoding
  | .error _ => none

/-- Whether an encoding is read does not depend on what is written in it. -/
theorem inEncoding_eq_error_iff {name : String} {cs : List Char} {f : Fault} :
    inEncoding name cs = .error f ↔ inEncoding name [] = .error f := by
  fun_cases inEncoding name cs <;> simp_all [inEncoding]

/-- What follows the declaration of a document, read in its encoding. -/
def readDeclared (d : Declaration) (cs : List Char) : Except Fault XmlElement := do
  let rest ← afterAsides cs.length cs
  let (state, rest) ← documentType d.standalone rest
  let rest ← afterAsides rest.length rest
  let (name, rest) ← need ((after? "<" rest).bind qualifiedName?)
  let (as, isEmpty, rest) ← attributes state.lenient (rest.length + 1) [] rest
  let scope ← Scope.extend [] as
  checkNames scope name as
  let root := OpenElement.mk name scope [] []
  let (e, rest) ←
    if isEmpty then .ok (root.close, rest)
    else content state.lenient (rest.length + 1) root [] rest
  let rest ← afterAsides rest.length rest
  ensure rest.isEmpty
  .ok e

theorem read_eq (s : String) : read s = (declared (behindMark s.toList)).bind fun (d, rest) =>
    ((d.encoding.map fun e => inEncoding e rest).getD (.ok rest)).bind (readDeclared d) := rfl

theorem readDeclared_atWorst (d : Declaration) (cs : List Char) :
    AtWorstMalformed (readDeclared d cs) := by
  refine .bind (afterAsides_atWorst _ _) fun rest => ?_
  refine .bind (documentType_atWorst _ _) fun ⟨state, rest⟩ => ?_
  refine .bind (afterAsides_atWorst _ _) fun rest => ?_
  refine .bind (.need _) fun ⟨name, rest⟩ => ?_
  refine .bind (attributes_atWorst _ _ _ _) fun ⟨as, isEmpty, rest⟩ => ?_
  refine .bind (extend_atWorst _ _) fun scope => .bind (checkNames_atWorst _ _ _) fun _ => ?_
  have hend (r : XmlElement × List Char) : AtWorstMalformed (afterAsides r.2.length r.2 >>=
      fun rest => ensure rest.isEmpty >>= fun _ => .ok r.1) :=
    .bind (afterAsides_atWorst _ _) fun _ => .bind (.ensure _) fun _ => .ok _
  dsimp only
  split
  · exact hend _
  · exact .bind (content_atWorst _ _ _ _ _) hend

/-- **A document is at worst malformed**, unless it declares an encoding that is not read. -/
theorem read_eq_error_iff {s : String} {f : Fault} (hf : f ≠ .malformed) :
    read s = .error f ↔ ∃ name, declaredEncoding? s = some name ∧ inEncoding name [] = .error f := by
  rw [read_eq, declaredEncoding?]
  cases hdeclared : declared (behindMark s.toList) with
  | error f' =>
    have hmalformed := declared_atWorst _ f' hdeclared
    simp [Except.bind, hmalformed, hf.symm]
  | ok r =>
    obtain ⟨d, rest⟩ := r
    cases hencoding : d.encoding with
    | none =>
      have hne : readDeclared d rest ≠ .error f := fun h => hf (readDeclared_atWorst d rest f h)
      simpa [Except.bind, hencoding] using hne
    | some name =>
      simp only [Except.bind, hencoding, Option.map_some, Option.getD_some, Option.some.injEq,
        exists_eq_left', ← @inEncoding_eq_error_iff name rest]
      cases inEncoding name rest with
      | error f' => simp
      | ok cs =>
        have hne : readDeclared d cs ≠ .error f := fun h => hf (readDeclared_atWorst d cs f h)
        simpa using hne

end Xml
end Conventions
