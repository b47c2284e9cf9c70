import Conventions.Proofs.Catalogue.PastComments.Authentication

/-!
# Proofs/Catalogue/PastComments/Responses — rules on responses, past comments
-/

namespace Conventions
namespace Shape

open Node

variable {gone : Comments} {s : Source} {n c : Node} {v : Visit}

theorem isResponseCall_without (h : n.Commented nowhere gone s) :
    isResponseCall (s.without gone) (n.without gone) = isResponseCall s n := by
  simp only [isResponseCall, kind_without, h.calleePath_without, h.calleeName_without,
    h.rootNameOf_receiver]

/-! ## Envelopes -/

theorem any_contains_of_sameWords {ks ls : List String} (h : SameWords ks ls) (ws : List String)
    (hws : ∀ w ∈ ws, isWord w = true) : ws.any ks.contains = ws.any ls.contains := by
  rw [Bool.eq_iff_iff, List.any_eq_true, List.any_eq_true]
  refine exists_congr fun w => and_congr_right fun hw => ?_
  rw [h.contains (hws w hw)]

theorem all_contains_of_sameWords {ks ls : List String} (h : SameWords ks ls) (ws : List String)
    (hws : ∀ w ∈ ws, isWord w = true) : ks.all ws.contains = ls.all ws.contains := by
  rw [Bool.eq_iff_iff, List.all_eq_true, List.all_eq_true]
  simpa only [List.contains_iff_mem] using h.all ws hws

/-- **The envelope that keys make** depends on words only. -/
theorem envelopeOfKeys_of_sameWords {ks ls : List String} (h : SameWords ks ls) :
    envelopeOfKeys ks = envelopeOfKeys ls := by
  simp only [envelopeOfKeys, h.nil, h.contains (w := "success") (by decide),
    h.contains (w := "ok") (by decide), h.contains (w := "data") (by decide),
    h.contains (w := "result") (by decide), h.contains (w := "results") (by decide),
    h.contains (w := "status") (by decide),
    any_contains_of_sameWords h statusCompanions (by decide),
    all_contains_of_sameWords h errorKeys (by decide)]

theorem envelope?_without {o : Option Node} (h : ∀ c, o = some c → c.Commented nowhere gone s) :
    envelope? (s.without gone) (o.map (without gone)) = envelope? s o := by
  rw [envelope?, envelope?, unwrapped?_of_commented h]
  cases hp : o.bind Node.unwrapped? with
  | none => rfl
  | some p =>
    obtain ⟨c, hc, hcp⟩ := Option.bind_eq_some_iff.1 hp
    simp only [Option.map_some, kind_without,
      envelopeOfKeys_of_sameWords ((h c hc).unwrapped? hcp).sameWords]

theorem maySendObject_without {o : Option Node} (h : ∀ c, o = some c → c.Commented nowhere gone s) :
    maySendObject (o.map (without gone)) = maySendObject o := by
  rw [maySendObject, maySendObject, unwrapped?_of_commented h]
  cases o.bind Node.unwrapped? with
  | none => rfl
  | some p => simp only [Option.map_some, kind_without]

theorem responseEnvelope_pastComments (label : String) (literal : Bool) :
    (responseEnvelope label literal).PastComments := by
  refine pastComments_citing fun gone s v h _ => ?_
  have hfirst : ∀ c, v.node.firstArgument? = some c → c.Commented nowhere gone s :=
    fun c => h.node.firstArgument?
  simp only [Visit.without, isResponseCall_without h.node, h.node.calleeName_without,
    firstArgument?_without, maySendObject_without hfirst, envelope?_without hfirst]

theorem isResponseVariable_iff {name : String} : isResponseVariable name = true ↔
    name ∈ responseVariables ++ responseVariables.map (· ++ "\n") := by
  rw [isResponseVariable, Bool.or_eq_true, List.contains_iff_mem, List.any_eq_true, List.mem_append,
    List.mem_map]
  simp only [beq_iff_eq]
  simp only [eq_comm]

theorem isResponseVariable_without (h : n.Commented nowhere gone s) (hc : n.child? .name = some c) :
    isResponseVariable ((c.without gone).text (s.without gone)) =
      isResponseVariable (c.text s) := by
  rw [Bool.eq_iff_iff, isResponseVariable_iff, isResponseVariable_iff]
  exact h.text_mem (mem_of_child? hc) (isGone_of_field (field_of_child? hc)) (by decide)

theorem responseVariable_pastComments (label : String) :
    (responseVariable label).PastComments := by
  refine pastComments_citing fun gone s v h _ => ?_
  have hvalue : ∀ c, v.node.child? .value = some c → c.Commented nowhere gone s :=
    fun c => h.node.child?
  simp only [Visit.without, kind_without, child?_without, unwrapped?_of_commented hvalue]
  refine congrArg₂ (fun a b => _ && a && b) ?_ ?_
  · cases hname : v.node.child? .name with
    | none => rfl
    | some name => exact isResponseVariable_without h.node hname
  · cases hp : (v.node.child? .value).bind Node.unwrapped? with
    | none => rfl
    | some p =>
      obtain ⟨c, hc, hcp⟩ := Option.bind_eq_some_iff.1 hp
      have hcommented : ∀ d, some p = some d → d.Commented nowhere gone s := by
        intro d hd
        cases hd
        exact (hvalue c hc).unwrapped? hcp
      have henvelope := envelope?_without hcommented
      rw [Option.map_some] at henvelope
      simp only [Option.map_some, kind_without, henvelope]

/-! ## Status codes -/

theorem isResponseName_without {o : Option Node}
    (h : ∀ c, o = some c → c.Commented nowhere gone s) :
    isResponseName (s.without gone) (o.map (without gone)) = isResponseName s o := by
  cases o with
  | none => rfl
  | some c =>
    simp only [isResponseName, Option.map_some, kind_without]
    by_cases hk : c.kind = .identifier
    · rw [(h c rfl).text_token (by simp [isToken, hk])]
    · rw [beq_false_of_ne hk]
      rfl

theorem isStatusCode_without (h : n.Commented nowhere gone s) :
    isStatusCode (s.without gone) (n.without gone) = isStatusCode s n := by
  simp only [isStatusCode, kind_without, h.path?_without]

/-- **Whether a decorator calls a certain word** does not depend on comments. -/
theorem decoratorCall?_word (h : n.Commented nowhere gone s) {w : String} (hw : isWord w = true) :
    (decoratorCall? (s.without gone) (n.without gone) == some w) =
      (decoratorCall? s n == some w) := by
  rw [decoratorCall?, decoratorCall?, kind_without]
  split
  case isTrue hk =>
    rw [first?_stays h (by simp [readsFirst, firstReaders, hk])]
    cases hi : n.first? with
    | none => rfl
    | some inner =>
      simp only [Option.map_some, kind_without]
      split
      · rw [Bool.eq_iff_iff, beq_iff_eq, beq_iff_eq, Option.some_inj, Option.some_inj]
        exact (h.first? hi).textOf_word .function hw
      · rfl
  case isFalse => rfl

theorem explicitStatus_pastComments : explicitStatus.PastComments := by
  refine pastComments_citing fun gone s v h _ => ?_
  simp only [Visit.without, kind_without, h.node.calleeName_without, h.node.calleePath_without,
    receiver?_without, isResponseName_without fun c => h.node.receiver?, firstArgument?_without,
    (h.node.sameWords_argument 1).contains (w := "status") (by decide),
    decoratorCall?_word h.node (w := "HttpCode") (by decide)]
  cases hc : v.node.firstArgument? with
  | none => rfl
  | some code => simp only [Option.map_some, isStatusCode_without (h.node.firstArgument? hc)]

theorem implicitStatus_pastComments : implicitStatus.PastComments := by
  refine pastComments_citing fun gone s v h _ => ?_
  simp only [Visit.without, isResponseCall_without h.node, receiver?_without,
    isResponseName_without fun c => h.node.receiver?]

/-! ## Error payloads -/

theorem errorFormatOfKeys_without {o : Option Node}
    (h : ∀ c, o = some c → c.Commented nowhere gone s) :
    errorFormatOfKeys (objectKeysOf (s.without gone) (o.map (without gone))) =
      errorFormatOfKeys (objectKeysOf s o) := by
  cases o with
  | none => rfl
  | some c =>
    have hc := h c rfl
    simp only [Option.map_some, objectKeysOf]
    rw [errorFormatOfKeys, errorFormatOfKeys, hc.find?_objectKeys (w := "error") (by decide)]
    cases he : (c.objectKeys s).find? (·.1 == "error") with
    | none =>
      simp only [Option.map_none, hc.sameWords.contains (w := "errors") (by decide),
        hc.sameWords.contains (w := "message") (by decide),
        all_contains_of_sameWords hc.sameWords errorKeys (by decide)]
    | some e =>
      have hvalue : ∀ v, e.2 = some v → v.Commented nowhere gone s := fun v => hc.value he
      simp only [Option.map_some, unwrapped?_of_commented hvalue]
      cases e.2.bind Node.unwrapped? with
      | none => rfl
      | some v => simp only [Option.map_some, kind_without]

theorem errorFormat?_without (h : n.Commented nowhere gone s) :
    errorFormat? (s.without gone) (n.without gone) = errorFormat? s n := by
  have hpayload : ∀ c, n.firstArgument?.bind Node.unwrapped? = some c →
      c.Commented nowhere gone s := by
    intro c hc
    obtain ⟨first, hfirst, hc⟩ := Option.bind_eq_some_iff.1 hc
    exact (h.firstArgument? hfirst).unwrapped? hc
  rw [errorFormat?, errorFormat?, isResponseCall_without h, firstArgument?_without,
    unwrapped?_of_commented fun c => h.firstArgument?, errorFormatOfKeys_without hpayload]

theorem errorFormat_pastComments (label : String) : (errorFormat label).PastComments := by
  refine pastComments_citing fun gone s v h _ => ?_
  simp only [Visit.without, errorFormat?_without h.node]

end Shape
end Conventions
