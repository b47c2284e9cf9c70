import Conventions.Proofs.Catalogue.Tokens

/-!
# Proofs/Catalogue/Exclusion — a node votes once in a facet

For each facet one function of the node names the only shape of the facet that can prove something
there. Two shapes of a facet that both prove something at a node therefore have one name
(`oneName_shapes`), and no two shapes of the catalogue share a name (`nodup_names`): a node votes
once (`votes_once`). Which rule is tried at which kinds plays no part in it.
-/

namespace Conventions
namespace Catalogue

open Shape

/-- **Shapes of one facet that prove something at a visit** are all the same one. -/
def OneName (shapes : List Shape) (s : Source) (v : Visit) : Prop :=
  ∀ a ∈ shapes, ∀ b ∈ shapes, a.facet = b.facet → ∀ p q,
    a.proof? s v = some p → b.proof? s v = some q → a.name = b.name

variable {s : Source} {v : Visit} {n p q : Node} {shape : Shape}

/-- A name that only depends on the node tells which shape it can be. -/
theorem OneName.of_name {shapes : List Shape} (name : String)
    (h : ∀ a ∈ shapes, ∀ p, a.proof? s v = some p → a.name = name) : OneName shapes s v :=
  fun a ha b hb _ p q hp hq => (h a ha p hp).trans (h b hb q hq).symm

theorem OneName.append {shapes others : List Shape} (h : OneName shapes s v)
    (h' : OneName others s v)
    (hfacets : ∀ facet ∈ shapes.map (·.facet), facet ∉ others.map (·.facet)) :
    OneName (shapes ++ others) s v := by
  have cross {a b : Shape} (ha : a ∈ shapes) (hb : b ∈ others) : a.facet ≠ b.facet :=
    fun heq => hfacets _ (List.mem_map_of_mem ha) (heq ▸ List.mem_map_of_mem hb)
  intro a ha b hb hfacet
  obtain ha | ha := List.mem_append.1 ha <;> obtain hb | hb := List.mem_append.1 hb
  · exact h a ha b hb hfacet
  · exact absurd hfacet (cross ha hb)
  · exact absurd hfacet.symm (cross hb ha)
  · exact h' a ha b hb hfacet

theorem oneName_tokenLocation (hnested : v.node.SpansNested) : OneName tokenLocation s v :=
  .of_name (tokenName s v.node) (name_of_mem_tokenLocation hnested)

/-! ## The current user -/

/-- A request that is given a context is no place of the user itself. -/
theorem userPlace?_of_setsUserContext (h : setsUserContext s n = true) :
    ((n.child? .left).bind (·.path? s)).bind userPlace? = none := by
  unfold setsUserContext at h
  split at h
  case h_1 root context hpath =>
    simp only [Bool.and_eq_true, beq_iff_eq] at h
    obtain ⟨⟨hroot, rfl⟩, -⟩ := h
    rw [hpath, Option.bind_some, userPlace?, if_pos hroot]
    rfl
  case h_2 => cases h

/-- **The only shape about the user that a node can be.** -/
def userName (s : Source) (n : Node) : String :=
  if n.kind = .assignmentExpression then
    if setsUserContext s n then "req.context.user-assignment"
    else (((n.child? .left).bind (·.path? s)).bind userPlace?).getD "" ++ "-assignment"
  else ((n.path? s).bind userPlace?).getD "" ++ "-read"

theorem userName_of_assignsUser {label : String} (h : assignsUser label s v = some p) :
    userName s v.node = label ++ "-assignment" := by
  have h := (of_citing h).1
  simp only [Bool.and_eq_true, Bool.or_eq_true, beq_iff_eq] at h
  obtain ⟨hkind, hplace | ⟨rfl, hsets⟩⟩ := h
  · have hsets : ¬ setsUserContext s v.node = true := fun hsets => by
      rw [userPlace?_of_setsUserContext hsets] at hplace
      cases hplace
    rw [userName, if_pos hkind, if_neg hsets, hplace, Option.getD_some]
  · rw [userName, if_pos hkind, if_pos hsets]
    rfl

theorem userName_of_readsUser {label : String} (h : readsUser label s v = some p) :
    userName s v.node = label ++ "-read" := by
  have h := (of_citing h).1
  simp only [Bool.and_eq_true, beq_iff_eq] at h
  obtain ⟨⟨hkind, -⟩, hplace⟩ := h
  rw [userName, if_neg (by simp [hkind]), hplace, Option.getD_some]

theorem oneName_userProperty : OneName userProperty s v := by
  refine .of_name (userName s v.node) ?_
  simp only [userProperty, List.forall_mem_append, List.forall_mem_map]
  exact ⟨fun _ _ _ hp => (userName_of_assignsUser hp).symm,
    fun _ _ _ hp => (userName_of_readsUser hp).symm⟩

/-! ## Envelopes -/

/-- **The only shape about envelopes that a node can be.** -/
def envelopeName (s : Source) (n : Node) : String :=
  if n.kind = .callExpression then
    match envelope? s n.firstArgument? with
    | some ⟨label, true⟩ => label ++ "-response"
    | _ => "bare-value-response"
  else
    match envelope? s ((n.child? .value).bind (·.unwrapped?)) with
    | some ⟨label, _⟩ => label ++ "-variable"
    | none => ""

theorem envelope?_of_responseEnvelope {label : String} {literal : Bool}
    (h : responseEnvelope label literal s v = some p) :
    v.node.kind = .callExpression ∧ envelope? s v.node.firstArgument? = some ⟨label, literal⟩ := by
  have h := (of_citing h).1
  simp only [Bool.and_eq_true, beq_iff_eq] at h
  exact ⟨kind_of_isResponseCall h.1.1, h.2⟩

theorem envelopeName_of_responseVariable {label : String}
    (h : responseVariable label s v = some p) :
    envelopeName s v.node = label ++ "-variable" := by
  have h := (of_citing h).1
  simp only [Bool.and_eq_true, beq_iff_eq] at h
  obtain ⟨⟨hkind, -⟩, h⟩ := h
  split at h
  case h_1 value hvalue =>
    simp only [Bool.and_eq_true, beq_iff_eq] at h
    simp [envelopeName, hkind, hvalue, h.2]
  case h_2 => cases h

theorem oneName_responseEnvelopes : OneName responseEnvelopes s v := by
  refine .of_name (envelopeName s v.node) ?_
  simp only [responseEnvelopes, List.forall_mem_append, List.forall_mem_map,
    List.forall_mem_singleton]
  refine ⟨⟨fun label _ p hp => ?_, fun p hp => ?_⟩, fun label _ p hp => ?_⟩
  · obtain ⟨hkind, henvelope⟩ := envelope?_of_responseEnvelope hp
    simp [envelopeName, hkind, henvelope]
  · obtain ⟨hkind, henvelope⟩ := envelope?_of_responseEnvelope hp
    simp [envelopeName, hkind, henvelope]
  · exact (envelopeName_of_responseVariable hp).symm

/-! ## Status codes -/

/-- What is called on a response is not the web platform's own way to answer. -/
theorem isWebResponse_eq_false (h : isResponseName s n.receiver? = true) :
    isWebResponse (n.calleePath s) = false := by
  unfold Node.receiver? at h
  split at h
  case h_1 target htarget =>
    split at h
    case isTrue hmember =>
      unfold isResponseName at h
      split at h
      case h_1 object hobject =>
        rw [Bool.and_eq_true, beq_iff_eq, List.contains_iff_mem] at h
        have hpath : object.path? s = some [object.text s] := by
          rw [Node.path?_eq, h.1]
        have hnext : object.text s ≠ "NextResponse" := fun heq =>
          absurd (heq ▸ h.2) (by decide)
        have hweb : object.text s ≠ "Response" := fun heq => absurd (heq ▸ h.2) (by decide)
        rw [Node.calleePath, htarget, Option.bind_some, Node.path?_eq, hmember]
        cases hproperty : target.child? .property with
        | none => rfl
        | some property => simp [hobject, hpath, isWebResponse, hnext, hweb]
      case h_2 => cases h
    case isFalse => cases h
  case h_2 => cases h

/-- **The only shape about status codes that a node can be.** -/
def statusName (s : Source) (n : Node) : String :=
  if n.kind = .callExpression ∧ ¬ statusMethods.contains (n.calleeName s) = true ∧
      ¬ isWebResponse (n.calleePath s) = true then
    "implicit-status-response"
  else "explicit-status-call"

theorem statusName_of_explicitStatus (h : explicitStatus s v = some p) :
    statusName s v.node = "explicit-status-call" := by
  have h := (of_citing h).1
  refine if_neg fun hnot => ?_
  rw [if_pos hnot.1, if_neg hnot.2.1, Bool.and_eq_true] at h
  exact hnot.2.2 h.1

theorem statusName_of_implicitStatus (h : implicitStatus s v = some p) :
    statusName s v.node = "implicit-status-response" := by
  obtain ⟨hcall, hname⟩ := Bool.and_eq_true_iff.1 (of_citing h).1
  have hweb := isWebResponse_eq_false hname
  have hsends : ∀ method ∈ ["json", "send"], method ∉ statusMethods := by decide
  refine if_pos ⟨kind_of_isResponseCall hcall, fun hmethod => ?_, ?_⟩
  · rw [isResponseCall, hweb, Bool.false_or, Bool.and_eq_true, Bool.and_eq_true] at hcall
    exact hsends _ (List.contains_iff_mem.1 hcall.2.1) (List.contains_iff_mem.1 hmethod)
  · rw [hweb]
    exact Bool.false_ne_true

theorem oneName_statusCodes : OneName statusCodes s v := by
  refine .of_name (statusName s v.node) ?_
  simp only [statusCodes, List.forall_mem_cons]
  exact ⟨fun p hp => (statusName_of_explicitStatus hp).symm,
    fun p hp => (statusName_of_implicitStatus hp).symm,
    fun shape hshape => absurd hshape List.not_mem_nil⟩

/-! ## Error payloads -/

theorem oneName_errorFormats : OneName errorFormats s v := by
  refine .of_name ((errorFormat? s v.node).getD "" ++ "-payload") ?_
  simp only [errorFormats, List.forall_mem_map]
  intro label _ p hp
  rw [eq_of_beq (of_citing hp).1, Option.getD_some]

/-! ## Where errors are caught -/

/-- **The only shape about catching that a node can be.** -/
def catchName (s : Source) (n : Node) : String :=
  if n.kind = .tryStatement then "try-catch-block"
  else if n.kind = .genericType then "result-type-reference"
  else if n.kind ∈ Kind.functions then "error-middleware-signature"
  else if isCatchCall s n then "promise-catch-call"
  else "framework-error-hook"

/-- A framework's hook has another name than a promise's `catch`. -/
theorem isCatchCall_eq_false (h : frameworkErrorHook s v = some p) :
    isCatchCall s v.node = false := by
  have h := (of_citing h).1
  rw [isCatchCall]
  split at h
  case isTrue hkind =>
    have hhooks : ∀ name ∈ ["setErrorHandler", "onError"], (name == "catch") = false := by decide
    rw [Bool.and_eq_true, List.contains_iff_mem] at h
    rw [hhooks _ h.1, Bool.and_false]
  case isFalse hkind => rw [beq_false_of_ne hkind, Bool.false_and]

/-- A node of some kinds is none of other kinds. -/
theorem ne_kind_of_mem {kinds : List Kind} {k j : Kind} (h : k ∈ kinds) (hj : j ∉ kinds) : k ≠ j :=
  fun heq => hj (heq ▸ h)

theorem oneName_catchStyle : OneName catchStyle s v := by
  refine .of_name (catchName s v.node) ?_
  simp only [catchStyle, List.forall_mem_cons]
  refine ⟨fun p hp => ?_, fun p hp => ?_, fun p hp => ?_, fun p hp => ?_, fun p hp => ?_,
    fun shape hshape => absurd hshape List.not_mem_nil⟩
  · have hkind := errorMiddleware_firesWithin s v p hp
    rw [catchName, if_neg (ne_kind_of_mem hkind (by decide)),
      if_neg (ne_kind_of_mem hkind (by decide)), if_pos hkind]
  · have hkind := frameworkErrorHook_firesWithin s v p hp
    have hnot : ∀ k ∈ callOrDecorator, k ∉ Kind.functions := by decide
    rw [catchName, if_neg (ne_kind_of_mem hkind (by decide)),
      if_neg (ne_kind_of_mem hkind (by decide)), if_neg (hnot _ hkind), isCatchCall_eq_false hp]
    rfl
  · rw [catchName, if_pos (List.mem_singleton.1 (tryCatch_firesWithin s v p hp))]
  · have hcatch := (Bool.and_eq_true_iff.1 (of_citing hp).1).1
    have hkind := promiseCatch_firesWithin s v p hp
    have hnot : ∀ k ∈ callKinds, k ∉ Kind.functions := by decide
    rw [catchName, if_neg (ne_kind_of_mem hkind (by decide)),
      if_neg (ne_kind_of_mem hkind (by decide)), if_neg (hnot _ hkind), if_pos hcatch]
  · have hkind := resultType_firesWithin s v p hp
    rw [catchName, if_neg (ne_kind_of_mem hkind (by decide)), if_pos (List.mem_singleton.1 hkind)]

/-! ## Handlers -/

/-- The way in which errors leave the handler at a node. -/
def propagated? (s : Source) (n : Node) : Option String :=
  if catchesWithNext s n then some "next-error"
  else ((handlerBody? s n).bind (propagation? s)).map (·.1)

theorem propagated?_of_propagates {label : String} (h : propagates label s v = some p) :
    propagated? s v.node = some label := by
  unfold propagates at h
  rw [propagated?]
  split at h
  case isTrue hnext =>
    split at h
    case isTrue hlabel => rw [if_pos hnext, hlabel]
    case isFalse => cases h
  case isFalse hnext =>
    split at h
    case h_1 found proof hfound =>
      split at h
      case isTrue heq => rw [if_neg hnext, hfound, Option.map_some, heq]
      case isFalse => cases h
    case h_2 => cases h

/-- The way in which the handler at a node logs. -/
def logged? (s : Source) (n : Node) : Option String :=
  ((handlerBody? s n).bind (logging? s)).map (·.1)

theorem logged?_of_logsWith {label : String} (h : logsWith label s v = some p) :
    logged? s v.node = some label := by
  unfold logsWith at h
  rw [logged?]
  split at h
  case h_1 found proof hfound =>
    split at h
    case isTrue heq => rw [hfound, Option.map_some, heq]
    case isFalse => cases h
  case h_2 => cases h

/-- The label that a handler has in a facet. -/
def handlerLabel? (s : Source) (n : Node) (facet : String) : Option String :=
  if facet = "propagation" then propagated? s n else logged? s n

theorem handlerLabel?_of_mem_handlers (hmem : shape ∈ handlers) (h : shape.proof? s v = some p) :
    handlerLabel? s v.node shape.facet = some shape.label := by
  obtain ⟨hfacet, hrule⟩ | ⟨hfacet, hrule⟩ := rule_of_mem_handlers hmem <;> rw [hrule] at h
  · rw [handlerLabel?, if_pos hfacet, propagated?_of_propagates h]
  · rw [handlerLabel?, hfacet, if_neg (by decide), logged?_of_logsWith h]

theorem oneName_handlers : OneName handlers s v := by
  have hnames : ∀ a ∈ handlers, ∀ b ∈ handlers, a.label = b.label → a.name = b.name := by
    simp [handlers]
  intro a ha b hb hfacet p q hp hq
  refine hnames a ha b hb (Option.some.inj ?_)
  calc some a.label = handlerLabel? s v.node a.facet := (handlerLabel?_of_mem_handlers ha hp).symm
    _ = handlerLabel? s v.node b.facet := by rw [hfacet]
    _ = some b.label := handlerLabel?_of_mem_handlers hb hq

/-! ## The catalogue -/

theorem oneName_shapes (hnested : v.node.SpansNested) : OneName shapes s v :=
  (((((((oneName_tokenLocation hnested).append oneName_userProperty (by decide)).append
    oneName_responseEnvelopes (by decide)).append oneName_statusCodes (by decide)).append
    oneName_errorFormats (by decide)).append oneName_catchStyle (by decide)).append
    oneName_handlers (by decide))

theorem nodup_names : (shapes.map (·.name)).Nodup := by decide

/-- Does a shape of a facet prove something at a visit? -/
def votes (s : Source) (v : Visit) (category : Category) (facet : String) (shape : Shape) : Bool :=
  shape.category == category && shape.facet == facet && (shape.proof? s v).isSome

theorem length_filter_votes_le_one (hnested : v.node.SpansNested) (category : Category)
    (facet : String) : (shapes.filter (votes s v category facet)).length ≤ 1 := by
  refine Sequence.length_filter_le_one nodup_names fun a ha b hb hpa hpb => ?_
  simp only [votes, Bool.and_eq_true, beq_iff_eq, Option.isSome_iff_exists] at hpa hpb
  obtain ⟨⟨-, hfacet⟩, p, hp⟩ := hpa
  obtain ⟨⟨-, hfacet'⟩, q, hq⟩ := hpb
  exact oneName_shapes hnested a ha b hb (hfacet.trans hfacet'.symm) p q hp hq

/-- The hits of a facet at a visit are as many as its shapes that prove something there. -/
theorem length_filter_hitsOf (category : Category) (facet : String) :
    ((Node.hitsOf s (shapesFor v.node.kind) v).filter fun h =>
        h.shape.category == category && h.shape.facet == facet).length =
      (shapes.filter (votes s v category facet)).length := by
  rw [Node.hitsOf_shapesFor, Node.hitsOf, ← List.countP_eq_length_filter,
    ← List.countP_eq_length_filter, List.countP_filterMap]
  refine List.countP_congr fun shape _ => ?_
  cases hp : shape.proof? s v <;> simp [votes, hp]

/-- **No node votes twice in one facet.** In a tree whose spans are nested, at most one shape of a
facet proves something at a node, whatever the kinds that the shapes are filed under; so at most one
hit of the facet is found there. -/
theorem votes_once {root : Node} {v : Visit} (hnested : root.SpansNested)
    (hv : v.node ∈ root.nodes) (s : Source) (category : Category) (facet : String) :
    (shapes.filter fun shape => shape.category == category && shape.facet == facet
        && (shape.proof? s v).isSome).length ≤ 1 ∧
      ((Node.hitsOf s (shapesFor v.node.kind) v).filter fun h =>
        h.shape.category == category && h.shape.facet == facet).length ≤ 1 := by
  have hone := length_filter_votes_le_one (s := s) (hnested.of_mem_nodes hv) category facet
  exact ⟨hone, (length_filter_hitsOf category facet).trans_le hone⟩

/-- The tree of `return session(\x7b\x7d)`: the call in it. -/
def sessionCall : Node :=
  ⟨.callExpression, none, ⟨7, 18⟩,
    [⟨.identifier, some .function, ⟨7, 14⟩, []⟩,
      ⟨.arguments, some .arguments, ⟨14, 18⟩, [⟨.object, none, ⟨15, 17⟩, []⟩]⟩]⟩

/-- The call is session middleware, and counts once for where tokens travel. -/
theorem votes_once_sessionCall :
    let s : Source := ⟨"return session(\x7b\x7d)".toUTF8⟩
    let root : Node := ⟨.returnStatement, none, ⟨0, 18⟩, [sessionCall]⟩
    let v : Visit := ⟨some root, sessionCall⟩
    root.SpansNested ∧ v.node ∈ root.nodes ∧ (sessionMiddleware s v).isSome = true ∧
      (shapes.filter fun shape => shape.category == .authentication &&
        shape.facet == "token_location" && (shape.proof? s v).isSome).length ≤ 1 := by
  intro s root v
  have hnested : root.SpansNested := by decide
  have hmem : v.node ∈ root.nodes :=
    Node.mem_nodes_of_mem_children (Node.mem_nodes_self root) (List.mem_singleton_self _)
  have hvotes : (sessionMiddleware s v).isSome = true := by decide +kernel
  exact ⟨hnested, hmem, hvotes, (votes_once hnested hmem s .authentication "token_location").1⟩

end Catalogue
end Conventions
