import Conventions.Proofs.Catalogue.PastComments.Responses

/-!
# Proofs/Catalogue/PastComments/Errors — rules on errors and handlers, past comments

The nodes of a handler without comments are its nodes with the comments left out. A comment shows
neither a way out of a handler nor a logger, so the first node that does is the same.
-/

namespace Conventions
namespace Shape

open Node

variable {gone : Comments} {s : Source} {n c : Node} {v : Visit}

/-! ## Where errors are caught -/

/-- Only a list of parameters holds four names. -/
theorem isErrorMiddleware_without (h : n.Commented nowhere gone s) :
    isErrorMiddleware (s.without gone) (n.without gone) = isErrorMiddleware s n := by
  rw [isErrorMiddleware, isErrorMiddleware, kind_without]
  refine congrArg (and _) ?_
  cases hp : n.child? .parameter with
  | none => rw [h.parameterNames_without hp]
  | some single =>
    have hone {s : Source} {n single : Node} (hp : n.child? .parameter = some single) :
        n.parameterNames s = [single.text s] := by
      rw [parameterNames, hp]
    have hwithout : (n.without gone).child? .parameter = some (single.without gone) := by
      rw [child?_without, hp, Option.map_some]
    rw [hone hp, hone hwithout]

theorem errorMiddleware_pastComments : errorMiddleware.PastComments := by
  refine pastComments_citing fun gone s v h _ => ?_
  simp only [Visit.without, isErrorMiddleware_without h.node]

theorem frameworkErrorHook_pastComments : frameworkErrorHook.PastComments := by
  refine pastComments_citing fun gone s v h _ => ?_
  simp only [Visit.without, kind_without, h.node.calleeName_without, receiver?_without,
    Option.isSome_map, decoratorCall?_word h.node (w := "Catch") (by decide)]

theorem tryCatch_pastComments : tryCatch.PastComments := by
  refine pastComments_citing fun gone s v h _ => ?_
  simp only [Visit.without, kind_without, child?_without, Option.isSome_map]

theorem isCatchCall_without (h : n.Commented nowhere gone s) :
    isCatchCall (s.without gone) (n.without gone) = isCatchCall s n := by
  simp only [isCatchCall, kind_without, h.calleeName_without]

theorem promiseCatch_pastComments : promiseCatch.PastComments := by
  refine pastComments_citing fun gone s v h _ => ?_
  simp only [Visit.without, isCatchCall_without h.node, receiver?_without, Option.isSome_map]

/-- The node that names a generic type. -/
theorem typeName_without (h : n.Commented nowhere gone s) (hk : n.kind = .genericType) :
    ((n.without gone).child? .name).or (n.without gone).first? =
      ((n.child? .name).or n.first?).map (without gone) := by
  rw [child?_without]
  cases hname : n.child? .name with
  | none => exact first?_stays h (by simp [readsFirst, firstReaders, hk, hname])
  | some name => rfl

theorem resultType_pastComments : resultType.PastComments := by
  refine pastComments_citing fun gone s v h _ => ?_
  simp only [Visit.without, kind_without]
  by_cases hk : v.node.kind = .genericType
  · rw [typeName_without h.node hk]
    refine congrArg (and _) ?_
    have hword : ∀ w ∈ ["Result", "Either"], isWord w = true := by decide
    rw [Bool.eq_iff_iff, List.contains_iff_mem, List.contains_iff_mem]
    cases hname : v.node.child? .name with
    | some name =>
      exact h.node.text_mem (mem_of_child? hname) (isGone_of_field (field_of_child? hname)) hword
    | none =>
      cases hfirst : v.node.first? with
      | none => rfl
      | some first =>
        have hstays := h.node.first_stays (by simp [readsFirst, firstReaders, hk, hname]) first hfirst
        exact h.node.text_mem (List.mem_of_head? hfirst) hstays hword
  · rw [beq_false_of_ne hk]
    rfl

/-! ## Handlers -/

theorem handlerBody?_without (h : n.Commented nowhere gone s) :
    handlerBody? (s.without gone) (n.without gone) =
      (handlerBody? s n).map (without gone) := by
  rw [handlerBody?, handlerBody?, kind_without, isErrorMiddleware_without h, isCatchCall_without h,
    child?_without, body?, body?, child?_without, firstArgument?_without]
  split
  · rfl
  split
  · rfl
  split
  · cases n.firstArgument? with
    | none => rfl
    | some handler =>
      simp only [Option.map_some, kind_without]
      split
      · exact child?_without _
      · rfl
  · rfl

theorem commented_of_handlerBody? (h : n.Commented nowhere gone s)
    (hb : handlerBody? s n = some c) : c.Commented nowhere gone s ∧ c.field = some .body := by
  unfold handlerBody? at hb
  split at hb
  · exact ⟨h.child? hb, field_of_child? hb⟩
  split at hb
  · exact ⟨h.child? hb, field_of_child? hb⟩
  split at hb
  · split at hb
    case h_1 handler hfirst =>
      split at hb
      · exact ⟨(h.firstArgument? hfirst).child? hb, field_of_child? hb⟩
      · cases hb
    case h_2 => cases hb
  · cases hb

/-- **The nodes of a handler without comments** are its nodes, the comments left out. -/
theorem handlerNodes_without (hc : c.isGone gone = false) :
    handlerNodes (c.without gone) =
      ((handlerNodes c).filter fun m => !m.isGone gone).map (without gone) := by
  rw [handlerNodes, handlerNodes, kind_without, bodyNodes_without]
  split
  · rfl
  · rw [List.filter_cons_of_pos (by simp [hc]), List.map_cons]

theorem commented_of_handlerNodes (h : c.Commented nowhere gone s) :
    ∀ m ∈ handlerNodes c, m.Commented nowhere gone s := by
  rw [handlerNodes]
  split
  · exact h.bodyNodes
  · exact List.forall_mem_cons.2 ⟨h, h.bodyNodes⟩

/-- **The first node of a handler that shows something** is the same without comments, if comments
never show it. -/
theorem find?_handlerNodes {p q : Node → Bool} (h : c.Commented nowhere gone s)
    (hc : c.isGone gone = false)
    (hpq : ∀ m, m.Commented nowhere gone s → q (m.without gone) = p m)
    (hgone : ∀ m : Node, m.kind = .comment → p m = false) :
    (handlerNodes (c.without gone)).find? q = ((handlerNodes c).find? p).map (without gone) := by
  rw [handlerNodes_without hc, List.find?_map, List.find?_filter]
  refine congrArg (Option.map _) ?_
  have hall := commented_of_handlerNodes h
  generalize handlerNodes c = ms at hall
  induction ms with
  | nil => rfl
  | cons m ms ih =>
    obtain ⟨hm, hms⟩ := List.forall_mem_cons.1 hall
    rw [List.find?_cons, List.find?_cons, ih hms]
    simp only [Function.comp_apply, hpq m hm]
    cases hg : m.isGone gone with
    | true => simp [hgone m (isGone_iff.1 hg).1]
    | false => simp

/-! ## How errors leave a handler -/

theorem responds_without (h : n.Commented nowhere gone s) :
    responds (s.without gone) (n.without gone) = responds s n := by
  simp only [responds, isResponseCall_without h, h.calleeName_without, h.rootNameOf_receiver]

theorem returnsError_without (h : n.Commented nowhere gone s) (hk : n.kind = .returnStatement) :
    returnsError (s.without gone) (n.without gone) = returnsError s n := by
  rw [returnsError, returnsError, first?_stays h (by simp [readsFirst, firstReaders, hk]),
    unwrapped?_of_commented fun c => h.first?]
  cases hv : n.first?.bind Node.unwrapped? with
  | none => rfl
  | some value =>
    obtain ⟨first, hfirst, hv⟩ := Option.bind_eq_some_iff.1 hv
    simp only [Option.map_some, kind_without, ((h.first? hfirst).unwrapped? hv).rootName_without]

/-- **How a node lets an error leave** does not depend on comments. -/
theorem exit?_without (h : n.Commented nowhere gone s) :
    exit? (s.without gone) (n.without gone) = exit? s n := by
  have hnext : textOf (s.without gone) (n.without gone).callee? = "next" ↔
      textOf s n.callee? = "next" := h.textOf_word .function (by decide)
  have harguments : (n.without gone).callArguments ≠ [] ↔ n.callArguments ≠ [] := by
    rw [callArguments_without, ne_eq, List.map_eq_nil_iff]
  rw [exit?, exit?, kind_without]
  split
  case h_1 => rfl
  case h_2 => simp only [hnext, harguments, responds_without h]
  case h_3 hk => rw [returnsError_without h hk]
  case h_4 => rfl

theorem propagation?_without (h : c.Commented nowhere gone s) (hc : c.isGone gone = false) :
    propagation? (s.without gone) (c.without gone) =
      (propagation? s c).map fun found => (found.1, found.2.without gone) := by
  have hfind (label : String) : (handlerNodes (c.without gone)).find? (fun m =>
        exit? (s.without gone) m == some label) =
      ((handlerNodes c).find? fun m => exit? s m == some label).map (without gone) :=
    find?_handlerNodes h hc (fun m hm => by rw [exit?_without hm]) fun m hm => by
      rw [exit?, hm]
      rfl
  rw [propagation?, propagation?]
  simp only [hfind]
  induction exits with
  | nil => rfl
  | cons label rest ih =>
    rw [List.findSome?_cons, List.findSome?_cons, ih]
    cases (handlerNodes c).find? fun m => exit? s m == some label <;> rfl

theorem catchesWithNext_without (h : n.Commented nowhere gone s) :
    catchesWithNext (s.without gone) (n.without gone) = catchesWithNext s n := by
  rw [catchesWithNext, catchesWithNext, isCatchCall_without h, firstArgument?_without]
  refine congrArg (and _) ?_
  cases hfirst : n.firstArgument? with
  | none => rfl
  | some handler =>
    simp only [Option.map_some]
    rw [Bool.eq_iff_iff, beq_iff_eq, beq_iff_eq]
    exact h.text_word_argument (List.mem_of_head? hfirst) (by decide)

/-- A proof that is found in the body of a handler. -/
theorem bind_handlerBody?_without {find find' : Node → Option (String × Node)}
    (h : n.Commented nowhere gone s)
    (hfind : ∀ c, c.Commented nowhere gone s → c.isGone gone = false →
      find' (c.without gone) = (find c).map fun found => (found.1, found.2.without gone)) :
    (handlerBody? (s.without gone) (n.without gone)).bind find' =
      ((handlerBody? s n).bind find).map fun found => (found.1, found.2.without gone) := by
  rw [handlerBody?_without h]
  cases hb : handlerBody? s n with
  | none => rfl
  | some body =>
    obtain ⟨hbody, hfield⟩ := commented_of_handlerBody? h hb
    exact hfind body hbody (isGone_of_field hfield)

theorem propagates_pastComments (label : String) : (propagates label).PastComments := by
  intro gone s v h _
  rw [propagates, propagates, Visit.without, catchesWithNext_without h.node,
    bind_handlerBody?_without h.node fun c => propagation?_without]
  split
  · split <;> rfl
  · cases (handlerBody? s v.node).bind (propagation? s) with
    | none => rfl
    | some found =>
      simp only [Option.map_some]
      split <;> rfl

/-! ## How handlers log -/

theorem logger?_without (h : n.Commented nowhere gone s) :
    logger? (s.without gone) (n.without gone) = logger? s n := by
  simp only [logger?, kind_without, h.calleePath_without]

theorem logging?_without (h : c.Commented nowhere gone s) (hc : c.isGone gone = false) :
    logging? (s.without gone) (c.without gone) =
      (logging? s c).map fun found => (found.1, found.2.without gone) := by
  have hfind (label : String) : (handlerNodes (c.without gone)).find? (fun m =>
        logger? (s.without gone) m == some label) =
      ((handlerNodes c).find? fun m => logger? s m == some label).map (without gone) :=
    find?_handlerNodes h hc (fun m hm => by rw [logger?_without hm]) fun m hm => by
      rw [logger?, hm]
      rfl
  rw [logging?, logging?]
  simp only [hfind]
  induction ["structured-logger", "console"] with
  | nil => rfl
  | cons label rest ih =>
    rw [List.findSome?_cons, List.findSome?_cons, ih]
    cases (handlerNodes c).find? fun m => logger? s m == some label <;> rfl

theorem logsWith_pastComments (label : String) : (logsWith label).PastComments := by
  intro gone s v h _
  rw [logsWith, logsWith, Visit.without,
    bind_handlerBody?_without h.node fun c => logging?_without]
  cases (handlerBody? s v.node).bind (logging? s) with
  | none => rfl
  | some found =>
    simp only [Option.map_some]
    split <;> rfl

end Shape
end Conventions
