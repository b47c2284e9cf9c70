import Conventions.Proofs.Syntax.Comments

/-!
# Proofs/Syntax/Reading — what is read is the same without comments

One lemma for each reader of a tree: literal values, member paths, calls, roots of chains,
parentheses, objects and parameters. The recursive readers are first restated as equations
(`path?_eq`, `rootName_eq`, `unwrapped?_eq`) that do not mention why they end.
-/

namespace Conventions
namespace Node

variable {allowed : Kind → Bool} {gone : Comments} {s : Source} {n c : Node}

/-! ## Literals -/

theorem all_without (p : Node → Bool) (hp : ∀ c, p (c.without gone) = p c)
    (hgone : ∀ c : Node, c.kind = .comment → p c = true) :
    (n.without gone).children.all p = n.children.all p := by
  rw [children_without, List.all_map, List.all_filter]
  refine congrArg (List.all n.children) (funext fun c => ?_)
  cases hc : c.isGone gone with
  | true => simp [hgone c (isGone_iff.1 hc).1]
  | false => simp [hp c]

theorem Commented.literal?_without (h : n.Commented allowed gone s) :
    (n.without gone).literal? (s.without gone) = n.literal? s := by
  have hall : (n.without gone).children.all (fun c => c.kind != .templateSubstitution) =
      n.children.all fun c => c.kind != .templateSubstitution :=
    all_without _ (by simp) (by simp +contextual)
  rw [literal?, literal?, hall, kind_without, span_without]
  split
  case isTrue hkind =>
    have htoken : n.isToken = true := by
      obtain hk | ⟨hk, hsub⟩ := hkind
      · simp [isToken, hk]
      · rw [isToken, hk, hsub]
        rfl
    rw [Source.slice_without (h.token n (mem_nodes_self n) htoken)]
  case isFalse => rfl

/-! ## Paths -/

theorem path?_eq (s : Source) (n : Node) : n.path? s =
    match n.kind with
    | .identifier | .thisExpression | .propertyIdentifier => some [n.text s]
    | .memberExpression => (n.child? .property).bind fun property =>
        (n.child? .object).bind fun object => (object.path? s).map (· ++ [property.text s])
    | .subscriptExpression => ((n.child? .index).bind (literal? s)).bind fun segment =>
        (n.child? .object).bind fun object => (object.path? s).map (· ++ [segment])
    | .nonNullExpression => n.first?.bind (path? s)
    | _ => none := by
  rw [path?]
  split
  case h_1 hk | h_2 hk | h_3 hk => simp only [hk]
  case h_4 hk =>
    split
    case h_1 hp ho => simp only [hk, hp, ho, Option.bind_some]
    case h_2 hnone =>
      cases hp : n.child? .property with
      | none => simp only [hk, Option.bind_none]
      | some property =>
        cases ho : n.child? .object with
        | none => simp only [hk, Option.bind_none, Option.bind_some]
        | some object => exact (hnone property object hp ho).elim
  case h_5 hk =>
    split
    case h_1 hi ho => simp only [hk, hi, ho, Option.bind_some]
    case h_2 hnone =>
      cases hi : (n.child? .index).bind (literal? s) with
      | none => simp only [hk, Option.bind_none]
      | some segment =>
        cases ho : n.child? .object with
        | none => simp only [hk, Option.bind_none, Option.bind_some]
        | some object => exact (hnone segment object hi ho).elim
  case h_6 hk =>
    split
    case h_1 hi => simp only [hk, hi, Option.bind_some]
    case h_2 hi => simp only [hk, hi, Option.bind_none]
  case h_7 => simp only [*]

theorem first?_stays (h : n.Commented nowhere gone s) (hn : n.readsFirst = true) :
    (n.without gone).first? = n.first?.map (without gone) :=
  first?_without (h.first_stays hn)

/-- **The path of a member expression** does not depend on comments. -/
theorem Commented.path?_without {n : Node} (h : n.Commented nowhere gone s) :
    (n.without gone).path? (s.without gone) = n.path? s := by
  have object (segment : String) : (((n.without gone).child? .object).bind fun o =>
        (o.path? (s.without gone)).map (· ++ [segment])) =
      (n.child? .object).bind fun o => (o.path? s).map (· ++ [segment]) := by
    rw [child?_without]
    cases ho : n.child? .object with
    | none => rfl
    | some o =>
      have := size_lt_of_child? ho
      rw [Option.map_some, Option.bind_some, Option.bind_some, (h.child? ho).path?_without]
  rw [path?_eq, path?_eq s n, kind_without]
  split
  case h_1 hk | h_2 hk | h_3 hk => rw [h.text_token (by simp [isToken, hk])]
  case h_4 hk =>
    simp only [object]
    rw [child?_without]
    cases hp : n.child? .property with
    | none => rfl
    | some property =>
      have htext := (h.child? hp).text_token (by simp [isToken, field_of_child? hp])
      rw [Option.map_some, Option.bind_some, Option.bind_some, htext]
  case h_5 hk =>
    simp only [object]
    rw [child?_without]
    cases hi : n.child? .index with
    | none => rfl
    | some index => rw [Option.map_some, Option.bind_some, Option.bind_some,
        (h.child? hi).literal?_without]
  case h_6 hk =>
    rw [first?_stays h (by simp [readsFirst, firstReaders, hk])]
    cases hi : n.first? with
    | none => rfl
    | some inner =>
      have := size_lt_of_first? hi
      exact (h.first? hi).path?_without
  case h_7 => rfl
  termination_by n.size

/-! ## Calls -/

theorem callee?_without : (n.without gone).callee? = n.callee?.map (without gone) :=
  child?_without _

/-- The arguments of a call never were comments. -/
theorem callArguments_without :
    (n.without gone).callArguments = n.callArguments.map (without gone) := by
  rw [callArguments, callArguments, child?_without]
  cases n.child? .arguments with
  | none => rfl
  | some a =>
    simp only [Option.map_some, kind_without]
    split
    · rw [children_without, List.filter_map, List.filter_filter]
      refine congrArg (List.map _) (List.filter_congr fun c _ => ?_)
      simp only [Function.comp_apply, kind_without]
      cases hc : c.isGone gone with
      | true => simp [(isGone_iff.1 hc).1]
      | false => rw [Bool.not_false, Bool.and_true]
    · rfl

theorem firstArgument?_without :
    (n.without gone).firstArgument? = n.firstArgument?.map (without gone) := by
  rw [firstArgument?, firstArgument?, callArguments_without, List.head?_map]

/-- An argument stands among the children of the arguments, and is no comment. -/
theorem exists_arguments_of_mem (h : c ∈ n.callArguments) :
    ∃ a, n.child? .arguments = some a ∧ a.kind = .arguments ∧ c ∈ a.children ∧
      c.kind ≠ .comment := by
  unfold callArguments at h
  split at h
  case h_1 a ha =>
    split at h
    case isTrue harguments =>
      obtain ⟨hmem, hk⟩ := List.mem_filter.1 h
      exact ⟨a, ha, harguments, hmem, by simpa using hk⟩
    case isFalse => cases h
  case h_2 => cases h

theorem Commented.argument (h : n.Commented allowed gone s) (hc : c ∈ n.callArguments) :
    c.Commented allowed gone s := by
  obtain ⟨a, ha, -, hmem, -⟩ := exists_arguments_of_mem hc
  exact (h.child? ha).child hmem

theorem Commented.text_word_argument (h : n.Commented allowed gone s) (hc : c ∈ n.callArguments)
    {w : String} (hw : isWord w = true) :
    (c.without gone).text (s.without gone) = w ↔ c.text s = w := by
  obtain ⟨a, ha, -, hmem, hk⟩ := exists_arguments_of_mem hc
  exact (h.child? ha).text_word hmem (isGone_of_kind hk) hw

/-- The text of a property is that of a token. -/
theorem Commented.textOf_property (h : n.Commented allowed gone s) :
    textOf (s.without gone) ((n.without gone).child? .property) =
      textOf s (n.child? .property) := by
  rw [child?_without]
  cases hp : n.child? .property with
  | none => rfl
  | some property => exact (h.child? hp).text_token (by simp [isToken, field_of_child? hp])

theorem Commented.calleeName_without (h : n.Commented allowed gone s) :
    (n.without gone).calleeName (s.without gone) = n.calleeName s := by
  rw [calleeName, calleeName, callee?_without]
  cases ht : n.callee? with
  | none => rfl
  | some target =>
    simp only [Option.map_some, kind_without]
    split
    case h_1 hk => exact (h.child? ht).text_token (by simp [isToken, hk])
    case h_2 => exact (h.child? ht).textOf_property
    case h_3 => rfl

theorem receiver?_without : (n.without gone).receiver? = n.receiver?.map (without gone) := by
  rw [receiver?, receiver?, callee?_without]
  cases n.callee? with
  | none => rfl
  | some target =>
    simp only [Option.map_some, kind_without]
    split
    · exact child?_without _
    · rfl

theorem Commented.receiver? (h : n.Commented allowed gone s) (hc : n.receiver? = some c) :
    c.Commented allowed gone s := by
  unfold Node.receiver? at hc
  split at hc
  case h_1 target ht =>
    split at hc
    · exact (h.child? ht).child? hc
    · cases hc
  case h_2 => cases hc

theorem Commented.calleePath_without (h : n.Commented nowhere gone s) :
    (n.without gone).calleePath (s.without gone) = n.calleePath s := by
  rw [calleePath, calleePath, callee?_without]
  cases ht : n.callee? with
  | none => rfl
  | some target =>
    rw [Option.map_some, Option.bind_some, Option.bind_some, (h.child? ht).path?_without]

/-! ## Roots of chains -/

theorem rootName_eq (s : Source) (n : Node) : n.rootName s =
    match n.kind with
    | .identifier | .thisExpression => n.text s
    | .memberExpression => rootNameOf s (n.child? .object)
    | .callExpression => rootNameOf s (n.child? .function)
    | .awaitExpression | .parenthesizedExpression => rootNameOf s n.first?
    | _ => "" := by
  rw [rootName]
  split
  case h_1 hk | h_2 hk => simp only [hk]
  case h_3 hk | h_4 hk | h_5 hk | h_6 hk =>
    split
    case h_1 hc => simp only [hk, hc, rootNameOf]
    case h_2 hc => simp only [hk, hc, rootNameOf]
  case h_7 => simp only [*]

/-- **The root of a chain** does not depend on comments. -/
theorem Commented.rootName_without {n : Node} (h : n.Commented nowhere gone s) :
    (n.without gone).rootName (s.without gone) = n.rootName s := by
  have below (f : Field) : rootNameOf (s.without gone) ((n.without gone).child? f) =
      rootNameOf s (n.child? f) := by
    rw [child?_without]
    cases hc : n.child? f with
    | none => rfl
    | some c =>
      have := size_lt_of_child? hc
      exact (h.child? hc).rootName_without
  have inside (hn : n.readsFirst = true) :
      rootNameOf (s.without gone) (n.without gone).first? = rootNameOf s n.first? := by
    rw [first?_stays h hn]
    cases hc : n.first? with
    | none => rfl
    | some c =>
      have := size_lt_of_first? hc
      exact (h.first? hc).rootName_without
  rw [rootName_eq, rootName_eq s n, kind_without]
  split
  case h_1 hk | h_2 hk => exact h.text_token (by simp [isToken, hk])
  case h_3 | h_4 => exact below _
  case h_5 hk | h_6 hk => exact inside (by simp [readsFirst, firstReaders, hk])
  case h_7 => rfl
  termination_by n.size

theorem Commented.rootNameOf_receiver (h : n.Commented nowhere gone s) :
    rootNameOf (s.without gone) (n.without gone).receiver? = rootNameOf s n.receiver? := by
  rw [receiver?_without]
  cases hr : n.receiver? with
  | none => rfl
  | some receiver => exact (h.receiver? hr).rootName_without

/-! ## Parentheses -/

theorem unwrapped?_eq (n : Node) : n.unwrapped? =
    if n.kind = .parenthesizedExpression then n.first?.bind unwrapped? else some n := by
  rw [unwrapped?]
  split
  case isTrue hk =>
    split
    case h_1 hi => simp only [hi, Option.bind_some]
    case h_2 hi => simp only [hi, Option.bind_none]
  case isFalse => rfl

/-- **What parentheses hold** does not depend on comments. -/
theorem Commented.unwrapped?_without {n : Node} (h : n.Commented nowhere gone s) :
    (n.without gone).unwrapped? = n.unwrapped?.map (without gone) := by
  rw [unwrapped?_eq, unwrapped?_eq n, kind_without]
  split
  case isTrue hk =>
    rw [first?_stays h (by simp [readsFirst, firstReaders, hk])]
    cases hi : n.first? with
    | none => rfl
    | some inner =>
      have := size_lt_of_first? hi
      exact (h.first? hi).unwrapped?_without
  case isFalse => rfl
  termination_by n.size

theorem Commented.unwrapped? {n : Node} (h : n.Commented allowed gone s)
    (hc : n.unwrapped? = some c) : c.Commented allowed gone s := by
  rw [unwrapped?_eq] at hc
  split at hc
  case isTrue =>
    obtain ⟨inner, hi, hc⟩ := Option.bind_eq_some_iff.1 hc
    have := size_lt_of_first? hi
    exact (h.first? hi).unwrapped? hc
  case isFalse =>
    cases hc
    exact h
  termination_by n.size

/-- What the parentheses of a node hold that may be missing. -/
theorem unwrapped?_of_commented {o : Option Node} (h : ∀ c, o = some c → c.Commented nowhere gone s) :
    (o.map (without gone)).bind Node.unwrapped? = (o.bind Node.unwrapped?).map (without gone) := by
  cases o with
  | none => rfl
  | some c => exact (h c rfl).unwrapped?_without

/-! ## Parameters -/

theorem Commented.getD_child? (h : n.Commented allowed gone s) (f : Field) :
    ((n.child? f).getD n).Commented allowed gone s := by
  cases hc : n.child? f with
  | none => exact h
  | some c => exact h.child? hc

theorem getD_child?_without (f : Field) : ((n.without gone).child? f).getD (n.without gone) =
    ((n.child? f).getD n).without gone := by
  rw [child?_without]
  cases n.child? f <;> rfl

theorem Commented.parameterName_without (h : n.Commented allowed gone s) :
    parameterName (s.without gone) (n.without gone) = parameterName s n := by
  have pattern : ((if n.kind = .requiredParameter ∨ n.kind = .optionalParameter then
      (n.child? .pattern).getD n else n)).Commented allowed gone s := by
    split
    · exact h.getD_child? _
    · exact h
  rw [parameterName, parameterName, kind_without, getD_child?_without, ← apply_ite (without gone)]
  generalize (if n.kind = .requiredParameter ∨ n.kind = .optionalParameter then
      (n.child? .pattern).getD n else n) = target at pattern ⊢
  have left : (if target.kind = .assignmentPattern then (target.child? .left).getD target
      else target).Commented allowed gone s := by
    split
    · exact pattern.getD_child? _
    · exact pattern
  simp only [kind_without]
  rw [getD_child?_without, ← apply_ite (without gone)]
  generalize (if target.kind = .assignmentPattern then (target.child? .left).getD target
      else target) = name at left ⊢
  rw [kind_without]
  split
  case isTrue hk => exact left.text_token (by simp [isToken, hk])
  case isFalse => rfl

/-- **The names of parameters**, if there can be more than one. -/
theorem Commented.parameterNames_without (h : n.Commented allowed gone s)
    (hn : n.child? .parameter = none) :
    (n.without gone).parameterNames (s.without gone) = n.parameterNames s := by
  rw [parameterNames, parameterNames, child?_without, child?_without, hn]
  cases hps : n.child? .parameters with
  | none => rfl
  | some ps =>
    simp only [Option.map_none, Option.map_some]
    rw [children_without, List.filter_map, List.map_map, List.filter_filter]
    have hsame : (ps.children.filter fun c =>
        ((fun c : Node => c.kind != .comment) ∘ without gone) c && !c.isGone gone) =
          ps.children.filter fun c => c.kind != .comment := by
      refine List.filter_congr fun c _ => ?_
      cases hc : c.isGone gone with
      | true => simp [(isGone_iff.1 hc).1]
      | false => simp
    rw [hsame]
    refine List.map_congr_left fun c hc => ?_
    exact ((h.child? hps).child (List.mem_filter.1 hc).1).parameterName_without

end Node
end Conventions
