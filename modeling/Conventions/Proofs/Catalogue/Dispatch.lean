import Conventions.Extraction
import Conventions.Proofs.Catalogue.Handlers
import Conventions.Proofs.Sequence

/-!
# Proofs/Catalogue/Dispatch — the index of the catalogue loses nothing

A node is shown only to the shapes that the index files under its kind. `Node.plainEvidence` shows
it to every shape and keeps the first hit of each key; `evidence_eq_plainEvidence` says that this is
the same list.

The catalogue is made of some twenty rules, each with the kinds of nodes it is meant for. What is true of
each rule with its kinds is true of every shape (`forall_shapes`). All rules but those about handlers cite
the visited node itself (`forall_rules`). The bridge is that no rule fires outside the kinds of its shape (`firesWithin_of_mem_shapes`), so a
shape that is skipped has nothing to say, and that filing keeps the order of the catalogue
(`shapesFor_ofShapes`).
-/

namespace Conventions

/-! ## What is true of every shape -/

/-- What a rule cites that cites the visited node. -/
theorem Shape.of_citing {holds : Source → Visit → Bool} {s : Source} {v : Visit} {p : Node}
    (h : citing holds s v = some p) : holds s v = true ∧ p = v.node := by
  unfold citing at h
  split at h
  case isTrue hv => exact ⟨hv, (Option.some.inj h).symm⟩
  case isFalse => cases h

namespace Catalogue

open Shape

/-- **What is true of each rule with its kinds** is true of every shape of the catalogue. -/
theorem forall_shapes {P : Proof? → List Kind → Prop}
    (reads : ∀ segments, P (reads segments) memberKinds)
    (headerCall : ∀ header, P (headerCall header) callKinds)
    (httpOnlyCookieSet : P httpOnlyCookieSet callKinds)
    (tokenCookieSet : P tokenCookieSet callKinds) (cookieStoreGet : P cookieStoreGet callKinds)
    (bearerExtractor : P bearerExtractor callKinds)
    (webStorage : ∀ store tokenKey, P (webStorage store tokenKey) callKinds)
    (sessionMiddleware : P sessionMiddleware callKinds) (tokenQuery : P tokenQuery memberKinds)
    (assignsUser : ∀ label, P (assignsUser label) [.assignmentExpression])
    (readsUser : ∀ label, P (readsUser label) [.memberExpression])
    (responseEnvelope : ∀ label literal, P (responseEnvelope label literal) callKinds)
    (responseVariable : ∀ label, P (responseVariable label) [.variableDeclarator])
    (explicitStatus : P explicitStatus callOrDecorator) (implicitStatus : P implicitStatus callKinds)
    (errorFormat : ∀ label, P (errorFormat label) callKinds)
    (errorMiddleware : P errorMiddleware Kind.functions)
    (frameworkErrorHook : P frameworkErrorHook callOrDecorator)
    (tryCatch : P tryCatch [.tryStatement]) (promiseCatch : P promiseCatch callKinds)
    (resultType : P resultType [.genericType])
    (propagates : ∀ label, P (propagates label) handlerKinds)
    (logsWith : ∀ label, P (logsWith label) handlerKinds) :
    ∀ shape ∈ shapes, P shape.proof? shape.kinds := by
  simp only [shapes, List.forall_mem_append]
  refine ⟨⟨⟨⟨⟨⟨?_, ?_⟩, ?_⟩, ?_⟩, ?_⟩, ?_⟩, ?_⟩
  · simp [tokenLocation, *]
  · simp only [userProperty, List.forall_mem_append, List.forall_mem_map]
    exact ⟨fun _ _ => assignsUser _, fun _ _ => readsUser _⟩
  · simp [responseEnvelopes, *]
  · simp [statusCodes, *]
  · simp [errorFormats, *]
  · simp [catchStyle, *]
  · simp [handlers, *]

/-- **What is true of all rules that cite the visited node**, and of those about handlers, is true of
every rule of the catalogue. -/
theorem forall_rules {P : Proof? → Prop} (citing : ∀ holds, P (citing holds))
    (propagates : ∀ label, P (propagates label)) (logsWith : ∀ label, P (logsWith label)) :
    ∀ shape ∈ shapes, P shape.proof? :=
  forall_shapes (P := fun rule _ => P rule) (fun _ => citing _) (fun _ => citing _) (citing _)
    (citing _) (citing _) (citing _) (fun _ _ => citing _) (citing _) (citing _) (fun _ => citing _)
    (fun _ => citing _) (fun _ _ => citing _) (fun _ => citing _) (citing _) (citing _)
    (fun _ => citing _) (citing _) (citing _) (citing _) (citing _) (citing _) propagates logsWith

end Catalogue

/-! ## Where rules fire -/

/-- A rule proves something at nodes of some kinds only. -/
def Proof?.FiresWithin (rule : Proof?) (kinds : List Kind) : Prop :=
  ∀ s v p, rule s v = some p → v.node.kind ∈ kinds

namespace Shape

open Catalogue (memberKinds callKinds callOrDecorator handlerKinds)

/-! ## Rules that cite the visited node -/

theorem firesWithin_citing {holds : Source → Visit → Bool} {kinds : List Kind}
    (h : ∀ s v, holds s v = true → v.node.kind ∈ kinds) : Proof?.FiresWithin (citing holds) kinds :=
  fun s v _ hp => h s v (of_citing hp).1

theorem kind_of_isResponseCall {s : Source} {n : Node} (h : isResponseCall s n = true) :
    n.kind = .callExpression := by
  simp only [isResponseCall, Bool.and_eq_true, beq_iff_eq] at h
  exact h.1

theorem kind_of_decoratorCall? {s : Source} {n : Node} {w : String}
    (h : decoratorCall? s n = some w) : n.kind = .decorator := by
  unfold decoratorCall? at h
  split at h
  · assumption
  · cases h

theorem reads_firesWithin (segments : List Segment) : (reads segments).FiresWithin memberKinds := by
  refine firesWithin_citing fun s v h => ?_
  simp only [Bool.and_eq_true, Bool.or_eq_true, beq_iff_eq] at h
  simpa [memberKinds] using h.1.1

theorem headerCall_firesWithin (header : String) : (headerCall header).FiresWithin callKinds := by
  refine firesWithin_citing fun s v h => ?_
  simp only [Bool.and_eq_true, beq_iff_eq] at h
  simp [callKinds, h.1]

theorem kind_of_isCookieSet {s : Source} {n : Node} (h : isCookieSet s n = true) :
    n.kind = .callExpression := by
  simp only [isCookieSet, Bool.and_eq_true, beq_iff_eq] at h
  exact h.1

theorem httpOnlyCookieSet_firesWithin : httpOnlyCookieSet.FiresWithin callKinds := by
  refine firesWithin_citing fun s v h => ?_
  rw [Bool.and_eq_true] at h
  simp [callKinds, kind_of_isCookieSet h.1]

theorem tokenCookieSet_firesWithin : tokenCookieSet.FiresWithin callKinds := by
  refine firesWithin_citing fun s v h => ?_
  simp only [Bool.and_eq_true] at h
  simp [callKinds, kind_of_isCookieSet h.1.1]

theorem cookieStoreGet_firesWithin : cookieStoreGet.FiresWithin callKinds := by
  refine firesWithin_citing fun s v h => ?_
  simp only [Bool.and_eq_true, beq_iff_eq] at h
  simp [callKinds, h.1.1]

theorem bearerExtractor_firesWithin : bearerExtractor.FiresWithin callKinds := by
  refine firesWithin_citing fun s v h => ?_
  simp only [Bool.and_eq_true, beq_iff_eq] at h
  simp [callKinds, h.1]

theorem webStorage_firesWithin (store : String) (tokenKey : Bool) :
    (webStorage store tokenKey).FiresWithin callKinds := by
  refine firesWithin_citing fun s v h => ?_
  simp only [Bool.and_eq_true, beq_iff_eq] at h
  simp [callKinds, h.1.1]

theorem sessionMiddleware_firesWithin : sessionMiddleware.FiresWithin callKinds := by
  refine firesWithin_citing fun s v h => ?_
  simp only [Bool.and_eq_true, beq_iff_eq] at h
  simp [callKinds, h.1.1]

theorem tokenQuery_firesWithin : tokenQuery.FiresWithin memberKinds := by
  refine firesWithin_citing fun s v h => ?_
  simp only [Bool.and_eq_true, Bool.or_eq_true, beq_iff_eq] at h
  simpa [memberKinds] using h.1

theorem assignsUser_firesWithin (label : String) :
    (assignsUser label).FiresWithin [.assignmentExpression] := by
  refine firesWithin_citing fun s v h => ?_
  simp only [Bool.and_eq_true, beq_iff_eq] at h
  simp [h.1]

theorem readsUser_firesWithin (label : String) :
    (readsUser label).FiresWithin [.memberExpression] := by
  refine firesWithin_citing fun s v h => ?_
  simp only [Bool.and_eq_true, beq_iff_eq] at h
  simp [h.1.1]

theorem responseEnvelope_firesWithin (label : String) (literal : Bool) :
    (responseEnvelope label literal).FiresWithin callKinds := by
  refine firesWithin_citing fun s v h => ?_
  simp only [Bool.and_eq_true] at h
  simp [callKinds, kind_of_isResponseCall h.1.1]

theorem responseVariable_firesWithin (label : String) :
    (responseVariable label).FiresWithin [.variableDeclarator] := by
  refine firesWithin_citing fun s v h => ?_
  simp only [Bool.and_eq_true, beq_iff_eq] at h
  simp [h.1.1]

theorem explicitStatus_firesWithin : explicitStatus.FiresWithin callOrDecorator := by
  refine firesWithin_citing fun s v h => ?_
  split at h
  case isTrue hk => simp [callOrDecorator, hk]
  case isFalse => simp [callOrDecorator, kind_of_decoratorCall? (eq_of_beq h)]

theorem implicitStatus_firesWithin : implicitStatus.FiresWithin callKinds := by
  refine firesWithin_citing fun s v h => ?_
  rw [Bool.and_eq_true] at h
  simp [callKinds, kind_of_isResponseCall h.1]

theorem errorFormat_firesWithin (label : String) : (errorFormat label).FiresWithin callKinds := by
  refine firesWithin_citing fun s v h => ?_
  have hf : errorFormat? s v.node = some label := eq_of_beq h
  unfold errorFormat? at hf
  split at hf
  case isTrue hc => simp [callKinds, kind_of_isResponseCall hc]
  case isFalse => cases hf

theorem mem_functions_of_isErrorMiddleware {s : Source} {n : Node}
    (h : isErrorMiddleware s n = true) : n.kind ∈ Kind.functions := by
  rw [isErrorMiddleware, Bool.and_eq_true] at h
  exact List.contains_iff_mem.1 h.1

theorem errorMiddleware_firesWithin : errorMiddleware.FiresWithin Kind.functions :=
  firesWithin_citing fun _ _ h => mem_functions_of_isErrorMiddleware h

theorem frameworkErrorHook_firesWithin : frameworkErrorHook.FiresWithin callOrDecorator := by
  refine firesWithin_citing fun s v h => ?_
  split at h
  case isTrue hk => simp [callOrDecorator, hk]
  case isFalse => simp [callOrDecorator, kind_of_decoratorCall? (eq_of_beq h)]

theorem tryCatch_firesWithin : tryCatch.FiresWithin [.tryStatement] := by
  refine firesWithin_citing fun s v h => ?_
  simp only [Bool.and_eq_true, beq_iff_eq] at h
  simp [h.1]

theorem kind_of_isCatchCall {s : Source} {n : Node} (h : isCatchCall s n = true) :
    n.kind = .callExpression := by
  simp only [isCatchCall, Bool.and_eq_true, beq_iff_eq] at h
  exact h.1

theorem promiseCatch_firesWithin : promiseCatch.FiresWithin callKinds := by
  refine firesWithin_citing fun s v h => ?_
  rw [Bool.and_eq_true] at h
  simp [callKinds, kind_of_isCatchCall h.1]

theorem resultType_firesWithin : resultType.FiresWithin [.genericType] := by
  refine firesWithin_citing fun s v h => ?_
  simp only [Bool.and_eq_true, beq_iff_eq] at h
  simp [h.1]

/-! ## Rules about handlers -/

/-- **Handlers are found at nodes of the kinds for handlers only.** -/
theorem mem_handlerKinds_of_handlerBody? {s : Source} {n body : Node}
    (h : handlerBody? s n = some body) : n.kind ∈ handlerKinds := by
  unfold handlerBody? at h
  split at h
  case isTrue hk => simp [handlerKinds, hk]
  split at h
  case isTrue hm => simp [handlerKinds, mem_functions_of_isErrorMiddleware hm]
  split at h
  case isTrue hc => simp [handlerKinds, kind_of_isCatchCall hc]
  case isFalse => cases h

theorem propagates_firesWithin (label : String) : (propagates label).FiresWithin handlerKinds := by
  intro s v p hp
  obtain ⟨-, -, hk⟩ | ⟨-, body, hbody, -⟩ := of_propagates hp
  · simp [handlerKinds, hk]
  · exact mem_handlerKinds_of_handlerBody? hbody

theorem logsWith_firesWithin (label : String) : (logsWith label).FiresWithin handlerKinds := by
  intro s v p hp
  obtain ⟨body, hbody, -⟩ := of_logsWith hp
  exact mem_handlerKinds_of_handlerBody? hbody

end Shape

namespace Catalogue

open Shape

/-- **No shape of the catalogue fires outside its kinds.** -/
theorem firesWithin_of_mem_shapes {shape : Shape} (h : shape ∈ shapes) :
    shape.proof?.FiresWithin shape.kinds :=
  forall_shapes reads_firesWithin headerCall_firesWithin httpOnlyCookieSet_firesWithin
    tokenCookieSet_firesWithin cookieStoreGet_firesWithin bearerExtractor_firesWithin
    webStorage_firesWithin sessionMiddleware_firesWithin tokenQuery_firesWithin
    assignsUser_firesWithin readsUser_firesWithin responseEnvelope_firesWithin
    responseVariable_firesWithin explicitStatus_firesWithin implicitStatus_firesWithin
    errorFormat_firesWithin errorMiddleware_firesWithin frameworkErrorHook_firesWithin
    tryCatch_firesWithin promiseCatch_firesWithin resultType_firesWithin propagates_firesWithin
    logsWith_firesWithin shape h

/-! ## The index -/

namespace Index

theorem shapesFor_cons (entry : Kind × List Shape) (rest : Index) (k : Kind) :
    shapesFor (entry :: rest) k = if entry.1 = k then entry.2 else shapesFor rest k := by
  by_cases h : entry.1 = k <;> simp [shapesFor, h]

/-- Filing a shape under a kind changes what is filed under that kind alone. -/
theorem shapesFor_file (index : Index) (shape : Shape) (j k : Kind) :
    shapesFor (index.file shape j) k =
      shapesFor index k ++ if j = k then [shape] else [] := by
  induction index with
  | nil =>
    rw [file, shapesFor_cons]
    rfl
  | cons entry rest ih =>
    rw [file, shapesFor_cons]
    by_cases he : entry.1 = j
    · rw [if_pos he, shapesFor_cons, he]
      split <;> simp
    · rw [if_neg he, shapesFor_cons, ih]
      by_cases hk : entry.1 = k
      · simp [hk, show ¬ j = k from fun h => he (hk.trans h.symm)]
      · simp [hk]

theorem shapesFor_foldl_file (shape : Shape) (k : Kind) (kinds : List Kind) (index : Index)
    (h : kinds.Nodup) :
    shapesFor (kinds.foldl (fun index j => index.file shape j) index) k =
      shapesFor index k ++ if k ∈ kinds then [shape] else [] := by
  induction kinds generalizing index with
  | nil => simp
  | cons j kinds ih =>
    obtain ⟨hj, hn⟩ := List.nodup_cons.1 h
    rw [List.foldl_cons, ih _ hn, shapesFor_file, List.append_assoc]
    by_cases hk : j = k
    · subst hk
      simp [hj]
    · simp [hk, Ne.symm hk]

theorem shapesFor_fileAll (index : Index) (shape : Shape) (k : Kind) :
    shapesFor (index.fileAll shape) k =
      shapesFor index k ++ if k ∈ shape.kinds then [shape] else [] := by
  rw [fileAll, shapesFor_foldl_file _ _ _ _ (Sequence.nodup_eraseDups _)]
  simp only [List.mem_eraseDups]

/-- **Under each kind stand the shapes for that kind, in the order they were given in.** -/
theorem shapesFor_ofShapes (shapes : List Shape) (k : Kind) :
    (ofShapes shapes).shapesFor k = shapes.filter fun shape => decide (k ∈ shape.kinds) := by
  have grow : ∀ index : Index, shapesFor (shapes.foldl fileAll index) k =
      shapesFor index k ++ shapes.filter fun shape => decide (k ∈ shape.kinds) := by
    induction shapes with
    | nil => simp
    | cons shape shapes ih =>
      intro index
      rw [List.foldl_cons, ih, shapesFor_fileAll, List.append_assoc, List.filter_cons]
      by_cases h : k ∈ shape.kinds <;> simp [h]
  rw [ofShapes, grow]
  rfl

end Index

theorem shapesFor_eq_filter (k : Kind) :
    shapesFor k = shapes.filter fun shape => decide (k ∈ shape.kinds) :=
  Index.shapesFor_ofShapes shapes k

end Catalogue

namespace Node

/-! ## Hits -/

/-- **Asking the shapes of a node's kind is asking all of them.** -/
theorem hitsOf_shapesFor (s : Source) (v : Visit) :
    hitsOf s (Catalogue.shapesFor v.node.kind) v = hitsOf s Catalogue.shapes v := by
  rw [Catalogue.shapesFor_eq_filter, hitsOf, hitsOf, List.filterMap_filter]
  refine List.filterMap_congr fun shape hmem => ?_
  by_cases h : v.node.kind ∈ shape.kinds
  · simp [h]
  -- a proof here would put the kind among those of the shape
  cases hp : shape.proof? s v with
  | none => simp [h]
  | some p => exact absurd (Catalogue.firesWithin_of_mem_shapes hmem s v p hp) h

/-- **A hit in a tree** is a shape that proves something at a visit. -/
theorem mem_hits {s : Source} {root : Node} {h : Hit} :
    h ∈ root.hits s ↔
      ∃ v ∈ root.walk, h.shape ∈ Catalogue.shapes ∧ h.shape.proof? s v = some h.proof := by
  simp only [hits, hitsOf_shapesFor]
  simp only [hitsOf, List.mem_flatMap, List.mem_filterMap, Option.map_eq_some_iff]
  refine exists_congr fun v => and_congr_right fun _ => ⟨?_, fun h' => ?_⟩
  · rintro ⟨shape, hshape, p, hp, rfl⟩
    exact ⟨hshape, hp⟩
  · exact ⟨h.shape, h'.1, h.proof, h'.2, rfl⟩

end Node

namespace Hit

theorem firsts_eq_eraseDupsBy_filter (seen : List (Category × String × String × Span))
    (hs : List Hit) :
    firsts seen hs =
      (hs.filter fun h => !seen.contains h.key).eraseDupsBy fun a b => a.key == b.key := by
  induction hs generalizing seen with
  | nil => rfl
  | cons h hs ih =>
    rw [firsts, List.filter_cons]
    by_cases hk : seen.contains h.key = true
    · rw [if_pos hk, ih, hk]
      rfl
    · rw [if_neg hk, ih, eq_false_of_ne_true hk, Bool.not_false, if_pos rfl,
        List.eraseDupsBy_cons, List.filter_filter]
      refine congrArg (h :: List.eraseDupsBy _ ·) (List.filter_congr fun g _ => ?_)
      rw [List.contains_cons, Bool.not_or]
      simp [Bool.beq_eq_decide_eq]

/-- **What is kept is the first hit of each key.** -/
theorem firsts_nil_eq_eraseDupsBy (hs : List Hit) :
    firsts [] hs = hs.eraseDupsBy fun a b => a.key == b.key := by
  rw [firsts_eq_eraseDupsBy_filter]
  simp

theorem mem_of_mem_firsts {hs : List Hit} {h : Hit}
    {seen : List (Category × String × String × Span)} (hmem : h ∈ firsts seen hs) : h ∈ hs := by
  induction hs generalizing seen with
  | nil => exact hmem
  | cons g hs ih =>
    rw [firsts] at hmem
    split at hmem
    · exact List.mem_cons_of_mem _ (ih hmem)
    · obtain rfl | hmem := List.mem_cons.1 hmem
      · exact List.mem_cons_self
      · exact List.mem_cons_of_mem _ (ih hmem)

/-- Of every new key some hit is kept. -/
theorem exists_mem_firsts {hs : List Hit} {h : Hit} (hmem : h ∈ hs)
    (seen : List (Category × String × String × Span)) (hnew : h.key ∉ seen) :
    ∃ h' ∈ firsts seen hs, h'.key = h.key := by
  induction hs generalizing seen with
  | nil => cases hmem
  | cons g hs ih =>
    rw [firsts]
    split
    case isTrue hseen =>
      obtain rfl | hmem := List.mem_cons.1 hmem
      · exact absurd (List.contains_iff_mem.1 hseen) hnew
      · exact ih hmem seen hnew
    case isFalse =>
      by_cases hkey : g.key = h.key
      · exact ⟨g, List.mem_cons_self, hkey⟩
      obtain rfl | hmem := List.mem_cons.1 hmem
      · exact absurd rfl hkey
      · obtain ⟨h', hmem', hkey'⟩ := ih hmem (g.key :: seen)
          (by simp [hnew, Ne.symm hkey])
        exact ⟨h', List.mem_cons_of_mem _ hmem', hkey'⟩

end Hit

/-! ## The evidence in a tree -/

namespace Node

/-- **The evidence in a tree, found without the index**: every node of the walk is shown to every
shape, the first hit of each key counts, and the order is that of the listing. -/
def plainEvidence (s : Source) (file : String) (root : Node) : List Evidence :=
  let hits := root.walk.flatMap fun v => hitsOf s Catalogue.shapes v
  ((hits.eraseDupsBy fun a b => a.key == b.key).map (·.evidence s file)).mergeSort fun a b =>
    (Evidence.listing a b).isLE

/-- **The index loses nothing**: a proof is found only at nodes of the kinds of its shape, so the
evidence in any tree is that found by showing every node to every shape. -/
theorem evidence_eq_plainEvidence :
    (∀ shape ∈ Catalogue.shapes, ∀ s v p, shape.proof? s v = some p → v.node.kind ∈ shape.kinds) ∧
      ∀ (s : Source) (file : String) (root : Node),
        root.evidence s file = root.plainEvidence s file := by
  refine ⟨fun shape h => Catalogue.firesWithin_of_mem_shapes h, fun s file root => ?_⟩
  simp only [evidence, plainEvidence, hits, Hit.firsts_nil_eq_eraseDupsBy, hitsOf_shapesFor]

end Node
end Conventions
