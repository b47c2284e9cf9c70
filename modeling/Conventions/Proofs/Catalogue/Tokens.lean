import Conventions.Proofs.Catalogue.Dispatch
import Conventions.Proofs.Syntax.Nesting

/-!
# Proofs/Catalogue/Tokens — which shape about tokens a node can be

Seventeen shapes say where tokens travel. `tokenName` names, for each node, the one of them that can
prove something there (`name_of_mem_tokenLocation`): a read of the request is told by the segments of
its path in lower case, a call by the first and the last segment of what it calls.

The shape for session middleware is the exception, for it looks at the text of what is called. The
words that tell the other calls would stand in that text, the spans being nested, and none of them
does (`not_infix_sessionMakers`).
-/

namespace Conventions
namespace Catalogue

open Shape

variable {s : Source} {v : Visit} {n p : Node}

/-! ## Tokens read -/

/-- The shape that reads a request, by the segments after the root in lower case. -/
def readName : List String → String
  | ["cookies"] => "cookie-read"
  | ["signedcookies"] => "signed-cookie-read"
  | ["headers", "authorization"] => "authorization-header-read"
  | ["headers", _] => "api-key-header-read"
  | ["session", _] => "session-read"
  | _ => "token-query-read"

/-- What is read of a request is a path whose segments agree. -/
theorem exists_of_reads {segments : List Segment} (h : reads segments s v = some p) :
    ∃ root rest, v.node.path? s = some (root :: rest) ∧
      List.Forall₂ (fun want actual => want.agrees actual = true) segments rest := by
  have h := (of_citing h).1
  simp only [Bool.and_eq_true] at h
  cases hpath : v.node.path? s with
  | none => simp [hpath] at h
  | some path =>
    cases path with
    | nil => simp [hpath, isRequestPath] at h
    | cons root rest =>
      simp only [hpath, Option.map_some, Option.getD_some, isRequestPath, Bool.and_eq_true,
        beq_iff_eq, List.all_eq_true] at h
      exact ⟨root, rest, rfl, List.forall₂_iff_zip.2 ⟨h.2.1.2.symm, fun hmem => h.2.2 _ hmem⟩⟩

/-! ## Tokens at calls -/

/-- Does the first argument speak of a token? -/
def speaksOfToken (s : Source) (n : Node) : Bool :=
  match n.firstArgument?.bind (·.literal? s) with
  | some key => tokenHint.foundIn key
  | none => false

/-- The shape about a browser storage. -/
def storageName (store : Option String) (tokenKey : Bool) : String :=
  if store = some "localStorage" then
    if tokenKey then "local-storage-token" else "local-storage-access"
  else if tokenKey then "session-storage-token" else "session-storage-access"

/-- The shape about headers, by the header that is asked for. -/
def headerName (header : Option String) : String :=
  if header = some "authorization" then "authorization-header-call" else "api-key-header-call"

/-- **The only shape about tokens that a call can be**: the last segment of what is called tells
them apart. -/
def callName (s : Source) (n : Node) : String :=
  let path := n.calleePath s
  if path.head? = some "ExtractJwt" then "bearer-extractor"
  else
    match path.getLast? with
    | none => if n.calleeName s = "get" then "cookie-store-get" else "session-middleware"
    | some "cookie" => if mentionsHttpOnly s n then "http-only-cookie-set" else "token-cookie-set"
    | some "header" | some "get" =>
      headerName ((n.firstArgument?.bind (·.literal? s)).map Text.lower)
    | some "getItem" | some "setItem" => storageName path.dropLast.getLast? (speaksOfToken s n)
    | some _ => "session-middleware"

/-- A strategy that takes bearer tokens has another name than a request or a response. -/
theorem ne_strategy {root : String} (h : root ∈ requestNames ++ responseNames) :
    root ≠ "ExtractJwt" := by
  rintro rfl
  exact absurd h (by decide)

theorem callName_of_isCookieSet (h : isCookieSet s n = true) : callName s n =
    if mentionsHttpOnly s n then "http-only-cookie-set" else "token-cookie-set" := by
  rw [isCookieSet, Bool.and_eq_true] at h
  replace h := h.2
  split at h
  case h_1 root method hpath =>
    rw [Bool.and_eq_true, beq_iff_eq, List.contains_iff_mem] at h
    obtain ⟨hroot, rfl⟩ := h
    have hextract := ne_strategy (List.mem_append_right requestNames hroot)
    simp [callName, hpath, hextract]
  case h_2 => cases h

theorem callName_of_headerCall {header : String} (h : headerCall header s v = some p) :
    callName s v.node = headerName (some header) := by
  have h := (of_citing h).1
  rw [Bool.and_eq_true] at h
  replace h := h.2
  split at h
  case h_1 root getter hpath =>
    simp only [Bool.and_eq_true, List.contains_iff_mem] at h
    obtain ⟨⟨hroot, hgetter⟩, h⟩ := h
    have hextract := ne_strategy (List.mem_append_left responseNames hroot)
    split at h
    case h_1 value hvalue =>
      simp only [headerGetters, List.mem_cons, List.not_mem_nil, or_false] at hgetter
      obtain rfl | rfl | rfl := hgetter <;> simp [callName, hpath, hextract, hvalue, eq_of_beq h]
    case h_2 => cases h
  case h_2 => cases h

/-- What is called on the result of a call has no path. -/
theorem calleePath_eq_nil {receiver : Node} (h : n.receiver? = some receiver)
    (hkind : receiver.kind = .callExpression) : n.calleePath s = [] := by
  unfold Node.receiver? at h
  split at h
  case h_1 target htarget =>
    split at h
    case isTrue hmember =>
      have hnone : receiver.path? s = none := by
        rw [Node.path?_eq, hkind]
      rw [Node.calleePath, htarget, Option.bind_some, Node.path?_eq, hmember]
      simp [h, hnone]
    case isFalse => cases h
  case h_2 => cases h

theorem callName_of_cookieStoreGet (h : cookieStoreGet s v = some p) :
    callName s v.node = "cookie-store-get" := by
  have h := (of_citing h).1
  simp only [Bool.and_eq_true, beq_iff_eq] at h
  obtain ⟨⟨-, hname⟩, h⟩ := h
  split at h
  case h_1 receiver hreceiver =>
    rw [Bool.and_eq_true, beq_iff_eq] at h
    simp [callName, calleePath_eq_nil hreceiver h.1, hname]
  case h_2 => cases h

theorem callName_of_bearerExtractor (h : bearerExtractor s v = some p) :
    callName s v.node = "bearer-extractor" := by
  have h := (of_citing h).1
  rw [Bool.and_eq_true] at h
  replace h := h.2
  split at h
  case h_1 root method hpath =>
    rw [Bool.and_eq_true, beq_iff_eq] at h
    simp [callName, hpath, h.1]
  case h_2 => cases h

theorem callName_of_webStorage {store : String} {tokenKey : Bool} (hstore : store ≠ "ExtractJwt")
    (h : webStorage store tokenKey s v = some p) :
    callName s v.node = storageName (some store) tokenKey := by
  have hholds := (of_citing h).1
  simp only [Bool.and_eq_true, beq_iff_eq] at hholds
  obtain ⟨⟨-, hstorage⟩, htoken⟩ := hholds
  replace htoken : speaksOfToken s v.node = tokenKey := htoken
  -- the window may stand in front of the storage
  have hpath : ∃ method, (method = "getItem" ∨ method = "setItem") ∧
      (v.node.calleePath s = [store, method] ∨
        v.node.calleePath s = ["window", store, method]) := by
    split at hstorage
    case h_1 root method hpath =>
      simp only [Bool.and_eq_true, Bool.or_eq_true, beq_iff_eq] at hstorage
      obtain ⟨rfl, hmethod⟩ := hstorage
      refine ⟨method, hmethod, ?_⟩
      split at hpath
      case isTrue hwindow =>
        obtain ⟨rest, hrest⟩ := List.head?_eq_some_iff.1 hwindow
        rw [hrest, List.drop_one, List.tail_cons] at hpath
        exact .inr (by rw [hrest, hpath])
      case isFalse => exact .inl hpath
    case h_2 => cases hstorage
  obtain ⟨method, rfl | rfl, hpath | hpath⟩ := hpath <;>
    simp [callName, hpath, hstore, htoken]

/-- Words that tell the other shapes about tokens at calls. -/
def callWords : List String := ["ExtractJwt", "cookie", "header", "get", "getItem", "setItem"]

/-- The names of the maker of sessions. -/
def sessionMakers : List String := ["session", "expressSession"]

theorem ascii_sessionMakers {maker : String} (h : maker ∈ sessionMakers) :
    ∀ c ∈ maker.toList, c.toNat < 0x80 := by
  have hall : ∀ maker ∈ sessionMakers, maker.toList.all (fun c => c.toNat < 0x80) = true := by
    decide
  simpa using List.all_eq_true.1 (hall maker h)

/-- None of these words stands in a name of the maker of sessions. -/
theorem not_infix_sessionMakers :
    ∀ maker ∈ sessionMakers, ∀ w ∈ callWords, ¬ w.toList <:+: maker.toList := by
  decide +kernel

/-- **What a maker of sessions is called by** is ASCII, and contains none of the words by which the
other calls are told. -/
theorem exists_maker (hnested : v.node.SpansNested) (h : sessionMiddleware s v = some p) :
    ∃ target, v.node.callee? = some target ∧ target.Plain s ∧
      ∀ w, target.Spells s w → w ∉ callWords := by
  have h := (of_citing h).1
  simp only [Bool.and_eq_true] at h
  replace h := h.1.2
  split at h
  case h_1 target htarget =>
    have hmaker : target.text s ∈ sessionMakers := by
      simpa [sessionMakers] using h
    have hslice := Node.toList_text s target
    refine ⟨target, htarget, ⟨?_, ?_⟩, fun w hw hmem => ?_⟩
    · exact hnested.of_mem_nodes (Node.mem_nodes_of_mem_children (Node.mem_nodes_self _)
        (Node.mem_of_child? htarget))
    · rw [← hslice]
      exact ascii_sessionMakers hmaker
    · rw [Node.Spells, ← hslice] at hw
      exact not_infix_sessionMakers _ hmaker w hmem hw
  case h_2 => cases h

/-- A maker of sessions is told by its text, the other calls by names read below it: these would
stand in that text. -/
theorem callName_of_sessionMiddleware (hnested : v.node.SpansNested)
    (h : sessionMiddleware s v = some p) : callName s v.node = "session-middleware" := by
  obtain ⟨target, htarget, hplain, hwords⟩ := exists_maker hnested h
  have hname : v.node.calleeName s ≠ "get" := fun heq =>
    hwords _ (heq ▸ hplain.spells_calleeName htarget) (by decide)
  cases hpath : target.path? s with
  | none => simp [callName, Node.calleePath, htarget, hpath, hname]
  | some path =>
    have hsegment : ∀ w ∈ path, w ∉ callWords := fun w hw =>
      hwords w (hplain.spells_of_mem_path? hpath hw)
    have hcallee : v.node.calleePath s = path := by
      rw [Node.calleePath, htarget, Option.bind_some, hpath, Option.getD_some]
    have hhead : path.head? ≠ some "ExtractJwt" := fun heq =>
      hsegment _ (List.mem_of_head? heq) (by decide)
    simp only [callName, hcallee, if_neg hhead]
    cases hlast : path.getLast? with
    | none => simp [hname]
    | some method =>
      have hmethod := hsegment method (List.mem_of_getLast? hlast)
      simp only [callWords, List.mem_cons, not_or] at hmethod
      simp [hmethod]

/-- **The only shape about tokens that a node can be.** -/
def tokenName (s : Source) (n : Node) : String :=
  if n.kind = .callExpression then callName s n
  else readName (((n.path? s).getD []).tail.map Text.lower)

theorem tokenName_of_callKinds {rule : Proof?} (hrule : rule.FiresWithin callKinds)
    (h : rule s v = some p) : tokenName s v.node = callName s v.node :=
  if_pos (List.mem_singleton.1 (hrule s v p h))

theorem tokenName_of_memberKinds {rule : Proof?} (hrule : rule.FiresWithin memberKinds)
    (h : rule s v = some p) :
    tokenName s v.node = readName (((v.node.path? s).getD []).tail.map Text.lower) := by
  refine if_neg fun hkind => ?_
  have hmem := hrule s v p h
  rw [hkind] at hmem
  exact absurd hmem (by decide)

/-- What is read of a request is told by the segments after the root. -/
theorem exists_tokenName_of_reads {segments : List Segment} (h : reads segments s v = some p) :
    ∃ rest, List.Forall₂ (fun want actual => want.agrees actual = true) segments rest ∧
      tokenName s v.node = readName (rest.map Text.lower) := by
  obtain ⟨root, rest, hpath, hrest⟩ := exists_of_reads h
  refine ⟨rest, hrest, ?_⟩
  rw [tokenName_of_memberKinds (reads_firesWithin segments) h, hpath, Option.getD_some,
    List.tail_cons]

theorem lower_of_agrees {name actual : String} (h : (Segment.named name).agrees actual = true) :
    Text.lower actual = Text.lower name := eq_of_beq h

theorem tokenName_of_reads_named (names : List String)
    (h : reads (names.map .named) s v = some p) :
    tokenName s v.node = readName (names.map Text.lower) := by
  obtain ⟨rest, hrest, hname⟩ := exists_tokenName_of_reads h
  have hlower : names.map Text.lower = rest.map Text.lower := by
    rw [← List.forall₂_eq_eq_eq, List.forall₂_map_left_iff, List.forall₂_map_right_iff]
    exact (List.forall₂_map_left_iff.1 hrest).imp fun _ _ hagrees => (lower_of_agrees hagrees).symm
  rw [hname, hlower]

theorem tokenName_of_reads_session (h : reads [.named "session", .any] s v = some p) :
    tokenName s v.node = "session-read" := by
  obtain ⟨rest, hrest, hname⟩ := exists_tokenName_of_reads h
  obtain _ | ⟨hsession, _ | ⟨-, _ | _⟩⟩ := hrest
  rw [hname, List.map_cons, lower_of_agrees hsession]
  rfl

theorem tokenName_of_tokenQuery (h : tokenQuery s v = some p) :
    tokenName s v.node = "token-query-read" := by
  rw [tokenName_of_memberKinds tokenQuery_firesWithin h]
  have h := (of_citing h).1
  rw [Bool.and_eq_true] at h
  replace h := h.2
  split at h
  case h_1 root query key hpath =>
    simp only [Bool.and_eq_true, beq_iff_eq] at h
    rw [hpath, h.1.2]
    rfl
  case h_2 => cases h

/-- **A shape about tokens** proves something only at nodes that it is the shape for. -/
theorem name_of_mem_tokenLocation (hnested : v.node.SpansNested) :
    ∀ shape ∈ tokenLocation, ∀ p, shape.proof? s v = some p → shape.name = tokenName s v.node := by
  have call {rule : Proof?} (hrule : rule.FiresWithin callKinds) {p : Node}
      (hp : rule s v = some p) {name : String} (hname : callName s v.node = name) :
      name = tokenName s v.node := by
    rw [tokenName_of_callKinds hrule hp, hname]
  simp only [tokenLocation, List.forall_mem_cons]
  refine ⟨?_, ?_, ?_, ?_, ?_, ?_, ?_, ?_, ?_, ?_, ?_, ?_, ?_, ?_, ?_, ?_, ?_, ?_⟩
  · exact fun p hp => (tokenName_of_reads_named ["cookies"] hp).symm
  · exact fun p hp => (tokenName_of_reads_named ["signedCookies"] hp).symm
  · intro p hp
    obtain ⟨hset, honly⟩ := Bool.and_eq_true_iff.1 (of_citing hp).1
    refine call httpOnlyCookieSet_firesWithin hp ?_
    rw [callName_of_isCookieSet hset, if_pos honly]
  · intro p hp
    have hholds := (of_citing hp).1
    simp only [Bool.and_eq_true, Bool.not_eq_true'] at hholds
    refine call tokenCookieSet_firesWithin hp ?_
    rw [callName_of_isCookieSet hholds.1.1, hholds.1.2, if_neg Bool.false_ne_true]
  · exact fun p hp => call cookieStoreGet_firesWithin hp (callName_of_cookieStoreGet hp)
  · exact fun p hp => (tokenName_of_reads_named ["headers", "authorization"] hp).symm
  · exact fun p hp => call (headerCall_firesWithin _) hp (callName_of_headerCall hp)
  · exact fun p hp => call bearerExtractor_firesWithin hp (callName_of_bearerExtractor hp)
  · exact fun p hp => (tokenName_of_reads_named ["headers", "x-api-key"] hp).symm
  · exact fun p hp => call (headerCall_firesWithin _) hp (callName_of_headerCall hp)
  · exact fun p hp => call (webStorage_firesWithin _ _) hp (callName_of_webStorage (by decide) hp)
  · exact fun p hp => call (webStorage_firesWithin _ _) hp (callName_of_webStorage (by decide) hp)
  · exact fun p hp => call (webStorage_firesWithin _ _) hp (callName_of_webStorage (by decide) hp)
  · exact fun p hp => call (webStorage_firesWithin _ _) hp (callName_of_webStorage (by decide) hp)
  · exact fun p hp => (tokenName_of_reads_session hp).symm
  · exact fun p hp => call sessionMiddleware_firesWithin hp
      (callName_of_sessionMiddleware hnested hp)
  · exact fun p hp => (tokenName_of_tokenQuery hp).symm
  · exact fun shape hshape => absurd hshape List.not_mem_nil

end Catalogue
end Conventions
