import Conventions.Proofs.Schema.Responses
import Conventions.Proofs.Service.Answers

/-!
# Proofs/Service/Responses — responses meet their contract

With extractions of this library, made now or kept in a cache, all evidence of a scan is about
labels of the vocabulary. So its verdicts can be told, whichever files it came to
(`meetsContract_of_context`), and a scan that gives a context is never answered with an invalid
response (`respond_meetsContract`).
-/

namespace Conventions

/-! ## Contexts -/

/-- **A context that can be answered with**: the response meets its contract, and all verdicts name
labels that the keys of their facets have. -/
structure ProjectContext.MeetsContract (context : ProjectContext) : Prop where
  response : Contract.projectContext.check context.response = none
  labels : ∀ c : Category, ∀ v ∈ (context.patterns c).verdicts, v.category = c.name ∧
    ∀ label ∈ v.labels, FacetKey.checkLabel (c.facetKey v.facet) label = .ok ()

/-- **Whichever files a scan came to**, its context can be answered with. -/
theorem ScanTarget.meetsContract_of_context {t : ScanTarget} {c : ScanCoverage}
    {elapsed : Binary64} {context : ProjectContext}
    (hreports : ∀ r ∈ c.reports, r.path ≠ "" ∧ r.IsGenuine)
    (helapsed : Binary64.zero.le elapsed = true) (h : t.context c elapsed = .ok context) :
    context.MeetsContract := by
  have hknown : ∀ e ∈ c.evidence, e.IsKnown := fun e he => c.isKnown_of_mem_evidence hreports he
  rw [ScanTarget.context] at h
  split at h
  case h_2 => cases h
  case h_1 metadata notes hdetect =>
  obtain rfl := Except.ok.inj h
  have hverdict (category : Category) {v : Verdict} (hv : v ∈ (c.patterns category).verdicts) :
      ∃ facet ∈ category.facets, v = category.facetVerdict c.times c.evidence facet :=
    Category.exists_facet_of_mem_verdicts hv
  have htold (category : Category) : ∀ v ∈ (c.patterns category).verdicts, v.IsTold := by
    intro v hv
    obtain ⟨facet, hfacet, rfl⟩ := hverdict category hv
    exact Category.isTold_facetVerdict hknown hfacet
  refine ⟨Contract.check_response htold (Binary64.isNonneg_of_le helapsed), fun category v hv => ?_⟩
  obtain ⟨facet, hfacet, rfl⟩ := hverdict category hv
  refine ⟨Verdict.category_ofEvidence category.name_ne_empty facet, fun label hlabel => ?_⟩
  have hname : (category.facetVerdict c.times c.evidence facet).facet = facet :=
    Verdict.facet_ofEvidence category.name (Category.ne_empty_of_mem_facets hfacet)
  rw [hname]
  exact (Category.hasLabel_of_mem_labels hknown hlabel).checkLabel hfacet

/-! ## Answers -/

/-- An error tells its reason. -/
theorem RefusalReason.reason_document (r : RefusalReason) :
    (r.document.get? "reason").bind Json.str? = some r.name := by
  cases r <;> decide +kernel

theorem RefusalReason.document_injective {r r' : RefusalReason} (h : r.document = r'.document) :
    r = r' := by
  have hname : r.name = r'.name := Option.some.inj <| by
    rw [← reason_document, ← reason_document, h]
  cases r <;> cases r' <;> first | rfl | simp [name] at hname

theorem ProjectContext.response_ne_document (context : ProjectContext) (r : RefusalReason) :
    context.response ≠ r.document := by
  intro h
  have hreason := r.reason_document
  rw [← h] at hreason
  simp [response, Json.get?, Json.lookup] at hreason

namespace Scanner

variable {s : Scanner} {cache : EvidenceCache} {o : ScanOptions} {h : Host}
  {members : List (String × Json)} {context : ProjectContext}

/-- **A scan for a request gives a context that can be answered with.** -/
theorem meetsContract_of_scan (hs : s.IsGenuine) (hcache : cache.Genuine)
    (helapsed : Binary64.zero.le h.elapsed = true)
    (hoptions : ScanOptions.ofRequest h.environment members = .ok o)
    {root : Except RootFault (List String)}
    (hcontext : (s.scan h o cache root).context = .ok context) :
    context.MeetsContract := by
  cases root with
  | error fault => cases hcontext
  | ok root =>
    by_cases hwait : ScanTarget.CanWait ⟨h.top, root, o⟩
    · rw [scan, context_of_canWait _ _ _ _ hwait] at hcontext
      refine ScanTarget.meetsContract_of_context (fun r hr => ?_) helapsed hcontext
      obtain ⟨hpath, hgenuine⟩ := scanFiles_genuine hs hcache.all h.now _ _ r hr
      exact ⟨FileSelection.ne_empty_of_mem_selected
        (ScanOptions.extensions_ofRequest hoptions) hpath, hgenuine⟩
    · rw [scan, context_of_not_canWait _ _ _ _ hwait] at hcontext
      cases hcontext

/-- **No request is answered with an invalid response**: when a scan gives a context, its response
meets the contract and is the answer, and all labels in it are those of their facets. -/
theorem respond_meetsContract (s : Scanner) (h : Host) (cache : EvidenceCache) (request : Json)
    (hs : s.IsGenuine) (hcache : cache.Genuine) (helapsed : Binary64.zero.le h.elapsed = true) :
    (s.respond h cache request).answer ≠ .ok RefusalReason.invalidResponse.document ∧
      ∀ members path o context, request = .obj members →
        Contract.scanRequest.check request = none →
        Json.lookup "root" members = some (.str path) →
        ScanOptions.ofRequest h.environment members = .ok o →
        (s.scan h o cache (h.root path)).context = .ok context →
          context.MeetsContract ∧ (s.respond h cache request).answer = .ok context.response := by
  have hanswer {members path o context}
      (hrequest : Contract.scanRequest.check (.obj members) = none)
      (hroot : Json.lookup "root" members = some (.str path))
      (hoptions : ScanOptions.ofRequest h.environment members = .ok o)
      (hcontext : (s.scan h o cache (h.root path)).context = .ok context) :
      context.MeetsContract ∧
        (s.respond h cache (.obj members)).answer = .ok context.response := by
    have hmeets := meetsContract_of_scan hs hcache helapsed hoptions hcontext
    refine ⟨hmeets, ?_⟩
    rw [respond_of_ok hrequest hroot hoptions, ScanRun.answer, hcontext]
    simp only [ProjectContext.answer, hmeets.response, Option.isNone_none, if_true]
  refine ⟨fun hinvalid => ?_, ?_⟩
  · cases hcheck : Contract.scanRequest.check request with
    | some violation =>
      rw [respond_of_violation (by rw [hcheck]; exact Option.some_ne_none _)] at hinvalid
      cases RefusalReason.document_injective (Except.ok.inj hinvalid)
    | none =>
      obtain ⟨members, rfl, hmembers⟩ := Contract.check_scanRequest_eq_none_iff.1 hcheck
      obtain ⟨path, hroot, -⟩ := hmembers.root
      cases hoptions : ScanOptions.ofRequest h.environment members with
      | error fault =>
        rw [respond_of_options_error hcheck hoptions] at hinvalid
        cases hinvalid
      | ok o =>
        cases hcontext : (s.scan h o cache (h.root path)).context with
        | ok context =>
          rw [(hanswer hcheck hroot hoptions hcontext).2] at hinvalid
          exact context.response_ne_document _ (Except.ok.inj hinvalid)
        | error fault =>
          rw [respond_of_ok hcheck hroot hoptions, ScanRun.answer, hcontext] at hinvalid
          cases fault with
          | root f =>
            cases f with
            | unreadable => cases RefusalReason.document_injective (Except.ok.inj hinvalid)
            | _ => cases hinvalid
          | _ => cases hinvalid
  · rintro members path o context rfl hrequest hroot hoptions hcontext
    exact hanswer hrequest hroot hoptions hcontext

/-- A host with one file, in the directory at the top. -/
def hostOfOne : Host where
  top := .directory [("a.js", .file "req.cookies.token".toUTF8 .one)]
  environment := []
  workingDirectory := []
  homes := []
  now := .one
  elapsed := .one

/-- A cache with an extraction of another content of that file. -/
def cacheBefore : EvidenceCache :=
  EvidenceCache.empty.put ⟨"/a.js", "before"⟩
    ((Source.mk "req.cookies".toUTF8).extraction "a.js") .one

theorem genuine_cacheBefore : cacheBefore.Genuine :=
  .made (.put .empty _ ⟨"a.js", _, rfl⟩ _)

theorem root_hostOfOne : hostOfOne.root "/" = .ok [] := by
  have hsettled : hostOfOne.top.settled? [] "/" = some [] := by
    simp [FileNode.settled?, Path.isAbsolute, Path.segments, Path.splitWhere, FileNode.settle]
  have hreach : hostOfOne.top.reach [] = .ok hostOfOne.top := by
    simp [FileNode.reach, FileNode.follow, FileNode.pathBytes, FileNode.at?]
  have hexpanded : hostOfOne.expanded "/" = .ok ([], "/") := by decide +kernel
  have hbroken : Host.isBroken "/" = false := by decide +kernel
  have hlocated : hostOfOne.locate [] "/" = .ok [] := by
    rw [Host.locate, hbroken, hsettled]
    rfl
  have hchecked : hostOfOne.checkRoot [] = .ok [] := by
    rw [Host.checkRoot, hreach]
    rfl
  rw [Host.root, hexpanded]
  change hostOfOne.rootFrom [] "/" = .ok []
  rw [Host.rootFrom, hlocated]
  exact hchecked

/-- The project of a host with one file is scanned with an extraction that was kept before. -/
theorem respond_meetsContract_cookie :
    let request := Json.obj [("root", .str "/")]
    Scanner.standard.IsGenuine ∧ cacheBefore.Genuine ∧ Binary64.zero.le hostOfOne.elapsed = true ∧
      ∃ o context, ScanOptions.ofRequest hostOfOne.environment [("root", .str "/")] = .ok o ∧
        (Scanner.standard.scan hostOfOne o cacheBefore (hostOfOne.root "/")).context = .ok context ∧
          context.MeetsContract ∧
            (Scanner.standard.respond hostOfOne cacheBefore request).answer =
              .ok context.response := by
  have helapsed : Binary64.zero.le hostOfOne.elapsed = true := by decide +kernel
  have hrequest := Contract.check_scanRequest_eq_none_iff.2
    ⟨_, rfl, isScanRequest_root "/" (by decide)⟩
  have hoptions : ScanOptions.ofRequest hostOfOne.environment [("root", .str "/")] =
      .ok (.ofEnvironment []) := by decide +kernel
  have habsent : ∀ name ∈ ["package.json", "pyproject.toml", "requirements.txt", "pom.xml"],
      Manifest.found? hostOfOne.top [] name = none := by
    simp only [List.forall_mem_cons]
    exact ⟨Manifest.found?_absent ⟨by decide, by decide, by decide⟩ rfl,
      Manifest.found?_absent ⟨by decide, by decide, by decide⟩ rfl,
      Manifest.found?_absent ⟨by decide, by decide, by decide⟩ rfl,
      Manifest.found?_absent ⟨by decide, by decide, by decide⟩ rfl, fun _ h => nomatch h⟩
  have hfault : Manifest.fault? hostOfOne.top [] = none := by
    simp only [List.forall_mem_cons] at habsent
    simp only [Manifest.fault?, Manifest.foundFault?, Manifest.foundPackage?, habsent,
      Option.bind_none, Option.isSome_none, Bool.or_self, Bool.false_eq_true, if_false]
  have hwait : ScanTarget.CanWait ⟨hostOfOne.top, [], .ofEnvironment []⟩ := .inr (by decide +kernel)
  obtain ⟨context, hcontext⟩ := ScanTarget.exists_context
    (t := ⟨hostOfOne.top, [], .ofEnvironment []⟩)
    (Scanner.standard.cover ⟨hostOfOne.top, [], .ofEnvironment []⟩ hostOfOne.now cacheBefore).1
    hostOfOne.elapsed hfault
  have hscan : (Scanner.standard.scan hostOfOne (.ofEnvironment []) cacheBefore
      (hostOfOne.root "/")).context = .ok context := by
    rw [root_hostOfOne, scan, context_of_canWait _ _ _ _ hwait, hcontext]
  exact ⟨standard_isGenuine, genuine_cacheBefore, helapsed, _, context, hoptions, hscan,
    (respond_meetsContract .standard hostOfOne cacheBefore _ standard_isGenuine
      genuine_cacheBefore helapsed).2 _ "/" _ context rfl hrequest rfl hoptions hscan⟩

end Scanner
end Conventions
