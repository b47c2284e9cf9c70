import Conventions.Proofs.Cache.Consistency
import Conventions.Proofs.Scan.Fresh
import Conventions.Scan.Shared

/-!
# Proofs/Scan/Shared — scans that share a cache keep it sound

`SharedScans.Faithful` is what every run of scans on one cache keeps true: what was found or made
for a key fits it, the cache and the caches that were written to stores are sound, and what a scan
reports of a file is what it finds in it by itself. The calls to the cache go through the steps of
`CacheCalls`, so a call has an answer for one of the reasons of `Answered`.
-/

namespace Conventions

/-! ## The calls -/

/-- Does a step bring something to a cache, or end an extraction? -/
def CacheStep.Brings : CacheStep → Prop
  | .succeed .. | .raise .. | .put .. | .load _ => True
  | _ => False

namespace CacheCalls

variable {s : CacheCalls} {i : Nat} {k : CacheKey} {a : CallState}

/-- **A call keeps its key.** -/
theorem exists_state?_step (h : s.state? i = some (k, a)) (st : CacheStep) :
    ∃ b, (s.step st).state? i = some (k, b) := by
  obtain ⟨b, hb, -⟩ := exists_becomes h st
  exact ⟨b, hb⟩

theorem state?_call (k : CacheKey) :
    ∃ b, (s.step (.call k)).state? s.calls.length = some (k, b) := by
  simp [step, state?]

end CacheCalls

namespace Scanner

variable {s : Scanner} {contents : Set ByteArray} {calls : CacheCalls} {st : CacheStep}

/-- **Calls that fit**: whatever was found or made for a key fits it. -/
def FitCalls (s : Scanner) (contents : Set ByteArray) (calls : CacheCalls) : Prop :=
  ∃ steps, calls = CacheCalls.after steps ∧
    (∀ i k x, CacheCalls.Took steps (CacheCalls.Finds i k x) → s.Fits contents k (.ok x)) ∧
      ∀ i k r, CacheCalls.Took steps (CacheCalls.Ends i k r) → s.Fits contents k r

/-- **A step that keeps a cache sound**: what it stores or ends fits its key. -/
structure FitStep (s : Scanner) (contents : Set ByteArray) (calls : CacheCalls)
    (st : CacheStep) : Prop where
  ends : ∀ i k r, CacheCalls.Ends i k r calls st → s.Fits contents k r
  puts : ∀ k x time, st ≠ .put k x time
  loads : ∀ records, st = .load records → ∀ r ∈ records, s.FitsEntry contents r

theorem FitStep.of_not_brings (h : ¬ st.Brings) : s.FitStep contents calls st where
  ends := by
    rintro i k r ⟨-, ⟨x, time, rfl, -⟩ | ⟨reason, rfl, -⟩⟩
    · exact absurd trivial h
    · exact absurd trivial h
  puts := by
    rintro k x time rfl
    exact h trivial
  loads := by
    rintro records rfl
    exact absurd trivial h

theorem FitCalls.step (h : s.FitCalls contents calls) (hsound : s.Sound contents calls.cache)
    (hst : s.FitStep contents calls st) : s.FitCalls contents (calls.step st) := by
  obtain ⟨steps, rfl, hfinds, hends⟩ := h
  refine ⟨steps ++ [st], (CacheCalls.after_snoc steps st).symm, fun i k x hx => ?_,
    fun i k r hr => ?_⟩
  · obtain hx | ⟨-, -, e, he, rfl⟩ := CacheCalls.took_snoc.1 hx
    · exact hfinds i k x hx
    · exact hsound.fits_of_entryOf? he
  · obtain hr | hr := CacheCalls.took_snoc.1 hr
    · exact hends i k r hr
    · exact hst.ends i k r hr

theorem Sound.step (h : s.Sound contents calls.cache) (hst : s.FitStep contents calls st) :
    s.Sound contents (calls.step st).cache := by
  cases st with
  | call k => exact h.ask
  | succeed i x time =>
    rw [CacheCalls.step]
    split
    case h_1 k t hstate =>
      have hends : CacheCalls.Ends i k (.ok x) calls (.succeed i x time) :=
        ⟨⟨t, hstate⟩, .inl ⟨x, time, rfl, rfl⟩⟩
      exact h.complete (hst.ends i k (.ok x) hends)
    case h_2 => exact h
  | raise i reason =>
    rw [CacheCalls.step]
    split
    · exact h.of_entries rfl
    · exact h
  | handOut i =>
    rw [CacheCalls.step]
    split <;> exact h
  | receive i =>
    rw [CacheCalls.step]
    split
    · split <;> exact h
    · exact h
  | get k =>
    refine h.of_entries ?_
    rw [CacheCalls.step, EvidenceCache.get]
    split <;> rfl
  | put k x time => exact absurd rfl (hst.puts k x time)
  | load records => exact h.withEntries (hst.loads records rfl)
  | retain root present => exact h.retain root present
  | clear => exact Sound.empty.of_entries rfl
  | stats => exact h

/-- **An answer fits the key of its call.** -/
theorem FitCalls.answer (h : s.FitCalls contents calls) {i : Nat} {k : CacheKey}
    {a : Except String (Extraction × Bool)} (hstate : calls.state? i = some (k, .answered a)) :
    s.Fits contents k (a.map (·.1)) := by
  obtain ⟨steps, rfl, hfinds, hends⟩ := h
  have hmap : ∀ (cached : Bool) (r : Except String Extraction),
      (r.map fun x => (x, cached)).map (·.1) = r := by
    intro cached r
    cases r <;> rfl
  obtain hfound | ⟨-, hown⟩ | ⟨-, hshared⟩ := (CacheCalls.consistent_after steps).explained hstate
  · exact hfinds i k _ hfound
  · exact hmap false _ ▸ hends i k _ hown
  · exact hmap true _ ▸ hends _ k _ hshared

end Scanner

/-! ## The scans -/

/-- **A task whose call asks for what was read.** -/
structure ScanTask.Faithful (s : Scanner) (t : ScanTarget) (calls : CacheCalls)
    (task : ScanTask) : Prop where
  selected : task.path ∈ t.selection.selected
  read : t.read task.path = .ok (task.content, task.modified)
  call : ∃ state, calls.state? task.call = some (s.key t task.path task.content, state)

/-- **A scan at work that reports what it finds by itself.** -/
structure OpenScan.Faithful (s : Scanner) (contents : Set ByteArray) (calls : CacheCalls)
    (w : OpenScan) : Prop where
  reads : w.target.ReadsIn contents
  limit : (!w.target.selection.selected.isEmpty && w.target.options.limitTooLong) = false
  tasks : ∀ task ∈ w.tasks, task.Faithful s w.target calls
  reports : ∀ r ∈ w.reports, s.Reports w.target r
  nodup : (w.reports.map (·.path)).Nodup

/-- A scan that is done has reported every file that it selected. -/
theorem OpenScan.mem_of_isDone {w : OpenScan} (h : w.isDone = true) {path : String}
    (hpath : path ∈ w.target.selection.selected) : path ∈ w.reports.map (·.path) := by
  obtain ⟨r, hr, heq⟩ := List.any_eq_true.1 (List.all_eq_true.1 h path hpath)
  exact List.mem_map.2 ⟨r, hr, beq_iff_eq.1 heq⟩

/-- **What every run keeps true.** -/
structure SharedScans.Faithful (s : Scanner) (contents : Set ByteArray) (m : SharedScans) :
    Prop where
  calls : s.FitCalls contents m.calls
  sound : s.Sound contents m.cache
  scans : ∀ w ∈ m.scans, w.Faithful s contents m.calls
  stores : ∀ text ∈ m.stores, ∃ c, s.Sound contents c ∧ text = c.storeText

section Scans

variable {s : Scanner} {contents : Set ByteArray} {calls : CacheCalls} {t : ScanTarget}

theorem ScanTask.Faithful.step {task : ScanTask} (h : task.Faithful s t calls) (st : CacheStep) :
    task.Faithful s t (calls.step st) := by
  obtain ⟨state, hstate⟩ := h.call
  exact ⟨h.selected, h.read, CacheCalls.exists_state?_step hstate st⟩

/-- **What is reported of a task** is what the scan finds in its file. -/
theorem ScanTask.Faithful.outcome {task : ScanTask} (h : task.Faithful s t calls)
    (hreads : t.ReadsIn contents) (hcalls : s.FitCalls contents calls) {k : CacheKey}
    {a : Except String (Extraction × Bool)}
    (hstate : calls.state? task.call = some (k, .answered a)) :
    s.Reports t ⟨task.path, task.outcome a⟩ := by
  refine ⟨h.selected, ?_⟩
  obtain ⟨state, hkey⟩ := h.call
  have hk : k = s.key t task.path task.content := by
    rw [hstate] at hkey
    exact (Prod.mk.inj (Option.some.inj hkey)).1
  have hcontent := hreads _ _ _ h.read
  have halike := ((hk ▸ hcalls.answer hstate).extract hcontent).outcome? task.path task.modified
  rw [Scanner.outcome?, h.read]
  refine halike.trans ?_
  cases a <;> rfl

namespace OpenScan.Faithful

variable {w : OpenScan}

theorem step (h : w.Faithful s contents calls) (st : CacheStep) :
    w.Faithful s contents (calls.step st) :=
  ⟨h.reads, h.limit, fun task htask => (h.tasks task htask).step st, h.reports, h.nodup⟩

/-- One more file is reported. -/
theorem report (h : w.Faithful s contents calls) {r : FileReport} (hr : s.Reports w.target r)
    (hnew : w.hasReported r.path = false) : (w.report r).Faithful s contents calls := by
  refine ⟨h.reads, h.limit, h.tasks, fun r' hr' => ?_, ?_⟩
  · obtain hr' | hr' := List.mem_append.1 hr'
    · exact h.reports r' hr'
    · exact List.mem_singleton.1 hr' ▸ hr
  · have hpath : r.path ∉ w.reports.map (·.path) := by
      intro hmem
      obtain ⟨r', hr', hpath⟩ := List.mem_map.1 hmem
      have := List.any_eq_false.1 hnew r' hr'
      exact this (beq_iff_eq.2 hpath)
    rw [OpenScan.report, List.map_append, List.map_singleton, ← List.concat_eq_append]
    exact h.nodup.concat hpath

end OpenScan.Faithful

end Scans

/-! ## Runs -/

namespace SharedScans

variable {s : Scanner} {contents : Set ByteArray} {m : SharedScans}

/-- **The task at a place** of the scan at a place. -/
theorem task?_eq_some_iff {i j : Nat} {w : OpenScan} {task : ScanTask} :
    m.task? i j = some (w, task) ↔ m.scans[i]? = some w ∧ w.tasks[j]? = some task := by
  rw [task?, Option.bind_eq_some_iff]
  constructor
  · rintro ⟨w', hw', htask⟩
    obtain ⟨task', htask', heq⟩ := Option.map_eq_some_iff.1 htask
    obtain ⟨rfl, rfl⟩ := Prod.mk.inj heq
    exact ⟨hw', htask'⟩
  · rintro ⟨hw, htask⟩
    exact ⟨w, hw, by rw [htask]; rfl⟩

theorem faithful_start : start.Faithful s contents where
  calls := ⟨[], rfl, fun _ _ _ h => absurd h CacheCalls.not_took_nil,
    fun _ _ _ h => absurd h CacheCalls.not_took_nil⟩
  sound := .empty
  scans _ h := nomatch h
  stores _ h := nomatch h

namespace Faithful

/-- A step of the cache. -/
theorem touch (h : m.Faithful s contents) {st : CacheStep} (hst : s.FitStep contents m.calls st) :
    (m.touch st).Faithful s contents where
  calls := h.calls.step h.sound hst
  sound := h.sound.step hst
  scans w hw := (h.scans w hw).step st
  stores := h.stores

/-- A step of a scan. -/
theorem put (h : m.Faithful s contents) {w : OpenScan} (hw : w.Faithful s contents m.calls)
    (i : Nat) : (m.put i w).Faithful s contents where
  calls := h.calls
  sound := h.sound
  scans w' hw' := by
    obtain hw' | rfl := List.mem_or_eq_of_mem_set hw'
    · exact h.scans w' hw'
    · exact hw
  stores := h.stores

theorem of_mem_task? (h : m.Faithful s contents) {i j : Nat} {w : OpenScan} {task : ScanTask}
    (htask : m.task? i j = some (w, task)) :
    w.Faithful s contents m.calls ∧ task.Faithful s w.target m.calls := by
  obtain ⟨hw', htask'⟩ := task?_eq_some_iff.1 htask
  have hw := h.scans w (List.mem_of_getElem? hw')
  exact ⟨hw, hw.tasks task (List.mem_of_getElem? htask')⟩

theorem take (h : m.Faithful s contents) {w : OpenScan} (hw : w.Faithful s contents m.calls)
    (i : Nat) {path : String} (hpath : path ∈ w.target.selection.selected)
    (hnew : w.hasTaken path = false) : (m.take s i w path).Faithful s contents := by
  rw [SharedScans.take]
  cases hread : w.target.read path with
  | error reason =>
    have hreport : s.Reports w.target ⟨path, .skipped reason⟩ := by
      refine ⟨hpath, ?_⟩
      rw [Scanner.outcome?, hread]
      rfl
    exact h.put (hw.report hreport (Bool.or_eq_false_iff.1 hnew).2) i
  | ok found =>
    obtain ⟨content, modified⟩ := found
    have hcall : s.FitStep contents m.calls (.call (s.key w.target path content)) :=
      .of_not_brings id
    have hw' := hw.step (.call (s.key w.target path content))
    refine (h.touch hcall).put (w := { w with
      tasks := w.tasks ++ [⟨m.calls.calls.length, path, content, modified⟩] }) ?_ i
    refine ⟨hw'.reads, hw'.limit, fun task htask => ?_, hw'.reports, hw'.nodup⟩
    obtain htask | htask := List.mem_append.1 htask
    · exact hw'.tasks task htask
    · obtain rfl := List.mem_singleton.1 htask
      exact ⟨hpath, hread, CacheCalls.state?_call _⟩

theorem extract (h : m.Faithful s contents) (hs : s.ByContent)
    (hinj : contents.InjOn s.fingerprint) (i j : Nat) (time : Binary64) :
    (m.step s (.extract i j time)).Faithful s contents := by
  rw [SharedScans.step]
  split
  case h_2 => exact h
  case h_1 w task htask =>
    obtain ⟨hw, ht⟩ := h.of_mem_task? htask
    obtain ⟨state, hstate⟩ := ht.call
    have hcontent := hw.reads _ _ _ ht.read
    have hfits : ∀ r, s.extract task.path task.content = .ofResult r → ∀ k,
        (∃ t, m.calls.state? task.call = some (k, .extracting t)) → s.Fits contents k r := by
      rintro r hr k ⟨t, ht⟩
      rw [hstate] at ht
      obtain rfl := (Prod.mk.inj (Option.some.inj ht)).1
      exact Scanner.fits_of_extract hs hinj hcontent hr
    split
    case h_1 x hx =>
      refine h.touch ⟨fun i' k r hends => ?_, by simp, by simp⟩
      obtain ⟨ht, ⟨x', time', heq, rfl⟩ | ⟨reason, heq, rfl⟩⟩ := hends
      · cases heq
        exact hfits (.ok x) hx k ht
      · cases heq
    case h_2 reason hreason =>
      refine h.touch ⟨fun i' k r hends => ?_, by simp, by simp⟩
      obtain ⟨ht, ⟨x', time', heq, rfl⟩ | ⟨reason', heq, rfl⟩⟩ := hends
      · cases heq
      · cases heq
        exact hfits (.error reason) hreason k ht
    case h_3 => exact h

theorem report (h : m.Faithful s contents) (i j : Nat) :
    (m.step s (.report i j)).Faithful s contents := by
  rw [SharedScans.step]
  split
  case h_2 => exact h
  case h_1 w task htask =>
    obtain ⟨hw, ht⟩ := h.of_mem_task? htask
    split
    case h_2 => exact h
    case h_1 k a hstate =>
      split
      · exact h
      case isFalse hnew =>
        exact h.put (hw.report (ht.outcome hw.reads h.calls hstate) (by simpa using hnew)) i

/-- **What is loaded** is what a sound cache was written as. -/
theorem load (h : m.Faithful s contents) (top : FileNode) (path : List String) :
    (m.step s (.load top path)).Faithful s contents := by
  rw [SharedScans.step]
  split
  case h_2 => exact h
  case h_1 content modified cache notes hcontent hload =>
    split
    case isFalse => exact h
    case isTrue hstore =>
      obtain ⟨text, htext, hmem⟩ := (Option.any_eq_true _ _).1 hstore
      obtain ⟨stored, hstored, rfl⟩ := h.stores text (List.contains_iff_mem.1 hmem)
      obtain hsame | ⟨records, hread, hcache⟩ := EvidenceCache.load_cases hcontent hload
      · obtain rfl : cache = m.cache := hsame
        exact h
      · obtain rfl : cache = m.cache.withEntries records := hcache
        have hrecords := hstored.fitsEntry_of_readStore htext hread
        have hst : s.FitStep contents m.calls (.load records) := by
          refine ⟨by simp [CacheCalls.Ends], by simp, fun records' heq => ?_⟩
          exact CacheStep.load.inj heq ▸ hrecords
        exact h.touch hst

theorem finish (h : m.Faithful s contents) (i : Nat) :
    (m.step s (.finish i)).Faithful s contents := by
  rw [SharedScans.step]
  split
  case h_2 => exact h
  case h_1 w hw =>
    split
    case isFalse => exact h
    case isTrue =>
      rw [ScanTarget.forget]
      split
      · exact h
      · have hst : s.FitStep contents m.calls (.retain (Path.absolute w.target.root)
            (w.coverage.selection.selected.map w.target.absolute)) := .of_not_brings id
        exact h.touch hst

end Faithful

/-- **Every step keeps it.** -/
theorem Faithful.step (h : m.Faithful s contents) (hs : s.ByContent)
    (hinj : contents.InjOn s.fingerprint) (st : ScanStep)
    (hst : ∀ t, st = .begin t → t.ReadsIn contents) : (m.step s st).Faithful s contents := by
  cases st with
  | begin t =>
    rw [SharedScans.step]
    split
    · exact h
    case isFalse hlimit =>
      refine ⟨h.calls, h.sound, fun w hw => ?_, h.stores⟩
      obtain hw | hw := List.mem_append.1 hw
      · exact h.scans w hw
      · obtain rfl := List.mem_singleton.1 hw
        exact ⟨hst t rfl, by simpa using hlimit, fun _ h => (nomatch h), fun _ h => (nomatch h),
          List.nodup_nil⟩
  | take i path =>
    rw [SharedScans.step]
    split
    case h_2 => exact h
    case h_1 w hw =>
      split
      case isFalse => exact h
      case isTrue hpath =>
        rw [Bool.and_eq_true, List.contains_iff_mem, Bool.not_eq_true'] at hpath
        exact h.take (h.scans w (List.mem_of_getElem? hw)) i hpath.1 hpath.2
  | extract i j time => exact h.extract hs hinj i j time
  | handOut call => exact h.touch (.of_not_brings id)
  | receive call => exact h.touch (.of_not_brings id)
  | report i j => exact h.report i j
  | finish i => exact h.finish i
  | flush =>
    refine ⟨h.calls, h.sound, h.scans, fun text htext => ?_⟩
    obtain rfl | htext := List.mem_cons.1 htext
    · exact ⟨m.cache, h.sound, rfl⟩
    · exact h.stores text htext
  | load top path => exact h.load top path
  | get k => exact h.touch (.of_not_brings id)
  | retain root present =>
    exact h.touch (.of_not_brings id)
  | clear => exact h.touch (.of_not_brings id)
  | stats => exact h.touch (.of_not_brings id)
  | restart => exact ⟨faithful_start.calls, .empty, fun _ h => (nomatch h), h.stores⟩

/-- **Every run keeps it.** -/
theorem faithful_after (hs : s.ByContent) (hinj : contents.InjOn s.fingerprint)
    (steps : List ScanStep) (hsteps : ∀ t, .begin t ∈ steps → t.ReadsIn contents) :
    (after s steps).Faithful s contents := by
  induction steps using List.reverseRecOn with
  | nil => exact faithful_start
  | append_singleton steps st ih =>
    have hlast : ∀ t, st = .begin t → t.ReadsIn contents := by
      rintro t rfl
      exact hsteps t (by simp)
    rw [after, List.foldl_append]
    exact (ih fun t ht => hsteps t (List.mem_append_left _ ht)).step hs hinj st hlast

end SharedScans
end Conventions
