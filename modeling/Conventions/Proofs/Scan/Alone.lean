import Conventions.Proofs.Cache.Solo
import Conventions.Proofs.Scan.Ran

/-!
# Proofs/Scan/Alone — one scan at work on a cache

A scan has a cache for itself if it takes its files in order, or if its workers take steps in any order
and nothing else is done to the cache (`Scanner.RunsAlone`); when it stops, some of them may still be at
work. Its files have different paths, so no two of its calls ask for one key, and what comes of a file
is what comes of it in any other order (`RunsAlone.ranAlone`).

`SharedScans.Alone` is what every step of such a scan keeps: each of its tasks has the call that was
made for it, and each of its reports says what that call was answered.
-/

namespace Conventions

/-- **Is a step one of a worker?** -/
def ScanStep.isWork : ScanStep → Bool
  | .take .. | .extract .. | .handOut _ | .receive _ | .report .. => true
  | _ => false

/-- **A scan that has a cache for itself**, with what it came to and the cache that it leaves. It takes
its files in order; or its workers take steps in any order until all files are reported, and the cache
forgets what is gone; or its time is over before that, and those still at work may go on. -/
inductive Scanner.RunsAlone (s : Scanner) (t : ScanTarget) (before : EvidenceCache) :
    ScanCoverage → EvidenceCache → Prop where
  | inOrder (now elapsed : Binary64) (wait : t.CanWait) :
    RunsAlone s t before (s.cover t now before).1 (s.scanTarget t now elapsed before).cache
  | finished (steps : List ScanStep) (w : OpenScan) (wait : t.CanWait)
      (work : ∀ st ∈ steps, st.isWork = true)
      (scans : (SharedScans.run s before (.begin t :: steps)).scans = [w])
      (done : w.isDone = true) :
    RunsAlone s t before w.stopped
      ((SharedScans.run s before (.begin t :: steps)).step s (.finish 0)).cache
  | timedOut (steps later : List ScanStep) (w : OpenScan) (wait : t.CanWait)
      (limited : t.options.timeout ≠ none) (work : ∀ st ∈ steps ++ later, st.isWork = true)
      (scans : (SharedScans.run s before (.begin t :: steps)).scans = [w])
      (left : w.isDone = false) :
    RunsAlone s t before w.stopped (SharedScans.run s before (.begin t :: (steps ++ later))).cache

/-- **Does a call do what a task asks for?** What it extracted is what the file gives. -/
def ScanTask.Pursued (s : Scanner) (t : ScanTarget) (calls : CacheCalls) (task : ScanTask) : Prop :=
  ∃ state, calls.state? task.call = some (s.key t task.path task.content, state) ∧
    ∀ r, state.made? = some r → s.extract task.path task.content = .ofResult r

/-- **Does a report say what was answered** for one of some tasks, or that a file was skipped? -/
def FileReport.Answers (calls : CacheCalls) (tasks : List ScanTask) (r : FileReport) : Prop :=
  (∃ reason, r.outcome = .skipped reason) ∨ ∃ task ∈ tasks, task.path = r.path ∧
    ∃ k a, calls.state? task.call = some (k, .answered a) ∧ r.outcome = task.outcome a

/-- **What a call for a task is answered** by its own extraction is what comes of it. -/
theorem ScanTask.outcome?_of_made? (task : ScanTask) {a : Except String (Extraction × Bool)}
    {r : Except String Extraction} (h : (CallState.answered a).made? = some r) :
    (Attempt.ofResult r).outcome? task.path task.modified = some (task.outcome a) := by
  cases a with
  | error reason =>
    obtain rfl := Option.some.inj h
    rfl
  | ok answer =>
    obtain ⟨x, cached⟩ := answer
    cases cached with
    | true => cases h
    | false =>
      obtain rfl := Option.some.inj h
      rfl

section Steps

variable {s : Scanner} {t : ScanTarget} {before : EvidenceCache} {calls : CacheCalls}
  {task : ScanTask} {tasks : List ScanTask} {r : FileReport} {st : CacheStep}

/-- **What is extracted for a task** is what the file gives, if the step extracts that. -/
theorem ScanTask.Pursued.step (h : task.Pursued s t calls) (hsolo : calls.Solo before)
    (hends : ∀ k r, CacheCalls.Ends task.call k r calls st →
      s.extract task.path task.content = .ofResult r) : task.Pursued s t (calls.step st) := by
  obtain ⟨a, ha, hmade⟩ := h
  obtain ⟨b, hb, hbecomes⟩ := CacheCalls.exists_becomes ha st
  refine ⟨b, hb, fun r hr => ?_⟩
  obtain hr | hr := hsolo.made?_of_becomes ha hbecomes hr
  · exact hmade r hr
  · exact hends _ r hr

/-- **What was answered stays answered.** -/
theorem FileReport.Answers.step (h : r.Answers calls tasks) (st : CacheStep) :
    r.Answers (calls.step st) tasks := by
  obtain hskipped | ⟨task, htask, hpath, k, a, ha, houtcome⟩ := h
  · exact .inl hskipped
  · obtain ⟨b, hb, hbecomes⟩ := CacheCalls.exists_becomes ha st
    cases hbecomes
    exact .inr ⟨task, htask, hpath, k, a, hb, houtcome⟩

theorem FileReport.Answers.mono (h : r.Answers calls tasks) {tasks' : List ScanTask}
    (hsubset : tasks ⊆ tasks') : r.Answers calls tasks' :=
  h.imp_right fun ⟨task, htask, hanswer⟩ => ⟨task, hsubset htask, hanswer⟩

end Steps

namespace SharedScans

/-- **One scan at work on a cache**: the calls to it are those for its tasks. -/
structure Alone (s : Scanner) (t : ScanTarget) (before : EvidenceCache) (m : SharedScans)
    (w : OpenScan) : Prop where
  scans : m.scans = [w]
  target : w.target = t
  orderly : m.Orderly
  solo : m.calls.Solo before
  length : w.tasks.length = m.calls.calls.length
  call : ∀ j (task : ScanTask), w.tasks[j]? = some task → task.call = j
  tasks : ∀ task ∈ w.tasks, task.Pursued s t m.calls
  reports : ∀ r ∈ w.reports, r.Answers m.calls w.tasks

variable {s : Scanner} {t : ScanTarget} {before : EvidenceCache} {m : SharedScans} {w w' : OpenScan}

/-! ## Steps -/

theorem Alone.eq_of_getElem? (h : m.Alone s t before w) {i : Nat} (hi : m.scans[i]? = some w') :
    i = 0 ∧ w' = w := by
  rw [h.scans] at hi
  cases i with
  | zero => exact ⟨rfl, (Option.some.inj hi).symm⟩
  | succ i => cases hi

theorem Alone.of_task? (h : m.Alone s t before w) {i j : Nat} {task : ScanTask}
    (htask : m.task? i j = some (w', task)) : i = 0 ∧ w' = w ∧ w.tasks[j]? = some task := by
  obtain ⟨hw', htask'⟩ := task?_eq_some_iff.1 htask
  obtain ⟨rfl, rfl⟩ := h.eq_of_getElem? hw'
  exact ⟨rfl, rfl, htask'⟩

/-- A step of a call that was made. -/
theorem Alone.touch (h : m.Alone s t before w) {st : CacheStep} (hcall : ∀ k, st ≠ .call k)
    (hsolo : (m.calls.step st).Solo before)
    (hends : ∀ task ∈ w.tasks, ∀ k r, CacheCalls.Ends task.call k r m.calls st →
      s.extract task.path task.content = .ofResult r) : (m.touch st).Alone s t before w where
  scans := h.scans
  target := h.target
  orderly := h.orderly
  solo := hsolo
  length := h.length.trans (CacheCalls.length_calls_step hcall).symm
  call := h.call
  tasks task htask := (h.tasks task htask).step h.solo (hends task htask)
  reports r hr := (h.reports r hr).step st

/-- A file is reported. -/
theorem Alone.report (h : m.Alone s t before w) {r : FileReport}
    (horderly : (m.put 0 (w.report r)).Orderly) (hr : r.Answers m.calls w.tasks) :
    (m.put 0 (w.report r)).Alone s t before (w.report r) where
  scans := by rw [put, h.scans, List.set_cons_zero]
  target := h.target
  orderly := horderly
  solo := h.solo
  length := h.length
  call := h.call
  tasks := h.tasks
  reports := List.forall_mem_append.2 ⟨h.reports, List.forall_mem_singleton.2 hr⟩

/-- **A call is made for a task**, and does what it asks for. -/
theorem Alone.task_of_state? (h : m.Alone s t before w) {i : Nat} {k : CacheKey}
    {state : CallState} (hi : m.calls.state? i = some (k, state)) : ∃ task ∈ w.tasks,
      k = s.key t task.path task.content ∧
        ∀ r, state.made? = some r → s.extract task.path task.content = .ofResult r := by
  obtain ⟨task, htask⟩ : ∃ task, w.tasks[i]? = some task := by
    refine ⟨_, List.getElem?_eq_getElem ?_⟩
    rw [h.length]
    exact CacheCalls.lt_length_of_state? hi
  have hmem := List.mem_of_getElem? htask
  obtain ⟨state', hstate', hmade⟩ := h.tasks task hmem
  rw [h.call i task htask, hi] at hstate'
  obtain ⟨rfl, rfl⟩ := Prod.mk.inj (Option.some.inj hstate')
  exact ⟨task, hmem, rfl, hmade⟩

/-- **A file that was not taken up** has a key that was not asked for. -/
theorem Alone.notMem_keys (h : m.Alone s t before w) {path : String}
    (hnew : w.hasTaken path = false) (content : ByteArray) :
    s.key t path content ∉ m.calls.calls.map (·.1) := by
  intro hmem
  obtain ⟨⟨k, state⟩, hc, hk⟩ := List.mem_map.1 hmem
  obtain ⟨i, hi⟩ := List.mem_iff_getElem?.1 hc
  obtain ⟨task, htask, hkey, -⟩ := h.task_of_state? hi
  have hpath : task.path = path := t.absolute_injective (congrArg CacheKey.path (hkey.symm.trans hk))
  have htaken := List.any_eq_false.1 (Bool.or_eq_false_iff.1 hnew).1 task htask
  exact htaken (beq_iff_eq.2 hpath)

/-- **A file is taken up.** -/
theorem Alone.take (h : m.Alone s t before w) {path : String}
    (hpath : path ∈ w.target.selection.selected) (hnew : w.hasTaken path = false) :
    ∃ w', (m.take s 0 w path).Alone s t before w' ∧ w.reports <+: w'.reports := by
  obtain rfl := h.target
  have hw : w ∈ m.scans := by rw [h.scans]; exact List.mem_singleton_self w
  have horderly : (m.take s 0 w path).Orderly :=
    h.orderly.take (h.orderly w hw) 0 hpath hnew
  rw [SharedScans.take] at horderly ⊢
  cases hread : w.target.read path with
  | error reason =>
    simp only [hread] at horderly ⊢
    exact ⟨_, h.report horderly (.inl ⟨reason, rfl⟩), List.prefix_append _ _⟩
  | ok found =>
    obtain ⟨content, modified⟩ := found
    simp only [hread] at horderly ⊢
    let k := s.key w.target path content
    let w' : OpenScan :=
      { w with tasks := w.tasks ++ [⟨m.calls.calls.length, path, content, modified⟩] }
    have hlength : (m.calls.step (.call k)).calls.length = m.calls.calls.length + 1 :=
      List.length_append
    have hnone : ∀ l r j, ¬ CacheCalls.Ends j l r m.calls (.call k) := by simp [CacheCalls.Ends]
    refine ⟨w', ⟨?_, rfl, horderly, h.solo.call (h.notMem_keys hnew content), ?_,
      fun j task htask => ?_, List.forall_mem_append.2 ⟨fun task htask => ?_,
        List.forall_mem_singleton.2 ?_⟩, fun r hr => ?_⟩, List.prefix_refl _⟩
    · rw [put, SharedScans.touch, h.scans, List.set_cons_zero]
    · rw [List.length_append, List.length_singleton, h.length]
      exact hlength.symm
    · rw [CacheCalls.state?_append] at htask
      split_ifs at htask with hj
      · obtain rfl := Option.some.inj htask
        rw [hj, h.length]
      · exact h.call j task htask
    · exact (h.tasks task htask).step h.solo fun l r hends => absurd hends (hnone l r _)
    · refine ⟨CacheCalls.stateOf (m.calls.cache.ask k).1, ?_, fun r hr => ?_⟩
      · simp [CacheCalls.step, CacheCalls.state?, put, SharedScans.touch, k]
      · rw [CacheCalls.made?_stateOf] at hr
        cases hr
    · exact ((h.reports r hr).step _).mono (List.subset_append_left _ _)

/-- **A file's evidence is extracted** for one of the tasks. -/
theorem Alone.extract (h : m.Alone s t before w) (i j : Nat) (time : Binary64) :
    (m.step s (.extract i j time)).Alone s t before w := by
  rw [step]
  split
  case h_2 => exact h
  case h_1 w' task htask =>
    obtain ⟨-, -, htask⟩ := h.of_task? htask
    -- a call has one task
    have hsame : ∀ other ∈ w.tasks, other.call = task.call → other = task := by
      intro other hother heq
      obtain ⟨l, hl⟩ := List.mem_iff_getElem?.1 hother
      rw [h.call l other hl, h.call j task htask] at heq
      exact Option.some.inj (hl.symm.trans (heq ▸ htask))
    split
    case h_1 x hx =>
      refine h.touch (by simp) (h.solo.succeed _ _ _) fun other hother k r hends => ?_
      obtain ⟨-, ⟨y, time', heq, rfl⟩ | ⟨reason, heq, -⟩⟩ := hends
      · obtain ⟨hcall, rfl, -⟩ := CacheStep.succeed.inj heq
        rw [hsame other hother hcall.symm]
        exact hx
      · cases heq
    case h_2 reason hreason =>
      refine h.touch (by simp) (h.solo.raise _ _) fun other hother k r hends => ?_
      obtain ⟨-, ⟨y, time', heq, -⟩ | ⟨reason', heq, rfl⟩⟩ := hends
      · cases heq
      · obtain ⟨hcall, rfl⟩ := CacheStep.raise.inj heq
        rw [hsame other hother hcall.symm]
        exact hreason
    case h_3 => exact h

/-- **What a task was answered** is reported. -/
theorem Alone.reportTask (h : m.Alone s t before w) (i j : Nat) :
    ∃ w', (m.step s (.report i j)).Alone s t before w' ∧ w.reports <+: w'.reports := by
  have horderly := h.orderly.report (s := s) i j
  rw [step] at horderly ⊢
  cases htask : m.task? i j with
  | none => exact ⟨w, h, List.prefix_refl _⟩
  | some found =>
    obtain ⟨w', task⟩ := found
    obtain ⟨rfl, rfl, htask'⟩ := h.of_task? htask
    simp only [htask] at horderly ⊢
    split
    case h_2 => exact ⟨_, h, List.prefix_refl _⟩
    case h_1 k a hstate =>
      split
      case isTrue => exact ⟨_, h, List.prefix_refl _⟩
      case isFalse hnew =>
        simp only [hstate, if_neg hnew] at horderly
        refine ⟨_, h.report horderly (.inr ⟨task, ?_, rfl, k, a, hstate, rfl⟩),
          List.prefix_append _ _⟩
        exact List.mem_of_getElem? htask'

/-- **Every step of a worker keeps it**, and takes no report back. -/
theorem Alone.step (h : m.Alone s t before w) {st : ScanStep} (hst : st.isWork = true) :
    ∃ w', (m.step s st).Alone s t before w' ∧ w.reports <+: w'.reports := by
  cases st with
  | take i path =>
    rw [SharedScans.step]
    split
    case h_2 => exact ⟨w, h, List.prefix_refl _⟩
    case h_1 w' hw' =>
      obtain ⟨rfl, rfl⟩ := h.eq_of_getElem? hw'
      split
      case isFalse => exact ⟨_, h, List.prefix_refl _⟩
      case isTrue hpath =>
        rw [Bool.and_eq_true, List.contains_iff_mem, Bool.not_eq_true'] at hpath
        exact h.take hpath.1 hpath.2
  | extract i j time => exact ⟨w, h.extract i j time, List.prefix_refl _⟩
  | handOut i =>
    refine ⟨w, h.touch (by simp) (h.solo.handOut i) ?_, List.prefix_refl _⟩
    simp [CacheCalls.Ends]
  | receive i =>
    rw [SharedScans.step, SharedScans.touch, h.solo.receive]
    exact ⟨w, h, List.prefix_refl _⟩
  | report i j => exact h.reportTask i j
  | _ => cases hst

/-! ## Runs -/

/-- **Any steps of workers keep it**, and take no report back. -/
theorem Alone.run (h : m.Alone s t before w) {steps : List ScanStep}
    (hsteps : ∀ st ∈ steps, st.isWork = true) :
    ∃ w', (steps.foldl (SharedScans.step s) m).Alone s t before w' ∧ w.reports <+: w'.reports := by
  induction steps generalizing m w with
  | nil => exact ⟨w, h, List.prefix_refl _⟩
  | cons st steps ih =>
    rw [List.forall_mem_cons] at hsteps
    obtain ⟨w₁, h₁, hmore₁⟩ := h.step hsteps.1
    obtain ⟨w₂, h₂, hmore₂⟩ := ih h₁ hsteps.2
    exact ⟨w₂, h₂, hmore₁.trans hmore₂⟩

theorem alone_begin (s : Scanner) (hidle : before.running = []) (hwait : t.CanWait) :
    ((ofCache before).step s (.begin t)).Alone s t before ⟨t, [], []⟩ := by
  have horderly : ((ofCache before).step s (.begin t)).Orderly :=
    (orderly_run s before []).step (.begin t)
  rw [step, ScanTarget.canWait_iff.1 hwait] at horderly ⊢
  exact ⟨rfl, rfl, horderly, CacheCalls.solo_start hidle, rfl, by simp, by simp, by simp⟩

/-! ## What was reported -/

theorem Alone.orderly_scan (h : m.Alone s t before w) : w.Orderly :=
  h.orderly w (by rw [h.scans]; exact List.mem_singleton_self w)

/-- **A call is made for a file** that was selected and read. -/
theorem Alone.file_of_state? (h : m.Alone s t before w) {i : Nat} {k : CacheKey}
    {state : CallState} (hi : m.calls.state? i = some (k, state)) :
    ∃ path ∈ t.selection.selected, ∃ content modified,
      t.read path = .ok (content, modified) ∧ k = s.key t path content ∧
        ∀ r, state.made? = some r → s.extract path content = .ofResult r := by
  obtain ⟨task, htask, hkey, hmade⟩ := h.task_of_state? hi
  obtain ⟨hselected, hread⟩ := h.orderly_scan.tasks task htask
  rw [h.target] at hselected hread
  exact ⟨task.path, hselected, task.content, task.modified, hread, hkey, hmade⟩

/-- **A report of a file that was read** says what a call for it was answered. -/
theorem Alone.exists_answer (h : m.Alone s t before w) {r : FileReport} (hr : r ∈ w.reports)
    {content : ByteArray} {modified : Binary64} (hread : t.read r.path = .ok (content, modified)) :
    ∃ i a, m.calls.state? i = some (s.key t r.path content, .answered a) ∧
      r.outcome = ScanTask.outcome ⟨i, r.path, content, modified⟩ a ∧
        ∀ r', (CallState.answered a).made? = some r' → s.extract r.path content = .ofResult r' := by
  obtain ⟨reason, hskipped⟩ | ⟨task, htask, hpath, k, a, ha, houtcome⟩ := h.reports r hr
  · have herror := (h.orderly_scan.reads r hr).skipped reason hskipped
    rw [h.target, hread] at herror
    cases herror
  · have hread' := (h.orderly_scan.tasks task htask).2
    rw [h.target, hpath, hread] at hread'
    obtain ⟨hcontent, hmodified⟩ := Prod.mk.inj (Except.ok.inj hread')
    obtain ⟨state, hstate, hmade⟩ := h.tasks task htask
    obtain ⟨rfl, rfl⟩ := Prod.mk.inj (Option.some.inj (ha.symm.trans hstate))
    rw [hpath, ← hcontent] at ha hmade
    refine ⟨task.call, a, ha, ?_, hmade⟩
    rw [houtcome, hcontent, hmodified, ← hpath]

/-- **What comes of a file** is what comes of it with what the cache had before. -/
theorem Alone.outcome (h : m.Alone s t before w) {r : FileReport} (hr : r ∈ w.reports) :
    s.outcomeWith? t before r.path = some r.outcome := by
  rw [Scanner.outcomeWith?]
  cases hread : t.read r.path with
  | error reason =>
    have hreads := h.orderly_scan.reads r hr
    rw [h.target] at hreads
    cases houtcome : r.outcome with
    | skipped reason' => rw [Except.error.inj (hread.symm.trans (hreads.skipped _ houtcome))]
    | scanned x modified cached =>
      obtain ⟨⟨content, hok⟩, -⟩ := hreads.scanned _ _ _ houtcome
      cases hread.symm.trans hok
  | ok found =>
    obtain ⟨content, modified⟩ := found
    obtain ⟨i, a, ha, houtcome, hmade⟩ := h.exists_answer hr hread
    simp only
    cases hentry : before.entryOf? (s.key t r.path content) with
    | some e =>
      obtain rfl := CallState.answered.inj (h.solo.found _ _ _ _ ha hentry)
      exact congrArg some houtcome.symm
    | none =>
      obtain ⟨u, hu⟩ | ⟨r', hr'⟩ := h.solo.own _ _ _ ha hentry
      · cases hu
      · rw [hmade r' hr', houtcome]
        exact ScanTask.outcome?_of_made? ⟨i, r.path, content, modified⟩ hr'

/-! ## What is left in the cache -/

/-- **What is left in the cache** was there or was extracted for the tasks. -/
theorem Alone.leaves (h : m.Alone s t before w) :
    ∃ added, s.Leaves t before t.selection.selected w.reports m.cache added := by
  obtain ⟨added, hadded⟩ := h.solo.added
  refine ⟨added, hadded.entries, hadded.nodup, hadded.fingerprint, fun p hp => ?_,
    fun r hr content modified x hread hx => ?_, hadded.extractions⟩
  · obtain ⟨i, state, hi, hmade⟩ := hadded.gave p hp
    obtain ⟨path, hselected, content, modified, hread, hkey, hextract⟩ := h.file_of_state? hi
    refine ⟨path, hselected, content, modified, hread, hkey, ?_, hextract _ hmade⟩
    refine h.solo.entryOf?_eq_none hi ?_
    rintro x rfl
    cases hmade
  · obtain ⟨i, a, ha, -, hmade⟩ := h.exists_answer hr hread
    rw [cache, hadded.entries, List.map_append, List.mem_append]
    cases hentry : before.entryOf? (s.key t r.path content) with
    | some e => exact .inl (EvidenceCache.mem_keys_iff.2 ⟨e, hentry⟩)
    | none =>
      obtain ⟨u, hu⟩ | ⟨r', hr'⟩ := h.solo.own _ _ _ ha hentry
      · cases hu
      · have hgives := hmade r' hr'
        rw [hx] at hgives
        cases r' with
        | error reason => cases hgives
        | ok y => exact .inr (hadded.all _ y ⟨i, _, ha, hr'⟩)

/-- **When all files are reported**, nothing is being extracted. -/
theorem Alone.running_eq_nil (h : m.Alone s t before w)
    (hall : ∀ path ∈ t.selection.selected, path ∈ w.reports.map (·.path)) :
    m.cache.running = [] := by
  refine List.eq_nil_iff_forall_not_mem.2 fun p hp => ?_
  obtain ⟨i, hi⟩ := h.solo.running p hp
  obtain ⟨path, hselected, content, modified, hread, hkey, -⟩ := h.file_of_state? hi
  obtain ⟨r, hr, rfl⟩ := List.mem_map.1 (hall path hselected)
  obtain ⟨j, a, hj, -⟩ := h.exists_answer hr hread
  rw [hkey] at hi
  obtain rfl := CacheCalls.eq_of_state? h.solo.keys hi hj
  cases (Prod.mk.inj (Option.some.inj (hi.symm.trans hj))).2

end SharedScans

namespace Scanner

variable {s : Scanner} {t : ScanTarget} {before cache : EvidenceCache} {c : ScanCoverage}

/-- What a scan that stopped does, whatever its workers do after that. -/
theorem ranAlone_stopped {m m' : SharedScans} {w w' : OpenScan} (h : m.Alone s t before w)
    (h' : m'.Alone s t before w') (hmore : w.reports <+: w'.reports) :
    s.RanAlone t before w.stopped m'.cache := by
  have hcovered := h.orderly_scan.covered_stopped
  rw [h.target] at hcovered
  refine ⟨hcovered, fun r hr => h.outcome hr, ?_, fun hdone => h'.running_eq_nil ?_⟩
  · obtain ⟨added, hadded⟩ := h'.leaves
    exact ⟨added, hadded.mono hmore.subset⟩
  · intro path hpath
    exact List.map_subset _ hmore.subset (hcovered.timedOut.1 hdone path hpath)

/-- **A scan that has a cache for itself** does what it does in order, and the cache forgets what is
gone if it came to all files. -/
theorem RunsAlone.exists_ranAlone (h : s.RunsAlone t before c cache) (hidle : before.running = []) :
    ∃ after, s.RanAlone t before c after ∧ cache = t.forget c after := by
  cases h with
  | inOrder now elapsed wait =>
    refine ⟨_, ranAlone_cover hidle now, ?_⟩
    rw [scanTarget_of_canWait s now elapsed before wait]
  | finished steps w wait work scans done =>
    obtain ⟨w₁, h₁, -⟩ := (SharedScans.alone_begin s hidle wait).run work
    obtain rfl : w = w₁ := List.singleton_inj.1 (scans.symm.trans h₁.scans)
    refine ⟨_, ranAlone_stopped h₁ h₁ (List.prefix_refl _), ?_⟩
    have hstopped : w.stopped = w.coverage := by
      rw [OpenScan.stopped, done]
      rfl
    simp only [SharedScans.step, scans, List.getElem?_cons_zero, if_pos done]
    rw [hstopped, h₁.target]
    rfl
  | timedOut steps later w wait _ work scans left =>
    rw [List.forall_mem_append] at work
    obtain ⟨w₁, h₁, -⟩ := (SharedScans.alone_begin s hidle wait).run work.1
    obtain rfl : w = w₁ := List.singleton_inj.1 (scans.symm.trans h₁.scans)
    obtain ⟨w₂, h₂, hmore⟩ := h₁.run work.2
    refine ⟨_, ranAlone_stopped h₁ h₂ hmore, ?_⟩
    rw [ScanTarget.forget, OpenScan.stopped, left, SharedScans.run, List.foldl_cons,
      List.foldl_append]
    rfl

/-- **Without a limit of time** a scan comes to all files, if every extraction ends. -/
theorem RunsAlone.timedOut_eq_false (h : s.RunsAlone t before c cache)
    (htimeout : t.options.timeout = none) (hends : s.Ends t) : c.timedOut = false := by
  cases h with
  | inOrder now elapsed wait => exact timedOut_cover hends now before
  | finished steps w wait work scans done => rw [OpenScan.stopped, done, Bool.not_true]
  | timedOut steps later w wait limited => exact absurd htimeout limited

end Scanner
end Conventions
