import Conventions.Proofs.Audit.Files
import Conventions.Proofs.Json.Sorted

/-!
# Proofs/Audit/Tail — a log keeps the end of its history

The lines of the backup and then those of the file are the last ones that were appended, whole and in
order (`appends_keepTail`). An append adds its event to those in the file, or those in the file become
those moved aside, and the ones moved aside before them are lost (`Wrote.append`). What precedes the
last line is smaller than the limit, unless the roll over before it failed: that is noted, and the line
is written all the same (`appends_past_limit`).
-/

namespace Conventions
namespace AuditLog

open FileNode

variable {log log' : AuditLog} {top top' : FileNode} {now : Binary64} {e : List (String × Json)}
  {es lost moved kept : List (List (String × Json))}

/-! ## Lines -/

/-- **The lines of events**, one after the other. -/
def lines (es : List (List (String × Json))) : ByteArray := (String.join (es.map line)).toUTF8

theorem lines_append (es others : List (List (String × Json))) :
    lines (es ++ others) = lines es ++ lines others := by
  simp [lines]

theorem lines_singleton (e : List (String × Json)) : lines [e] = (line e).toUTF8 := by
  simp [lines]

/-- **A line that tells an event**: it ends with its only newline, and what is before that is read as
the event. -/
def Tells (line : String) (e : List (String × Json)) : Prop :=
  ∃ text, line = text ++ "\n" ∧ '\n' ∉ text.toList ∧ ∃ w, Json.read text = .ok w ∧ w.Same (.obj e)

/-- **The line of an event tells it.** -/
theorem tells_line (h : (Json.obj e).Writable) : Tells (line e) e := by
  refine ⟨_, rfl, fun hnewline => ?_, h.read_compact_sorted⟩
  have hle : 32 ≤ '\n'.toNat := Json.isPrintable_toList_compact _ '\n' hnewline
  simp at hle

/-! ## What a log keeps -/

/-- **Events that are not in the file** any more: none, or some that were moved aside, as many as the
limit asks for at least, and others before these that are lost. -/
def MovedAside (limit : Option Nat) (lost moved : List (List (String × Json)))
    (aside : Option ByteArray) : Prop :=
  aside = none ∧ lost = [] ∧ moved = [] ∨
    aside = some (lines moved) ∧ ∃ n, limit = some n ∧ n ≤ (lines moved).size

/-- **The files of a log**: the backup has the lines of the events that were moved aside, the file those
of the others that are kept. -/
structure KeepsTail (log : AuditLog) (top : FileNode)
    (lost moved kept : List (List (String × Json))) : Prop where
  file : top.bytes? log.file = some (lines kept)
  backup : MovedAside log.maxBytes lost moved (top.bytes? log.backup)

/-- **A log that has written events** shows its files. -/
def Wrote (log : AuditLog) (top : FileNode) (lost moved kept : List (List (String × Json))) : Prop :=
  ∃ dir name here entries aside, log.file = dir ++ [name] ∧
    Shows top dir here entries name (some (lines kept)) aside ∧
      MovedAside log.maxBytes lost moved aside

theorem Wrote.keepsTail (h : Wrote log top lost moved kept) : KeepsTail log top lost moved kept := by
  obtain ⟨dir, name, here, entries, aside, hfile, hshows, haside⟩ := h
  constructor
  · rw [hfile, hshows.bytes?_file]
  · rwa [backup_eq hfile, hshows.bytes?_backup]

/-- The times of warnings do not matter. -/
theorem Wrote.congr (h : Wrote log top lost moved kept) (hfile : log'.file = log.file)
    (hmax : log'.maxBytes = log.maxBytes) : Wrote log' top lost moved kept := by
  rwa [Wrote, hfile, hmax]

theorem wrote_of_fresh (hfresh : log.Fresh top) (h : (log.append top now e).written = true) :
    Wrote log (log.append top now e).top [] [] [e] := by
  obtain ⟨dir, name, here, entries, hfile, hshows⟩ := exists_shows_of_written hfresh h
  rw [← lines_singleton] at hshows
  exact ⟨dir, name, here, entries, none, hfile, hshows, .inl ⟨rfl, rfl, rfl⟩⟩

/-- **One append more**: the event comes after those in the file, or those in the file are moved aside
and the event is alone in a new one. -/
theorem Wrote.append (h : Wrote log top lost moved kept) (now : Binary64)
    (e : List (String × Json)) : ∃ lost' moved' before,
      lost ++ moved ++ kept = lost' ++ moved' ++ before ∧
        Wrote log (log.append top now e).top lost' moved' (before ++ [e]) ∧
          (log.RollsOver top → ∀ n, log.maxBytes = some n → 0 < n → (lines before).size < n) := by
  obtain ⟨dir, name, here, entries, aside, hfile, hshows, haside⟩ := h
  obtain ⟨-, ⟨entries', hafter, hroom⟩ | ⟨entries', n, hmax, hfull, halone⟩⟩ :=
    append_of_shows hfile hshows now e
  · rw [← lines_singleton, ← lines_append] at hafter
    exact ⟨lost, moved, kept, rfl, ⟨dir, name, here, entries', aside, hfile, hafter, haside⟩,
      fun hrolls n hmax _ => hroom hrolls n hmax⟩
  · rw [← lines_singleton] at halone
    refine ⟨lost ++ moved, kept, [], (List.append_nil _).symm, ?_, fun _ n _ hpos => hpos⟩
    exact ⟨dir, name, here, entries', _, hfile, halone, .inr ⟨rfl, n, hmax, hfull⟩⟩

/-! ## Histories -/

/-- **A history of appends** to a log, all of them written, with nothing else done to the tree. -/
inductive Appends (log : AuditLog) (top : FileNode) :
    List (List (String × Json)) → AuditLog → FileNode → Prop
  | start : Appends log top [] log top
  | append {es : List (List (String × Json))} {log' : AuditLog} {top' : FileNode}
      (h : Appends log top es log' top') (now : Binary64) (e : List (String × Json))
      (hwritten : (log'.append top' now e).written = true) :
      Appends log top (es ++ [e]) (log'.append top' now e).log (log'.append top' now e).top

theorem Appends.log_eq (h : Appends log top es log' top') :
    log'.file = log.file ∧ log'.maxBytes = log.maxBytes := by
  induction h with
  | start => exact ⟨rfl, rfl⟩
  | append _ now e _ ih => exact ⟨(append_log ..).1.trans ih.1, (append_log ..).2.trans ih.2⟩

/-- **Through a history**, nothing was written yet or the log has written all of it. -/
theorem Appends.wrote (hfresh : log.Fresh top) (h : Appends log top es log' top') :
    es = [] ∧ log' = log ∧ top' = top ∨
      ∃ lost moved kept, es = lost ++ moved ++ kept ∧ Wrote log' top' lost moved kept := by
  induction h with
  | start => exact .inl ⟨rfl, rfl, rfl⟩
  | @append _ log' top' h now e hwritten ih =>
    right
    have hlog := append_log log' top' now e
    -- Only the first append finds a tree of which nothing is known but that the files are not there.
    obtain ⟨rfl, rfl, rfl⟩ | ⟨lost, moved, kept, rfl, hwrote⟩ := ih
    · exact ⟨[], [], [e], rfl, (wrote_of_fresh hfresh hwritten).congr hlog.1 hlog.2⟩
    · obtain ⟨lost', moved', before, heq, hwrote', -⟩ := hwrote.append now e
      refine ⟨lost', moved', before ++ [e], ?_, hwrote'.congr hlog.1 hlog.2⟩
      rw [heq, List.append_assoc]

/-- **No roll over meets trouble** if the backup may have its name. -/
theorem Appends.rollsOver {dir : List String} {name : String} (hfile : log.file = dir ++ [name])
    (hname : Nameable dir (name ++ ".1")) (hfresh : log.Fresh top)
    (hrun : Appends log top es log' top') (hwritten : (log'.append top' now e).written = true) :
    log'.RollsOver top' := by
  obtain ⟨rfl, rfl, rfl⟩ | ⟨lost, moved, kept, -, hwrote⟩ := hrun.wrote hfresh
  · exact rollsOver_of_fresh hfresh hwritten
  · obtain ⟨dir', name', here, entries, aside, hfile', hshows, -⟩ := hwrote
    rw [hrun.log_eq.1, hfile] at hfile'
    obtain ⟨rfl, hlast⟩ := List.append_inj' hfile' rfl
    cases hlast
    exact rollsOver_of_nameable (hrun.log_eq.1.trans hfile) hshows hname

/-- **A log keeps the end of its history.** Of the events that were appended to a log without files, some
first ones may be lost. The lines of others, none or as many bytes as the limit at least, are in the
backup, and those of the rest with the last event in the file. What precedes the last line there is
smaller than the limit, if the roll over before it met no trouble (`Appends.rollsOver`). -/
theorem appends_keepTail (hpositive : ∀ n, log.maxBytes = some n → 0 < n) (hfresh : log.Fresh top)
    (hrun : Appends log top es log' top') (hwritten : (log'.append top' now e).written = true)
    (hevents : ∀ e' ∈ es ++ [e], (Json.obj e').Writable) :
    (∀ e' ∈ es ++ [e], Tells (line e') e') ∧
      ∃ lost moved before, es = lost ++ moved ++ before ∧
        KeepsTail log (log'.append top' now e).top lost moved (before ++ [e]) ∧
        (log'.RollsOver top' → ∀ n, log.maxBytes = some n → (lines before).size < n) ∧
        (log.maxBytes = none → (log'.append top' now e).top.bytes? log.backup = none ∧
          lost = [] ∧ moved = []) := by
  refine ⟨fun e' he' => tells_line (hevents e' he'), ?_⟩
  obtain ⟨hfile, hmax⟩ := hrun.log_eq
  obtain ⟨lost, moved, before, heq, hwrote, hroom⟩ : ∃ lost moved before,
      es = lost ++ moved ++ before ∧
        Wrote log' (log'.append top' now e).top lost moved (before ++ [e]) ∧
          (log'.RollsOver top' → ∀ n, log'.maxBytes = some n → 0 < n →
            (lines before).size < n) := by
    obtain ⟨rfl, rfl, rfl⟩ | ⟨lost, moved, kept, rfl, hwrote⟩ := hrun.wrote hfresh
    · exact ⟨[], [], [], rfl, wrote_of_fresh hfresh hwritten, fun _ _ _ hpos => hpos⟩
    · exact hwrote.append now e
  have hkeeps := (hwrote.congr hfile.symm hmax.symm).keepsTail
  refine ⟨lost, moved, before, heq, hkeeps, fun hrolls n hn => ?_, fun hnone => ?_⟩
  · exact hroom hrolls n (hmax.trans hn) (hpositive n hn)
  · obtain hnothing | ⟨-, n, hn, -⟩ := hkeeps.backup
    · exact hnothing
    · cases hnone.symm.trans hn

/-- The second of two events in a log with the least limit finds the first one aside. -/
theorem appends_keepTail_two :
    let log : AuditLog := ⟨["audit.jsonl"], some 1, .ofNat 60, []⟩
    let first := log.append default (.ofNat 0) [("event", .str "A")]
    let second := first.log.append first.top (.ofNat 1) [("event", .str "B")]
    (∀ e ∈ [[("event", Json.str "A")], [("event", .str "B")]], Tells (line e) e) ∧
      ∃ lost moved before, [[("event", Json.str "A")]] = lost ++ moved ++ before ∧
        KeepsTail log second.top lost moved (before ++ [[("event", .str "B")]]) ∧
          (lines before).size < 1 := by
  intro log first second
  have hfile : log.file = [] ++ ["audit.jsonl"] := rfl
  have hpositive : ∀ n, log.maxBytes = some n → 0 < n := fun n hn =>
    Option.some.inj hn ▸ Nat.one_pos
  have hname : IsName "audit.jsonl" := isName_of_bytes (by decide) (by decide)
  have hbackup : Nameable [] ("audit.jsonl" ++ ".1") :=
    ⟨isName_of_bytes (by decide) (by decide), by decide⟩
  have hstart := shows_nil hname
  have hfresh : log.Fresh default := fresh_of_isHome hfile hstart.home rfl rfl
  obtain ⟨hfirst, es, hshows⟩ :=
    append_of_shows_none hfile hstart.home.makeDirectories_eq hstart (.ofNat 0) _
  have hrun : Appends log default [[("event", .str "A")]] first.log first.top :=
    .append .start (.ofNat 0) _ hfirst
  have hsecond : second.written = true :=
    (append_of_shows ((append_log ..).1.trans hfile) hshows (.ofNat 1) _).1
  have hevents : ∀ e ∈ [[("event", Json.str "A")], [("event", .str "B")]],
      (Json.obj e).Writable := by
    simp only [List.forall_mem_cons]
    exact ⟨⟨by decide, by decide, by simp [Json.floats, Json.floatsOfMembers]⟩,
      ⟨by decide, by decide, by simp [Json.floats, Json.floatsOfMembers]⟩, by simp⟩
  obtain ⟨htells, lost, moved, before, heq, hkeeps, hroom, -⟩ := appends_keepTail
    hpositive hfresh hrun hsecond hevents
  have hrolls := hrun.rollsOver hfile hbackup hfresh hsecond
  exact ⟨htells, lost, moved, before, heq, hkeeps, hroom hrolls 1 rfl⟩

theorem utf8ByteSize_replicate (n : Nat) :
    (String.ofList (List.replicate n 'a')).utf8ByteSize = n := by
  induction n with
  | zero => rfl
  | succ n ih =>
    rw [List.replicate_succ, String.ofList_cons, String.utf8ByteSize_append, ih,
      String.utf8ByteSize_singleton, Nat.add_comm]
    rfl

/-- **A file passes the limit** when its name leaves no room for the mark of a backup: no roll over
succeeds, and the next line is written after the others. -/
theorem appends_past_limit :
    let log : AuditLog := ⟨[String.ofList (List.replicate 254 'a')], some 1, .ofNat 60, []⟩
    let first := log.append default (.ofNat 0) [("event", .str "A")]
    let second := first.log.append first.top (.ofNat 1) [("event", .str "B")]
    log.Fresh default ∧ first.written = true ∧ second.written = true ∧
      second.top.bytes? log.file =
        some (lines [[("event", .str "A")]] ++ (line [("event", .str "B")]).toUTF8) ∧
      1 ≤ (lines [[("event", .str "A")]]).size := by
  intro log first second
  have hfile : log.file = [] ++ [String.ofList (List.replicate 254 'a')] := rfl
  have hbytes := utf8ByteSize_replicate 254
  have hname : IsName (String.ofList (List.replicate 254 'a')) :=
    isName_of_bytes (by rw [hbytes]; decide) (by rw [hbytes]; decide)
  have hstart := shows_nil hname
  obtain ⟨hfirst, es, hshows⟩ :=
    append_of_shows_none hfile hstart.home.makeDirectories_eq hstart (.ofNat 0) _
  obtain ⟨hsecond, ⟨_, hafter, -⟩ | ⟨_, _, _, _, hafter⟩⟩ :=
    append_of_shows ((append_log ..).1.trans hfile) hshows (.ofNat 1) [("event", .str "B")]
  · refine ⟨fresh_of_isHome hfile hstart.home rfl rfl, hfirst, hsecond, ?_, by decide⟩
    rw [lines_singleton, hfile]
    exact hafter.bytes?_file
  · obtain ⟨hlong, -⟩ | ⟨-, hnone⟩ := hafter.backup
    · have hle := hlong.isName.le_bytes
      rw [String.utf8ByteSize_append, hbytes] at hle
      exact absurd hle (by decide)
    · cases hnone

end AuditLog
end Conventions
