import Conventions.Audit.Log
import Conventions.Proofs.Files.Home

/-!
# Proofs/Audit/Files — what an append does to the two files of a log

A log that has written a line has a directory with its file in there, and perhaps a backup beside it
(`Shows`). From then on every append is written. It puts its line after what the file has, or the whole
file is moved aside, over an older backup, and the line is the first of a new one (`append_of_shows`).
A roll over that fails leaves the files as they are, and the line goes where it would have gone without
a limit.
-/

namespace Conventions
namespace FileNode

variable {top : FileNode} {name : String} {dir here : List String}
  {es : List (String × FileNode)} {bytes : ByteArray} {kept aside : Option ByteArray}
  {now : Binary64}

/-! ## A file and its backup -/

theorem append_one_ne (name : String) : name ++ ".1" ≠ name := by
  intro heq
  have := congrArg String.length heq
  simp at this

/-- The name of a backup is one that a file may have. -/
theorem append_one_ne_dots (name : String) :
    ¬ (name ++ ".1" = "" ∨ name ++ ".1" = "." ∨ name ++ ".1" = "..") := by
  have hlast : (name ++ ".1").toList.getLast? = some '1' := by simp
  rintro (heq | heq | heq) <;> simp [heq] at hlast

/-- **A file and its backup** in the directory that a path leads to. A name that is too long stands for
no backup. -/
structure Shows (top : FileNode) (dir here : List String) (es : List (String × FileNode))
    (name : String) (kept aside : Option ByteArray) : Prop where
  home : IsHome top dir here es
  named : Nameable dir name
  file : HasFile es name kept
  backup : Nameable dir (name ++ ".1") ∧ HasFile es (name ++ ".1") aside ∨
    ¬ Nameable dir (name ++ ".1") ∧ aside = none

namespace Shows

theorem bytes?_file (h : Shows top dir here es name kept aside) :
    top.bytes? (dir ++ [name]) = kept :=
  h.home.bytes?_eq h.named h.file

theorem bytes?_backup (h : Shows top dir here es name kept aside) :
    top.bytes? (dir ++ [name ++ ".1"]) = aside := by
  obtain ⟨hname, hfile⟩ | ⟨hname, rfl⟩ := h.backup
  · exact h.home.bytes?_eq hname hfile
  · exact h.home.bytes?_eq_none (append_one_ne_dots name) hname

/-- **Writing the file** leaves the backup as it is. -/
theorem write (h : Shows top dir here es name kept aside) (bytes : ByteArray) (now : Binary64) :
    ∃ top' es', top.write (dir ++ [name]) bytes now = .ok top' ∧
      Shows top' dir here es' name (some bytes) aside := by
  refine ⟨_, FileNode.setEntry name (.file bytes now) es, h.home.write_eq h.named h.file, ?_⟩
  refine ⟨h.home.put h.file.keepsEntries_setEntry, h.named, hasFile_setEntry now, ?_⟩
  exact h.backup.imp_left fun hbackup => ⟨hbackup.1, hbackup.2.setEntry (append_one_ne name)⟩

/-- **Moving the file aside** makes it the backup, whatever backup there was. -/
theorem move (h : Shows top dir here es name (some bytes) aside)
    (hname : Nameable dir (name ++ ".1")) :
    ∃ top' es', top.move (dir ++ [name]) (dir ++ [name ++ ".1"]) = .ok top' ∧
      Shows top' dir here es' name none (some bytes) := by
  obtain ⟨modified, hchild⟩ := h.file
  have hbackup : HasFile es (name ++ ".1") aside :=
    (h.backup.resolve_right fun hlong => hlong.1 hname).2
  -- The rename first takes the file away, then sets the backup: each changes a file only.
  have hrest : HasFile (es.filter fun e => e.1 != name) (name ++ ".1") aside :=
    hbackup.congr (by rw [child?_filter, if_neg (append_one_ne name)])
  have hkeeps : KeepsEntries es (FileNode.setEntry (name ++ ".1") (.file bytes modified)
      (es.filter fun e => e.1 != name)) := fun name' n hn hnofile =>
    hrest.keepsEntries_setEntry name' n (h.file.keepsEntries_filter name' n hn hnofile) hnofile
  refine ⟨_, _, h.home.move_eq h.named hname hchild hbackup, h.home.put hkeeps, h.named,
    ?_, .inl ⟨hname, hasFile_setEntry modified⟩⟩
  exact hasFile_filter.setEntry (append_one_ne name).symm

end Shows

/-- An empty directory at the top has neither file. -/
theorem shows_nil (hname : IsName name) : Shows (directory []) [] [] [] name none none where
  home := ⟨.here .., rfl, Nat.zero_le _⟩
  named := by
    refine ⟨hname, ?_⟩
    have hle := hname.le_bytes
    simp only [pathBytes, List.nil_append, List.foldr_cons, List.foldr_nil, mostPathBytes,
      mostNameBytes] at hle ⊢
    omega
  file := rfl
  backup := (em _).imp (fun hbackup => ⟨hbackup, rfl⟩) fun hlong => ⟨hlong, rfl⟩

/-- **A new file** that is written stands in a directory, without a backup if none was there. -/
theorem exists_shows_of_write {top' : FileNode}
    (hwrite : top.write (dir ++ [name]) bytes now = .ok top') (hfile : top.Absent (dir ++ [name]))
    (hbackup : top.Absent (dir ++ [name ++ ".1"])) :
    ∃ here es, Shows top dir here es name none none := by
  obtain ⟨here, es, hhome, hnamed, hchild⟩ := exists_isHome_of_write hwrite hfile
  refine ⟨here, es, hhome, hnamed, hchild, ?_⟩
  by_cases hname : Nameable dir (name ++ ".1")
  · refine .inl ⟨hname, ?_⟩
    rw [HasFile, ← hhome.standing?_cons]
    exact hbackup _ (hhome.placeOf_eq hname)
  · exact .inr ⟨hname, rfl⟩

end FileNode

namespace AuditLog

open FileNode

variable {log : AuditLog} {top made top' : FileNode} {name : String} {dir here : List String}
  {es : List (String × FileNode)} {bytes : ByteArray} {kept aside : Option ByteArray}
  {now : Binary64} {e : List (String × Json)}

/-! ## An append and its steps -/

theorem backup_eq (hfile : log.file = dir ++ [name]) : log.backup = dir ++ [name ++ ".1"] := by
  rw [backup, hfile, List.dropLast_concat, List.getLast?_concat, Option.getD_some]

@[simp] theorem warn_file (trouble : AuditTrouble) : (log.warn trouble now).1.file = log.file := by
  unfold warn
  split <;> rfl

@[simp] theorem warn_maxBytes (trouble : AuditTrouble) :
    (log.warn trouble now).1.maxBytes = log.maxBytes := by
  unfold warn
  split <;> rfl

/-- An append changes nothing of a log but the times of its warnings. -/
theorem append_log (log : AuditLog) (top : FileNode) (now : Binary64) (e : List (String × Json)) :
    (log.append top now e).log.file = log.file ∧
      (log.append top now e).log.maxBytes = log.maxBytes := by
  cases hmade : top.makeDirectories log.file.dropLast with
  | error fault => simp [append, hmade]
  | ok made =>
    cases hrolled : log.rollOver made with
    | ok rolled =>
      cases hwrite : log.writeLine rolled (line e) now <;> simp [append, hmade, hrolled, hwrite]
    | error fault =>
      cases hwrite : (log.warn .rotate now).1.writeLine made (line e) now <;>
        simp [append, hmade, hrolled, hwrite]

/-- **The tree after a roll over**, as it was if that failed. -/
def rolledOver (log : AuditLog) (top : FileNode) : FileNode := (log.rollOver top).toOption.getD top

theorem writeLine_warn (trouble : AuditTrouble) (line : String) :
    (log.warn trouble now).1.writeLine top line now = log.writeLine top line now := by
  rw [writeLine, warn_file, writeLine]

/-- **A line is written** when the directory is there and the file takes it. -/
theorem append_of_writeLine (hmade : top.makeDirectories log.file.dropLast = .ok made)
    (hwrite : log.writeLine (log.rolledOver made) (line e) now = .ok top') :
    (log.append top now e).written = true ∧ (log.append top now e).top = top' := by
  rw [rolledOver] at hwrite
  cases hrolled : log.rollOver made with
  | ok rolled =>
    rw [hrolled] at hwrite
    have hrest : log.writeLine rolled (line e) now = .ok top' := hwrite
    simp [append, hmade, hrolled, hrest]
  | error fault =>
    rw [hrolled] at hwrite
    have hrest : (log.warn .rotate now).1.writeLine made (line e) now = .ok top' :=
      (writeLine_warn ..).trans hwrite
    simp [append, hmade, hrolled, hrest]

theorem exists_writeLine_of_written (h : (log.append top now e).written = true) :
    ∃ made top', top.makeDirectories log.file.dropLast = .ok made ∧
      log.writeLine (log.rolledOver made) (line e) now = .ok top' := by
  cases hmade : top.makeDirectories log.file.dropLast with
  | error fault => simp [append, hmade] at h
  | ok made =>
    refine ⟨made, ?_⟩
    rw [rolledOver]
    cases hrolled : log.rollOver made with
    | ok rolled =>
      cases hwrite : log.writeLine rolled (line e) now with
      | ok top' => exact ⟨top', rfl, hwrite⟩
      | error fault => simp [append, hmade, hrolled, hwrite] at h
    | error fault =>
      cases hwrite : log.writeLine made (line e) now with
      | ok top' => exact ⟨top', rfl, hwrite⟩
      | error fault =>
        have hrest : (log.warn .rotate now).1.writeLine made (line e) now = .error fault :=
          (writeLine_warn ..).trans hwrite
        simp [append, hmade, hrolled, hrest] at h

/-! ## Appends to a log that shows its files -/

theorem writeLine_of_shows (hfile : log.file = dir ++ [name])
    (h : Shows top dir here es name kept aside) (line : String) (now : Binary64) :
    ∃ top' es', log.writeLine top line now = .ok top' ∧
      Shows top' dir here es' name (some (kept.getD .empty ++ line.toUTF8)) aside := by
  rw [writeLine, hfile]
  cases kept with
  | none =>
    have hreach := h.home.reach_eq h.named fun target heq => nomatch h.file.symm.trans heq
    have hchild : (directory es).child? name = none := h.file
    rw [FileNode.content, hreach, hchild, Option.getD_none, ByteArray.empty_append]
    exact h.write _ now
  | some bytes =>
    obtain ⟨modified, hchild⟩ := h.file
    rw [h.home.content_eq h.named hchild]
    exact h.write _ now

/-- **A file that is not there** has room. -/
theorem rollOver_of_none (hfile : log.file = dir ++ [name])
    (h : Shows top dir here es name none aside) : log.rollOver top = .ok top := by
  have hreach := h.home.reach_eq h.named fun target heq => nomatch h.file.symm.trans heq
  have hchild : (directory es).child? name = none := h.file
  rw [hchild] at hreach
  rw [rollOver]
  cases log.maxBytes with
  | none => rfl
  | some limit =>
    have hsize : top.sizeAt log.file = .error .missing := by rw [sizeAt, hfile, hreach]; rfl
    rw [hsize]
    rfl

/-- **What a roll over does**: nothing while the file has room; else it moves the file, or fails when
the name of the backup is too long. -/
theorem rollOver_of_some (hfile : log.file = dir ++ [name])
    (h : Shows top dir here es name (some bytes) aside) :
    ((∀ n, log.maxBytes = some n → bytes.size < n) ∧ log.rollOver top = .ok top) ∨
      (∃ n, log.maxBytes = some n ∧ n ≤ bytes.size) ∧
        ((∃ top' es', log.rollOver top = .ok top' ∧
            Shows top' dir here es' name none (some bytes)) ∨
          ¬ Nameable dir (name ++ ".1") ∧ log.rollOver top = .error .nameTooLong) := by
  have hsize : top.sizeAt log.file = .ok bytes.size := by
    obtain ⟨modified, hchild⟩ := h.file
    have hreach := h.home.reach_eq h.named fun target heq => nomatch hchild.symm.trans heq
    rw [hchild] at hreach
    rw [sizeAt, hfile, hreach]
    rfl
  rw [rollOver]
  cases hmax : log.maxBytes with
  | none => exact .inl ⟨fun _ heq => (nomatch heq), rfl⟩
  | some limit =>
    simp only [hsize]
    by_cases hroom : bytes.size < limit
    · refine .inl ⟨fun n heq => Option.some.inj heq ▸ hroom, ?_⟩
      simp [bind, Except.bind, hroom]
    · refine .inr ⟨⟨limit, rfl, Nat.le_of_not_lt hroom⟩, ?_⟩
      rw [backup_eq hfile, hfile]
      by_cases hname : Nameable dir (name ++ ".1")
      · obtain ⟨top', es', hmove, hshows⟩ := h.move hname
        refine .inl ⟨top', es', ?_, hshows⟩
        simp [bind, Except.bind, hroom, hmove]
      · refine .inr ⟨hname, ?_⟩
        have haside := h.home.placeOf_eq_error (append_one_ne_dots name) hname
        simp [bind, Except.bind, hroom, FileNode.move, h.home.placeOf_eq h.named, haside]

/-- **A roll over that meets no trouble** before a line is written. -/
def RollsOver (log : AuditLog) (top : FileNode) : Prop :=
  ∀ made, top.makeDirectories log.file.dropLast = .ok made → (log.rollOver made).isOk = true

/-- A roll over meets no trouble if the backup may have its name. -/
theorem rollsOver_of_nameable (hfile : log.file = dir ++ [name])
    (h : Shows top dir here es name (some bytes) aside) (hname : Nameable dir (name ++ ".1")) :
    log.RollsOver top := by
  intro made hmade
  rw [hfile, List.dropLast_concat, h.home.makeDirectories_eq] at hmade
  cases hmade
  obtain ⟨-, hrolled⟩ | ⟨-, ⟨_, _, hrolled, -⟩ | ⟨hlong, -⟩⟩ := rollOver_of_some hfile h
  · rw [hrolled]
    rfl
  · rw [hrolled]
    rfl
  · exact absurd hname hlong

/-- **Every append to a log that shows its files is written.** Its line comes after the others of the
file, which have room for it unless the roll over met trouble. Or the file, which is full, is moved aside
whole. -/
theorem append_of_shows (hfile : log.file = dir ++ [name])
    (h : Shows top dir here es name (some bytes) aside) (now : Binary64)
    (e : List (String × Json)) : (log.append top now e).written = true ∧
      ((∃ es', Shows (log.append top now e).top dir here es' name
          (some (bytes ++ (line e).toUTF8)) aside ∧
            (log.RollsOver top → ∀ n, log.maxBytes = some n → bytes.size < n)) ∨
        ∃ es' n, log.maxBytes = some n ∧ n ≤ bytes.size ∧
          Shows (log.append top now e).top dir here es' name (some (line e).toUTF8)
            (some bytes)) := by
  have hmade : top.makeDirectories log.file.dropLast = .ok top := by
    rw [hfile, List.dropLast_concat]
    exact h.home.makeDirectories_eq
  obtain ⟨hroom, hrolled⟩ | ⟨⟨n, hmax, hfull⟩, ⟨rolled, es', hrolled, hmoved⟩ | ⟨-, hrolled⟩⟩ :=
    rollOver_of_some hfile h
  · obtain ⟨top', es', hwrite, hshows⟩ := writeLine_of_shows hfile h (line e) now
    have hthere : log.rolledOver top = top := by rw [rolledOver, hrolled]; rfl
    obtain ⟨hwritten, rfl⟩ := append_of_writeLine hmade (hthere.symm ▸ hwrite)
    exact ⟨hwritten, .inl ⟨es', hshows, fun _ => hroom⟩⟩
  · obtain ⟨top', es', hwrite, hshows⟩ := writeLine_of_shows hfile hmoved (line e) now
    have hthere : log.rolledOver top = rolled := by rw [rolledOver, hrolled]; rfl
    obtain ⟨hwritten, rfl⟩ := append_of_writeLine hmade (hthere.symm ▸ hwrite)
    rw [Option.getD_none, ByteArray.empty_append] at hshows
    exact ⟨hwritten, .inr ⟨es', n, hmax, hfull, hshows⟩⟩
  · obtain ⟨top', es', hwrite, hshows⟩ := writeLine_of_shows hfile h (line e) now
    have hthere : log.rolledOver top = top := by rw [rolledOver, hrolled]; rfl
    obtain ⟨hwritten, rfl⟩ := append_of_writeLine hmade (hthere.symm ▸ hwrite)
    refine ⟨hwritten, .inl ⟨es', hshows, fun hrolls => ?_⟩⟩
    have hok := hrolls top hmade
    rw [hrolled] at hok
    cases hok

/-! ## The first append -/

/-- **No file and no backup** of a log is there, once its directory is. -/
def Fresh (log : AuditLog) (top : FileNode) : Prop :=
  ∀ made, top.makeDirectories log.file.dropLast = .ok made →
    made.Absent log.file ∧ made.Absent log.backup

/-- A file that is not there is not moved. -/
theorem move_of_absent {path : List String} (h : made.Absent path) (target : List String) :
    ∃ fault, made.move path target = .error fault := by
  rw [FileNode.move]
  cases hplace : made.placeOf path with
  | error fault => exact ⟨fault, rfl⟩
  | ok place =>
    cases made.placeOf target with
    | error fault => exact ⟨fault, rfl⟩
    | ok aside =>
      have hnone : made.at? place.reverse = none := h place hplace
      exact ⟨.missing, by simp [bind, Except.bind, rename, hnone]⟩

theorem rolledOver_of_absent (h : made.Absent log.file) : log.rolledOver made = made := by
  rw [rolledOver, rollOver]
  cases log.maxBytes with
  | none => rfl
  | some limit =>
    cases hsize : made.sizeAt log.file with
    | error fault => cases fault <;> rfl
    | ok size =>
      by_cases hroom : size < limit
      · simp [bind, Except.bind, hroom, Except.toOption]
      · obtain ⟨fault, hmove⟩ := move_of_absent h log.backup
        cases fault <;> simp [bind, Except.bind, hroom, hmove, Except.toOption]

/-- The place at the top takes no file. -/
theorem write_nil_ne_ok (hmade : top.makeDirectories [] = .ok made) :
    made.write [] bytes now ≠ .ok top' := by
  have hreach : top.reach [] = .ok top := by simp [reach, pathBytes, follow, at?]
  have hmake : top.makeDirectories [] = top.makeDirectory [] := by
    simp [makeDirectories]
  rw [hmake, makeDirectory, hreach] at hmade
  cases top with
  | directory es =>
    obtain rfl : directory es = made := Except.ok.inj hmade
    simp [FileNode.write, pathBytes, follow, standing?, at?]
  | file => cases hmade
  | link => cases hmade

/-- **A first line that is written** is written where neither file is. -/
theorem exists_shows_of_writeLine (hfresh : log.Fresh top)
    (hmade : top.makeDirectories log.file.dropLast = .ok made)
    (hwrite : log.writeLine (log.rolledOver made) (line e) now = .ok top') :
    ∃ dir name here es, log.file = dir ++ [name] ∧ Shows made dir here es name none none := by
  obtain ⟨hfile, hbackup⟩ := hfresh made hmade
  rw [rolledOver_of_absent hfile] at hwrite
  -- Whatever was read before, something was written, so the path leads into a directory.
  obtain ⟨bytes, hbytes⟩ : ∃ bytes, made.write log.file bytes now = .ok top' := by
    rw [writeLine] at hwrite
    split at hwrite
    · exact ⟨_, hwrite⟩
    · exact ⟨_, hwrite⟩
    · cases hwrite
  obtain hnil | ⟨dir, name, heq⟩ := List.eq_nil_or_concat log.file
  · rw [hnil] at hmade hbytes
    exact absurd hbytes (write_nil_ne_ok hmade)
  · rw [List.concat_eq_append] at heq
    rw [heq] at hbytes hfile
    rw [backup_eq heq] at hbackup
    obtain ⟨here, es, hshows⟩ := exists_shows_of_write hbytes hfile hbackup
    exact ⟨dir, name, here, es, heq, hshows⟩

/-- **What the first append leaves**: a file with its line, and no backup. -/
theorem append_of_shows_none (hfile : log.file = dir ++ [name])
    (hmade : top.makeDirectories log.file.dropLast = .ok made)
    (h : Shows made dir here es name none none) (now : Binary64) (e : List (String × Json)) :
    (log.append top now e).written = true ∧ ∃ es', Shows (log.append top now e).top dir here es' name
      (some (line e).toUTF8) none := by
  obtain ⟨top', es', hwrite, hshows⟩ := writeLine_of_shows hfile h (line e) now
  have hthere : log.rolledOver made = made := by rw [rolledOver, rollOver_of_none hfile h]; rfl
  obtain ⟨hwritten, rfl⟩ := append_of_writeLine hmade (hthere.symm ▸ hwrite)
  rw [Option.getD_none, ByteArray.empty_append] at hshows
  exact ⟨hwritten, es', hshows⟩

theorem exists_shows_of_written (hfresh : log.Fresh top)
    (h : (log.append top now e).written = true) : ∃ dir name here es, log.file = dir ++ [name] ∧
      Shows (log.append top now e).top dir here es name (some (line e).toUTF8) none := by
  obtain ⟨made, top', hmade, hwrite⟩ := exists_writeLine_of_written h
  obtain ⟨dir, name, here, es, hfile, hshows⟩ := exists_shows_of_writeLine hfresh hmade hwrite
  obtain ⟨-, es', hafter⟩ := append_of_shows_none hfile hmade hshows now e
  exact ⟨dir, name, here, es', hfile, hafter⟩

/-- The first roll over has nothing to move. -/
theorem rollsOver_of_fresh (hfresh : log.Fresh top) (h : (log.append top now e).written = true) :
    log.RollsOver top := by
  intro made hmade
  obtain ⟨_, top', hmade', hwrite⟩ := exists_writeLine_of_written h
  cases hmade.symm.trans hmade'
  obtain ⟨_, _, _, _, hfile, hshows⟩ := exists_shows_of_writeLine hfresh hmade hwrite
  rw [rollOver_of_none hfile hshows]
  rfl

/-- **A directory without the two files** is one to start in. -/
theorem fresh_of_isHome (hfile : log.file = dir ++ [name]) (h : IsHome top dir here es)
    (hname : (directory es).child? name = none)
    (hbackup : (directory es).child? (name ++ ".1") = none) : log.Fresh top := by
  intro made hmade
  rw [hfile, List.dropLast_concat, h.makeDirectories_eq] at hmade
  cases hmade
  rw [backup_eq hfile, hfile]
  exact ⟨h.absent hname, h.absent hbackup⟩

end AuditLog
end Conventions
