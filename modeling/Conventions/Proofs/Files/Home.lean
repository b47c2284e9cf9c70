import Conventions.Proofs.Files.Write
import Conventions.Scan.Host

/-!
# Proofs/Files/Home — what is done in a directory that a path leads to

A path that leads to a directory still does so after files in this directory were written, moved and
removed: no directory and no link of the tree is touched by that (`keepsWays_put`). So one directory
can be followed through many such changes, and each of them is a change of its entries
(`IsHome.write_eq`, `IsHome.move_eq`). A path that is seen from a directory of the tree has a place if
there is something to read at its end (`Host.exists_locate`).
-/

namespace Conventions
namespace FileNode

variable {n top top' new : FileNode} {name name' : String} {p q here : List String}
  {es es' : List (String × FileNode)} {kept : Option ByteArray}

/-! ## The entries of a directory -/

theorem child?_filter (name' : String) : (directory (es.filter fun e => e.1 != name)).child? name' =
    if name' = name then none else (directory es).child? name' := by
  simp only [child?, entries]
  induction es with
  | nil => simp
  | cons e es ih =>
    by_cases he : e.1 = name
    · by_cases hname : name' = name
      · simp [hname]
      · have hne : e.1 ≠ name' := fun heq => hname (heq.symm.trans he)
        simpa [he, hname, hne, Ne.symm hname] using ih
    · by_cases hname : e.1 = name'
      · have hne : name' ≠ name := fun heq => he (hname.trans heq)
        simp [hname, hne]
      · simpa [he, hname] using ih

theorem setEntry_setEntry (m : FileNode) :
    setEntry name new (setEntry name m es) = setEntry name new es := by
  induction es with
  | nil => simp [setEntry]
  | cons e es ih => by_cases he : e.1 = name <;> simp [setEntry, he, ih]

theorem put_put (m : FileNode) : (n.put q m).put q new = n.put q new := by
  induction q generalizing n with
  | nil => rfl
  | cons name q ih =>
    have hchild : ((n.put (name :: q) m).child? name).getD default =
        ((n.child? name).getD default).put q m := by
      rw [child?_put, if_pos rfl, Option.getD_some]
    rw [put, hchild, ih, put, put, entries, setEntry_setEntry]

/-- Something is put into a directory by putting the directory with it. -/
theorem put_concat (h : n.at? q = some (directory es)) :
    n.put (q ++ [name]) new = n.put q (directory (setEntry name new es)) := by
  induction q generalizing n with
  | nil =>
    cases h
    rfl
  | cons name' q ih =>
    obtain ⟨c, hc, hrest⟩ := Option.bind_eq_some_iff.1 h
    rw [List.cons_append, put, put, hc, Option.getD_some, ih hrest]

/-- Something is removed from a directory by putting the directory without it. -/
theorem remove_concat (h : n.at? q = some (directory es)) :
    n.remove (q ++ [name]) = n.put q (directory (es.filter fun e => e.1 != name)) := by
  induction q generalizing n with
  | nil =>
    cases h
    rfl
  | cons name' q ih =>
    obtain ⟨c, hc, hrest⟩ := Option.bind_eq_some_iff.1 h
    rw [List.cons_append, remove, hc, put, hc, Option.getD_some]
    · simp only [ih hrest]
    · simp

/-! ## Ways through a tree -/

/-- **Directories and links stay** what they are. -/
structure KeepsWays (top top' : FileNode) : Prop where
  directory : ∀ {q : List String} {es : List (String × FileNode)},
    top.at? q = some (directory es) → ∃ es', top'.at? q = some (FileNode.directory es')
  link : ∀ {q : List String} {target : String},
    top.at? q = some (link target) → top'.at? q = some (link target)

/-- **What is no file stays in a directory.** -/
def KeepsEntries (es es' : List (String × FileNode)) : Prop :=
  ∀ name n, (directory es).child? name = some n → (∀ content modified, n ≠ file content modified) →
    (directory es').child? name = some n

/-- What is no file is where it was, below a directory whose files change. -/
theorem at?_put_below {m : FileNode} (h : top.at? p = some (directory es))
    (hkeeps : KeepsEntries es es') (hm : ∀ content modified, m ≠ file content modified)
    (hat : top.at? (p ++ name :: q) = some m) :
    (top.put p (directory es')).at? (p ++ name :: q) = some m := by
  rw [at?_append, h, Option.bind_some, at?] at hat
  obtain ⟨c, hc, hrest⟩ := Option.bind_eq_some_iff.1 hat
  have hfile : ∀ content modified, c ≠ file content modified := by
    rintro content modified rfl
    cases q with
    | nil => exact hm _ _ (Option.some.inj hrest).symm
    | cons => cases hrest
  rw [at?_append, at?_put_self, Option.bind_some, at?, hkeeps name c hc hfile, Option.bind_some,
    hrest]

/-- **Files of a directory may change** without a directory or a link of the tree changing. -/
theorem keepsWays_put (h : top.at? p = some (directory es)) (hkeeps : KeepsEntries es es') :
    KeepsWays top (top.put p (directory es')) where
  directory := by
    intro q es'' hat
    have hfile : ∀ content modified, FileNode.directory es'' ≠ file content modified := by
      intro _ _ heq
      cases heq
    -- The place is in the directory that changes, on the way to it, or off this way.
    by_cases hpq : p <+: q
    · obtain ⟨_ | ⟨name, r⟩, rfl⟩ := hpq
      · exact ⟨es', by rw [List.append_nil, at?_put_self]⟩
      · exact ⟨es'', at?_put_below h hkeeps hfile hat⟩
    · by_cases hqp : q <+: p
      · obtain ⟨_ | ⟨name, r⟩, rfl⟩ := hqp
        · exact absurd (by simp) hpq
        · exact ⟨_, by rw [at?_put_append, put]⟩
      · exact ⟨es'', (at?_put_off hqp hpq).trans hat⟩
  link := by
    intro q target hat
    have hfile : ∀ content modified, FileNode.link target ≠ file content modified := by
      intro _ _ heq
      cases heq
    by_cases hpq : p <+: q
    · obtain ⟨_ | ⟨name, r⟩, rfl⟩ := hpq
      · rw [List.append_nil, h] at hat
        cases hat
      · exact at?_put_below h hkeeps hfile hat
    · by_cases hqp : q <+: p
      · obtain ⟨_ | ⟨name, r⟩, rfl⟩ := hqp
        · exact absurd (by simp) hpq
        · rw [at?_append, hat, Option.bind_some] at h
          cases h
      · exact (at?_put_off hqp hpq).trans hat

/-- A path to a directory starts in one. -/
theorem Leads.starts {creating : Bool} {links : Nat} {path place : List String}
    (h : Leads top creating links here path place)
    (hplace : top.standing? place = some (directory es)) :
    ∃ es', top.standing? here = some (directory es') := by
  cases h with
  | here => exact ⟨es, hplace⟩
  | same hhere => exact ⟨_, hhere⟩
  | up hhere => exact ⟨_, hhere⟩
  | created hhere => exact ⟨_, hhere⟩
  | link hhere => exact ⟨_, hhere⟩
  | down hhere => exact ⟨_, hhere⟩

/-- **A path to a directory leads there as long as the ways stay.** -/
theorem Leads.keeps {links : Nat} {path place : List String} (hways : KeepsWays top top')
    (h : Leads top false links here path place)
    (hplace : top.standing? place = some (directory es)) :
    Leads top' false links here path place := by
  induction h with
  | here => exact .here ..
  | same hhere hname h ih =>
    obtain ⟨_, hhere'⟩ := hways.directory hhere
    exact .same hhere' hname (ih hplace)
  | up hhere h ih =>
    obtain ⟨_, hhere'⟩ := hways.directory hhere
    exact .up hhere' (ih hplace)
  | created _ _ _ hcreating => cases hcreating
  | link hhere hname hlink h ih =>
    obtain ⟨_, hhere'⟩ := hways.directory hhere
    exact .link hhere' hname (hways.link hlink) (ih hplace)
  | down hhere hname hnode hlink h ih =>
    obtain ⟨_, hhere'⟩ := hways.directory hhere
    obtain ⟨_, hnode⟩ := h.starts hplace
    obtain ⟨_, hnode'⟩ := hways.directory hnode
    exact .down hhere' hname hnode' (fun target heq => nomatch heq) (ih hplace)

/-- **A path is followed from where its first part leads to.** -/
theorem Leads.follow_append {creating : Bool} {links : Nat} {path middle : List String}
    (h : Leads top false links here path middle) (more : List String) : ∃ links',
      follow top creating links here (path ++ more) = follow top creating links' middle more := by
  induction h with
  | here links => exact ⟨links, rfl⟩
  | same hhere hname h ih =>
    rw [List.cons_append, follow, hhere]
    simp only [hname, if_true]
    exact ih
  | up hhere h ih =>
    have hsame : ¬ (".." = "" ∨ ".." = ".") := by decide
    rw [List.cons_append, follow, hhere]
    simp only [hsame, if_false, if_true]
    exact ih
  | created _ _ _ hcreating => cases hcreating
  | link hhere hname hlink h ih =>
    rw [List.cons_append, follow, hhere]
    simp only [hname.ne_same, hname.ne_up, Nat.not_lt.2 hname.le_bytes, if_false, hlink]
    rw [← List.append_assoc]
    exact ih
  | @down _ _ _ _ _ node _ hhere hname hnode hlink h ih =>
    rw [List.cons_append, follow, hhere]
    simp only [hname.ne_same, hname.ne_up, Nat.not_lt.2 hname.le_bytes, if_false, hnode]
    cases node with
    | link target => exact absurd rfl (hlink target)
    | _ => exact ih

theorem Leads.append {creating : Bool} {links : Nat} {path more middle place : List String}
    (h : Leads top false links here path middle)
    (hmore : ∀ links, Leads top creating links middle more place) :
    Leads top creating links here (path ++ more) place := by
  obtain ⟨links', hfollow⟩ := h.follow_append more
  exact leads_of_follow (hfollow.trans (hmore links').follow_eq)

/-- **A path leads through directories**: the first part of a path leads to one. -/
theorem Leads.split {creating : Bool} {links : Nat} {path more place : List String}
    (h : Leads top creating links here (path ++ more) place) (hmore : more ≠ []) :
    ∃ middle es links', Leads top false links here path middle ∧
      top.standing? middle = some (directory es) ∧ Leads top creating links' middle more place := by
  generalize hwhole : path ++ more = whole at h
  induction h generalizing path with
  | here => exact absurd (List.append_eq_nil_iff.1 hwhole).2 hmore
  | same hhere hname h ih =>
    cases path with
    | nil =>
      obtain rfl : more = _ :: _ := hwhole
      exact ⟨_, _, _, .here .., hhere, .same hhere hname h⟩
    | cons name path =>
      obtain ⟨rfl, rfl⟩ := List.cons.inj hwhole
      obtain ⟨middle, es, links', hpath, hmiddle, hrest⟩ := ih rfl
      exact ⟨middle, es, links', .same hhere hname hpath, hmiddle, hrest⟩
  | up hhere h ih =>
    cases path with
    | nil =>
      obtain rfl : more = _ :: _ := hwhole
      exact ⟨_, _, _, .here .., hhere, .up hhere h⟩
    | cons name path =>
      obtain ⟨rfl, rfl⟩ := List.cons.inj hwhole
      obtain ⟨middle, es, links', hpath, hmiddle, hrest⟩ := ih rfl
      exact ⟨middle, es, links', .up hhere hpath, hmiddle, hrest⟩
  | created hhere hname hmissing hcreating =>
    cases path with
    | nil =>
      obtain rfl : more = [_] := hwhole
      exact ⟨_, _, 0, .here .., hhere, .created hhere hname hmissing hcreating⟩
    | cons name path =>
      exact absurd (List.append_eq_nil_iff.1 (List.cons.inj hwhole).2).2 hmore
  | link hhere hname hlink h ih =>
    cases path with
    | nil =>
      obtain rfl : more = _ :: _ := hwhole
      exact ⟨_, _, _, .here .., hhere, .link hhere hname hlink h⟩
    | cons name path =>
      obtain ⟨rfl, rfl⟩ := List.cons.inj hwhole
      obtain ⟨middle, es, links', hpath, hmiddle, hrest⟩ := ih (List.append_assoc ..)
      exact ⟨middle, es, links', .link hhere hname hlink hpath, hmiddle, hrest⟩
  | down hhere hname hnode hlink h ih =>
    cases path with
    | nil =>
      obtain rfl : more = _ :: _ := hwhole
      exact ⟨_, _, _, .here .., hhere, .down hhere hname hnode hlink h⟩
    | cons name path =>
      obtain ⟨rfl, rfl⟩ := List.cons.inj hwhole
      obtain ⟨middle, es, links', hpath, hmiddle, hrest⟩ := ih rfl
      exact ⟨middle, es, links', .down hhere hname hnode hlink hpath, hmiddle, hrest⟩

/-! ## Files of a directory -/

/-- **What a directory has of a name**: a file with some bytes, or nothing. -/
def HasFile (es : List (String × FileNode)) (name : String) : Option ByteArray → Prop
  | none => (directory es).child? name = none
  | some bytes => ∃ modified, (directory es).child? name = some (file bytes modified)

theorem HasFile.of_child? (h : HasFile es name kept) (m : FileNode)
    (hm : (directory es).child? name = some m) : ∃ content modified, m = file content modified := by
  cases kept with
  | none => cases h.symm.trans hm
  | some bytes =>
    obtain ⟨modified, hchild⟩ := h
    exact ⟨bytes, modified, Option.some.inj (hm.symm.trans hchild)⟩

theorem HasFile.congr {es' : List (String × FileNode)} (h : HasFile es name kept)
    (heq : (directory es').child? name = (directory es).child? name) : HasFile es' name kept := by
  cases kept with
  | none => exact heq.trans h
  | some bytes =>
    obtain ⟨modified, hchild⟩ := h
    exact ⟨modified, heq.trans hchild⟩

theorem hasFile_setEntry (modified : Binary64) :
    HasFile (setEntry name (file bytes modified) es) name (some bytes) :=
  ⟨modified, by rw [child?_setEntry, if_pos rfl]⟩

theorem HasFile.setEntry {m : FileNode} (h : HasFile es name' kept) (hne : name' ≠ name) :
    HasFile (setEntry name m es) name' kept :=
  h.congr (by rw [child?_setEntry, if_neg hne])

theorem hasFile_filter : HasFile (es.filter fun e => e.1 != name) name none := by
  rw [HasFile, child?_filter, if_pos rfl]

/-- What is no file stays when a file is written, -/
theorem HasFile.keepsEntries_setEntry {m : FileNode} (h : HasFile es name kept) :
    KeepsEntries es (FileNode.setEntry name m es) := by
  intro name' n hn hfile
  have hne : name' ≠ name := by
    rintro rfl
    obtain ⟨content, modified, rfl⟩ := h.of_child? n hn
    exact hfile content modified rfl
  rw [child?_setEntry, if_neg hne, hn]

/-- and when one is removed. -/
theorem HasFile.keepsEntries_filter (h : HasFile es name kept) :
    KeepsEntries es (es.filter fun e => e.1 != name) := by
  intro name' n hn hfile
  have hne : name' ≠ name := by
    rintro rfl
    obtain ⟨content, modified, rfl⟩ := h.of_child? n hn
    exact hfile content modified rfl
  rw [child?_filter, if_neg hne, hn]

/-! ## A directory and its path -/

/-- **A path leads to a directory** with some entries; the names of its place have the last one first. -/
structure IsHome (top : FileNode) (path here : List String) (es : List (String × FileNode)) :
    Prop where
  leads : Leads top false mostLinks [] path here
  standing : top.standing? here = some (directory es)
  bytes : pathBytes path ≤ mostPathBytes

theorem pathBytes_append (p q : List String) : pathBytes (p ++ q) = pathBytes p + pathBytes q := by
  induction p with
  | nil => simp [pathBytes]
  | cons name p ih =>
    simp only [pathBytes, List.cons_append, List.foldr_cons] at ih ⊢
    omega

/-- A path to something in a directory is not too long, and neither is the last name. -/
structure Nameable (path : List String) (name : String) : Prop where
  isName : IsName name
  bytes : pathBytes (path ++ [name]) ≤ mostPathBytes

/-- What else may be wrong with a name that is no mark for a directory: it is too long, or the path is. -/
theorem exceeds_of_not_nameable {path : List String}
    (hdots : ¬ (name = "" ∨ name = "." ∨ name = "..")) (h : ¬ Nameable path name) :
    mostPathBytes < pathBytes (path ++ [name]) ∨ mostNameBytes < name.utf8ByteSize := by
  by_contra hfits
  obtain ⟨hbytes, hle⟩ := not_or.1 hfits
  refine h ⟨⟨fun hsame => hdots (hsame.imp_right .inl), fun hup => hdots (.inr (.inr hup)), ?_⟩,
    Nat.le_of_not_lt hbytes⟩
  exact Nat.le_of_not_lt hle

/-- A name of more bytes than those of the marks for directories. -/
theorem isName_of_bytes (hmore : 2 < name.utf8ByteSize) (hle : name.utf8ByteSize ≤ mostNameBytes) :
    IsName name where
  ne_same := by
    rintro (rfl | rfl)
    · exact absurd hmore (by decide)
    · exact absurd hmore (by decide)
  ne_up := by
    rintro rfl
    exact absurd hmore (by decide)
  le_bytes := hle

/-- **The bytes that a path leads to**, if it leads to a file. -/
def bytes? (top : FileNode) (path : List String) : Option ByteArray :=
  (top.content path).toOption.map (·.1)

namespace IsHome

variable {path : List String} {content : ByteArray} {modified : Binary64} {m : FileNode}

/-- **The entries of the directory may change**, apart from directories and links. -/
theorem put (h : IsHome top path here es) (hkeeps : KeepsEntries es es') :
    IsHome (top.put here.reverse (directory es')) path here es' where
  leads := h.leads.keeps (keepsWays_put h.standing hkeeps) h.standing
  standing := at?_put_self top here.reverse
  bytes := h.bytes

theorem standing?_cons (h : IsHome top path here es) (name : String) :
    top.standing? (name :: here) = (directory es).child? name := by
  have hhere : top.at? here.reverse = some (directory es) := h.standing
  rw [standing?, List.reverse_cons, at?_append, hhere, Option.bind_some, at?]
  cases (directory es).child? name <;> rfl

theorem leads_down (h : IsHome top path here es) (hname : IsName name)
    (hchild : (directory es).child? name = some m) (hm : ∀ target, m ≠ link target)
    (creating : Bool) : Leads top creating mostLinks [] (path ++ [name]) (name :: here) :=
  h.leads.append fun _ =>
    .down h.standing hname ((h.standing?_cons name).trans hchild) hm (.here ..)

/-- **What a path to something in the directory leads to.** -/
theorem reach_eq (h : IsHome top path here es) (hname : Nameable path name)
    (hlink : ∀ target, (directory es).child? name ≠ some (link target)) :
    top.reach (path ++ [name]) = ((directory es).child? name).elim (.error .missing) .ok := by
  rw [reach, if_neg (Nat.not_lt.2 hname.bytes)]
  cases hchild : (directory es).child? name with
  | some m =>
    have hm : ∀ target, m ≠ link target := fun target heq => hlink target (heq ▸ hchild)
    have hat : top.at? (name :: here).reverse = some m := (h.standing?_cons name).trans hchild
    simp only [(h.leads_down hname.isName hchild hm false).follow_eq, hat, Option.elim_some]
  | none =>
    have hat : top.standing? (name :: here) = none := (h.standing?_cons name).trans hchild
    have hsame : ¬ (name = "" ∨ name = ".") := hname.isName.ne_same
    obtain ⟨links, hfollow⟩ : ∃ links, follow top false mostLinks [] (path ++ [name]) =
        follow top false links here [name] := h.leads.follow_append [name]
    rw [hfollow, follow, h.standing]
    simp only [hsame, hname.isName.ne_up, Nat.not_lt.2 hname.isName.le_bytes, if_false, hat,
      Bool.false_and, Bool.false_eq_true, Option.elim_none]

theorem content_eq (h : IsHome top path here es) (hname : Nameable path name)
    (hchild : (directory es).child? name = some (file content modified)) :
    top.content (path ++ [name]) = .ok (content, modified) := by
  have hlink : ∀ target, (directory es).child? name ≠ some (link target) :=
    fun target heq => nomatch hchild.symm.trans heq
  rw [FileNode.content, h.reach_eq hname hlink, hchild]
  rfl

/-- A path to a file of the directory leads to its bytes. -/
theorem bytes?_eq (h : IsHome top path here es) (hname : Nameable path name)
    (hfile : HasFile es name kept) : top.bytes? (path ++ [name]) = kept := by
  cases kept with
  | some bytes =>
    obtain ⟨modified, hchild⟩ := hfile
    rw [bytes?, h.content_eq hname hchild]
    rfl
  | none =>
    have hreach := h.reach_eq hname fun target heq => nomatch hfile.symm.trans heq
    rw [bytes?, FileNode.content, hreach, show (directory es).child? name = none from hfile]
    rfl

/-- **A path that is too long**, or has a name that is, leads to no file. -/
theorem bytes?_eq_none (h : IsHome top path here es)
    (hdots : ¬ (name = "" ∨ name = "." ∨ name = "..")) (hname : ¬ Nameable path name) :
    top.bytes? (path ++ [name]) = none := by
  suffices hreach : top.reach (path ++ [name]) = .error .nameTooLong by
    rw [bytes?, FileNode.content, hreach]
    rfl
  by_cases hbytes : mostPathBytes < pathBytes (path ++ [name])
  · rw [reach, if_pos hbytes]
  · have hlong := (exceeds_of_not_nameable hdots hname).resolve_left hbytes
    have hsame : ¬ (name = "" ∨ name = ".") := fun hsame => hdots (hsame.imp_right .inl)
    have hup : name ≠ ".." := fun hup => hdots (.inr (.inr hup))
    obtain ⟨links, hfollow⟩ : ∃ links, follow top false mostLinks [] (path ++ [name]) =
        follow top false links here [name] := h.leads.follow_append [name]
    rw [reach, if_neg hbytes, hfollow, follow, h.standing]
    simp only [hsame, hup, if_false, if_pos hlong]

theorem placeOf_eq (h : IsHome top path here es) (hname : Nameable path name) :
    top.placeOf (path ++ [name]) = .ok (name :: here) := by
  have hup : ¬ (name = "" ∨ name = "." ∨ name = "..") := fun hdots =>
    hdots.elim (fun heq => hname.isName.ne_same (.inl heq)) fun hdots =>
      hdots.elim (fun heq => hname.isName.ne_same (.inr heq)) hname.isName.ne_up
  rw [placeOf, if_neg (Nat.not_lt.2 hname.bytes), List.dropLast_concat, List.getLast?_concat,
    h.leads.follow_eq]
  simp only [h.standing, if_neg hup, if_neg (Nat.not_lt.2 hname.isName.le_bytes)]

/-- Nothing stands where such a path goes. -/
theorem placeOf_eq_error (h : IsHome top path here es)
    (hdots : ¬ (name = "" ∨ name = "." ∨ name = "..")) (hname : ¬ Nameable path name) :
    top.placeOf (path ++ [name]) = .error .nameTooLong := by
  by_cases hbytes : mostPathBytes < pathBytes (path ++ [name])
  · rw [placeOf, if_pos hbytes]
  · have hlong := (exceeds_of_not_nameable hdots hname).resolve_left hbytes
    rw [placeOf, if_neg hbytes, List.dropLast_concat, List.getLast?_concat, h.leads.follow_eq]
    simp only [h.standing, if_neg hdots, if_pos hlong]

/-- **A file that is written in the directory** is set there. -/
theorem write_eq (h : IsHome top path here es) (hname : Nameable path name)
    (hfile : HasFile es name kept) :
    top.write (path ++ [name]) content modified =
      .ok (top.put here.reverse (directory (setEntry name (file content modified) es))) := by
  have hleads : Leads top true mostLinks [] (path ++ [name]) (name :: here) := by
    cases hm : (directory es).child? name with
    | none =>
      exact h.leads.append fun _ =>
        .created h.standing hname.isName ((h.standing?_cons name).trans hm) rfl
    | some m =>
      obtain ⟨content, modified, rfl⟩ := hfile.of_child? m hm
      exact h.leads_down hname.isName hm (fun target heq => nomatch heq) true
  have hplace : ∀ es', top.standing? (name :: here) ≠ some (directory es') := by
    intro es' heq
    obtain ⟨_, _, hm⟩ := hfile.of_child? _ ((h.standing?_cons name).symm.trans heq)
    cases hm
  refine write_eq_ok_iff.2 ⟨hname.bytes, _, hleads, hplace, ?_⟩
  rw [List.reverse_cons, put_concat h.standing]

/-- **A directory that a path leads to is not made again.** -/
theorem makeDirectories_eq (h : IsHome top path here es) : top.makeDirectories path = .ok top := by
  have hone : ∀ p ∈ (List.range (path.length + 1)).map path.take, top.makeDirectory p = .ok top := by
    refine List.forall_mem_map.2 fun i _ => ?_
    have hpath := List.take_append_drop i path
    have hbytes : pathBytes (path.take i) ≤ mostPathBytes := by
      have := h.bytes
      rw [← hpath, pathBytes_append] at this
      omega
    obtain ⟨middle, es', hleads, hmiddle⟩ : ∃ middle es',
        Leads top false mostLinks [] (path.take i) middle ∧
          top.standing? middle = some (directory es') := by
      by_cases hdrop : path.drop i = []
      · rw [hdrop, List.append_nil] at hpath
        exact ⟨here, es, hpath.symm ▸ h.leads, h.standing⟩
      · obtain ⟨middle, es', _, hleads, hmiddle, -⟩ := (hpath.symm ▸ h.leads).split hdrop
        exact ⟨middle, es', hleads, hmiddle⟩
    have hat : top.at? middle.reverse = some (directory es') := hmiddle
    have hreach : top.reach (path.take i) = .ok (directory es') := by
      rw [reach, if_neg (Nat.not_lt.2 hbytes), hleads.follow_eq]
      simp [hat]
    rw [makeDirectory, hreach]
    rfl
  unfold makeDirectories
  generalize (List.range (path.length + 1)).map path.take = prefixes at hone
  induction prefixes with
  | nil => rfl
  | cons p prefixes ih =>
    rw [List.forall_mem_cons] at hone
    rw [List.foldlM_cons, hone.1]
    exact ih hone.2

/-- **A file that is moved in the directory** takes the place of a file, or a new one. -/
theorem move_eq {aside : String} (h : IsHome top path here es) (hname : Nameable path name)
    (haside : Nameable path aside)
    (hchild : (directory es).child? name = some (file content modified))
    (hold : HasFile es aside kept) :
    top.move (path ++ [name]) (path ++ [aside]) = .ok (top.put here.reverse (directory
      (setEntry aside (file content modified) (es.filter fun e => e.1 != name)))) := by
  have hsource : top.at? (name :: here).reverse = some (file content modified) :=
    (h.standing?_cons name).trans hchild
  have htarget : top.at? (aside :: here).reverse = (directory es).child? aside :=
    h.standing?_cons aside
  have hhere : top.at? here.reverse = some (directory es) := h.standing
  have hrename : (top.remove (name :: here).reverse).put (aside :: here).reverse
      (file content modified) = top.put here.reverse (directory
        (setEntry aside (file content modified) (es.filter fun e => e.1 != name))) := by
    rw [List.reverse_cons, List.reverse_cons, remove_concat hhere,
      put_concat (at?_put_self top here.reverse), put_put]
  rw [move, h.placeOf_eq hname, h.placeOf_eq haside]
  change top.rename (name :: here).reverse (aside :: here).reverse = _
  rw [rename, hsource, htarget]
  cases hm : (directory es).child? aside with
  | none => simp only [hrename]
  | some m =>
    obtain ⟨_, _, rfl⟩ := hold.of_child? m hm
    simp only [isDirectory, Bool.not_false, Bool.and_true, Bool.false_and, Bool.false_eq_true,
      if_false, hrename]

end IsHome

/-- **Nothing stands at a path**, not even a link that leads nowhere. -/
def Absent (top : FileNode) (path : List String) : Prop :=
  ∀ place, top.placeOf path = .ok place → top.standing? place = none

theorem IsHome.absent {path : List String} (h : IsHome top path here es)
    (hname : (directory es).child? name = none) : top.Absent (path ++ [name]) := by
  intro place hplace
  rw [placeOf, List.dropLast_concat, List.getLast?_concat, h.leads.follow_eq] at hplace
  simp only [h.standing] at hplace
  split at hplace
  · cases hplace
  · split at hplace
    · cases hplace
    · split at hplace
      · cases hplace
      · rw [← Except.ok.inj hplace, h.standing?_cons, hname]

/-- **A new file that is written stands in a directory.** -/
theorem exists_isHome_of_write {path : List String} {content : ByteArray} {modified : Binary64}
    (hwrite : top.write (path ++ [name]) content modified = .ok top')
    (habsent : top.Absent (path ++ [name])) : ∃ here es, IsHome top path here es ∧
      Nameable path name ∧ (directory es).child? name = none := by
  obtain ⟨hbytes, place, hleads, hplace, -⟩ := write_eq_ok_iff.1 hwrite
  obtain ⟨here, es, links, hpath, hhere, hrest⟩ := hleads.split (List.cons_ne_nil _ _)
  have hhome : IsHome top path here es :=
    ⟨hpath, hhere, by rw [pathBytes_append] at hbytes; omega⟩
  have hnew (hname : IsName name) : Nameable path name ∧ (directory es).child? name = none := by
    refine ⟨⟨hname, hbytes⟩, ?_⟩
    rw [← hhome.standing?_cons]
    exact habsent _ (hhome.placeOf_eq ⟨hname, hbytes⟩)
  cases hrest with
  | same _ _ h =>
    cases h
    exact absurd hhere (hplace es)
  | up _ h =>
    cases h
    obtain ⟨es', htail⟩ := standing?_tail hhere
    exact absurd htail (hplace es')
  | created _ hname => exact ⟨here, es, hhome, hnew hname⟩
  | link _ hname => exact ⟨here, es, hhome, hnew hname⟩
  | down _ hname => exact ⟨here, es, hhome, hnew hname⟩

/-! ## Paths seen from a directory -/

end FileNode

namespace Host

open FileNode

variable {h : Host} {path : String} {x : ByteArray × Binary64}

/-- **The working directory is a directory of the tree**, and no link leads there. -/
structure Stands (h : Host) : Prop where
  names : ∀ name ∈ h.workingDirectory, IsName name
  directory : ∃ es, h.top.at? h.workingDirectory = some (.directory es)

end Host
end Conventions
