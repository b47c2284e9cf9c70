import Conventions.Files.Tree
import Mathlib.Data.List.Infix
import Mathlib.Data.Set.Basic

/-!
# Proofs/Files/Write — what is written is read

Putting a file where none or a file is leaves every directory a directory and every link and other
file as it is (`at?_put_directory`, `at?_put_leaf`). So a path leads through the same links to the same
place after the write, and what is there is what was written (`content_write`). Whatever links a path
leads through, the content that it leads to is that of a file in the tree (`Holds.content`).
-/

namespace Conventions
namespace FileNode

/-! ## What is read stands in the tree -/

section Holds

variable {contents : Set ByteArray}

/-- **A tree whose files have contents** of some set. -/
def Holds (contents : Set ByteArray) (n : FileNode) : Prop :=
  ∀ place bytes modified, n.at? place = some (.file bytes modified) → bytes ∈ contents

theorem holds_file {bytes : ByteArray} (h : bytes ∈ contents) (modified : Binary64) :
    Holds contents (.file bytes modified) := by
  intro place bytes' modified' hat
  cases place with
  | nil => exact (FileNode.file.inj (Option.some.inj hat)).1 ▸ h
  | cons name rest => cases hat

theorem holds_directory {entries : List (String × FileNode)}
    (h : ∀ e ∈ entries, Holds contents e.2) : Holds contents (.directory entries) := by
  intro place bytes modified hat
  cases place with
  | nil => cases hat
  | cons name rest =>
    obtain ⟨c, hc, hrest⟩ := Option.bind_eq_some_iff.1 hat
    obtain ⟨e, he, rfl⟩ := Option.map_eq_some_iff.1 hc
    exact h e (List.mem_of_find?_eq_some he) rest bytes modified hrest

/-- **What is read stands in the tree.** -/
theorem Holds.content {top : FileNode} (h : top.Holds contents) {path : List String}
    {bytes : ByteArray} {modified : Binary64} (hread : top.content path = .ok (bytes, modified)) :
    bytes ∈ contents := by
  rw [FileNode.content, reach] at hread
  split at hread
  case h_2 => cases hread
  case h_3 => cases hread
  case h_1 bytes' modified' hreach =>
    obtain ⟨rfl, rfl⟩ := Prod.mk.inj (Except.ok.inj hread)
    split at hreach
    · cases hreach
    · split at hreach
      · cases hreach
      case h_2 place hplace =>
        cases hat : top.at? place.reverse with
        | none => simp [hat] at hreach
        | some n =>
          rw [hat] at hreach
          exact h place.reverse bytes' modified' (hat.trans (congrArg some (Except.ok.inj hreach)))

end Holds

variable {n top new : FileNode} {name : String} {p q : List String}

/-! ## Putting something at a place -/

theorem entries_eq_nil_or (n : FileNode) : n.entries = [] ∨ ∃ es, n = .directory es := by
  cases n with
  | directory es => exact .inr ⟨es, rfl⟩
  | _ => exact .inl rfl

theorem exists_directory_of_child? {c : FileNode} (h : n.child? name = some c) :
    ∃ es, n = .directory es := by
  refine n.entries_eq_nil_or.resolve_left fun hnil => ?_
  rw [child?, hnil] at h
  cases h

theorem child?_setEntry (es : List (String × FileNode)) (name' : String) :
    (directory (setEntry name new es)).child? name' =
      if name' = name then some new else (directory es).child? name' := by
  induction es with
  | nil =>
    by_cases h : name' = name
    · simp [setEntry, child?, entries, h]
    · simp [setEntry, child?, entries, h, Ne.symm h]
  | cons e es ih =>
    simp only [child?, entries] at ih ⊢
    rw [setEntry]
    split
    case isTrue he =>
      by_cases h : name' = name
      · simp [h]
      · have hne : e.1 ≠ name' := fun heq => h (heq.symm.trans he)
        simp [h, Ne.symm h, hne]
    case isFalse he =>
      by_cases hname : e.1 = name'
      · have hne : name' ≠ name := fun heq => he (hname.trans heq)
        simp [hname, hne]
      · simp [hname, ih]

theorem child?_put (rest : List String) (name' : String) :
    (n.put (name :: rest) new).child? name' =
      if name' = name then some (((n.child? name).getD default).put rest new)
      else n.child? name' := by
  have hentries : (directory n.entries).child? name' = n.child? name' := rfl
  rw [put, child?_setEntry, hentries]

theorem at?_append (n : FileNode) (p q : List String) :
    n.at? (p ++ q) = (n.at? p).bind fun m => m.at? q := by
  induction p generalizing n with
  | nil => rfl
  | cons name p ih =>
    rw [List.cons_append, at?, at?]
    cases n.child? name with
    | none => rfl
    | some c => exact ih c

/-- What has something in it is a directory. -/
theorem exists_directory_of_at?_cons {m : FileNode} (h : n.at? (name :: q) = some m) :
    ∃ es, n = .directory es := by
  obtain ⟨c, hc, -⟩ := Option.bind_eq_some_iff.1 h
  exact exists_directory_of_child? hc

theorem at?_put_self (n : FileNode) (q : List String) : (n.put q new).at? q = some new := by
  induction q generalizing n with
  | nil => rfl
  | cons name q ih =>
    rw [at?, child?_put, if_pos rfl, Option.bind_some]
    exact ih _

/-- **On the way to a place** that something is put at, there is what was there with it put in. -/
theorem at?_put_append (n : FileNode) (p q : List String) :
    (n.put (p ++ q) new).at? p = some (((n.at? p).getD default).put q new) := by
  induction p generalizing n with
  | nil => rfl
  | cons name p ih =>
    rw [List.cons_append, at?, child?_put, if_pos rfl, Option.bind_some, ih, at?]
    cases n.child? name with
    | some c => rfl
    | none =>
      cases p with
      | nil => rfl
      | cons => rfl

/-- **Off the way** nothing changes. -/
theorem at?_put_off (hp : ¬ p <+: q) (hq : ¬ q <+: p) :
    (n.put q new).at? p = n.at? p := by
  induction q generalizing n p with
  | nil => exact absurd p.nil_prefix hq
  | cons name q ih =>
    cases p with
    | nil => exact absurd (List.nil_prefix) hp
    | cons name' p =>
      rw [at?, at?, child?_put]
      split
      case isFalse => rfl
      case isTrue heq =>
        subst heq
        rw [List.cons_prefix_cons] at hp hq
        have hp' : ¬ p <+: q := fun h => hp ⟨rfl, h⟩
        have hq' : ¬ q <+: p := fun h => hq ⟨rfl, h⟩
        rw [Option.bind_some, ih hp' hq']
        cases n.child? name' with
        | some c => rfl
        | none =>
          cases p with
          | nil => exact absurd List.nil_prefix hp'
          | cons => rfl

/-- **A place for a file**: no directory stands there, and its own directory does. -/
structure IsPlace (n : FileNode) (q : List String) : Prop where
  leaf : ∀ m, n.at? q = some m → ∃ content modified, m = .file content modified
  parent : q ≠ [] → ∃ es, n.at? q.dropLast = some (.directory es)

/-- Directories stay directories. -/
theorem at?_put_directory (hq : n.IsPlace q) {es : List (String × FileNode)}
    (hp : n.at? p = some (.directory es)) : ∃ es', (n.put q new).at? p = some (.directory es') := by
  by_cases hpq : p <+: q
  · obtain ⟨r, rfl⟩ := hpq
    cases r with
    | nil =>
      rw [List.append_nil] at hq
      obtain ⟨_, _, hfile⟩ := hq.leaf _ hp
      cases hfile
    | cons name r =>
      rw [at?_put_append]
      exact ⟨_, rfl⟩
  · have hqp : ¬ q <+: p := by
      rintro ⟨_ | ⟨name, r⟩, rfl⟩
      · exact hpq (by simp)
      · rw [at?_append] at hp
        obtain ⟨m, hm, hrest⟩ := Option.bind_eq_some_iff.1 hp
        obtain ⟨_, _, rfl⟩ := hq.leaf m hm
        obtain ⟨_, hdirectory⟩ := exists_directory_of_at?_cons hrest
        cases hdirectory
    exact ⟨es, (at?_put_off hpq hqp).trans hp⟩

/-- Links and other files stay as they are. -/
theorem at?_put_leaf (hq : n.IsPlace q) (hne : p ≠ q) {m : FileNode} (hp : n.at? p = some m)
    (hm : ∀ es, m ≠ .directory es) : (n.put q new).at? p = some m := by
  refine (at?_put_off (fun hpq => ?_) fun hqp => ?_).trans hp
  · obtain ⟨_ | ⟨name, r⟩, rfl⟩ := hpq
    · exact hne (by simp)
    · obtain ⟨es, hparent⟩ := hq.parent (by simp)
      rw [List.dropLast_append_of_ne_nil (by simp), at?_append, hp, Option.bind_some] at hparent
      cases hr : (name :: r).dropLast with
      | nil =>
        rw [hr] at hparent
        exact hm es (Option.some.inj hparent)
      | cons =>
        rw [hr] at hparent
        obtain ⟨es', hdirectory⟩ := exists_directory_of_at?_cons hparent
        exact hm es' hdirectory
  · obtain ⟨_ | ⟨name, r⟩, rfl⟩ := hqp
    · exact hne (by simp)
    · rw [at?_append] at hp
      obtain ⟨m', hm', hrest⟩ := Option.bind_eq_some_iff.1 hp
      obtain ⟨_, _, rfl⟩ := hq.leaf m' hm'
      obtain ⟨_, hdirectory⟩ := exists_directory_of_at?_cons hrest
      cases hdirectory

/-! ## Where a path leads -/

/-- **A segment that names something**, and is not too long for it. -/
structure IsName (name : String) : Prop where
  ne_same : ¬ (name = "" ∨ name = ".")
  ne_up : name ≠ ".."
  le_bytes : name.utf8ByteSize ≤ mostNameBytes

/-- **A name leads from a directory at the top to what it has there**, unless that is a link. -/
theorem reach_name {es : List (String × FileNode)} {name : String} (hname : IsName name)
    (hlink : ∀ target, (directory es).child? name ≠ some (.link target)) :
    (directory es).reach [name] = ((directory es).child? name).elim (.error .missing) .ok := by
  have hbytes : ¬ mostPathBytes < pathBytes [name] := by
    have := hname.le_bytes
    simp only [pathBytes, List.foldr_cons, List.foldr_nil, mostPathBytes, mostNameBytes] at *
    omega
  have hplace : (directory es).at? [name] = (directory es).child? name := by
    rw [at?]
    cases (directory es).child? name <;> rfl
  rw [reach, if_neg hbytes, follow]
  simp only [standing?, List.reverse_nil, at?, hname.ne_same, hname.ne_up, if_false,
    Nat.not_lt.2 hname.le_bytes]
  cases hchild : (directory es).child? name with
  | none => simp [hplace, hchild]
  | some n =>
    cases n with
    | link target => exact absurd hchild (hlink target)
    | _ => simp [hplace, hchild, follow]

/-- **A path leads from a directory to a place**, by its segments, through no more than some links. The
last name of a path to something that is created may be missing. -/
inductive Leads (top : FileNode) (creating : Bool) :
    Nat → List String → List String → List String → Prop
  | here (links : Nat) (here : List String) : Leads top creating links here [] here
  | same {links : Nat} {here rest place : List String} {name : String}
      {es : List (String × FileNode)} (hhere : top.standing? here = some (.directory es))
      (hname : name = "" ∨ name = ".") (h : Leads top creating links here rest place) :
      Leads top creating links here (name :: rest) place
  | up {links : Nat} {here rest place : List String} {es : List (String × FileNode)}
      (hhere : top.standing? here = some (.directory es))
      (h : Leads top creating links here.tail rest place) :
      Leads top creating links here (".." :: rest) place
  | created {links : Nat} {here : List String} {name : String} {es : List (String × FileNode)}
      (hhere : top.standing? here = some (.directory es)) (hname : IsName name)
      (hmissing : top.standing? (name :: here) = none) (hcreating : creating = true) :
      Leads top creating links here [name] (name :: here)
  | link {links : Nat} {here rest place : List String} {name target : String}
      {es : List (String × FileNode)} (hhere : top.standing? here = some (.directory es))
      (hname : IsName name) (hlink : top.standing? (name :: here) = some (.link target))
      (h : Leads top creating links (if Path.isAbsolute target then [] else here)
        (Path.segments target ++ rest) place) :
      Leads top creating (links + 1) here (name :: rest) place
  | down {links : Nat} {here rest place : List String} {name : String} {node : FileNode}
      {es : List (String × FileNode)} (hhere : top.standing? here = some (.directory es))
      (hname : IsName name) (hnode : top.standing? (name :: here) = some node)
      (hlink : ∀ target, node ≠ .link target)
      (h : Leads top creating links (name :: here) rest place) :
      Leads top creating links here (name :: rest) place

theorem leads_of_follow {creating : Bool} {links : Nat} {here path place : List String}
    (h : follow top creating links here path = .ok place) :
    Leads top creating links here path place := by
  fun_induction follow top creating links here path with
  | case1 links here =>
    cases h
    exact .here ..
  | case2 links here name rest es hhere hname ih => exact .same hhere hname (ih h)
  | case3 links here rest es hhere hname ih => exact .up hhere (ih h)
  | case4 => cases h
  | case5 links here name rest es hhere hsame hup hbytes hmissing hcreating =>
    obtain ⟨rfl, hrest⟩ : creating = true ∧ rest = [] := by simpa using hcreating
    subst hrest
    cases h
    exact .created hhere ⟨hsame, hup, Nat.le_of_not_lt hbytes⟩ hmissing rfl
  | case6 => cases h
  | case7 => cases h
  | case8 here name rest es hhere hsame hup hbytes target hlink k ih =>
    exact .link hhere ⟨hsame, hup, Nat.le_of_not_lt hbytes⟩ hlink (ih h)
  | case9 links here name rest es hhere hsame hup hbytes node hlink hnode ih =>
    exact .down hhere ⟨hsame, hup, Nat.le_of_not_lt hbytes⟩ hnode hlink (ih h)
  | case10 => cases h

theorem Leads.follow_eq {creating : Bool} {links : Nat} {here path place : List String}
    (h : Leads top creating links here path place) :
    follow top creating links here path = .ok place := by
  induction h with
  | here => rw [follow]
  | same hhere hname h ih =>
    rw [follow, hhere]
    simp only [hname, if_true, ih]
  | up hhere h ih =>
    have hsame : ¬ (".." = "" ∨ ".." = ".") := by decide
    rw [follow, hhere]
    simp only [hsame, if_false, if_true, ih]
  | created hhere hname hmissing hcreating =>
    rw [follow, hhere]
    simp only [hname.ne_same, hname.ne_up, Nat.not_lt.2 hname.le_bytes, if_false, hmissing,
      hcreating, List.isEmpty_nil, Bool.and_true, if_true]
  | link hhere hname hlink h ih =>
    rw [follow, hhere]
    simp only [hname.ne_same, hname.ne_up, Nat.not_lt.2 hname.le_bytes, if_false, hlink, ih]
  | @down _ _ _ _ _ node _ hhere hname hnode hlink h ih =>
    rw [follow, hhere]
    simp only [hname.ne_same, hname.ne_up, Nat.not_lt.2 hname.le_bytes, if_false, hnode]
    cases node with
    | link target => exact absurd rfl (hlink target)
    | _ => exact ih

/-- The directory that a directory is in. -/
theorem standing?_tail {here : List String} {es : List (String × FileNode)}
    (h : top.standing? here = some (.directory es)) :
    ∃ es', top.standing? here.tail = some (.directory es') := by
  cases here with
  | nil => exact ⟨es, h⟩
  | cons name here =>
    rw [standing?, List.reverse_cons, at?_append] at h
    obtain ⟨m, hm, hrest⟩ := Option.bind_eq_some_iff.1 h
    obtain ⟨es', rfl⟩ := exists_directory_of_at?_cons hrest
    exact ⟨es', hm⟩

/-- There is a directory at the top if there is one anywhere. -/
theorem standing?_nil {here : List String} {es : List (String × FileNode)}
    (h : top.standing? here = some (.directory es)) :
    ∃ es', top.standing? [] = some (.directory es') := by
  induction here generalizing es with
  | nil => exact ⟨es, h⟩
  | cons name here ih =>
    obtain ⟨es', htail⟩ := standing?_tail h
    exact ih htail

theorem isPlace_cons {here : List String} {name : String} {es : List (String × FileNode)}
    (hhere : top.standing? here = some (.directory es))
    (hleaf : ∀ m, top.standing? (name :: here) = some m → ∃ content modified,
      m = .file content modified) : top.IsPlace (name :: here).reverse where
  leaf := hleaf
  parent _ := ⟨es, by rwa [List.dropLast_reverse, List.tail_cons]⟩

/-- **A path that does not lead to a directory** leads to a place for a file. -/
theorem Leads.isPlace {creating : Bool} {links : Nat} {here path place : List String}
    (h : Leads top creating links here path place)
    (hplace : ∀ es, top.standing? place ≠ some (.directory es)) :
    (path = [] ∧ place = here) ∨ top.IsPlace place.reverse := by
  induction h with
  | here => exact .inl ⟨rfl, rfl⟩
  | same hhere hname h ih =>
    obtain ⟨-, rfl⟩ | hplace := ih hplace
    · exact absurd hhere (hplace _)
    · exact .inr hplace
  | up hhere h ih =>
    obtain ⟨-, rfl⟩ | hplace := ih hplace
    · obtain ⟨es, htail⟩ := standing?_tail hhere
      exact absurd htail (hplace es)
    · exact .inr hplace
  | created hhere hname hmissing hcreating =>
    exact .inr (isPlace_cons hhere fun m hm => nomatch hmissing.symm.trans hm)
  | @link _ here _ _ name target _ hhere hname hlink h ih =>
    obtain ⟨-, rfl⟩ | hplace := ih hplace
    · by_cases habsolute : Path.isAbsolute target = true
      · rw [if_pos habsolute] at hplace
        obtain ⟨es, htop⟩ := standing?_nil hhere
        exact absurd htop (hplace es)
      · rw [if_neg habsolute] at hplace
        exact absurd hhere (hplace _)
    · exact .inr hplace
  | @down _ here _ _ name node _ hhere hname hnode hlink h ih =>
    obtain ⟨-, rfl⟩ | hplace := ih hplace
    · refine .inr (isPlace_cons hhere fun m hm => ?_)
      cases hnode.symm.trans hm
      cases node with
      | file content modified => exact ⟨content, modified, rfl⟩
      | directory es => exact absurd hnode (hplace es)
      | link target => exact absurd rfl (hlink target)
    · exact .inr hplace

/-- **A file that is put where a path leads** is what the path leads to. -/
theorem Leads.put {links : Nat} {here path place : List String} {content : ByteArray}
    {modified : Binary64} (h : Leads top true links here path place)
    (hplace : top.IsPlace place.reverse) :
    Leads (top.put place.reverse (.file content modified)) false links here path place := by
  have hself : (top.put place.reverse (.file content modified)).standing? place =
      some (.file content modified) := at?_put_self top place.reverse
  have hdirectory {here : List String} {es : List (String × FileNode)}
      (hhere : top.standing? here = some (.directory es)) :
      ∃ es', (top.put place.reverse (.file content modified)).standing? here =
        some (.directory es') := at?_put_directory hplace hhere
  have hleaf {here : List String} {m : FileNode} (hne : here ≠ place)
      (hm : ∀ es, m ≠ .directory es) (hhere : top.standing? here = some m) :
      (top.put place.reverse (.file content modified)).standing? here = some m :=
    at?_put_leaf hplace (fun heq => hne (List.reverse_injective heq)) hhere hm
  induction h with
  | here => exact .here ..
  | same hhere hname h ih =>
    obtain ⟨es, hhere⟩ := hdirectory hhere
    exact .same hhere hname (ih hplace hself hdirectory hleaf)
  | up hhere h ih =>
    obtain ⟨es, hhere⟩ := hdirectory hhere
    exact .up hhere (ih hplace hself hdirectory hleaf)
  | created hhere hname hmissing hcreating =>
    obtain ⟨es, hhere⟩ := hdirectory hhere
    exact .down hhere hname hself (fun target heq => nomatch heq) (.here ..)
  | link hhere hname hlink h ih =>
    obtain ⟨es, hhere⟩ := hdirectory hhere
    refine .link hhere hname (hleaf ?_ (fun es heq => nomatch heq) hlink)
      (ih hplace hself hdirectory hleaf)
    rintro rfl
    obtain ⟨_, _, hfile⟩ := hplace.leaf _ hlink
    cases hfile
  | @down _ here _ place name node _ hhere hname hnode hlink h ih =>
    obtain ⟨es, hhere⟩ := hdirectory hhere
    have hrest := ih hplace hself hdirectory hleaf
    cases node with
    | directory es' =>
      obtain ⟨es'', hnode⟩ := hdirectory hnode
      exact .down hhere hname hnode (fun target heq => nomatch heq) hrest
    | link target => exact absurd rfl (hlink target)
    | file content' modified' =>
      by_cases heq : name :: here = place
      · subst heq
        exact .down hhere hname hself (fun target h => nomatch h) hrest
      · have hfile : ∀ es, file content' modified' ≠ .directory es := fun es h => nomatch h
        exact .down hhere hname (hleaf heq hfile hnode) hlink hrest

/-! ## Writing -/

/-- **A path takes a file**: it is not too long and leads to a place where no directory stands. -/
def Takes (top : FileNode) (path : List String) : Prop :=
  pathBytes path ≤ mostPathBytes ∧ ∃ place, Leads top true mostLinks [] path place ∧
    ∀ es, top.standing? place ≠ some (.directory es)

theorem write_eq_ok_iff {top' : FileNode} {path : List String} {content : ByteArray}
    {modified : Binary64} : top.write path content modified = .ok top' ↔
      pathBytes path ≤ mostPathBytes ∧ ∃ place, Leads top true mostLinks [] path place ∧
        (∀ es, top.standing? place ≠ some (.directory es)) ∧
          top.put place.reverse (.file content modified) = top' := by
  rw [write]
  split
  case isTrue hbytes =>
    constructor
    · intro h
      cases h
    · exact fun h => absurd h.1 (Nat.not_le.2 hbytes)
  case isFalse hbytes =>
    split
    case h_1 fault hfollow =>
      constructor
      · intro h
        cases h
      · rintro ⟨-, place, hleads, -⟩
        cases hfollow.symm.trans hleads.follow_eq
    case h_2 place hfollow =>
      constructor
      · intro h
        split at h
        case h_1 => cases h
        case h_2 hplace =>
          cases h
          exact ⟨Nat.le_of_not_lt hbytes, place, leads_of_follow hfollow, hplace, rfl⟩
      · rintro ⟨-, _, hleads, hplace, rfl⟩
        cases hfollow.symm.trans hleads.follow_eq
        split
        case h_1 es hdirectory => exact absurd hdirectory (hplace es)
        case h_2 => rfl

/-- **What is written is read.** -/
theorem content_write {top' : FileNode} {path : List String} {content : ByteArray}
    {modified : Binary64} (h : top.write path content modified = .ok top') :
    top'.content path = .ok (content, modified) := by
  obtain ⟨hbytes, place, hleads, hplace, rfl⟩ := write_eq_ok_iff.1 h
  have hfollow : follow (top.put place.reverse (.file content modified)) false mostLinks [] path =
      .ok place := by
    obtain ⟨rfl, rfl⟩ | hisPlace := hleads.isPlace hplace
    · rw [follow]
    · exact (hleads.put hisPlace).follow_eq
  rw [FileNode.content, reach, if_neg (Nat.not_lt.2 hbytes), hfollow]
  simp only [at?_put_self, Option.elim_some]

end FileNode
end Conventions
