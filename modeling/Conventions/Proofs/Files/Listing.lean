import Conventions.Proofs.Files.Below

/-!
# Proofs/Files/Listing — what is listed below a directory

A listing shows what stands below a directory and is no directory, wherever no ignored name leads there
(`mem_files_iff`). The order of the entries does not matter for that, nor does a name that is given
twice. Names that are names tell the path that they make (`segments_intercalate`).
-/

namespace Conventions

/-! ## Paths of names -/

namespace Path

variable {names names' : List String}

theorem splitWhere_intercalate {parts : List (List Char)} (hne : parts ≠ [])
    (h : ∀ part ∈ parts, '/' ∉ part) : splitWhere (· == '/') (['/'].intercalate parts) = parts := by
  have hone {part : List Char} (hpart : '/' ∉ part) : splitWhere (· == '/') part = [part] :=
    splitWhere_of_forall fun c hc => beq_eq_false_iff_ne.2 fun heq => hpart (heq ▸ hc)
  induction parts with
  | nil => exact absurd rfl hne
  | cons part parts ih =>
    obtain ⟨hpart, hparts⟩ := List.forall_mem_cons.1 h
    cases parts with
    | nil => rw [List.intercalate_singleton, hone hpart]
    | cons next parts =>
      rw [List.intercalate_cons_cons, List.append_assoc, List.singleton_append,
        splitWhere_append rfl, hone hpart, ih (List.cons_ne_nil _ _) hparts]
      rfl

/-- **The parts of a path of names** are the names. -/
theorem segments_intercalate (hne : names ≠ []) (h : ∀ name ∈ names, '/' ∉ name.toList) :
    segments ("/".intercalate names) = names := by
  have hparts : ∀ part ∈ names.map String.toList, '/' ∉ part := by
    rintro _ hpart
    obtain ⟨name, hname, rfl⟩ := List.mem_map.1 hpart
    exact h name hname
  have hmap : (names.map String.toList).map String.ofList = names := by
    rw [List.map_map]
    exact List.map_id'' (fun _ => String.ofList_toList) names
  rw [segments, String.toList_intercalate, show "/".toList = ['/'] from rfl,
    splitWhere_intercalate (by simpa using hne) hparts, hmap]

end Path

namespace FileNode

variable {es : List (String × FileNode)} {n m child : FileNode} {name : String}
  {names place here root : List String}

/-! ## What stands below a directory -/

/-- **What stands at some names**, seen from a directory; its entries may be in any order. -/
inductive Stands : FileNode → List String → FileNode → Prop
  | here (n : FileNode) : Stands n [] n
  | inside {es : List (String × FileNode)} {name : String} {child m : FileNode}
      {rest : List String} :
      (name, child) ∈ es → Stands child rest m → Stands (.directory es) (name :: rest) m

theorem stands_nil_iff : n.Stands [] m ↔ m = n := by
  constructor
  · rintro ⟨⟩
    rfl
  · rintro rfl
    exact .here _

theorem stands_cons_iff : (directory es).Stands (name :: names) m ↔
    ∃ child, (name, child) ∈ es ∧ child.Stands names m := by
  constructor
  · rintro (_ | ⟨hchild, hrest⟩)
    exact ⟨_, hchild, hrest⟩
  · rintro ⟨child, hchild, hrest⟩
    exact .inside hchild hrest

/-- Nothing stands below what is no directory. -/
theorem Stands.eq_nil (h : n.Stands names m) (hn : n.isDirectory = false) : names = [] := by
  cases h with
  | here => rfl
  | inside => cases hn

/-- What stands below something that stands below a directory stands below the directory. -/
theorem Stands.trans {middle : FileNode} {rest : List String} (h : n.Stands names middle)
    (h' : middle.Stands rest m) : n.Stands (names ++ rest) m := by
  induction h with
  | here => exact h'
  | inside hchild _ ih => exact .inside hchild (ih h')

theorem stands_of_at? (h : n.at? names = some m) : n.Stands names m := by
  induction names generalizing n with
  | nil => exact Option.some.inj h ▸ .here n
  | cons name names ih =>
    obtain ⟨child, hchild, hrest⟩ := Option.bind_eq_some_iff.1 h
    obtain ⟨⟨name', child'⟩, hfind, rfl⟩ := Option.map_eq_some_iff.1 hchild
    have hmem := List.mem_of_find?_eq_some hfind
    have hname := List.find?_some hfind
    obtain rfl : name' = name := eq_of_beq hname
    cases n with
    | directory es => exact .inside hmem (ih hrest)
    | file => cases hmem
    | link => cases hmem

/-- **A tree whose names are names**: none of them is empty or a point, and none has a slash. -/
def WellNamed (n : FileNode) : Prop :=
  ∀ names m, n.Stands names m → Path.Named names ∧ "." ∉ names

theorem WellNamed.at? (h : n.WellNamed) (hat : n.at? root = some m) : m.WellNamed :=
  fun names m' hm => by
    obtain ⟨hnames, hpoint⟩ := h _ m' ((stands_of_at? hat).trans hm)
    exact ⟨fun name hname => hnames name (List.mem_append_right _ hname),
      fun hmem => hpoint (List.mem_append_right _ hmem)⟩

/-! ## What is listed -/

/-- **Is it listed** as a file? A file is, and a link unless it leads to a directory. -/
def IsListed (leadsToDirectory : Bool) : FileNode → Prop
  | .file .. => True
  | .link _ => leadsToDirectory = false
  | .directory _ => False

variable {ignored : String → Bool} {leadsToDirectory : List String → Bool}

/-- **What a listing is to show**: what stands at some names and is no directory, with no ignored name
on the way. -/
def Lists (ignored : String → Bool) (leadsToDirectory : List String → Bool) (here : List String)
    (n : FileNode) (names : List String) : Prop :=
  ∃ m, n.Stands names m ∧ (∀ name ∈ names.dropLast, ignored name = false) ∧
    m.IsListed (leadsToDirectory (here ++ names))

theorem not_lists_nil (hn : n.isDirectory = true) :
    ¬ Lists ignored leadsToDirectory here n [] := by
  rintro ⟨m, hm, -, hlisted⟩
  obtain rfl := stands_nil_iff.1 hm
  cases m with
  | directory es => exact hlisted
  | file => cases hn
  | link => cases hn

theorem not_lists_empty : ¬ Lists ignored leadsToDirectory here (directory []) names := by
  intro h
  cases names with
  | nil => exact not_lists_nil rfl h
  | cons name names =>
    obtain ⟨m, hm, -⟩ := h
    obtain ⟨child, hchild, -⟩ := stands_cons_iff.1 hm
    cases hchild

theorem lists_cons_iff : Lists ignored leadsToDirectory here (directory es) (name :: names) ↔
    ∃ child, (name, child) ∈ es ∧ (names ≠ [] → ignored name = false) ∧
      Lists ignored leadsToDirectory (here ++ [name]) child names := by
  have hway : (∀ name' ∈ (name :: names).dropLast, ignored name' = false) ↔
      (names ≠ [] → ignored name = false) ∧ ∀ name' ∈ names.dropLast, ignored name' = false := by
    cases names with
    | nil => simp
    | cons next names => simp
  have hhere : here ++ name :: names = here ++ [name] ++ names := by simp
  constructor
  · rintro ⟨m, hm, hopen, hlisted⟩
    obtain ⟨child, hchild, hrest⟩ := stands_cons_iff.1 hm
    exact ⟨child, hchild, (hway.1 hopen).1, m, hrest, (hway.1 hopen).2, hhere ▸ hlisted⟩
  · rintro ⟨child, hchild, hopen, m, hrest, hopen', hlisted⟩
    exact ⟨m, .inside hchild hrest, hway.2 ⟨hopen, hopen'⟩, hhere ▸ hlisted⟩

/-- What a listing is to show of one entry of a directory, at the names behind that of the entry. -/
def ListsOf (ignored : String → Bool) (leadsToDirectory : List String → Bool) (here : List String)
    (name : String) (n : FileNode) (rest : List String) : Prop :=
  (rest ≠ [] → ignored name = false) ∧ Lists ignored leadsToDirectory (here ++ [name]) n rest

/-- **What is shown of a directory** is what is shown of its first entry and of the others. -/
theorem lists_directory_cons_iff :
    Lists ignored leadsToDirectory here (directory ((name, n) :: es)) names ↔
      (∃ rest, names = name :: rest ∧ ListsOf ignored leadsToDirectory here name n rest) ∨
      Lists ignored leadsToDirectory here (directory es) names := by
  cases names with
  | nil =>
    have hnil (es : List (String × FileNode)) :
        ¬ Lists ignored leadsToDirectory here (directory es) [] := not_lists_nil rfl
    simp [hnil]
  | cons name' rest =>
    simp only [lists_cons_iff, List.mem_cons, Prod.mk.injEq, List.cons.injEq]
    constructor
    · rintro ⟨child, ⟨rfl, rfl⟩ | hchild, hshown⟩
      · exact .inl ⟨rest, ⟨rfl, rfl⟩, hshown⟩
      · exact .inr ⟨child, hchild, hshown⟩
    · rintro (⟨_, ⟨rfl, rfl⟩, hshown⟩ | ⟨child, hchild, hshown⟩)
      · exact ⟨n, .inl ⟨rfl, rfl⟩, hshown⟩
      · exact ⟨child, .inr hchild, hshown⟩

/-- What is shown of a file or a link is itself. -/
theorem listsOf_leaf_iff {rest : List String} (hn : n.isDirectory = false) :
    ListsOf ignored leadsToDirectory here name n rest ↔
      rest = [] ∧ n.IsListed (leadsToDirectory (here ++ [name])) := by
  constructor
  · rintro ⟨-, m, hm, -, hlisted⟩
    obtain rfl := hm.eq_nil hn
    obtain rfl := stands_nil_iff.1 hm
    rw [List.append_nil] at hlisted
    exact ⟨rfl, hlisted⟩
  · rintro ⟨rfl, hlisted⟩
    exact ⟨fun hne => absurd rfl hne, n, .here n, List.forall_mem_nil _, by rwa [List.append_nil]⟩

/-- What is listed of one entry of a directory. -/
def filesOf (ignored : String → Bool) (leadsToDirectory : List String → Bool) (here : List String)
    (name : String) : FileNode → List (List String)
  | .file .. => [here ++ [name]]
  | .link _ => if leadsToDirectory (here ++ [name]) then [] else [here ++ [name]]
  | .directory es =>
    if ignored name then [] else filesIn ignored leadsToDirectory (here ++ [name]) es

theorem filesIn_cons : filesIn ignored leadsToDirectory here ((name, n) :: es) =
    filesOf ignored leadsToDirectory here name n ++ filesIn ignored leadsToDirectory here es := by
  rw [filesIn.eq_def]
  cases n <;> rfl

theorem mem_filesOf_iff (hbelow : ∀ es, n = directory es →
      (place ∈ filesIn ignored leadsToDirectory (here ++ [name]) es ↔
        ∃ names, place = here ++ [name] ++ names ∧
          Lists ignored leadsToDirectory (here ++ [name]) (directory es) names)) :
    place ∈ filesOf ignored leadsToDirectory here name n ↔
      ∃ rest, place = here ++ name :: rest ∧ ListsOf ignored leadsToDirectory here name n rest := by
  cases n with
  | file content modified =>
    simp [filesOf, listsOf_leaf_iff (n := .file content modified) rfl, IsListed]
  | link target =>
    simp only [listsOf_leaf_iff (n := .link target) rfl, IsListed, filesOf]
    cases leadsToDirectory (here ++ [name]) <;> simp
  | directory es =>
    rw [filesOf]
    split
    case isTrue hignored =>
      refine iff_of_false List.not_mem_nil ?_
      rintro ⟨rest, -, hopen, hshown⟩
      cases rest with
      | nil => exact not_lists_nil rfl hshown
      | cons next rest => exact absurd (hopen (List.cons_ne_nil _ _)) (by simp [hignored])
    case isFalse hignored =>
      rw [hbelow es rfl]
      refine exists_congr fun rest => and_congr (by simp) ?_
      exact (and_iff_right fun _ => Bool.eq_false_iff.2 hignored).symm

/-- **A listing shows** what it is to show, and nothing else. -/
theorem mem_filesIn_iff : place ∈ filesIn ignored leadsToDirectory here es ↔
    ∃ names, place = here ++ names ∧ Lists ignored leadsToDirectory here (directory es) names := by
  induction here, es using filesIn.induct generalizing place with
  | case1 here =>
    refine iff_of_false (by simp [filesIn.eq_def]) ?_
    rintro ⟨names, -, hshown⟩
    exact not_lists_empty hshown
  | case2 here name node rest ihnode ihrest =>
    have hentry : place ∈ filesOf ignored leadsToDirectory here name node ↔ ∃ rest,
        place = here ++ name :: rest ∧ ListsOf ignored leadsToDirectory here name node rest := by
      refine mem_filesOf_iff fun es hes => ?_
      subst hes
      exact ihnode
    rw [filesIn_cons, List.mem_append, hentry, ihrest]
    simp only [lists_directory_cons_iff]
    constructor
    · rintro (⟨names, hplace, hshown⟩ | ⟨names, hplace, hshown⟩)
      · exact ⟨name :: names, hplace, .inl ⟨names, rfl, hshown⟩⟩
      · exact ⟨names, hplace, .inr hshown⟩
    · rintro ⟨names, hplace, ⟨rest, rfl, hshown⟩ | hshown⟩
      · exact .inl ⟨rest, hplace, hshown⟩
      · exact .inr ⟨names, hplace, hshown⟩

/-- **The files below a directory** are what stands there and is no directory, wherever no ignored name
leads there. -/
theorem mem_files_iff : names ∈ n.files ignored leadsToDirectory [] ↔
    n.isDirectory = true ∧ Lists ignored leadsToDirectory [] n names := by
  cases n with
  | directory es =>
    rw [files, mem_filesIn_iff]
    simp [isDirectory]
  | file => simp [files, isDirectory]
  | link => simp [files, isDirectory]

end FileNode
end Conventions
