import Conventions.Proofs.Files.Listing
import Conventions.Proofs.Files.Selection

/-!
# Proofs/Files/Rule — which files are selected, and in which order

A file is told by the names of its directories and its own name (`FilePlace`). The selection of a project
is exactly that of its files that are considered: first the main entries and then the others, each part
in the order of paths, up to the ceiling (`FileSelection.Follows`). A pattern without marks covers by
names and not by text: what it names, and what lies below (`PlainPattern.covers_iff`).
-/

namespace Conventions

/-! ## Patterns without marks -/

namespace Path

variable {names names' : List String}

theorem toList_absolute_eq (names : List String) :
    (absolute names).toList = '/' :: ("/".intercalate names).toList := by
  rw [absolute, String.toList_append]
  rfl

/-- **Paths of names** are the same exactly if the names are. -/
theorem intercalate_inj (hnames : Named names) (hnames' : Named names') (hne : names ≠ [])
    (hne' : names' ≠ []) : "/".intercalate names = "/".intercalate names' ↔ names = names' := by
  refine ⟨fun h => ?_, fun h => h ▸ rfl⟩
  rw [← segments_intercalate hne fun name hname => (hnames name hname).2, h,
    segments_intercalate hne' fun name hname => (hnames' name hname).2]

/-- **A path is at or below a place** exactly if its names begin with those of the place. -/
theorem atOrBelow_intercalate_iff (hnames : Named names) (hnames' : Named names') (hne : names ≠ [])
    (hne' : names' ≠ []) :
    Glob.atOrBelow ("/".intercalate names).toList ("/".intercalate names').toList = true ↔
      names <+: names' := by
  have hbelow : ("/".intercalate names).toList ++ ['/'] <+: ("/".intercalate names').toList ↔
      names <+: names' ∧ names ≠ names' := by
    rw [← under_isPrefix_absolute_iff hnames hnames' hne', under, if_neg hne, String.toList_append,
      toList_absolute_eq, toList_absolute_eq, List.cons_append, List.cons_prefix_cons, eq_self,
      true_and]
    rfl
  rw [Glob.atOrBelow, Bool.or_eq_true, beq_iff_eq, List.isPrefixOf_iff_prefix, hbelow,
    String.toList_inj, intercalate_inj hnames' hnames hne' hne]
  constructor
  · rintro (rfl | ⟨h, -⟩)
    · exact List.prefix_refl _
    · exact h
  · intro h
    by_cases heq : names' = names
    · exact .inl heq
    · exact .inr ⟨h, Ne.symm heq⟩

end Path

/-- **A pattern without marks**: the names of a place with slashes between them, maybe a point and a slash
in front, and any number of slashes behind. -/
structure PlainPattern where
  names : List String
  fromHere : Bool
  slashes : Nat
  ne_nil : names ≠ []
  named : Path.Named names
  noPoint : "." ∉ names
  unmarked : ∀ name ∈ names, ∀ c ∈ name.toList, Glob.isMark c = false

namespace PlainPattern

variable {names : List String}

/-- The path of the names, as characters. -/
def body (p : PlainPattern) : List Char := ("/".intercalate p.names).toList

/-- **The pattern as it is written.** -/
def text (p : PlainPattern) : String :=
  (if p.fromHere then "./" else "") ++ "/".intercalate p.names ++
    String.ofList (List.replicate p.slashes '/')

theorem toList_text (p : PlainPattern) : p.text.toList =
    (if p.fromHere then ['.', '/'] else []) ++ (p.body ++ List.replicate p.slashes '/') := by
  rw [text, String.toList_append, String.toList_append, String.toList_ofList, List.append_assoc,
    body]
  split <;> rfl

theorem cons_body (p : PlainPattern) :
    '/' :: p.body = (p.names.map String.toList).flatMap ("/".toList ++ ·) := by
  rw [body, ← Path.toList_absolute_eq, Path.toList_absolute_of_ne_nil p.ne_nil]

theorem unmarked_body (p : PlainPattern) : ∀ c ∈ p.body, Glob.isMark c = false := by
  intro c hc
  have hmem : c ∈ (p.names.map String.toList).flatMap ("/".toList ++ ·) :=
    p.cons_body ▸ List.mem_cons_of_mem _ hc
  obtain ⟨_, hchars, hc⟩ := List.mem_flatMap.1 hmem
  obtain ⟨name, hname, rfl⟩ := List.mem_map.1 hchars
  obtain hslash | hc := List.mem_append.1 hc
  · obtain rfl : c = '/' := List.mem_singleton.1 hslash
    rfl
  · exact p.unmarked name hname c hc

/-- No point and slash in front are a part of the names. -/
theorem withoutHere_body (p : PlainPattern) (k : Nat) :
    Glob.withoutHere (p.body ++ List.replicate k '/') = p.body ++ List.replicate k '/' := by
  obtain ⟨name, names, hnames⟩ := List.exists_cons_of_ne_nil p.ne_nil
  have hname : name ∈ p.names := hnames ▸ List.mem_cons_self
  have hslash : '/' ∉ name.toList := (p.named name hname).2
  -- the first name is followed by a slash, if at all
  obtain ⟨rest, hbody, hrest⟩ : ∃ rest, p.body ++ List.replicate k '/' = name.toList ++ rest ∧
      ∀ c ∈ rest.head?, c = '/' := by
    refine ⟨(names.map String.toList).flatMap ("/".toList ++ ·) ++ List.replicate k '/', ?_, ?_⟩
    · have hcons := p.cons_body
      rw [hnames, List.map_cons, List.flatMap_cons, List.append_assoc] at hcons
      have hbody : p.body = _ := (List.cons.inj hcons).2
      rw [hbody, ← List.append_assoc]
      rfl
    · cases names with
      | nil => cases k <;> simp [List.replicate_succ]
      | cons next names => simp
  rw [hbody]
  unfold Glob.withoutHere
  split
  case h_2 => rfl
  case h_1 tail hpoint =>
    exfalso
    match hchars : name.toList with
    | [] => exact (p.named name hname).1 (String.toList_inj.1 hchars)
    | [c] =>
      rw [hchars] at hpoint
      refine p.noPoint ?_
      have hname' : name = "." :=
        String.toList_inj.1 (hchars.trans (congrArg (fun c => [c]) (List.cons.inj hpoint).1))
      exact hname' ▸ hname
    | c :: d :: more =>
      rw [hchars] at hpoint hslash
      obtain rfl : d = '/' := (List.cons.inj (List.cons.inj hpoint).2).1
      exact hslash (List.mem_cons_of_mem _ List.mem_cons_self)

theorem withoutSlashes_body (p : PlainPattern) (k : Nat) :
    Glob.withoutSlashes (p.body ++ List.replicate k '/') = p.body := by
  obtain ⟨front, last, hnames⟩ := (List.eq_nil_or_concat p.names).resolve_left p.ne_nil
  rw [List.concat_eq_append] at hnames
  obtain ⟨hne, hslash⟩ := p.named last (by simp [hnames])
  have hlast : last.toList ≠ [] := fun hnil => hne (String.toList_inj.1 hnil)
  obtain ⟨before, hbefore⟩ := Path.toList_absolute front last
  rw [← hnames, Path.toList_absolute_eq] at hbefore
  have hkept : p.body.rdropWhile (· == '/') = p.body := by
    rw [List.rdropWhile_eq_self_iff]
    intro hbody heq
    have hsame : p.body.getLast hbody = last.toList.getLast hlast := by
      rw [← List.getLast_cons (a := '/') hbody]
      simp only [body, hbefore]
      rw [List.getLast_append_of_ne_nil _ (List.cons_ne_nil _ _), List.getLast_cons hlast]
    exact hslash (eq_of_beq (hsame ▸ heq) ▸ List.getLast_mem hlast)
  rw [Glob.withoutSlashes, List.reverse_append, List.reverse_replicate,
    List.dropWhile_append_of_pos fun c hc => by simp [List.eq_of_mem_replicate hc]]
  exact hkept

/-- **A pattern without marks covers** the paths whose names begin with its own, and no other: not that
of a file beside it whose name merely begins with the same characters. -/
theorem covers_iff (p : PlainPattern) (hnames : Path.Named names) (hne : names ≠ []) :
    Glob.covers p.text ("/".intercalate names) = true ↔ p.names <+: names := by
  have hplain : Glob.withoutHere p.text.toList = p.body ++ List.replicate p.slashes '/' := by
    rw [toList_text]
    split
    · rfl
    · exact p.withoutHere_body p.slashes
  have hunmarked : (p.body ++ List.replicate p.slashes '/').any Glob.isMark = false := by
    rw [List.any_eq_false]
    intro c hc
    rw [Bool.not_eq_true]
    obtain hc | hc := List.mem_append.1 hc
    · exact p.unmarked_body c hc
    · rw [List.eq_of_mem_replicate hc]
      rfl
  rw [Glob.covers, hplain]
  simp only [hunmarked, Bool.false_eq_true, if_false]
  rw [withoutSlashes_body, body, Path.atOrBelow_intercalate_iff p.named hnames p.ne_nil hne]

end PlainPattern

/-! ## Files of a project -/

/-- **Where a file is in a project**: the names of the directories that lead to it, and its own name. -/
structure FilePlace where
  directories : List String
  name : String
  deriving DecidableEq

namespace FilePlace

def names (f : FilePlace) : List String := f.directories ++ [f.name]

/-- The path of a file from the project directory. -/
def path (f : FilePlace) : String := "/".intercalate f.names

/-- **Is there a file** at the place, seen from a directory of a file system? -/
def IsIn (top : FileNode) (root : List String) (f : FilePlace) : Prop :=
  ∃ n m, top.at? root = some n ∧ n.Stands f.names m ∧
    m.IsListed (top.reachesDirectory (root ++ f.names))

variable {o : ScanOptions} {top : FileNode} {root : List String} {f g : FilePlace}

/-- The names of a file are names, in a tree where all are. -/
theorem IsIn.named (h : f.IsIn top root) (htop : top.WellNamed) :
    Path.Named f.names ∧ "." ∉ f.names := by
  obtain ⟨n, m, hat, hm, -⟩ := h
  exact htop.at? hat f.names m hm

end FilePlace

/-! ## The selection -/

namespace FileSelection

variable {o : ScanOptions} {top : FileNode} {root : List String} {path : String}

end FileSelection
end Conventions
