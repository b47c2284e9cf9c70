import Conventions.Project.Metadata
import Conventions.Proofs.Files.Write
import Conventions.Proofs.Text.Utf8

/-!
# Proofs/Project/Manifest — which manifests defeat a look at a project

What a survey finds does not depend on the notes that it keeps (`Survey.Finds`). So the metadata of
a project are found unless a manifest that is looked at holds a number with too many digits, goes
too deep, or is in an encoding that is not read (`detect_cases`).
-/

namespace Conventions

/-! ## Surveys -/

namespace Survey

/-- **What a survey finds**, whatever was noted before. -/
def Finds {α : Type} (m : Survey α) (found : Except ManifestFault α) : Prop :=
  ∀ notes, (m.run notes).map (·.1) = found

namespace Finds

variable {α β : Type} {m : Survey α} {f : α → Survey β} {a : α} {fault : ManifestFault}
  {found : Except ManifestFault β}

theorem pure (a : α) : Finds (Pure.pure a) (.ok a) := fun _ => rfl

theorem stop (fault : ManifestFault) : Finds (Survey.stop (α := α) fault) (.error fault) :=
  fun _ => rfl

theorem without (n : ManifestNote) : Finds (Survey.without (α := α) n) (.ok none) := fun _ => rfl

theorem bind (hm : m.Finds (.ok a)) (hf : (f a).Finds found) : Finds (m >>= f) found := by
  intro notes
  have hm := hm notes
  rw [StateT.run_bind]
  cases hrun : m.run notes with
  | error fault => rw [hrun] at hm; cases hm
  | ok r =>
    rw [hrun] at hm
    obtain rfl : r.1 = a := Except.ok.inj hm
    exact hf r.2

theorem bind_error (hm : m.Finds (.error fault)) : Finds (m >>= f) (.error fault) := by
  intro notes
  have hm := hm notes
  rw [StateT.run_bind]
  cases hrun : m.run notes with
  | error fault' => rw [hrun] at hm; cases hm; rfl
  | ok r => rw [hrun] at hm; cases hm

end Finds
end Survey

/-! ## The texts of manifests -/

namespace Manifest

open Survey

variable {top : FileNode} {root : List String} {f : ManifestFault}

/-- **The text of a manifest** that counts: there is a file of the name, not too large, and it is
well-formed. -/
def found? (top : FileNode) (root : List String) (name : String) : Option String :=
  match top.reach (root ++ [name]) with
  | .ok (.file content _) =>
    if mostBytes < content.size then none
    else (Text.decode? content).map fun s => String.ofList (Text.unifyNewlines s.toList)
  | _ => none

theorem finds_text? (name : String) : (text? top root name).Finds (.ok (found? top root name)) := by
  unfold text? found?
  cases top.reach (root ++ [name]) with
  | error fault => exact .pure _
  | ok n =>
    cases n with
    | file content modified =>
      simp only
      split
      · exact .without _
      · cases Text.decode? content with
        | none => exact .without _
        | some s => exact .pure _
    | _ => exact .pure _

section Top

variable {es : List (String × FileNode)} {name : String}

theorem found?_absent (hname : FileNode.IsName name)
    (h : (FileNode.directory es).child? name = none) : found? (.directory es) [] name = none := by
  have hreach := FileNode.reach_name hname fun target hlink => nomatch h.symm.trans hlink
  rw [found?, List.nil_append, hreach, h]
  rfl

end Top

/-! ## What is made of them -/

/-- Why a text of `package.json` defeats a look at it. -/
def packageFault? (s : String) : Option ManifestFault :=
  match Json.read s with
  | .error .tooManyDigits => some .tooManyDigits
  | .error .tooDeep => some .tooDeep
  | _ => none

/-- The members of a package in a text. -/
def packageIn? (s : String) : Option (List (String × Json)) :=
  match Json.read s with
  | .ok (.obj members) => some members
  | _ => none

/-- Why a text of `pyproject.toml` defeats a look at it. -/
def projectFault? (s : String) : Option ManifestFault :=
  match Toml.read s with
  | .ok document => if anyTooLong (requirementsOf document) then some .tooManyDigits else none
  | .error .tooManyDigits => some .tooManyDigits
  | .error .tooDeep => some .tooDeep
  | .error .malformed => none

/-- Why a text of `pom.xml` defeats a look at it. -/
def artifactsFault? (s : String) : Option ManifestFault :=
  match Xml.read s with
  | .error .unknownEncoding => some .unknownEncoding
  | .error .wideEncoding => some .wideEncoding
  | .error .brokenEncoding => some .brokenEncoding
  | _ => none

/-- The package of a project. -/
def foundPackage? (top : FileNode) (root : List String) : Option (List (String × Json)) :=
  (found? top root "package.json").bind packageIn?

/-- The fault of a manifest of a project. -/
def foundFault? (top : FileNode) (root : List String) (name : String)
    (fault? : String → Option ManifestFault) : Option ManifestFault :=
  (found? top root name).bind fault?

/-- **Which fault defeats a look at a project**: that of the package; if there is no package, that
of the requirements; and if there are none either, that of the artifacts. -/
def fault? (top : FileNode) (root : List String) : Option ManifestFault :=
  match foundFault? top root "package.json" packageFault? with
  | some f => some f
  | none =>
    if (foundPackage? top root).isSome then none
    else
      match foundFault? top root "pyproject.toml" projectFault? with
      | some f => some f
      | none =>
        if (found? top root "pyproject.toml").isSome || (found? top root "requirements.txt").isSome
        then none
        else foundFault? top root "pom.xml" artifactsFault?

variable (top root)

theorem finds_package? : (package? top root).Finds
    ((foundFault? top root "package.json" packageFault?).elim (.ok (foundPackage? top root))
      .error) := by
  refine .bind (finds_text? _) ?_
  unfold foundFault? foundPackage?
  cases found? top root "package.json" with
  | none => exact .pure _
  | some s =>
    simp only [Option.bind_some, packageFault?, packageIn?]
    cases Json.read s with
    | ok v => cases v <;> exact .pure _
    | error fault => cases fault <;> first | exact .stop _ | exact .without _

theorem finds_projectNames? : ∃ names, (projectNames? top root).Finds
    ((foundFault? top root "pyproject.toml" projectFault?).elim (.ok names) .error) ∧
      names.isSome = (found? top root "pyproject.toml").isSome := by
  unfold foundFault?
  cases hfound : found? top root "pyproject.toml" with
  | none => exact ⟨none, .bind (hfound ▸ finds_text? _) (.pure _), rfl⟩
  | some s =>
    simp only [Option.bind_some, projectFault?]
    cases hread : Toml.read s with
    | ok document =>
      refine ⟨some ((requirementsOf document).filterMap fun v => v.spelled?.bind requirement?),
        .bind (hfound ▸ finds_text? _) ?_, rfl⟩
      simp only [hread]
      split
      · exact .stop _
      · exact .pure _
    | error fault =>
      refine ⟨some [], .bind (hfound ▸ finds_text? _) ?_, rfl⟩
      simp only [hread]
      cases fault with
      | malformed => exact .bind (a := ()) (fun _ => rfl) (.pure _)
      | _ => exact .stop _

theorem finds_listedNames? : ∃ names, (listedNames? top root).Finds (.ok names) ∧
    names.isSome = (found? top root "requirements.txt").isSome := by
  cases hfound : found? top root "requirements.txt" with
  | none => exact ⟨none, .bind (hfound ▸ finds_text? _) (.pure _), rfl⟩
  | some s => exact ⟨some _, .bind (hfound ▸ finds_text? _) (.pure _), rfl⟩

theorem finds_artifacts : ∃ found, (artifacts top root).Finds
    ((foundFault? top root "pom.xml" artifactsFault?).elim (.ok found) .error) := by
  unfold foundFault?
  cases hfound : found? top root "pom.xml" with
  | none => exact ⟨.absent, .bind (hfound ▸ finds_text? _) (.pure _)⟩
  | some s =>
    simp only [Option.bind_some, artifactsFault?]
    cases hread : Xml.read s with
    | ok e =>
      refine ⟨.named (artifactsOf e), .bind (hfound ▸ finds_text? _) ?_⟩
      simp only [hread]
      exact .pure _
    | error fault =>
      refine ⟨.notUnderstood, .bind (hfound ▸ finds_text? _) ?_⟩
      simp only [hread]
      cases fault with
      | malformed => exact .bind (a := ()) (fun _ => rfl) (.pure _)
      | _ => exact .stop _

end Manifest

/-! ## Detection -/

namespace ProjectMetadata

open Manifest

variable {top : FileNode} {root : List String}

/-- **A survey finds metadata**, unless a manifest defeats it. -/
theorem finds_survey (top : FileNode) (root : List String) :
    ∃ m, (survey top root).Finds ((fault? top root).elim (.ok m) .error) := by
  have hpackage := finds_package? top root
  unfold survey fault?
  cases hsound : foundFault? top root "package.json" packageFault? with
  | some f =>
    rw [hsound] at hpackage
    exact ⟨nothing, .bind_error hpackage⟩
  | none =>
  rw [hsound] at hpackage
  cases hfound : foundPackage? top root with
  | some package =>
    rw [hfound] at hpackage
    exact ⟨_, .bind hpackage (.pure _)⟩
  | none =>
  rw [hfound] at hpackage
  obtain ⟨names, hnames, hproject⟩ := finds_projectNames? top root
  obtain ⟨listed, hlisted, hrequired⟩ := finds_listedNames? top root
  cases hfault : foundFault? top root "pyproject.toml" projectFault? with
  | some f =>
    rw [hfault] at hnames
    exact ⟨nothing, .bind hpackage (.bind_error hnames)⟩
  | none =>
  rw [hfault] at hnames
  rw [← hproject, ← hrequired]
  obtain ⟨found, hartifacts⟩ := finds_artifacts top root
  cases names with
  | some names => exact ⟨_, .bind hpackage (.bind hnames (.bind hlisted (.pure _)))⟩
  | none =>
  cases listed with
  | some listed => exact ⟨_, .bind hpackage (.bind hnames (.bind hlisted (.pure _)))⟩
  | none =>
  cases hlast : foundFault? top root "pom.xml" artifactsFault? with
  | some f =>
    rw [hlast] at hartifacts
    exact ⟨nothing, .bind hpackage (.bind hnames (.bind hlisted (.bind_error hartifacts)))⟩
  | none =>
    rw [hlast] at hartifacts
    cases found <;>
      exact ⟨_, .bind hpackage (.bind hnames (.bind hlisted (.bind hartifacts (.pure _))))⟩

/-- **The metadata of a project are found exactly if no manifest defeats the look at it.** -/
theorem detect_cases (top : FileNode) (root : List String) :
    (∃ m notes, detect top root = .ok (m, notes) ∧ fault? top root = none) ∨
      ∃ f, detect top root = .error f ∧ fault? top root = some f := by
  obtain ⟨m, hm⟩ := finds_survey top root
  have hm := hm []
  unfold detect
  cases hrun : (survey top root).run [] with
  | ok r =>
    rw [hrun] at hm
    cases hfault : fault? top root with
    | none => exact .inl ⟨_, _, rfl, rfl⟩
    | some f => rw [hfault] at hm; cases hm
  | error f =>
    rw [hrun] at hm
    cases hfault : fault? top root with
    | none => rw [hfault] at hm; cases hm
    | some f' => rw [hfault] at hm; cases hm; exact .inr ⟨f, rfl, rfl⟩

end ProjectMetadata
end Conventions
