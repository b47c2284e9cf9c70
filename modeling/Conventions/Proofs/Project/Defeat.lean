import Conventions.Proofs.Project.Manifest
import Conventions.Proofs.Xml.Encoding

/-!
# Proofs/Project/Defeat — what a manifest has to hold to defeat a look at a project

The manifests are looked at one after the other, each only if those before it say nothing. Missing,
oversized and malformed ones, and those in another encoding than UTF-8, never defeat the look: it
takes a number with too many digits, too deep a nesting, or a declared encoding that is not read
(`detect_eq_error_iff`).
-/

namespace Conventions

open Xml (declaredEncoding? inEncoding)

namespace Manifest

variable {top : FileNode} {root : List String} {s : String} {fault : ManifestFault}

/-- What a fault of a document is to a look at the project; a malformed one is passed over. -/
def documentFault? : Xml.Fault → Option ManifestFault
  | .unknownEncoding => some .unknownEncoding
  | .wideEncoding => some .wideEncoding
  | .brokenEncoding => some .brokenEncoding
  | .malformed => none

/-- **An encoding that is not read**, whatever is written in it. -/
def Unread (name : String) (fault : ManifestFault) : Prop :=
  ∃ f, inEncoding name [] = .error f ∧ documentFault? f = some fault

theorem artifactsFault?_eq : artifactsFault? s =
    match Xml.read s with
    | .error f => documentFault? f
    | .ok _ => none := by
  unfold artifactsFault?
  cases Xml.read s with
  | ok e => rfl
  | error f => cases f <;> rfl

/-- **A `pom.xml` defeats a look exactly if it declares an encoding that is not read.** -/
theorem artifactsFault?_eq_some_iff : artifactsFault? s = some fault ↔
    ∃ name, declaredEncoding? s = some name ∧ Unread name fault := by
  have hne {f : Xml.Fault} (h : documentFault? f = some fault) : f ≠ .malformed := by
    rintro rfl
    cases h
  rw [artifactsFault?_eq]
  constructor
  · intro h
    split at h
    case h_1 f hread =>
      obtain ⟨name, hname, hunread⟩ := (Xml.read_eq_error_iff (hne h)).1 hread
      exact ⟨name, hname, f, hunread, h⟩
    case h_2 => cases h
  · rintro ⟨name, hname, f, hunread, h⟩
    rw [(Xml.read_eq_error_iff (hne h)).2 ⟨name, hname, hunread⟩]
    exact h

/-- **No package is told of**: there is no `package.json` that counts, or it is malformed, or it holds
something else than an object. -/
def PassesPackage (top : FileNode) (root : List String) : Prop :=
  ∀ s, found? top root "package.json" = some s →
    (∃ f, Json.read s = .error f ∧ f.isMalformed = true) ∨
      ∃ v, Json.read s = .ok v ∧ ∀ members, v ≠ .obj members

/-- **What defeats a look at a project**: a package, the requirements behind it, or the artifacts
behind both. -/
inductive Defeats (top : FileNode) (root : List String) : ManifestFault → Prop
  | packageDigits {s : String} (h : found? top root "package.json" = some s)
      (hread : Json.read s = .error .tooManyDigits) : Defeats top root .tooManyDigits
  | packageDepth {s : String} (h : found? top root "package.json" = some s)
      (hread : Json.read s = .error .tooDeep) : Defeats top root .tooDeep
  | projectDigits {s : String} (hpasses : PassesPackage top root)
      (h : found? top root "pyproject.toml" = some s)
      (hread : Toml.read s = .error .tooManyDigits ∨
        ∃ document, Toml.read s = .ok document ∧ anyTooLong (requirementsOf document) = true) :
      Defeats top root .tooManyDigits
  | projectDepth {s : String} (hpasses : PassesPackage top root)
      (h : found? top root "pyproject.toml" = some s) (hread : Toml.read s = .error .tooDeep) :
      Defeats top root .tooDeep
  | encoding {s name : String} {fault : ManifestFault} (hpasses : PassesPackage top root)
      (hproject : found? top root "pyproject.toml" = none)
      (hlisted : found? top root "requirements.txt" = none)
      (h : found? top root "pom.xml" = some s) (hname : declaredEncoding? s = some name)
      (hunread : Unread name fault) : Defeats top root fault

theorem packageFault?_eq_some_iff : packageFault? s = some fault ↔
    Json.read s = .error .tooManyDigits ∧ fault = .tooManyDigits ∨
      Json.read s = .error .tooDeep ∧ fault = .tooDeep := by
  unfold packageFault?
  cases Json.read s with
  | ok v => simp
  | error f => cases f <;> cases fault <;> simp

theorem projectFault?_eq_some_iff : projectFault? s = some fault ↔
    (Toml.read s = .error .tooManyDigits ∨
        ∃ document, Toml.read s = .ok document ∧ anyTooLong (requirementsOf document) = true) ∧
        fault = .tooManyDigits ∨
      Toml.read s = .error .tooDeep ∧ fault = .tooDeep := by
  unfold projectFault?
  cases Toml.read s with
  | ok document => cases fault <;> simp
  | error f => cases f <;> cases fault <;> simp

/-- A package that is passed over neither defeats the look nor ends it. -/
theorem passesPackage_iff : PassesPackage top root ↔
    foundFault? top root "package.json" packageFault? = none ∧ foundPackage? top root = none := by
  unfold PassesPackage foundFault? foundPackage?
  cases found? top root "package.json" with
  | none => simp
  | some s =>
    simp only [Option.some.injEq, forall_eq', Option.bind_some, packageFault?, packageIn?]
    cases Json.read s with
    | ok v => cases v <;> simp
    | error f => cases f <;> simp [JsonFault.isMalformed]

theorem Defeats.fault?_eq (h : Defeats top root fault) : fault? top root = some fault := by
  unfold fault?
  cases h with
  | packageDigits h hread =>
    simp [foundFault?, h, packageFault?_eq_some_iff.2 (.inl ⟨hread, rfl⟩)]
  | packageDepth h hread =>
    simp [foundFault?, h, packageFault?_eq_some_iff.2 (.inr ⟨hread, rfl⟩)]
  | projectDigits hpasses h hread =>
    obtain ⟨hsound, hnone⟩ := passesPackage_iff.1 hpasses
    rw [hsound, hnone]
    simp [foundFault?, h, projectFault?_eq_some_iff.2 (.inl ⟨hread, rfl⟩)]
  | projectDepth hpasses h hread =>
    obtain ⟨hsound, hnone⟩ := passesPackage_iff.1 hpasses
    rw [hsound, hnone]
    simp [foundFault?, h, projectFault?_eq_some_iff.2 (.inr ⟨hread, rfl⟩)]
  | encoding hpasses hproject hlisted h hname hunread =>
    obtain ⟨hsound, hnone⟩ := passesPackage_iff.1 hpasses
    rw [hsound, hnone]
    simp [foundFault?, hproject, hlisted, h, artifactsFault?_eq_some_iff.2 ⟨_, hname, hunread⟩]

end Manifest

namespace ProjectMetadata

open Manifest

end ProjectMetadata
end Conventions
