import Conventions.Project.Manifest
import Conventions.Sequence

/-!
# Project/Metadata — what kind of project it is

The kind of a project, its language, framework and package manager are read from its manifests. A
package comes before requirements, and those before artifacts.
-/

namespace Conventions

/-- **What is known of a project** before its files are read. -/
structure ProjectMetadata where
  projectType : String
  language : String
  framework : String
  packageManager : String
  dependencies : List String
  scripts : List (String × String)
  directories : List (String × String)
  deriving DecidableEq, Repr

namespace ProjectMetadata

/-- What is said of a part that is not known. -/
def unknownPart : String := "Unknown"

/-- What is said when no framework was found. -/
def noFramework : String := "None detected"

/-- A project of which nothing is known. -/
def nothing : ProjectMetadata :=
  ⟨unknownPart, unknownPart, noFramework, unknownPart, [], [], []⟩

instance : Inhabited ProjectMetadata := ⟨nothing⟩

/-! ## What is looked for -/

/-- **A framework that a dependency stands for**, and the kind of project that it makes. -/
structure Framework where
  dependency : String
  name : String
  kind : String
  deriving Repr

/-- The frameworks of packages, the first one found counts. -/
def packageFrameworks : List Framework :=
  [⟨"express", "Express.js", "Express API"⟩, ⟨"@nestjs/core", "NestJS", "NestJS API"⟩,
    ⟨"next", "Next.js", "Next.js Application"⟩, ⟨"fastify", "Fastify", "Fastify API"⟩,
    ⟨"koa", "Koa", "Koa API"⟩, ⟨"react", "React", "React Application"⟩,
    ⟨"vue", "Vue.js", "Vue Application"⟩]

/-- The frameworks of requirements. -/
def requiredFrameworks : List (String × String) :=
  [("django", "Django"), ("fastapi", "FastAPI"), ("flask", "Flask"), ("starlette", "Starlette")]

/-- The frameworks that a part of an artifact's name stands for. -/
def artifactFrameworks : List (String × String) :=
  [("spring-boot", "Spring Boot"), ("quarkus", "Quarkus"), ("micronaut", "Micronaut")]

/-- The files that a package manager leaves behind. -/
def lockFiles : List (String × String) :=
  [("pnpm-lock.yaml", "pnpm"), ("yarn.lock", "yarn"), ("bun.lockb", "bun"), ("bun.lock", "bun"),
    ("package-lock.json", "npm")]

/-- The directories with a purpose. -/
def knownDirectories : List (String × String) :=
  [("src", "source code"), ("src/components", "UI components"), ("src/services", "business logic"),
    ("src/middleware", "middleware functions"), ("src/controllers", "API controllers"),
    ("src/routes", "API routes"), ("src/models", "data models"), ("src/utils", "utility functions"),
    ("src/types", "TypeScript types"), ("app", "application routes"), ("pages/api", "API routes"),
    ("tests", "test files"), ("__tests__", "test files")]

/-- The scripts of a package that are told. -/
def scriptNames : List String := ["dev", "start", "build", "test", "lint"]

/-! ## Packages -/

/-- The keys of a table in a package. -/
def dependenciesOf (key : String) (package : List (String × Json)) : List String :=
  match Json.lookup key package with
  | some (.obj members) => members.map (·.1)
  | _ => []

/-- The scripts of a package. -/
def scriptsOf (package : List (String × Json)) : List (String × String) :=
  match Json.lookup "scripts" package with
  | some (.obj members) =>
    scriptNames.filterMap fun name => (Json.lookup name members).map fun v => (name, v.text)
  | _ => []

/-- The package manager that a package declares, or that has left a file behind. -/
def packageManagerOf (has : String → Bool) (package : List (String × Json)) : String :=
  match Json.lookup "packageManager" package with
  | some (.str s) =>
    if s = "" then lockManager else String.ofList (s.toList.takeWhile (· != '@'))
  | _ => lockManager
where
  lockManager : String := ((lockFiles.find? fun f => has f.1).map (·.2)).getD "npm"

/-- **The metadata of a package.** `has` tells which names are in the directory. -/
def ofPackage (has : String → Bool) (package : List (String × Json)) : ProjectMetadata :=
  let dependencies := dependenciesOf "dependencies" package
  let every := dependenciesOf "devDependencies" package ++ dependencies
  let framework := packageFrameworks.find? fun f => every.contains f.dependency
  let typed := every.contains "typescript" || has "tsconfig.json"
  { projectType := (framework.map (·.kind)).getD "Node.js Project"
    language := if typed then "TypeScript" else "JavaScript"
    framework := (framework.map (·.name)).getD noFramework
    packageManager := packageManagerOf has package
    dependencies := Text.sorted dependencies
    scripts := scriptsOf package
    directories := [] }

/-! ## Requirements and artifacts -/

/-- **The metadata of a project with requirements.** -/
def ofRequirements (has : String → Bool) (names : List String) : ProjectMetadata :=
  { nothing with
    projectType := "Python Project"
    language := "Python"
    framework :=
      ((requiredFrameworks.find? fun f => names.contains f.1).map (·.2)).getD noFramework
    packageManager :=
      if has "poetry.lock" then "poetry" else if has "uv.lock" then "uv" else "pip"
    dependencies := Text.distinct names }

/-- Does a text stand inside another one? -/
def isInside (part whole : List Char) : Bool :=
  match whole with
  | [] => part.isEmpty
  | c :: rest => part.isPrefixOf (c :: rest) || isInside part rest

/-- **The metadata of a project with artifacts.** -/
def ofArtifacts (names : List String) : ProjectMetadata :=
  let found (marker : String) := names.any fun name => isInside marker.toList name.toList
  { nothing with
    projectType := "Maven Project"
    language := "Java"
    framework := ((artifactFrameworks.find? fun f => found f.1).map (·.2)).getD noFramework
    packageManager := "maven"
    dependencies := Text.distinct names }

/-! ## Detection -/

/-- The directories with a purpose that a project has. -/
def directoriesOf (top : FileNode) (root : List String) : List (String × String) :=
  knownDirectories.filter fun d => top.reachesDirectory (root ++ Path.parts d.1)

/-- The metadata of a project, its directories apart. -/
def survey (top : FileNode) (root : List String) : Survey ProjectMetadata := do
  let has (name : String) : Bool := top.reaches (root ++ [name])
  match ← Manifest.package? top root with
  | some package => pure (ofPackage has package)
  | none =>
    match ← Manifest.projectNames? top root, ← Manifest.listedNames? top root with
    | none, none =>
      match ← Manifest.artifacts top root with
      | .named names => pure (ofArtifacts names)
      | .notUnderstood =>
        pure { nothing with projectType := "Maven Project", language := "Java" }
      | .absent =>
        pure { nothing with
          language := if has "tsconfig.json" then "TypeScript" else unknownPart }
    | required, listed =>
      pure (ofRequirements has (required.getD [] ++ listed.getD []))

/-- **The metadata of a project**, given by the names of its directory, with what was noted about
its manifests. -/
def detect (top : FileNode) (root : List String) :
    Except ManifestFault (ProjectMetadata × List ManifestNote) :=
  ((survey top root).run []).map fun (m, notes) =>
    ({ m with directories := directoriesOf top root }, notes)

/-- The metadata as JSON. -/
def document (m : ProjectMetadata) : Json :=
  .obj [("project_type", .str m.projectType), ("language", .str m.language),
    ("framework", .str m.framework), ("package_manager", .str m.packageManager),
    ("dependencies", .arr (m.dependencies.map .str)),
    ("scripts", .obj (m.scripts.map fun (name, s) => (name, .str s))),
    ("directories", .arr (m.directories.map fun (path, purpose) =>
      .obj [("path", .str path), ("purpose", .str purpose)]))]

end ProjectMetadata
end Conventions
