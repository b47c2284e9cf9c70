import Conventions.Catalogue
import Conventions.Evidence
import Conventions.Redaction
import Conventions.Grammar.Program
import Conventions.Files.Path

/-!
# Extraction — the evidence in a syntax tree

Every node of a walk is shown to the shapes for its kind. The first proof of a label at a place
counts; what remains is listed by line, category, facet, label and shape.
-/

namespace Conventions

/-- **A shape recognised**, with the node that proves it. -/
structure Hit where
  shape : Shape
  proof : Node

namespace Hit

/-- What two hits must share to be the same observation: the label and the place. -/
def key (h : Hit) : Category × String × String × Span :=
  (h.shape.category, h.shape.facet, h.shape.label, h.proof.span)

/-- The first hit of each key; `seen` are the keys met before. -/
def firsts (seen : List (Category × String × String × Span)) : List Hit → List Hit
  | [] => []
  | h :: rest =>
    if seen.contains h.key then firsts seen rest else h :: firsts (h.key :: seen) rest

/-- The observation of a hit. -/
def evidence (s : Source) (file : String) (h : Hit) : Evidence where
  category := h.shape.category.name
  facet := h.shape.facet
  label := h.shape.label
  excerpt := Redaction.secrets (h.proof.excerpt s)
  file := file
  line := h.proof.line s
  strength := .binary h.shape.strength
  shape := h.shape.name

end Hit

namespace Node

/-- The hits of some shapes at a visit. -/
def hitsOf (s : Source) (shapes : List Shape) (v : Visit) : List Hit :=
  shapes.filterMap fun shape => (shape.proof? s v).map fun proof => ⟨shape, proof⟩

/-- The hits in a tree, in document order. -/
def hits (s : Source) (root : Node) : List Hit :=
  root.walk.flatMap fun v => hitsOf s (Catalogue.shapesFor v.node.kind) v

/-- **The evidence in a tree.** -/
def evidence (s : Source) (file : String) (root : Node) : List Evidence :=
  ((Hit.firsts [] (root.hits s)).map (·.evidence s file)).mergeSort fun a b =>
    (Evidence.listing a b).isLE

end Node

/-! ## Files -/

/-- **The evidence in a source file** of a path, or why it has no syntax tree. -/
def Source.evidence (s : Source) (path : String) : Except SourceFault (List Evidence) :=
  (s.parse (Path.extension path)).map fun root => root.evidence s path

/-- **What a source file says**, a file without a syntax tree being no fault. -/
def Source.extraction (s : Source) (path : String) : Extraction :=
  match s.evidence path with
  | .ok es => .ofEvidence es
  | .error fault => .failed fault.message

end Conventions
