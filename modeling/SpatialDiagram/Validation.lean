import SpatialDiagram.Color
import SpatialDiagram.Digraph
import SpatialDiagram.Notation.Diagram
import SpatialDiagram.Placement
import SpatialDiagram.Value.Access

/-!
# Validation

A diagram is checked before it is built. Repeated names of nodes and
connections to nodes that are not declared are errors; unknown faces,
implausible properties and a cycle are warnings, because a build can cope with
them. The issues come grouped by check.
-/

namespace SpatialDiagram

namespace Validation

open Notation

/-- The logger that a validation writes to. -/
def validatorLogger : String := "ast3d_core.validation.statement_validator"

/-- Notices an issue with the message of its code. -/
def noticeCode (level : IssueLevel) (code : IssueCode) (line : Option Nat)
    (details : List (String × Value)) : Trace Unit :=
  Trace.notice (.ofCode level code line details)

/-- The nodes that repeat the name of an earlier one. -/
def repeated : (earlier : List String) → List NodeDeclaration → List NodeDeclaration
  | _, [] => []
  | earlier, n :: ns =>
      if n.id ∈ earlier then n :: repeated earlier ns else repeated (n.id :: earlier) ns

/-- Notices every node whose name an earlier one has. -/
def checkNames (d : Diagram) : Trace Unit :=
  (repeated [] d.nodes).forM fun n =>
    noticeCode .error .duplicateNodeId (some n.line) [("node_id", .str n.id)]

/-- The last declaration of a name. -/
def declared? (d : Diagram) (id : String) : Option NodeDeclaration :=
  Keyed.find? NodeDeclaration.id id d.nodes.reverse

/-- The facts about a face that its node does not have. -/
def faceDetails (connection face node : Value) (shape : Shape) : List (String × Value) :=
  [("connection_id", connection), ("face_id", face), ("node_id", node),
    ("geometry", .str shape.name), ("available_faces", .str (", ".intercalate (Face.idsOf shape)))]

/-- Notices an end of a connection whose node is not declared or lacks the face. -/
def checkEnd (d : Diagram) (c : ConnectionDeclaration) (e : Endpoint) (missing : IssueCode) :
    Trace Unit :=
  match declared? d e.node, e.face with
  | none, _ => noticeCode .error missing (some c.line) [("node_id", .str e.node)]
  | some _, none => .done ()
  | some n, some face =>
      if face ∈ Face.idsOf n.shape then .done ()
      else noticeCode .warning .unknownFace (some c.line)
        (faceDetails (.str c.id) (.str face) (.str n.id) n.shape)

/-- Checks both ends of a connection. -/
def checkConnection (d : Diagram) (c : ConnectionDeclaration) : Trace Unit := do
  checkEnd d c c.source .unknownSourceNode
  checkEnd d c c.target .unknownTargetNode

/-- Whether a value is a number from zero to one, or a text that spells one. -/
def isOpacity (v : Value) : Except Failure Bool :=
  match v.asFloat with
  | .ok x => .ok (0.0 ≤ x && x ≤ 1.0)
  | .error .tooLarge => .error .tooLarge
  | .error _ => .ok false

/-- Notes a property of a node that does not pass its check. -/
def checkProperty (n : NodeDeclaration) (name : String) (code : IssueCode)
    (passes : Value → Except Failure Bool) : Trace Unit :=
  match n.properties.get? name with
  | none => .done ()
  | some v => do
      if ← .ofResult (passes v) then return ()
      else noticeCode .warning code (some n.line) [("node_id", .str n.id), ("value", v)]

/-- Checks the properties of a node that a build reads. -/
def checkProperties (n : NodeDeclaration) : Trace Unit := do
  checkProperty n "color" .invalidColor fun v => .ok v.isColor
  checkProperty n "opacity" .opacityRange isOpacity
  checkProperty n "scale" .invalidScale fun v => (Placement.scale? v).map Option.isSome
  checkProperty n "position" .invalidPosition fun v => (Placement.position? v).map Option.isSome

/-- The declared names in the order in which they first appear. -/
def names (d : Diagram) : List String := (d.nodes.map NodeDeclaration.id).eraseDups

/-- The declared nodes with the connections between them. -/
def digraph (d : Diagram) : Digraph String :=
  .ofEdges (names d) (d.connections.map fun c => (c.source.node, c.target.node))

/-- Notices a cycle of the connections between declared nodes. -/
def checkCycle (d : Diagram) : Trace Unit :=
  match (digraph d).findCycle? with
  | none => .done ()
  | some cycle => noticeCode .warning .cycleDetected none
      [("node_id", .str (cycle.headD "")), ("cycle", .str (" -> ".intercalate cycle))]

/-- All checks of a diagram, in the order of their issues. -/
def checks (d : Diagram) : Trace Unit := do
  checkNames d
  d.connections.forM (checkConnection d)
  d.nodes.forM checkProperties
  checkCycle d

/-- The issues of one level. -/
def ofLevel (level : IssueLevel) (issues : List Issue) : List Issue :=
  issues.filter fun i => i.level = level

/-- The issues of a diagram. -/
def issues (d : Diagram) : Trace (List Issue) := do
  let found ← (checks d).collect
  Trace.log .info validatorLogger <|
    if found.isEmpty then "Validation complete with no issues found."
    else "Validation complete. Found: " ++ toString (ofLevel .error found).length ++ " errors, " ++
      toString (ofLevel .warning found).length ++ " warnings."
  return found

end Validation

/-- The outcome of a validation in messages. -/
structure Verdict where
  errors : List String
  warnings : List String
deriving DecidableEq, Repr

namespace Verdict

/-- Whether there are no errors. -/
def isValid (v : Verdict) : Bool := v.errors.isEmpty

/-- The messages of the errors and of the warnings. -/
def ofIssues (issues : List Issue) : Verdict :=
  { errors := (Validation.ofLevel .error issues).map Issue.message
    warnings := (Validation.ofLevel .warning issues).map Issue.message }

end Verdict

end SpatialDiagram
