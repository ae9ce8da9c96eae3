import SpatialDiagram.Config.Load
import SpatialDiagram.Layout.Apply
import SpatialDiagram.Scene.Structure
import SpatialDiagram.Validation

/-!
# Building a graph

A build turns a diagram into a laid-out graph: first the nodes, of which a
later one replaces an earlier one of its name, then the connections between
declared nodes, then the layout of the nodes that are not pinned, and last the
anchors. A node is pinned by a readable position other than the origin.
Problems that the build can cope with become issues; any failure ends the build
with a report.
-/

namespace SpatialDiagram

namespace Build

open Notation

/-- The logger that a build writes to. -/
def builderLogger : String := "ast3d_core.graph_builder"

/-- The name of a graph whose diagram has no title. -/
def untitled : String := "Untitled Graph"

/-! ## Nodes -/

/-- Texts that mean yes, in any case and between blanks. -/
def isYes (v : Value) : Bool :=
  ["true", "yes", "1"].contains (String.ofList (Text.lower (Text.trim v.display.toList)))

/-- The properties of a node as its annotations. -/
def annotationsOf (ps : Properties) : Annotations := ⟨ps.entries.map fun e => (.str e.1, e.2)⟩

/-- The opacity of a node, which its property must spell as a number if it has one. -/
def opacityOf (c : Config) (d : NodeDeclaration) : Except Failure Number :=
  match d.properties.get? "opacity" with
  | none => .ok c.material.opacity
  | some v =>
      match v.asFloat with
      | .ok x => .ok (.float x)
      | .error .tooLarge => .error .tooLarge
      | .error _ => .error (.diagnosed (.coercion "opacity" v "Opacity must be a number." d.id))

/-- The color property of a node, or else the colour of its category. -/
def colorOf (c : Config) (d : NodeDeclaration) : String :=
  match d.properties.get? "color" with
  | none => c.colorFor d.category.name
  | some .null => c.colorFor d.category.name
  | some v => v.display

/-- Notes a property that cannot be read and is left alone. -/
def noticeUnusable (d : NodeDeclaration) (what consequence : String) (code : IssueCode)
    (v : Value) : Trace Unit := do
  Trace.log .warning builderLogger
    ("Node '" ++ d.id ++ "': unusable " ++ what ++ " " ++ v.written ++ ", " ++ consequence ++ ".")
  Validation.noticeCode .warning code (some d.line) [("node_id", .str d.id), ("value", v)]

/-- Applies the scale of a declaration, if it has one that can be read. -/
def scaled (d : NodeDeclaration) (n : Node) : Trace Node :=
  match d.properties.get? "scale" with
  | none => .done n
  | some v => do
      match ← .ofResult (Placement.scale? v) with
      | some s => .ofResult (n.setScale s)
      | none => do
          noticeUnusable d "scale" "using unit scale" .invalidScale v
          return n

/-- Applies the position of a declaration, if it has one that can be read, and tells whether it
pins the node. -/
def positioned (d : NodeDeclaration) (n : Node) : Trace (Node × Bool) :=
  match d.properties.get? "position" with
  | none => .done (n, false)
  | some v => do
      match ← .ofResult (Placement.position? v) with
      | some p => return (n.setPosition p, !p.isOrigin)
      | none => do
          noticeUnusable d "position" "leaving it to the layout" .invalidPosition v
          return (n, false)

/-- The node of a declaration, and whether it is pinned. -/
def nodeOf (c : Config) (d : NodeDeclaration) : Trace (Node × Bool) := do
  let opacity ← .ofResult (opacityOf c d)
  let wireframe := ((d.properties.get? "wireframe").map isYes).getD false
  let n : Node :=
    { Node.make (.str d.id) d.category (.str d.name) d.shape .unit with
      description := (d.description.map Value.str).getD .null
      annotations := annotationsOf d.properties
      style := { color := .str (colorOf c d), opacity, wireframe } }
  let n ← scaled d n
  positioned d n

/-- A graph under construction and the names of its pinned nodes. -/
structure Draft where
  graph : Graph
  pinned : List String := []

/-- Adds a declared node to the graph. It is pinned or not whatever an earlier one of its name was.
-/
def addNode (c : Config) (draft : Draft) (d : NodeDeclaration) : Trace Draft := do
  let (n, isPinned) ← nodeOf c d
  let graph ← draft.graph.addNodeLogged n
  let others := draft.pinned.filter (· ≠ d.id)
  return { graph, pinned := if isPinned then others ++ [d.id] else others }

/-! ## Connections -/

/-- The end of a connection before it is anchored. -/
def terminalOf (e : Endpoint) : Terminal :=
  { node := .str e.node, face := (e.face.map Value.str).getD .null }

/-- A declared connection with its label, which counts as none when it is empty. -/
def connectionOf (d : ConnectionDeclaration) : Connection :=
  let c := Connection.make (.str d.id) d.category (terminalOf d.source) (terminalOf d.target)
  match d.label with
  | some text =>
      if text = "" then c else { c with style.label := some { text := .str text } }
  | none => c

/-- The first end of a connection whose node the graph does not have. -/
def undeclared? (g : Graph) (d : ConnectionDeclaration) : Option String :=
  [d.source.node, d.target.node].find? fun id => (g.node? (.str id)).isNone

/-- Notes an end that names a face its node does not have. -/
def checkFace (g : Graph) (c : Connection) (t : Terminal) : Trace Unit :=
  match g.node? t.node with
  | none => .done ()
  | some n =>
      if t.face = .null || (g.face? t).isSome then .done ()
      else do
        Trace.log .warning builderLogger
          ("Connection '" ++ c.id.display ++ "': node '" ++ n.id.display ++ "' has no face '" ++
            t.face.display ++ "', anchoring to the node centre.")
        Validation.noticeCode .warning .unknownFace none
          (Validation.faceDetails c.id t.face n.id n.shape)

/-- Adds a connection; one whose nodes are not both declared is dropped. -/
def addConnection (g : Graph) (d : ConnectionDeclaration) : Trace Graph :=
  match undeclared? g d with
  | some id => do
      Trace.log .debug builderLogger
        ("Dropping connection '" ++ d.id ++ "': node '" ++ id ++ "' is not declared.")
      Validation.noticeCode .info .connectionDropped (some d.line)
        [("connection_id", .str d.id), ("node_id", .str id)]
      return g
  | none => do
      let c := connectionOf d
      let g ← .ofResult (g.connect c true)
      checkFace g c c.source
      checkFace g c c.target
      return g

/-! ## The whole graph -/

/-- Notices a cycle; the layout copes with it. -/
def checkCycle (g : Graph) : Trace Unit :=
  match g.findCycle with
  | [] => .done ()
  | first :: rest => do
      let cycle := " -> ".intercalate ((first :: rest).map Value.display)
      Trace.log .warning builderLogger
        ("Graph '" ++ g.name.display ++ "' contains a cycle: " ++ cycle)
      Validation.noticeCode .warning .cycleDetected none
        [("node_id", first), ("cycle", .str cycle)]

/-- The graph of a diagram before anything is added to it. -/
def shell (id : String) (d : Diagram) : Graph :=
  { id := .str id
    name := .str (d.titleOr untitled)
    description := (d.description.map Value.str).getD .null
    annotations := ⟨d.metadata.entries.map fun e => (.str e.1, .str e.2)⟩ }

/-- The graph of a diagram before its layout. -/
def assemble (id : String) (c : Config) (d : Diagram) : Trace Draft := do
  Trace.log .info builderLogger ("--- Building graph '" ++ d.titleOr untitled ++ "' ---")
  let draft ← d.nodes.foldlM (addNode c) { graph := shell id d }
  let pinned := draft.pinned.mergeSort fun a b => a ≤ b
  Trace.log .debug builderLogger
    ("Created " ++ toString draft.graph.nodes.length ++ " node(s); pinned: " ++
      (Value.list (pinned.map Value.str)).written)
  let graph ← d.connections.foldlM addConnection draft.graph
  checkCycle graph
  return { draft with graph }

/-- Lays out a graph and computes its anchors. -/
def arrange (layouts : Layout.Registry) (c : Config) (draft : Draft) : Trace Graph := do
  let spacing ← .ofResult (Placement.toFloat c.spacing)
  let g ← Layout.applyWith layouts c.algorithm
    { graph := draft.graph, pinned := draft.pinned.map Value.str, spacing }
  return g.refreshAnchors

/-- The graph of a diagram. -/
def graphOf (layouts : Layout.Registry) (id : String) (c : Config) (d : Diagram) :
    Trace Graph := do
  let assembled := assemble id c d
  let draft ← assembled
  let g ← arrange layouts c draft
  Trace.log .info builderLogger
    ("--- Graph '" ++ g.name.display ++ "' built: " ++ toString g.nodes.length ++ " node(s), " ++
      toString g.connections.length ++ " connection(s), " ++
      toString assembled.issues.length ++ " issue(s). ---")
  return g

/-- The report of a failure that ended a build. -/
def reportOf : Failure → String
  | .diagnosed d => d.report.render
  | f => Report.render
      { errorType := "An Unexpected Error Occurred (" ++ f.kind ++ ")"
        details := "The graph builder encountered an unexpected internal error: " ++
          f.internalText
        suggestion := "This may indicate a bug in ast3d-core. Please review the traceback." }

/-- Builds a diagram with given layouts, under a name that the caller chooses for the graph; there
may be none to build. -/
def runWith (layouts : Layout.Registry) (id : String) (c : Config) (d : Option Diagram) :
    Trace Graph :=
  let built := match d with
    | some d => graphOf layouts id c d
    | none => .fail (.noField "NoneType" "title")
  built.mapFailure fun f => .build (reportOf f)

/-- Builds a diagram. -/
def run (id : String) (c : Config) (d : Diagram) : Trace Graph := runWith .standard id c (some d)

end Build

end SpatialDiagram
