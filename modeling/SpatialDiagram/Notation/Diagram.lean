import SpatialDiagram.Notation.Statement

/-!
# Diagrams

A diagram is what its source says, in the order in which it says it: nodes may
repeat and connections may name nodes that are declared nowhere. `parse` goes
through the statements in turn; a line that is no usable statement is skipped.
-/

namespace SpatialDiagram

namespace Notation

/-- A node as its line and its properties declare it. -/
structure NodeDeclaration where
  id : String
  category : NodeCategory
  name : String
  delimiter : Delimiter
  properties : Properties
  line : Nat
deriving DecidableEq, Repr

/-- A connection as its line declares it. -/
structure ConnectionDeclaration where
  id : String
  category : ConnectionCategory
  source : Endpoint
  target : Endpoint
  label : Option String
  line : Nat
deriving DecidableEq, Repr

namespace NodeDeclaration

/-- The shape that the delimiters of a node stand for. -/
def shape (n : NodeDeclaration) : Shape := n.delimiter.shape

/-- The property of that name as a text. -/
def description (n : NodeDeclaration) : Option String :=
  match n.properties.get? "description" with
  | none => none
  | some .null => none
  | some v => some v.display

end NodeDeclaration

/-- What a source states. -/
structure Diagram where
  title : Option String := none
  description : Option String := none
  nodes : List NodeDeclaration := []
  connections : List ConnectionDeclaration := []
  metadata : Table String String := .empty
deriving DecidableEq, Repr

/-- The logger that a reading writes to. -/
def parserLogger : String := "ast3d_core.parser.parser"

/-- The logger that is told of unknown categories. -/
def categoryLogger : String := "ast3d_core.categories"

/-- The category of a label, with a note when it is unknown. -/
def categoryOf (label : String) : Trace NodeCategory := do
  if (NodeCategory.ofLabel? label).isNone then
    Trace.log .debug categoryLogger
      ("Unknown node category '" ++ label ++ "', using '" ++ NodeCategory.component.name ++ "'.")
  return NodeCategory.ofLabel label

/-- The properties on the lines of a block, in which other lines are left out. -/
def blockProperties (b : Block) : Trace Properties := do
  let ps ← addProperties .empty (b.lines.filterMap fun l => rawPair? l.text)
  unless b.closed do
    Trace.log .debug propertyLogger "Property block was not closed before the end of input."
  return ps

/-- The properties of a node: those of its inline block, or else of the block below it. -/
def nodeProperties (h : NodeHeader) (block : Option Block) : Trace Properties :=
  match inlineBlock? h.remainder, block with
  | some body, _ => inlineProperties body
  | none, some b => blockProperties b
  | none, none => .done .empty

namespace Diagram

/-- Replaces the title or the description. -/
def declareField (d : Diagram) (field : Field) (value : String) : Diagram :=
  match field with
  | .title => { d with title := some value }
  | .description => { d with description := some value }

/-- Connections are numbered from zero in the order of their lines. -/
def declareConnection (d : Diagram) (h : ConnectionHeader) (line : Nat) : Diagram :=
  let c : ConnectionDeclaration :=
    { id := "conn_" ++ toString d.connections.length
      category := ConnectionCategory.ofArrow h.arrow
      source := h.source
      target := h.target
      label := h.label
      line }
  { d with connections := d.connections ++ [c] }

/-- Adds a node with its properties behind those declared before. -/
def declareNode (d : Diagram) (h : NodeHeader) (block : Option Block) (line : Nat) :
    Trace Diagram := do
  let properties ← nodeProperties h block
  let category ← categoryOf h.category
  let n : NodeDeclaration :=
    { id := h.id, category, name := h.name, delimiter := h.delimiter, properties, line }
  return { d with nodes := d.nodes ++ [n] }

/-- Takes up one statement. -/
def declare (d : Diagram) (s : Statement) : Trace Diagram :=
  match s.judgment with
  | .comment => .done d
  | .declaration ⟨field, some value⟩ => .done (d.declareField field value)
  | .declaration ⟨_, none⟩ => .done d
  | .node (some h) => d.declareNode h s.block s.line.number
  | .connection (some h) => .done (d.declareConnection h s.line.number)
  | .metadata m => .done { d with metadata := d.metadata.put m.key m.value }
  | unusable => do
      Trace.log .debug parserLogger
        ("Skipping line " ++ toString s.line.number ++ " (" ++ unusable.kind ++ "): " ++
          Text.quoted (String.ofList s.line.text))
      return d

/-- The title as messages name a diagram; an empty title counts as none. -/
def titleOr (d : Diagram) (default : String) : String :=
  match d.title with
  | some t => if t = "" then default else t
  | none => default

/-- The diagram that a source text states. -/
def ofText (source : List Char) : Trace Diagram := do
  let ls := SourceLine.ofText source
  Trace.log .debug parserLogger
    ("Parsing diagram with " ++ toString ls.length ++ " non-blank line(s).")
  let d ← (statements ls).foldlM declare {}
  Trace.log .info parserLogger
    ("Parsed diagram '" ++ d.titleOr "Untitled" ++ "': " ++ toString d.nodes.length ++
      " node(s), " ++ toString d.connections.length ++ " connection(s).")
  return d

/-- The diagram that a source states, which has to be text. -/
def parse (source : Value) : Trace Diagram :=
  match source with
  | .str s => ofText s.toList
  | v => .fail (.diagnosed (.parsing
      ("Diagram source must be a string, got " ++ v.typeName ++ ".")))

end Diagram

end Notation

end SpatialDiagram
