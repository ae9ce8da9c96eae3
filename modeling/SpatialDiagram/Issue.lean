import SpatialDiagram.Keyed
import SpatialDiagram.Value.Display

/-!
# Issues

An issue is one problem found in a diagram, before or during a build. Its
message fills the template of its code with the details of the case;
`IssueCode.fill` reports the first detail that is missing.
-/

namespace SpatialDiagram

/-- How grave an issue is. -/
inductive IssueLevel where
  | error
  | warning
  | info
deriving DecidableEq, Repr

namespace IssueLevel

/-- The levels from the gravest one on. -/
def all : List IssueLevel := [error, warning, info]

/-- The name under which a level is stored. -/
def name : IssueLevel → String
  | error => "ERROR"
  | warning => "WARNING"
  | info => "INFO"

/-- The level that is stored under a name. -/
def ofName? (s : String) : Option IssueLevel := all.find? fun l => l.name = s

end IssueLevel

/-- A message template is made of fixed text and of slots for details. -/
inductive Piece where
  | text (s : String)
  | slot (name : String)
deriving DecidableEq, Repr

/-- What can be wrong with a diagram. -/
inductive IssueCode where
  | duplicateNodeId
  | unknownSourceNode
  | unknownTargetNode
  | unknownFace
  | invalidColor
  | opacityRange
  | invalidScale
  | invalidPosition
  | cycleDetected
  | connectionDropped
deriving DecidableEq, Repr

/-- The facts an issue is about, by name. -/
abbrev Details := Table String Value

namespace IssueCode

open Piece

/-- The codes in the order in which they are defined. -/
def all : List IssueCode :=
  [duplicateNodeId, unknownSourceNode, unknownTargetNode, unknownFace, invalidColor,
   opacityRange, invalidScale, invalidPosition, cycleDetected, connectionDropped]

/-- The name under which a code is stored. -/
def name : IssueCode → String
  | duplicateNodeId => "DUPLICATE_NODE_ID"
  | unknownSourceNode => "UNKNOWN_SOURCE_NODE"
  | unknownTargetNode => "UNKNOWN_TARGET_NODE"
  | unknownFace => "UNKNOWN_FACE"
  | invalidColor => "INVALID_COLOR"
  | opacityRange => "OPACITY_RANGE"
  | invalidScale => "INVALID_SCALE"
  | invalidPosition => "INVALID_POSITION"
  | cycleDetected => "CYCLE_DETECTED"
  | connectionDropped => "CONNECTION_DROPPED"

/-- The code that is stored under a name. -/
def ofName? (s : String) : Option IssueCode := all.find? fun c => c.name = s

/-- Every code is found by its own name. -/
theorem ofName_name (c : IssueCode) : ofName? c.name = some c := by cases c <;> decide

/-- The message of a code, with slots for its details. -/
def pieces : IssueCode → List Piece
  | duplicateNodeId => [text "Duplicate node ID: ", slot "node_id"]
  | unknownSourceNode =>
      [text "Connection references unknown source node: ", slot "node_id"]
  | unknownTargetNode =>
      [text "Connection references unknown target node: ", slot "node_id"]
  | unknownFace =>
      [text "Connection '", slot "connection_id", text "' anchors to face '", slot "face_id",
       text "', which a ", slot "geometry", text " node '", slot "node_id",
       text "' does not have. Available faces: ", slot "available_faces", text "."]
  | invalidColor =>
      [text "Node '", slot "node_id", text "' has an unrecognized color '", slot "value",
       text "'."]
  | opacityRange =>
      [text "Node '", slot "node_id", text "' has opacity '", slot "value",
       text "', which is not a number in [0, 1]."]
  | invalidScale =>
      [text "Node '", slot "node_id", text "' has scale '", slot "value",
       text "', which is not a positive number or triple; a unit scale is used."]
  | invalidPosition =>
      [text "Node '", slot "node_id", text "' has position '", slot "value",
       text "', which is not a 3-component vector; the node is placed by the layout."]
  | cycleDetected => [text "Connections form a cycle: ", slot "cycle", text "."]
  | connectionDropped =>
      [text "Connection '", slot "connection_id", text "' was dropped because node '",
       slot "node_id", text "' is not declared."]

/-- The template as it is quoted, with each slot's name in braces. -/
def template (c : IssueCode) : String :=
  String.join (c.pieces.map fun
    | text s => s
    | slot n => "\x7b" ++ n ++ "\x7d")

/-- Fills the slots; fails with the first name that the details lack. -/
def fill (details : Details) : List Piece → Except String String
  | [] => .ok ""
  | text s :: ps => (fill details ps).map (s ++ ·)
  | slot n :: ps =>
      match details.get? n with
      | none => .error n
      | some v => (fill details ps).map (v.display ++ ·)

/-- Details in their written form. -/
def writtenDetails (details : Details) : String :=
  (Value.record details.entries).written

/-- The message of a code for given details; without a needed detail it says so. -/
def message (c : IssueCode) (details : Details) : String :=
  match fill details c.pieces with
  | .ok s => s
  | .error n =>
      "Error formatting message for " ++ c.name ++ ": Missing key " ++ Text.quoted n ++
        ". Template: '" ++ c.template ++ "' Args: " ++ writtenDetails details

end IssueCode

/-- Something that was noticed about a diagram, and where. -/
structure Issue where
  level : IssueLevel
  code : String
  message : String
  node : Option String := none
  line : Option Int := none
  details : Details := .empty
deriving DecidableEq, Repr

namespace Issue

/-- Whether an issue keeps a diagram from being valid. -/
def isError (i : Issue) : Bool := i.level = .error

/-- An issue with the message of its code; the node it concerns is the detail of that name. -/
def ofCode (level : IssueLevel) (code : IssueCode) (line : Option Nat)
    (details : List (String × Value)) : Issue :=
  let details := Table.ofList details
  { level
    code := code.name
    message := code.message details
    node := (details.get? "node_id").map Value.display
    line := line.map Int.ofNat
    details }

/-- The details in the order of their names. -/
def sortedDetails (i : Issue) : List (String × Value) :=
  i.details.entries.mergeSort fun a b => a.1 ≤ b.1

/-- The issue on one line. Zero lines, empty node names and absent details are left out. -/
def text (i : Issue) : String :=
  let line := match i.line with
    | some n => if n = 0 then [] else ["Line: " ++ toString n]
    | none => []
  let node := match i.node with
    | some s => if s = "" then [] else ["Node: " ++ s]
    | none => []
  let shown := i.sortedDetails.filter fun d => d.1 ≠ "node_id" && d.1 ≠ "line_number"
  let details :=
    if shown.isEmpty then []
    else ["Details: (" ++ ", ".intercalate (shown.map fun d => d.1 ++ "=" ++ d.2.display) ++ ")"]
  " ".intercalate
    (["[" ++ i.level.name ++ " - " ++ i.code ++ "]"] ++ line ++ node ++
      ["Message: " ++ i.message] ++ details)

end Issue

end SpatialDiagram
