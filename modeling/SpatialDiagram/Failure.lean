import SpatialDiagram.Geometry.Vec
import SpatialDiagram.Issue
import SpatialDiagram.Json.Reader
import SpatialDiagram.Report
import SpatialDiagram.Sorting
import SpatialDiagram.Value.Order

/-!
# Failures

A diagnosis is a failure the program foresees and can explain in a report.
The other failures arise while a value is read that does not have the form its
place needs. Each failure has a kind, a text, and, where it is diagnosed, a
report.
-/

namespace SpatialDiagram

/-- A failure that the program itself diagnoses. -/
inductive Diagnosis where
  /-- Something about the diagram text in general. -/
  | general (details : String)
  /-- The diagram source is no text. -/
  | parsing (details : String)
  /-- A property that has to be a number is none. -/
  | coercion (key : String) (value : Value) (details : String) (node : Option String)
  /-- A scale that no node can have. -/
  | transform (scale : Vec Float) (details : String)
  /-- A connection between nodes of which some are missing. -/
  | unknownNodes (connection : Value) (missing : List Value)
  /-- The issues of a diagram that was checked. -/
  | invalid (issues : List Issue)
  /-- A configuration that breaks its rules: one text, or messages by field. -/
  | config (errors : Value) (source : Option String)
deriving DecidableEq, Repr

/-- What a computation can end in instead of a value. -/
inductive Failure where
  | diagnosed (d : Diagnosis)
  /-- A build failed; the text is the report of the cause. -/
  | build (report : String)
  /-- A diagram was refused after its check; the text is the report. -/
  | refused (report : String)
  /-- A value of a type that its place cannot take. -/
  | wrongType
  /-- A value that has no such field because it is no record. -/
  | noField (typeName field : String)
  | missingKey (key : Value)
  | outOfRange
  /-- An integer beyond all floating-point numbers. -/
  | tooLarge
  | notNumeric (text : String)
  | notMember (value : Value) (family : String)
  /-- An entry of a mapping that is given as a list and is no pair. -/
  | entryLength (index length : Nat)
  | digitLimit (count : Nat)
  /-- An integer of too many digits to be written into a message. -/
  | unwritable
  /-- JSON text that is malformed, with the message that says where. -/
  | json (message : String)
  /-- A configuration that is no mapping. -/
  | notDocument (raw : Value)
  /-- An error of the base kind, which has no report to give. -/
  | noReport
deriving DecidableEq, Repr

namespace Diagnosis

/-- The name under which a diagnosis is known. -/
def kind : Diagnosis → String
  | general _ => "BaseParsingError"
  | parsing _ => "ParsingError"
  | coercion .. => "PropertyCoercionError"
  | transform .. => "InvalidTransformError"
  | unknownNodes .. => "UnknownNodeError"
  | invalid _ => "DiagramValidationError"
  | config .. => "ConfigParsingError"

/-- The components of a scale as a message lists them. -/
def scaleTexts (scale : Vec Float) : String := ", ".intercalate (scale.components.map floatText)

/-- One line per field, in the order of the fields, or one line for a single text. -/
def errorLines : Value → List String
  | .mapping entries =>
      let sorted := (Sorting.sort (fun a b => a.1.isLess? b.1) entries).getD entries
      sorted.map fun e => "  - Field '" ++ e.1.display ++ "': " ++ e.2.display
  | v => ["  - " ++ v.display]

/-- The issues of the gravest level. -/
def errorIssues (issues : List Issue) : List Issue := issues.filter Issue.isError

/-- The errors among some issues, each on a line of its own. -/
def issueLines (issues : List Issue) : String :=
  "\n".intercalate ((errorIssues issues).map fun i => "  - " ++ i.text)

/-- How many of some issues are errors. -/
def errorCount (issues : List Issue) : String := toString (errorIssues issues).length

/-- The message of a diagnosis. -/
def text : Diagnosis → String
  | general details => details
  | parsing details => "Parsing error: " ++ details
  | coercion key value details node =>
      let owner := match node with
        | some n => if n = "" then "" else " of node '" ++ n ++ "'"
        | none => ""
      "Cannot coerce property '" ++ key ++ "'" ++ owner ++ " (value " ++ value.written ++ "): " ++
        details
  | transform scale details => "Invalid transform scale (" ++ scaleTexts scale ++ "): " ++ details
  | unknownNodes connection missing =>
      "Cannot add connection '" ++ connection.display ++ "': node(s) " ++
        (Value.list missing).written ++ " not found in the graph."
  | invalid issues =>
      if (errorIssues issues).isEmpty then
        "DiagramValidationError was raised with no error-level issues."
      else "Diagram validation failed with " ++ errorCount issues ++ " error(s):\n" ++
        issueLines issues
  | config errors _ =>
      "Builder configuration is invalid:\n" ++ "\n".intercalate (errorLines errors)

/-- A text, or null. -/
def ofOption : Option String → Value
  | some s => .str s
  | none => .null

/-- The report that goes with a diagnosis. -/
def report : Diagnosis → Report
  | general details =>
      { errorType := "Generic Parsing Error"
        details
        suggestion := "Please check the format and content of the diagram text." }
  | parsing details =>
      { errorType := "Diagram Parsing Error"
        details
        suggestion :=
          "Pass the diagram source as a single string of newline-separated statements." }
  | d@(coercion key value _ node) =>
      { errorType := "Property Coercion Error"
        details := d.text
        suggestion := "Give '" ++ key ++ "' a plain numeric value, e.g. '" ++ key ++ ": 0.5'."
        node := ofOption node
        input := .str (key ++ ": " ++ value.display) }
  | transform scale details =>
      { errorType := "Invalid Transform"
        details
        suggestion := "Scale components must be positive, finite numbers (e.g. 'scale: 2' or " ++
          "'scale: 1, 2, 1')."
        input := .str (scaleTexts scale) }
  | d@(unknownNodes _ missing) =>
      { errorType := "Unknown Node"
        details := d.text
        suggestion := "Add both endpoint nodes to the graph before connecting them."
        node := .str (", ".intercalate (missing.map Value.display)) }
  | invalid issues =>
      let first := (errorIssues issues).head?
      { errorType := "Diagram Validation Error"
        details :=
          "The diagram declares nodes or connections that cannot be built consistently.\n" ++
          "Found " ++ errorCount issues ++ " error(s). See details below:\n\n" ++
          issueLines issues
        suggestion :=
          "Declare every node a connection refers to, and give each node a unique ID."
        node := ofOption (first.bind Issue.node)
        line := ((first.bind Issue.line).map Value.int).getD .null }
  | d@(config _ source) =>
      { errorType := "Configuration Error"
        details := d.text
        suggestion :=
          "Valid layout algorithms are: hierarchical, force-directed, circular, grid. " ++
          "'node_spacing' must be a positive number and material values lie in [0, 1]."
        source := ofOption source }

end Diagnosis

namespace Failure

/-- What is said of an integer that has too many digits to be written. -/
def writingLimitMessage : String :=
  "Exceeds the limit (4300 digits) for integer string conversion; " ++
    "use sys.set_int_max_str_digits() to increase the limit"

/-- What kind of failure it is, as reports and answers name it. -/
def kind : Failure → String
  | diagnosed d => d.kind
  | build _ => "GraphBuildError"
  | refused _ => "DiagramValidationFailure"
  | wrongType => "TypeError"
  | noField .. => "AttributeError"
  | missingKey _ => "KeyError"
  | outOfRange => "IndexError"
  | tooLarge => "OverflowError"
  | notNumeric _ => "ValueError"
  | notMember .. => "ValueError"
  | entryLength .. => "ValueError"
  | digitLimit _ => "ValueError"
  | unwritable => "ValueError"
  | json _ => "JSONDecodeError"
  | notDocument _ => "DocumentError"
  | noReport => "NotImplementedError"

/-- What the failure says, where it says something of its own. -/
def message? : Failure → Option String
  | diagnosed d => some d.text
  | build report => some report
  | refused report => some report
  | missingKey key => some key.written
  | notNumeric s => some ("could not convert string to float: " ++ Text.quoted s)
  | notMember v family => some (v.written ++ " is not a valid " ++ family)
  | entryLength index length =>
      some ("dictionary update sequence element #" ++ toString index ++ " has length " ++
        toString length ++ "; 2 is required")
  | digitLimit count => some (Json.digitLimitMessage count)
  | unwritable => some writingLimitMessage
  | json message => some message
  | notDocument raw => some ("'" ++ raw.display ++ "' is not a document, must be a dict")
  | _ => none

/-- The text of a failure that no part of the program foresaw, for the report of a build. -/
def internalText : Failure → String
  | noField typeName field => "'" ++ typeName ++ "' object has no attribute '" ++ field ++ "'"
  | tooLarge => "int too large to convert to float"
  | f => f.message?.getD ""

/-- The report, where the failure is diagnosed. -/
def report? : Failure → Option String
  | diagnosed d => some d.report.render
  | _ => none

end Failure

end SpatialDiagram
