import SpatialDiagram.Text.Lines
import SpatialDiagram.Value.Display

/-!
# Diagnostic reports

Every error that can describe itself does so in one fixed layout: what kind of
error it is, where it occurred as far as that is known, the details, and advice.
-/

namespace SpatialDiagram

/-- What is told about a failure. -/
structure Report where
  errorType : String
  details : String
  suggestion : String
  node : Value := .null
  line : Value := .null
  input : Value := .null
  source : Value := .null

namespace Report

/-- The lines of a text, each moved in by two blanks. -/
def indented (s : String) : List String :=
  (Text.lines s.toList).map fun l => "  " ++ String.ofList l

/-- Facts that are absent have no line, and without a suggestion its heading is missing too. -/
def render (r : Report) : String :=
  let fact (v : Value) (label : String → String) : List String :=
    if v.isPresent then [label v.display] else []
  "\n".intercalate <|
    ["\n", "================ ast3d-core: Diagnostic Report ================",
      "Error Type:     " ++ r.errorType] ++
    fact r.node ("Node:           " ++ ·) ++
    fact r.line ("Line:           " ++ ·) ++
    fact r.input (fun s => "User Input:     '" ++ s ++ "'") ++
    fact r.source ("Source File:    " ++ ·) ++
    ["\nDetails:"] ++ indented r.details ++
    (if r.suggestion = "" then [] else "\nSuggestion:" :: indented r.suggestion) ++
    ["==============================================================="]

end Report

end SpatialDiagram
