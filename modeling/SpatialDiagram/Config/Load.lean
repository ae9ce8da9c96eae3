import SpatialDiagram.Config.Basic
import SpatialDiagram.Config.Schema
import SpatialDiagram.Trace

/-!
# Loading a configuration

A document is checked against the schema; then the settings it holds replace
the defaults, and its colours are added to the default ones. An absent or empty
document means the defaults.
-/

namespace SpatialDiagram

namespace Config

/-- The logger that a loading writes to. -/
def configLogger : String := "ast3d_core.config"

/-- The numbers of a material, each from zero to one. -/
def materialSchema : List (String × Schema) :=
  [("metalness", .number .unitInterval), ("roughness", .number .unitInterval),
   ("opacity", .number .unitInterval)]

/-- The fields that a document may have. -/
def schema : List (String × Schema) :=
  [("layout", .record
      [("algorithm", .text (.oneOf (LayoutAlgorithm.all.map LayoutAlgorithm.name))),
       ("node_spacing", .number .positive)]),
   ("visual", .record
      [("theme", .text (.oneOf ["dark", "light", "custom"])),
       ("colors", .table (.text .notEmpty)),
       ("default_color", .text .notEmpty),
       ("material", .record materialSchema)])]

/-- A field of a mapping, or of nothing. -/
def section? (v : Option Value) (name : String) : Option Value := v.bind fun v => v.field? name

/-- The spacing that a document gives. -/
def spacingOf? (doc : Value) : Option Value := section? (doc.field? "layout") "node_spacing"

/-- A value that is a text. -/
def textOf? : Value → Option String
  | .str s => some s
  | _ => none

/-- The texts of a mapping from texts to texts. -/
def paletteOf (v : Value) : List (String × String) :=
  match v with
  | .mapping entries => entries.filterMap fun e =>
      match e with
      | (.str k, .str c) => some (k, c)
      | _ => none
  | _ => []

/-- The material that a document gives, with the default where it gives none. -/
def materialOf (v : Option Value) : Material :=
  let setting (name : String) (default : Number) : Number :=
    ((section? v name).bind Number.ofValue?).getD default
  let base : Material := {}
  { metalness := setting "metalness" base.metalness
    roughness := setting "roughness" base.roughness
    opacity := setting "opacity" base.opacity }

/-- The settings that a checked document holds. -/
def ofDocument (doc : Value) : Except Failure Config :=
  let layout := doc.field? "layout"
  let visual := doc.field? "visual"
  let base : Config := {}
  let spacing := ((spacingOf? doc).bind Number.ofValue?).getD base.spacing
  match spacing.toFloat? with
  | none => .error .tooLarge
  | some x => .ok
      { algorithm := (((section? layout "algorithm").bind textOf?).bind
          LayoutAlgorithm.ofName?).getD base.algorithm
        spacing := .float x
        theme := ((section? visual "theme").bind textOf?).getD base.theme
        palette := base.palette.putAll (((section? visual "colors").map paletteOf).getD [])
        defaultColor := ((section? visual "default_color").bind textOf?).getD base.defaultColor
        material := materialOf (section? visual "material") }

/-- How a document with complaints fails. The complaints are settled; then the keys are put in order
and what is said of them is written out, which not all keys allow. -/
def refusal (found : List Finding) (source : Option String) : Failure :=
  match Complaint.settleAll {} found with
  | .error f => f
  | .ok _ =>
      let errors := Complaint.entries found
      if (Sorting.sort Value.isLess? (errors.map Prod.fst)).isNone then .wrongType
      else if (Value.mapping errors).isWritable then .diagnosed (.config (.mapping errors) source)
      else .unwritable

/-- Checks a document and takes its settings. -/
def read (raw : Value) (source : Option String) : Except Failure Config :=
  match raw with
  | .mapping entries =>
      let found := Schema.check schema entries
      if found.isEmpty then ofDocument raw else .error (refusal found source)
  | v => .error (.notDocument v)

/-- The configuration that a document describes. -/
def load (raw : Value) (source : Option String) : Trace Config :=
  if raw.isPresent then do
    let c ← .ofResult (read raw source)
    Trace.log .debug configLogger
      ("Loaded builder configuration: layout=" ++ c.algorithm.name ++ ", spacing=" ++
        c.spacing.toValue.display)
    return c
  else .done {}

end Config

end SpatialDiagram
