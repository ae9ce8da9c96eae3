import SpatialDiagram.Category
import SpatialDiagram.Keyed
import SpatialDiagram.Layout.Algorithm
import SpatialDiagram.Value.Display

/-!
# Configuration

What a build can be told from outside: how to lay out the nodes and how to draw
those that do not say it themselves. `toValue` is the record form in which a
configuration is written down and merged.
-/

namespace SpatialDiagram

/-- How the surface of a node looks. -/
structure Material where
  metalness : Number := .float 0.1
  roughness : Number := .float 0.7
  opacity : Number := .float 0.9
deriving DecidableEq, Repr

/-- Colours by the names of categories. -/
abbrev Palette := Table String String

/-- The colours of all categories of nodes. -/
def defaultPalette : Palette := ⟨NodeCategory.all.map fun k => (k.name, k.color)⟩

/-- What a build can be told apart from the diagram. -/
structure Config where
  algorithm : LayoutAlgorithm := .hierarchical
  spacing : Number := .float 2.0
  theme : String := "dark"
  palette : Palette := defaultPalette
  defaultColor : String := neutralGray
  material : Material := {}
deriving DecidableEq, Repr

namespace Material

/-- The record form of a material. -/
def toValue (m : Material) : Value :=
  .record [("metalness", m.metalness.toValue), ("roughness", m.roughness.toValue),
    ("opacity", m.opacity.toValue)]

/-- Whether two materials are equal, with numbers compared by amount. -/
def agrees (a b : Material) : Bool :=
  a.metalness.agrees b.metalness && a.roughness.agrees b.roughness && a.opacity.agrees b.opacity

end Material

namespace Config

/-- The colour of a category; one that the palette lacks has the default colour. -/
def colorFor (c : Config) (category : String) : String :=
  (c.palette.get? category).getD c.defaultColor

/-- The record form of a configuration, which is a document that can be loaded. -/
def toValue (c : Config) : Value :=
  .record
    [("layout", .record
        [("algorithm", .str c.algorithm.name), ("node_spacing", c.spacing.toValue)]),
     ("visual", .record
        [("theme", .str c.theme),
         ("colors", .record (c.palette.entries.map fun e => (e.1, .str e.2))),
         ("default_color", .str c.defaultColor),
         ("material", c.material.toValue)])]

/-- Whether two configurations are the same, with numbers compared by amount. -/
def agrees (a b : Config) : Bool :=
  a.algorithm = b.algorithm && a.spacing.agrees b.spacing && a.theme = b.theme &&
    a.palette = b.palette && a.defaultColor = b.defaultColor && a.material.agrees b.material

end Config

end SpatialDiagram
