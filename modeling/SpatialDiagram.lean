import SpatialDiagram.Build
import SpatialDiagram.Category
import SpatialDiagram.Color
import SpatialDiagram.Config.Basic
import SpatialDiagram.Config.Complaint
import SpatialDiagram.Config.File
import SpatialDiagram.Config.Load
import SpatialDiagram.Config.Merge
import SpatialDiagram.Config.Schema
import SpatialDiagram.Decimal.Binary64
import SpatialDiagram.Decimal.Reading
import SpatialDiagram.Decimal.Shortest
import SpatialDiagram.Digraph
import SpatialDiagram.Failure
import SpatialDiagram.Geometry.Distance
import SpatialDiagram.Geometry.Face
import SpatialDiagram.Geometry.Power
import SpatialDiagram.Geometry.Scalar
import SpatialDiagram.Geometry.Transform
import SpatialDiagram.Geometry.Vec
import SpatialDiagram.Issue
import SpatialDiagram.Json.Reader
import SpatialDiagram.Json.Writer
import SpatialDiagram.Keyed
import SpatialDiagram.Layout.Algorithm
import SpatialDiagram.Layout.Apply
import SpatialDiagram.Layout.Arrangement
import SpatialDiagram.Layout.Forces
import SpatialDiagram.Layout.Layers
import SpatialDiagram.Log.Record
import SpatialDiagram.Log.Setup
import SpatialDiagram.Notation.ConnectionHeader
import SpatialDiagram.Notation.Cursor
import SpatialDiagram.Notation.Diagram
import SpatialDiagram.Notation.Judgment
import SpatialDiagram.Notation.NodeHeader
import SpatialDiagram.Notation.Property
import SpatialDiagram.Notation.Statement
import SpatialDiagram.Placement
import SpatialDiagram.Report
import SpatialDiagram.Scene.Connection
import SpatialDiagram.Scene.Decoding
import SpatialDiagram.Scene.Encoding
import SpatialDiagram.Scene.Graph
import SpatialDiagram.Scene.Node
import SpatialDiagram.Scene.Structure
import SpatialDiagram.Session
import SpatialDiagram.Sorting
import SpatialDiagram.Text.Blank
import SpatialDiagram.Text.Digit
import SpatialDiagram.Text.Folding
import SpatialDiagram.Text.Lines
import SpatialDiagram.Text.Printable
import SpatialDiagram.Text.Quoted
import SpatialDiagram.Text.Ranges
import SpatialDiagram.Text.Scan
import SpatialDiagram.Text.Word
import SpatialDiagram.Trace
import SpatialDiagram.Validation
import SpatialDiagram.Value.Access
import SpatialDiagram.Value.Basic
import SpatialDiagram.Value.Display
import SpatialDiagram.Value.Order
import SpatialDiagram.Yaml.Cursor
import SpatialDiagram.Yaml.Lines
import SpatialDiagram.Yaml.Reader
import SpatialDiagram.Yaml.Scalar
import SpatialDiagram.Proofs.Scene.Editing
import SpatialDiagram.Proofs.Scene.Adjacency
import SpatialDiagram.Proofs.Scene.AbandonedLinks
import SpatialDiagram.Proofs.Building.ValidDiagrams
import SpatialDiagram.Proofs.Notation.StatementPositions
import SpatialDiagram.Proofs.Notation.Reference
import SpatialDiagram.Proofs.Notation.StatementRecursion
import SpatialDiagram.Proofs.Notation.Concatenation
import SpatialDiagram.Proofs.Notation.Comments
import SpatialDiagram.Proofs.Building.Contents
import SpatialDiagram.Proofs.Validation.Prediction
import SpatialDiagram.Proofs.Validation.ErrorFree
import SpatialDiagram.Proofs.Building.ReadingBack
import SpatialDiagram.Proofs.Building.Anchors
import SpatialDiagram.Proofs.Building.Pinning
import SpatialDiagram.Proofs.Notation.EnclosedLines
import SpatialDiagram.Proofs.Json.DigitRuns
import SpatialDiagram.Proofs.Notation.Numerals
import SpatialDiagram.Proofs.Notation.WrittenOpacity
import SpatialDiagram.Proofs.Notation.Readability
import SpatialDiagram.Proofs.Notation.CursorRuns
import SpatialDiagram.Proofs.Notation.PropertyValues
import SpatialDiagram.Proofs.Building.Overflow
import SpatialDiagram.Proofs.Validation.Verdicts
import SpatialDiagram.Proofs.Building.FailingBuilds
import SpatialDiagram.Proofs.Config.Updates
import SpatialDiagram.Proofs.Sorting
import SpatialDiagram.Proofs.Config.Complaints
import SpatialDiagram.Proofs.Config.Refusals
import SpatialDiagram.Proofs.Structure.GraphCycles
import SpatialDiagram.Proofs.Layout.LongestPaths
import SpatialDiagram.Proofs.Layout.Depths
import SpatialDiagram.Proofs.SessionHistories
import SpatialDiagram.Proofs.Scene.Normalization
import SpatialDiagram.Proofs.Scene.LoadedLists
import SpatialDiagram.Proofs.Scene.Removal
import SpatialDiagram.Proofs.Layout.WalkLength
import SpatialDiagram.Proofs.Notation.NodeGrammar
import SpatialDiagram.Proofs.Notation.ConnectionGrammar
import SpatialDiagram.Proofs.Notation.InlineBlocks
import SpatialDiagram.Proofs.Notation.InlineArrays
import SpatialDiagram.Proofs.Geometry.Winding
import SpatialDiagram.Proofs.Notation.Classification
import SpatialDiagram.Proofs.Notation.WellFormedNodes
import SpatialDiagram.Proofs.Building.PlacementSpellings
import SpatialDiagram.Proofs.Layout.Spacing
import SpatialDiagram.Proofs.Geometry.Corners
import SpatialDiagram.Proofs.Scene.DerivedGeometry
