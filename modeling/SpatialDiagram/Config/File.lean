import SpatialDiagram.Config.Load
import SpatialDiagram.Yaml.Reader

/-!
# Configuration files

A configuration file is a YAML document whose root is a mapping. An empty file
means the defaults. Every fault is reported together with the path of the file.
-/

namespace SpatialDiagram

namespace Config

/-- The failure of a file for a reason that is not in its document. -/
def refused (reason path : String) : Trace Config :=
  .fail (.diagnosed (.config (.str reason) (some path)))

/-- The configuration in a file, given what the file holds if it exists. -/
def ofFile (path : String) (content : Option String) : Trace Config :=
  match content with
  | none => refused ("Configuration file not found at path: " ++ path) path
  | some text =>
      match Yaml.read text.toList with
      | none => refused "Invalid YAML syntax" path
      | some .null => .done {}
      | some (.mapping entries) => load (.mapping entries) (some path)
      | some _ => refused "The root of the configuration file must be a mapping." path

end Config

end SpatialDiagram
