import SpatialDiagram.Config.Load

/-!
# Merging configurations

A partial document is laid over the record form of a configuration: mappings
are merged field by field, everything else is replaced. The result is checked
like any other document.
-/

namespace SpatialDiagram

namespace Value

mutual

/-- A value laid over the one of the same key below it. -/
def overlay (below : Option Value) (v : Value) : Value :=
  match v, below with
  | .mapping upper, some (.mapping base) => .mapping (overlayEntries base upper)
  | v, _ => v

/-- Entries laid over others one after another. -/
def overlayEntries (base : List (Value × Value)) : List (Value × Value) → List (Value × Value)
  | [] => base
  | (k, v) :: rest =>
      overlayEntries (Keyed.put Prod.fst (k, overlay (base.lookup k) v) base) rest

end

end Value

namespace Config

/-- Changes the settings that a partial document mentions. -/
def merge (base : Config) (overrides : Value) : Trace Config :=
  match overrides with
  | .mapping _ => load (overrides.overlay (some base.toValue)) none
  | v => .fail (.noField v.typeName "items")

end Config

end SpatialDiagram
