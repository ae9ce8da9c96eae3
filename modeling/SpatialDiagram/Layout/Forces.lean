import SpatialDiagram.Geometry.Vec

/-!
# Forces

Bodies start at given places and move for a fixed number of rounds. In each
round every two free bodies push each other away, every edge pulls its ends
together, and all free bodies shrink towards the origin. Each force acts at
once, pair by pair, so later forces see the moved bodies. Fixed bodies pull but
stay where they are.
-/

namespace SpatialDiagram

namespace Forces

/-- The end of an edge: a free body by its number, or a fixed place. -/
inductive Body where
  | free (index : Nat)
  | fixed (place : Vec Float)
deriving DecidableEq, Repr

/-- Where the free bodies are. -/
abbrev Places := Array (Vec Float)

/-- How many times all forces are applied. -/
def rounds : Nat := 50

/-- The factor by which all places shrink at the end of a round. -/
def damping : Float := 0.9

/-- The distance that is assumed of bodies at the same place. -/
def leastDistance : Float := 0.1

/-- Where a body is. -/
def placeOf (ps : Places) : Body → Vec Float
  | .free i => ps.getD i Vec.zero
  | .fixed p => p

/-- The unit vector and the length of a difference. -/
def directionAndDistance (delta : Vec Float) : Vec Float × Float :=
  let norm := (delta.x * delta.x + delta.y * delta.y + delta.z * delta.z).sqrt
  let distance := if norm == 0.0 then leastDistance else norm
  (delta.map (· / distance), distance)

/-- Moves two free bodies away from each other. -/
def repel (ps : Places) (pair : Nat × Nat) : Places :=
  let (direction, distance) :=
    directionAndDistance (ps.getD pair.1 Vec.zero - ps.getD pair.2 Vec.zero)
  let push := direction.scaled (1.0 / (distance * distance))
  (ps.modify pair.1 (· + push)).modify pair.2 (· - push)

/-- Moves a free body by a vector. -/
def shift (ps : Places) (b : Body) (f : Vec Float → Vec Float) : Places :=
  match b with
  | .free i => ps.modify i f
  | .fixed _ => ps

/-- Moves the free bodies at the ends of an edge toward each other. -/
def attract (ps : Places) (edge : Body × Body) : Places :=
  let (direction, distance) := directionAndDistance (placeOf ps edge.2 - placeOf ps edge.1)
  let pull := direction.scaled (0.1 * distance * 0.1)
  shift (shift ps edge.1 (· + pull)) edge.2 (· - pull)

/-- All pairs of different bodies, the earlier one first. -/
def pairs (count : Nat) : List (Nat × Nat) :=
  (List.range count).flatMap fun j =>
    (List.range (count - (j + 1))).map fun k => (j, j + 1 + k)

/-- Applies all forces once, first those between bodies and then those along edges, and shrinks all
places. -/
def round (edges : List (Body × Body)) (ps : Places) : Places :=
  let ps := (pairs ps.size).foldl repel ps
  let ps := edges.foldl attract ps
  ps.map fun p => p.scaled damping

/-- The places after the last round. -/
def settle (edges : List (Body × Body)) (ps : Places) : Places :=
  (List.range rounds).foldl (fun ps _ => round edges ps) ps

end Forces

end SpatialDiagram
