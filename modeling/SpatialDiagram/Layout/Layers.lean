import SpatialDiagram.Keyed

/-!
# Layers

Roots are in layer zero, and a child comes at least one layer below each of its
known parents. A queue holds the members whose children still have to be
offered a layer; whoever moves down is queued again. No layer lies below the
number of members less one, so a walk that circles a cycle stops there and says
so. Members that no root leads to share one more layer below all others.

Each time a member is queued its layer has grown, so the room left below the
layers, together with the length of the queue, shrinks with every step.
-/

namespace SpatialDiagram

/-- A member of a family, with its children and its parents by name. -/
structure Member (ι : Type) where
  id : ι
  children : List ι
  parents : List ι
deriving DecidableEq, Repr

namespace Layers

variable {ι : Type} [DecidableEq ι]

/-- A member without a parent other than itself is a root. -/
def isRoot (m : Member ι) : Bool := m.parents.all fun p => p = m.id

/-- The layers so far, the vertices that are still to be gone on from, and whether a layer would
have been too deep. -/
structure Walk (ι : Type) where
  layers : Table ι Nat
  queue : List ι
  capped : Bool := false

/-- One more than the layer of a member, zero for a member without a layer. -/
def height (layers : Table ι Nat) (u : ι) : Nat :=
  match layers.get? u with
  | some l => l + 1
  | none => 0

/-- How far the members can still move down in total. -/
def room (ids : List ι) (layers : Table ι Nat) : Nat :=
  ids.foldr (fun u rest => ids.length - height layers u + rest) 0

/-- A put changes the height of its own vertex only, to one above the layer. -/
theorem height_put (layers : Table ι Nat) (u v : ι) (l : Nat) :
    height (layers.put u l) v = if u = v then l + 1 else height layers v := by
  by_cases h : u = v <;> simp [height, Table.get_put, h]

/-- Offers a child a layer, which it takes if it lies lower than its own. -/
def offer (ids : List ι) (layer : Nat) (parent : ι) (w : Walk ι) (child : ι) : Walk ι :=
  if child = parent ∨ child ∉ ids then w
  else if ids.length ≤ layer then { w with capped := true }
  else if height w.layers child ≤ layer then
    { w with layers := w.layers.put child layer, queue := w.queue ++ [child] }
  else w

/-- A vertex that is given a greater layer below the cap takes room away. -/
theorem room_put_lt {ids : List ι} {layers : Table ι Nat} {u : ι} {l : Nat} (hu : u ∈ ids)
    (hl : l < ids.length) (hh : height layers u ≤ l) :
    room ids (layers.put u l) + 1 ≤ room ids layers := by
  have key : ∀ vs : List ι,
      (vs.foldr (fun v rest => ids.length - height (layers.put u l) v + rest) 0 +
        if u ∈ vs then 1 else 0) ≤
        vs.foldr (fun v rest => ids.length - height layers v + rest) 0 := by
    intro vs
    induction vs with
    | nil => simp
    | cons v vs ih =>
        simp only [List.foldr_cons, List.mem_cons]
        by_cases hv : u = v
        · subst hv
          simp only [height_put, if_true, true_or]
          have : vs.foldr (fun v rest => ids.length - height (layers.put u l) v + rest) 0 ≤
              vs.foldr (fun v rest => ids.length - height layers v + rest) 0 := by
            split at ih <;> omega
          simp only [height_put] at this
          omega
        · have hm : (u = v ∨ u ∈ vs) ↔ u ∈ vs := by simp [hv]
          simp only [height_put, hv, if_false, false_or] at ih ⊢
          omega
  have := key ids
  simpa [room, hu] using this

/-- An offer never adds to the room and the queue together. -/
theorem offer_room_le (ids : List ι) (layer : Nat) (parent : ι) (w : Walk ι) (child : ι) :
    room ids (offer ids layer parent w child).layers + (offer ids layer parent w child).queue.length
      ≤ room ids w.layers + w.queue.length := by
  unfold offer
  split
  · exact Nat.le_refl _
  · rename_i hc
    split
    · exact Nat.le_refl _
    · rename_i hl
      split
      · rename_i hh
        have hm : child ∈ ids := Decidable.byContradiction fun hn => hc (Or.inr hn)
        have := room_put_lt hm (Nat.lt_of_not_le hl) hh
        simp only [List.length_append, List.length_singleton]
        omega
      · exact Nat.le_refl _

/-- What a vertex passes on to its children never raises the room and the queue together. -/
theorem offers_room_le (ids : List ι) (layer : Nat) (parent : ι) (children : List ι)
    (w : Walk ι) :
    room ids (children.foldl (offer ids layer parent) w).layers +
      (children.foldl (offer ids layer parent) w).queue.length
      ≤ room ids w.layers + w.queue.length := by
  induction children generalizing w with
  | nil => exact Nat.le_refl _
  | cons c cs ih => exact Nat.le_trans (ih _) (offer_room_le ids layer parent w c)

/-- Offers the children of the first member of a queue the layer below its own. -/
def step (ids : List ι) (childrenOf : ι → List ι) (w : Walk ι) (u : ι) (rest : List ι) : Walk ι :=
  (childrenOf u).foldl (offer ids (height w.layers u) u) { w with queue := rest }

/-- One visit never raises the room and the queue together, beyond the vertex that it takes. -/
theorem step_room_le (ids : List ι) (childrenOf : ι → List ι) (w : Walk ι) (u : ι)
    (rest : List ι) :
    room ids (step ids childrenOf w u rest).layers + (step ids childrenOf w u rest).queue.length
      ≤ room ids w.layers + rest.length :=
  offers_room_le ids _ u _ _

/-- Goes on until the queue is empty. -/
def walk (ids : List ι) (childrenOf : ι → List ι) (w : Walk ι) : Walk ι :=
  match _h : w.queue with
  | [] => w
  | u :: rest => walk ids childrenOf (step ids childrenOf w u rest)
termination_by room ids w.layers + w.queue.length
decreasing_by
  have := step_room_le ids childrenOf w u rest
  rw [‹w.queue = u :: rest›]
  simp only [List.length_cons]
  omega

/-- The start of the walk: all roots in layer zero and in the queue. -/
def start (members : List (Member ι)) : Walk ι :=
  let roots := (members.filter isRoot).map Member.id
  { layers := .ofList (roots.map fun u => (u, 0)), queue := roots }

end Layers

/-- The layers of all members, in the order in which they were first assigned. -/
structure Layering (ι : Type) where
  layers : Table ι Nat
  /-- Whether the walk met a cycle. -/
  capped : Bool
  /-- The members that no root leads to, and their layer. -/
  stranded : List ι
  extraLayer : Nat

namespace Layering

open Layers

variable {ι : Type} [DecidableEq ι]

/-- The children of a member; a vertex that is no member has none. -/
def childrenOf (members : List (Member ι)) (u : ι) : List ι :=
  ((Keyed.find? Member.id u members).map Member.children).getD []

/-- The layers that a walk from the members without parents finds; the members that it does not
reach are put on one layer. -/
def ofMembers (members : List (Member ι)) : Layering ι :=
  let ids := members.map Member.id
  let w := walk ids (childrenOf members) (start members)
  let stranded := ids.filter fun u => (w.layers.get? u).isNone
  let extra := (w.layers.entries.map fun e => e.2 + 1).foldl Nat.max 0
  { layers := w.layers.putAll (stranded.map fun u => (u, extra))
    capped := w.capped
    stranded
    extraLayer := extra }

/-- The layer of a vertex, which is the first one if it has none. -/
def layerOf (l : Layering ι) (u : ι) : Nat := (l.layers.get? u).getD 0

end Layering

end SpatialDiagram
