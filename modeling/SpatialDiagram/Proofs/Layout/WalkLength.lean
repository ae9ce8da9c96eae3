import SpatialDiagram.Proofs.Layout.LongestPaths

/-!
# How long a walk takes

Whatever the lists of children and parents hold, a member is queued at most once
for each layer it can have, so the queue of a graph of `n` nodes is empty after
at most `n * n` steps. At every step of the way the members with a layer are
nodes, their layers are below the cap, and everyone in the queue has one.
-/

namespace SpatialDiagram

namespace Layers

variable {ι : Type} [DecidableEq ι] {ids : List ι} {childrenOf : ι → List ι}

/-- Serves the first member of the queue; an empty queue leaves nothing to do. -/
def advance (ids : List ι) (childrenOf : ι → List ι) (w : Walk ι) : Walk ι :=
  match w.queue with
  | [] => w
  | u :: rest => step ids childrenOf w u rest

theorem advance_of_nil {w : Walk ι} (hqueue : w.queue = []) : advance ids childrenOf w = w := by
  rw [advance, hqueue]

theorem advance_of_cons {w : Walk ι} {u : ι} {rest : List ι} (hqueue : w.queue = u :: rest) :
    advance ids childrenOf w = step ids childrenOf w u rest := by
  rw [advance, hqueue]

theorem isSome_get_iff {layers : Table ι Nat} {u : ι} :
    (layers.get? u).isSome = true ↔ 0 < height layers u := by
  rw [Nat.pos_iff_ne_zero, Ne, height_eq_zero_iff, Option.isNone_iff_eq_none,
    Option.isSome_iff_ne_none]

/-! ## The number of steps -/

/-- The walk is the state after some number of steps, the first one with an empty queue. -/
theorem exists_walk_eq_iterate (ids : List ι) (childrenOf : ι → List ι) (w : Walk ι) :
    ∃ k ≤ room ids w.layers + w.queue.length,
      walk ids childrenOf w = (advance ids childrenOf)^[k] w ∧
        ∀ j, ((advance ids childrenOf)^[j] w).queue = [] ↔ k ≤ j := by
  fun_induction walk ids childrenOf w with
  | case1 w hqueue =>
      refine ⟨0, Nat.zero_le _, rfl, fun j => ?_⟩
      rw [Function.iterate_fixed (advance_of_nil hqueue)]
      simp [hqueue]
  | case2 w u rest hqueue ih =>
      obtain ⟨k, hk, hwalk, hempty⟩ := ih
      have hstep : advance ids childrenOf w = step ids childrenOf w u rest :=
        advance_of_cons hqueue
      have hless := step_room_le ids childrenOf w u rest
      refine ⟨k + 1, ?_, ?_, fun j => ?_⟩
      · rw [hqueue, List.length_cons]
        omega
      · rw [hwalk, Function.iterate_succ_apply, hstep]
      · cases j with
        | zero => simp [hqueue]
        | succ j => rw [Function.iterate_succ_apply, hstep, hempty, Nat.add_le_add_iff_right]

/-- Each root takes one place in the queue and leaves itself one layer less to move down. -/
theorem room_start_le (members : List (Member ι)) :
    room (members.map Member.id) (start members).layers + (start members).queue.length ≤
      members.length * members.length := by
  have hroot (m : Member ι) (hm : m ∈ members) (hstart : isRoot m = true) :
      height (start members).layers m.id = 1 := by
    rw [height_start, if_pos]
    exact List.mem_map_of_mem (List.mem_filter.mpr ⟨hm, hstart⟩)
  have hall : ∀ ms : List (Member ι), ms ⊆ members →
      (ms.map Member.id).foldr (fun u rest =>
        members.length - height (start members).layers u + rest) 0 +
          (ms.filter isRoot).length ≤ ms.length * members.length := by
    intro ms
    induction ms with
    | nil => simp
    | cons m ms ih =>
        intro hsub
        obtain ⟨hm, hms⟩ := List.cons_subset.mp hsub
        have hpos : 0 < members.length := List.length_pos_of_mem hm
        have hrest := ih hms
        rw [List.length_cons, Nat.succ_mul, List.map_cons, List.foldr_cons, List.filter_cons]
        split
        · rename_i hstart
          rw [hroot m hm hstart, List.length_cons]
          omega
        · omega
  have := hall members (List.Subset.refl _)
  rwa [start, List.length_map, room, List.length_map]

/-! ## What holds all along -/

/-- The members with a layer belong to the family, their layers are below the cap, and everyone in
the queue has a layer. -/
structure Placed (ids : List ι) (w : Walk ι) : Prop where
  known : ∀ u, 0 < height w.layers u → u ∈ ids
  below : ∀ u, height w.layers u ≤ ids.length
  queued : ∀ u ∈ w.queue, 0 < height w.layers u

/-- Offering a layer to a child keeps the layers to known vertices below the cap. -/
theorem placed_offer {w : Walk ι} (h : Placed ids w) (layer : Nat) (parent child : ι) :
    Placed ids (offer ids layer parent w child) := by
  rw [offer]
  split_ifs with hskip hcap hlow
  · exact h
  · exact { h with }
  · obtain ⟨-, hid⟩ := not_or.mp hskip
    have hput (u : ι) : height (w.layers.put child layer) u =
        if child = u then layer + 1 else height w.layers u := height_put w.layers child u layer
    refine ⟨fun u hu => ?_, fun u => ?_, fun u hu => ?_⟩
    · rw [hput] at hu
      split at hu
      · rename_i he
        exact he ▸ Decidable.not_not.mp hid
      · exact h.known u hu
    · rw [hput]
      split
      · exact Nat.lt_of_not_le hcap
      · exact h.below u
    · rw [hput]
      split
      · exact Nat.succ_pos layer
      · rename_i hne
        rcases List.mem_append.mp hu with hu | hu
        · exact h.queued u hu
        · exact absurd (List.mem_singleton.mp hu).symm hne
  · exact h

/-- A visit keeps the layers to known vertices below the cap. -/
theorem placed_advance {w : Walk ι} (h : Placed ids w) :
    Placed ids (advance ids childrenOf w) := by
  cases hqueue : w.queue with
  | nil => rwa [advance_of_nil hqueue]
  | cons u rest =>
      rw [advance_of_cons hqueue]
      refine List.foldlRecOn (childrenOf u) _ (motive := Placed ids) ?_
        fun _ hw child _ => placed_offer hw _ u child
      exact { h with queued := fun v hv => h.queued v (hqueue ▸ List.mem_cons_of_mem u hv) }

theorem placed_start (members : List (Member ι)) :
    Placed (members.map Member.id) (start members) := by
  have hmember (u : ι) (hu : u ∈ (start members).queue) : u ∈ members.map Member.id := by
    obtain ⟨m, hm, rfl⟩ := List.mem_map.mp hu
    exact List.mem_map_of_mem (List.mem_filter.mp hm).1
  refine ⟨fun u hu => ?_, fun u => ?_, fun u hu => ?_⟩
  · rw [height_start] at hu
    split at hu
    · exact hmember u ‹_›
    · cases hu
  · rw [height_start]
    split
    · exact List.length_pos_of_mem (hmember u ‹_›)
    · exact Nat.zero_le _
  · rw [height_start, if_pos hu]
    exact Nat.one_pos

end Layers

namespace Layout

open Layers SpatialDiagram.Graph

/-- The state of the walk of a graph after some steps. -/
def walkAfter (g : Graph) (k : Nat) : Walk Value :=
  (advance g.nodeIds (Layering.childrenOf (membersOf g)))^[k] (start (membersOf g))

theorem walkAfter_succ (g : Graph) (k : Nat) :
    walkAfter g (k + 1) =
      advance g.nodeIds (Layering.childrenOf (membersOf g)) (walkAfter g k) :=
  Function.iterate_succ_apply' _ k _

/-- After any number of visits only nodes have layers, all below the cap. -/
theorem placed_walkAfter (g : Graph) (k : Nat) : Placed g.nodeIds (walkAfter g k) := by
  induction k with
  | zero => exact ids_membersOf g ▸ placed_start (membersOf g)
  | succ k ih =>
      rw [walkAfter_succ]
      exact placed_advance ih

/-- The walk ends after a number of visits that the square of the number of nodes bounds, and not
before its queue is empty. -/
theorem exists_walkOf_eq_walkAfter (g : Graph) :
    ∃ k ≤ g.nodes.length * g.nodes.length,
      walkOf g = walkAfter g k ∧ ∀ j, (walkAfter g j).queue = [] ↔ k ≤ j := by
  obtain ⟨k, hk, hwalk, hempty⟩ :=
    exists_walk_eq_iterate g.nodeIds (Layering.childrenOf (membersOf g)) (start (membersOf g))
  have hstart := room_start_le (membersOf g)
  rw [ids_membersOf, membersOf, List.length_map] at hstart
  exact ⟨k, hk.trans hstart, hwalk, hempty⟩

/-- Exactly the nodes have a layer in the end. -/
theorem isSome_layer_iff (g : Graph) (u : Value) :
    ((Layering.ofMembers (membersOf g)).layers.get? u).isSome = true ↔ u ∈ g.nodeIds := by
  obtain ⟨k, -, hwalk, -⟩ := exists_walkOf_eq_walkAfter g
  have hplaced : Placed g.nodeIds (walkOf g) := hwalk ▸ placed_walkAfter g k
  rw [layer_ofMembers]
  split
  · rename_i hmissed
    exact iff_of_true rfl hmissed.1
  · rename_i hmissed
    rw [isSome_get_iff]
    refine ⟨hplaced.known u, fun hu => ?_⟩
    exact Nat.pos_of_ne_zero fun hzero => hmissed ⟨hu, hzero⟩

/-- The walk of a graph with `n` nodes ends when its queue is empty, after at most `n * n` steps.
Until then whoever is next has a layer, and all layers are layers of nodes and less than `n`. Those
of the last step are kept, and in the end each node and nothing else has one layer, which is at most
`n`. -/
theorem assignLayers_terminates (g : Graph) :
    ∃ k ≤ g.nodes.length * g.nodes.length, ∃ l, (assignLayers g).result = .ok l ∧
      walkOf g = walkAfter g k ∧ (∀ j, (walkAfter g j).queue = [] ↔ k ≤ j) ∧
      (∀ j, ∀ u ∈ (walkAfter g j).queue, ((walkAfter g j).layers.get? u).isSome = true) ∧
      (∀ j u layer, (walkAfter g j).layers.get? u = some layer →
        u ∈ g.nodeIds ∧ layer < g.nodes.length) ∧
      (∀ u layer, (walkAfter g k).layers.get? u = some layer → l.layers.get? u = some layer) ∧
      l.layers.keys.Nodup ∧ (∀ u, u ∈ l.layers.keys ↔ u ∈ g.nodeIds) ∧
      ∀ u layer, l.layers.get? u = some layer → layer ≤ g.nodes.length := by
  obtain ⟨k, hk, hwalk, hempty⟩ := exists_walkOf_eq_walkAfter g
  have hlength : g.nodeIds.length = g.nodes.length := List.length_map _
  refine ⟨k, hk, _, result_assignLayers g, hwalk, hempty, fun j u hu => ?_, fun j u layer hl => ?_,
    fun u layer hl => ?_, ?_, fun u => ?_, fun u layer hl => ?_⟩
  · exact isSome_get_iff.mpr ((placed_walkAfter g j).queued u hu)
  · have hheight := height_eq_succ_iff.mpr hl
    have hplaced := placed_walkAfter g j
    have hbelow := hplaced.below u
    exact ⟨hplaced.known u (by omega), by omega⟩
  · rw [← hwalk] at hl
    have hheight := height_eq_succ_iff.mpr hl
    rwa [layer_ofMembers, if_neg (by omega)]
  · refine Table.nodup_keys_putAll (nodup_keys_walk ?_) _
    exact Table.nodup_keys_putAll (t := .empty) List.nodup_nil _
  · rw [← Table.get_isSome_iff, isSome_layer_iff]
  · have hle := Layering.layerOf_le (membersOf g) u
    rwa [Layering.layerOf, hl, Option.getD_some, membersOf, List.length_map] at hle

end Layout

end SpatialDiagram
