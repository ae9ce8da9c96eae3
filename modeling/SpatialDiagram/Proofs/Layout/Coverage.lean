import SpatialDiagram.Layout.Apply
import SpatialDiagram.Proofs.Endings

/-!
# Layouts place every free node

A layout finds a place for each node that is not pinned. The layers that the
walk assigns lie above the number of members, so no row is left out, and the
simulation keeps as many places as there are bodies.
-/

namespace SpatialDiagram

/-! ## Entries of tables -/

namespace Table

variable {κ ν : Type} [DecidableEq κ]

theorem mem_entries_put {t : Table κ ν} {k : κ} {v : ν} {e : κ × ν}
    (h : e ∈ (t.put k v).entries) : e = (k, v) ∨ e ∈ t.entries := by
  obtain ⟨entries⟩ := t
  change e ∈ Keyed.put Prod.fst (k, v) entries at h
  change e = (k, v) ∨ e ∈ entries
  induction entries with
  | nil => exact .inl (List.mem_singleton.mp h)
  | cons y ys ih =>
      rw [Keyed.put] at h
      split at h
      · exact (List.mem_cons.mp h).imp_right (List.mem_cons_of_mem y)
      · rcases List.mem_cons.mp h with rfl | h
        · exact .inr List.mem_cons_self
        · exact (ih h).imp_right (List.mem_cons_of_mem y)

theorem mem_entries_putAll {t : Table κ ν} {entries : List (κ × ν)} {e : κ × ν}
    (h : e ∈ (t.putAll entries).entries) : e ∈ t.entries ∨ e ∈ entries := by
  induction entries generalizing t with
  | nil => exact .inl h
  | cons x xs ih =>
      rcases ih (t := t.put x.1 x.2) h with h | h
      · exact (mem_entries_put h).symm.imp_right fun hx => List.mem_cons.mpr (.inl hx)
      · exact .inr (List.mem_cons_of_mem x h)

end Table

/-! ## Layers -/

namespace Layers

variable {ι : Type} [DecidableEq ι]

/-- All layers of a walk lie above a bound. -/
def Below (bound : Nat) (w : Walk ι) : Prop := ∀ e ∈ w.layers.entries, e.2 < bound

/-- Offering a layer to a child gives no layer beyond the cap. -/
theorem below_offer {ids : List ι} {w : Walk ι} (h : Below ids.length w) (layer : Nat)
    (parent child : ι) : Below ids.length (offer ids layer parent w child) := by
  rw [offer]
  split
  · exact h
  · split
    · exact h
    · rename_i hlayer
      split
      · intro e he
        rcases Table.mem_entries_put he with rfl | he
        · exact Nat.lt_of_not_le hlayer
        · exact h e he
      · exact h

/-- A visit gives no layer beyond the cap. -/
theorem below_step {ids : List ι} {w : Walk ι} (h : Below ids.length w) (childrenOf : ι → List ι)
    (u : ι) (rest : List ι) : Below ids.length (step ids childrenOf w u rest) :=
  List.foldlRecOn (childrenOf u) _ (motive := Below ids.length) h
    fun _ hw child _ => below_offer hw _ u child

/-- A whole walk gives no layer beyond the cap. -/
theorem below_walk {ids : List ι} (childrenOf : ι → List ι) {w : Walk ι}
    (h : Below ids.length w) : Below ids.length (walk ids childrenOf w) := by
  fun_induction walk ids childrenOf w with
  | case1 w hqueue => exact h
  | case2 w u rest hqueue ih => exact ih (below_step h childrenOf u rest)

theorem below_start (members : List (Member ι)) :
    Below (members.map Member.id).length (start members) := by
  intro e he
  rcases Table.mem_entries_putAll he with he | he
  · cases he
  · obtain ⟨u, hu, rfl⟩ := List.mem_map.mp he
    obtain ⟨m, hm, -⟩ := List.mem_map.mp hu
    rw [List.length_map]
    exact List.length_pos_of_mem (List.mem_filter.mp hm).1

end Layers

/-- No vertex has a layer beyond the number of members. -/
theorem Layering.layerOf_le {ι : Type} [DecidableEq ι] (members : List (Member ι)) (u : ι) :
    (ofMembers members).layerOf u ≤ members.length := by
  have hwalk := Layers.below_walk (childrenOf members) (Layers.below_start members)
  rw [List.length_map] at hwalk
  have hextra : (ofMembers members).extraLayer ≤ members.length := by
    refine List.foldlRecOn _ Nat.max (motive := fun l => l ≤ members.length) (Nat.zero_le _)
      fun l hl k hk => Nat.max_le.mpr ⟨hl, ?_⟩
    obtain ⟨e, he, rfl⟩ := List.mem_map.mp hk
    exact hwalk e he
  cases hu : (ofMembers members).layers.get? u with
  | none =>
      rw [layerOf, hu]
      exact Nat.zero_le _
  | some l =>
      rw [layerOf, hu, Option.getD_some]
      obtain ⟨e, he, rfl⟩ := Option.map_eq_some_iff.mp hu
      rcases Table.mem_entries_putAll (Keyed.find_some_key he).2 with he | he
      · exact Nat.le_of_lt (hwalk e he)
      · obtain ⟨_, -, rfl⟩ := List.mem_map.mp he
        exact hextra

/-! ## Forces -/

namespace Forces

theorem size_repel (ps : Places) (pair : Nat × Nat) : (repel ps pair).size = ps.size := by
  simp [repel]

theorem size_shift (ps : Places) (b : Body) (f : Vec Float → Vec Float) :
    (shift ps b f).size = ps.size := by
  cases b with
  | free i => exact Array.size_modify
  | fixed p => rfl

theorem size_attract (ps : Places) (edge : Body × Body) : (attract ps edge).size = ps.size := by
  simp only [attract, size_shift]

/-- A round of forces keeps a place for every body. -/
theorem size_round (edges : List (Body × Body)) (ps : Places) :
    (round edges ps).size = ps.size := by
  rw [round, Array.size_map]
  calc (edges.foldl attract ((pairs ps.size).foldl repel ps)).size
      = ((pairs ps.size).foldl repel ps).size :=
        List.foldlRecOn edges attract (motive := fun qs : Places =>
          qs.size = ((pairs ps.size).foldl repel ps).size) rfl
          fun qs hqs edge _ => (size_attract qs edge).trans hqs
    _ = ps.size :=
        List.foldlRecOn (pairs ps.size) repel (motive := fun qs : Places => qs.size = ps.size) rfl
          fun qs hqs pair _ => (size_repel qs pair).trans hqs

/-- The simulation keeps a place for every body. -/
theorem size_settle (edges : List (Body × Body)) (ps : Places) :
    (settle edges ps).size = ps.size :=
  List.foldlRecOn (List.range rounds) _ (motive := fun qs : Places => qs.size = ps.size) rfl
    fun qs hqs _ _ => (size_round edges qs).trans hqs

end Forces

/-! ## Arrangements -/

namespace Arrangement

variable {ι α : Type}

theorem fst_zipIdx_map {β : Type} (members : List ι) (f : ι × Nat → β) :
    (members.zipIdx.map fun m => (m.1, f m)).map Prod.fst = members := by
  rw [List.map_map]
  exact List.zipIdx_map_fst 0 members

/-- The rows hold every member whose layer is not below the lowest one. -/
theorem mem_rows [DecidableEq ι] [Scalar α] (spacing : α) {layerOf : ι → Nat} {lowest : Nat}
    {members : List ι} {u : ι} (hu : u ∈ members) (hlayer : layerOf u ≤ lowest) :
    u ∈ (rows spacing layerOf lowest members).map Prod.fst := by
  rw [rows, List.map_flatMap, List.mem_flatMap]
  refine ⟨layerOf u, List.mem_range.mpr (Nat.lt_succ_of_le hlayer), ?_⟩
  rw [row, fst_zipIdx_map]
  exact List.mem_filter.mpr ⟨hu, decide_eq_true rfl⟩

end Arrangement

namespace Layout

/-- The assignment of layers always returns. -/
theorem result_assignLayers (g : Graph) :
    (assignLayers g).result = .ok (Layering.ofMembers (membersOf g)) := by
  rw [assignLayers]
  split <;> split <;> rfl

/-- A layout gives a place to every node that is not pinned. -/
theorem covered_of_positions {a : LayoutAlgorithm} {context : Context} {ps : Positions}
    (h : (positions a context).result = .ok ps) {u : Value} (hu : u ∈ context.unpinnedIds) :
    u ∈ ps.map Prod.fst := by
  cases a with
  | hierarchical =>
      obtain ⟨l, hl, hrows⟩ := Trace.exists_of_result_bind h
      obtain rfl := Except.ok.inj hrows
      obtain rfl := Except.ok.inj ((result_assignLayers context.graph).symm.trans hl)
      refine Arrangement.mem_rows _ hu ?_
      have hlayer := Layering.layerOf_le (membersOf context.graph) u
      rwa [membersOf, List.length_map] at hlayer
  | forceDirected =>
      rw [positions, simulated] at h
      split at h
      · rename_i hempty
        rw [List.isEmpty_iff.mp hempty] at hu
        cases hu
      · obtain ⟨_, -, hplaces⟩ := Trace.exists_of_result_bind h
        obtain rfl := Except.ok.inj hplaces
        rw [List.map_fst_zip]
        · exact hu
        · simp [Forces.size_settle, Arrangement.circle]
  | circular =>
      obtain rfl := Except.ok.inj h
      rw [Arrangement.circle, Arrangement.fst_zipIdx_map]
      exact hu
  | grid =>
      obtain rfl := Except.ok.inj h
      rw [Arrangement.grid, Arrangement.fst_zipIdx_map]
      exact hu

end Layout

end SpatialDiagram
