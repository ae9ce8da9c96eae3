import Mathlib.Data.List.Basic
import Mathlib.Tactic.SplitIfs
import SpatialDiagram.Digraph

/-!
# Cycles under other names

The search for a cycle compares vertices and nothing else. So it goes the same
way in a graph whose vertices have been given other names, as long as different
vertices get different names, and the cycle that it meets has the new names.
-/

namespace SpatialDiagram

namespace Digraph

variable {ι κ : Type}

/-- The graph with other names for its vertices. -/
def map (f : ι → κ) (g : Digraph ι) : Digraph κ :=
  ⟨g.adjacency.map fun a => (f a.1, a.2.map f)⟩

/-- A search with every vertex of it renamed. -/
def Search.map (f : ι → κ) (s : Search ι) : Search κ :=
  { seen := s.seen.map f, cycle := s.cycle.map (List.map f) }

theorem vertices_map (f : ι → κ) (g : Digraph ι) : (g.map f).vertices = g.vertices.map f := by
  simp [vertices, map]

section

variable [DecidableEq ι] [DecidableEq κ] {f : ι → κ} (hf : Function.Injective f)

include hf

/-- The successors of a renamed vertex are the renamed successors. -/
theorem succ_map (g : Digraph ι) (u : ι) : (g.map f).succ (f u) = (g.succ u).map f := by
  obtain ⟨adjacency⟩ := g
  simp only [succ, map]
  induction adjacency with
  | nil => rfl
  | cons a adjacency ih =>
      have hhead : (f u == f a.1) = (u == a.1) := by
        rw [Bool.eq_iff_iff, beq_iff_eq, beq_iff_eq, hf.eq_iff]
      rw [List.map_cons, List.lookup_cons, List.lookup_cons, hhead]
      cases u == a.1
      · exact ih
      · rfl

/-- A renamed path closes to the renamed cycle. -/
theorem closing_map (path : List ι) (v : ι) :
    closing (path.map f) (f v) = (closing path v).map f := by
  simp [closing, List.takeWhile_map, Function.comp_def, hf.eq_iff]

/-- The search from a vertex, by induction on the room that is left. -/
theorem explore_map (g : Digraph ι) (room : Nat) (path seen : List ι) (u : ι) :
    (g.map f).explore room (path.map f) (seen.map f) (f u) =
      (g.explore room path seen u).map f := by
  induction room generalizing path seen u with
  | zero => rfl
  | succ room ih =>
      rw [explore, explore, succ_map hf, List.foldl_map]
      have hstart : ({ seen := f u :: seen.map f } : Search κ) =
          Search.map f { seen := u :: seen } := rfl
      rw [hstart]
      apply List.foldl_hom
      intro s v
      have hcycle : (s.map f).cycle.isSome = s.cycle.isSome := Option.isSome_map
      have hpath : f v ∈ f u :: path.map f ↔ v ∈ u :: path := by
        rw [← List.map_cons, List.mem_map_of_injective hf]
      have hseen : f v ∈ (s.map f).seen ↔ v ∈ s.seen := List.mem_map_of_injective hf
      have hclosing : closing (f u :: path.map f) (f v) = (closing (u :: path) v).map f :=
        closing_map hf (u :: path) v
      have hdeeper : (g.map f).explore room (f u :: path.map f) (s.map f).seen (f v) =
          (g.explore room (u :: path) s.seen v).map f := ih (u :: path) s.seen v
      simp only [hcycle, hpath, hseen, hclosing, hdeeper]
      split_ifs <;> rfl

/-- The cycle that is found in a renamed graph is the renamed cycle. -/
theorem findCycle_map (g : Digraph ι) :
    (g.map f).findCycle? = g.findCycle?.map (List.map f) := by
  have hstart : ({ seen := [] } : Search κ) = Search.map f { seen := [] } := rfl
  have hlength : (g.vertices.map f).length = g.vertices.length := List.length_map f
  rw [findCycle?, findCycle?, vertices_map, hlength, List.foldl_map, hstart,
    List.foldl_hom (Search.map f)]
  · rfl
  · intro s u
    have hcycle : (s.map f).cycle.isSome = s.cycle.isSome := Option.isSome_map
    have hseen : f u ∈ (s.map f).seen ↔ u ∈ s.seen := List.mem_map_of_injective hf
    have hentered : (g.map f).explore g.vertices.length [] (s.map f).seen (f u) =
        (g.explore g.vertices.length [] s.seen u).map f :=
      explore_map hf g g.vertices.length [] s.seen u
    simp only [hcycle, hseen, hentered]
    split_ifs <;> rfl

end

/-! ## Cycles have vertices -/

variable [DecidableEq ι]

/-- No exploration finds an empty cycle. -/
theorem explore_ne_nil (g : Digraph ι) (room : Nat) (path seen : List ι) (u : ι) :
    (g.explore room path seen u).cycle ≠ some [] := by
  induction room generalizing path seen u with
  | zero => simp [explore]
  | succ room ih =>
      rw [explore]
      refine List.foldlRecOn (motive := fun s : Search ι => s.cycle ≠ some []) _ _ (by simp) ?_
      intro s hs v _
      split_ifs
      · exact hs
      · simp [closing]
      · exact hs
      · exact ih (u :: path) s.seen v

theorem ne_nil_of_findCycle {g : Digraph ι} {cycle : List ι} (h : g.findCycle? = some cycle) :
    cycle ≠ [] := by
  have hfound : g.findCycle? ≠ some [] := by
    rw [findCycle?]
    refine List.foldlRecOn (motive := fun s : Search ι => s.cycle ≠ some []) _ _ (by simp) ?_
    intro s hs u _
    split_ifs
    · exact hs
    · exact explore_ne_nil g g.vertices.length [] s.seen u
  rintro rfl
  exact hfound h

end Digraph

end SpatialDiagram
