import SpatialDiagram.Proofs.FirstOccurrences
import SpatialDiagram.Proofs.Structure.CycleSearch

/-!
# Depth

The vertices that a search adds round by round are those that a walk leads to.
With that, the depth is the number of vertices on the longest chain in which
each reaches the next and is not reached from it.
-/

namespace SpatialDiagram

namespace Digraph

variable {ι : Type} [DecidableEq ι] {g : Digraph ι}

/-- A path, possibly an empty one, leads from one vertex to the other. -/
def Reaches (g : Digraph ι) : ι → ι → Prop := Relation.ReflTransGen g.Edge

/-- One vertex reaches another one and is not reached from it. -/
def Above (g : Digraph ι) (u v : ι) : Prop := g.Reaches u v ∧ ¬ g.Reaches v u

theorem IsClosed.mem_of_reaches (hg : g.IsClosed) {u v : ι} (hu : u ∈ g.vertices)
    (h : g.Reaches u v) : v ∈ g.vertices := by
  cases h with
  | refl => exact hu
  | tail _ hlast => exact hg.known _ _ hlast

/-! ## What a search adds -/

/-- The vertices that a round adds to those seen. -/
def found (g : Digraph ι) (seen frontier : List ι) : List ι :=
  ((frontier.flatMap g.succ).filter (· ∉ seen)).eraseDups

theorem grow_succ (room : Nat) (seen frontier : List ι) :
    g.grow (room + 1) seen frontier =
      if (g.found seen frontier).isEmpty then seen
      else g.grow room (seen ++ g.found seen frontier) (g.found seen frontier) := rfl

theorem mem_found_iff {seen frontier : List ι} {v : ι} :
    v ∈ g.found seen frontier ↔ (∃ u ∈ frontier, g.Edge u v) ∧ v ∉ seen := by
  simp [found, Edge]

/-- A search in progress: only the edges from the frontier may lead to something new. -/
structure Searching (g : Digraph ι) (seen frontier : List ι) : Prop where
  nodup : seen.Nodup
  known : seen ⊆ g.vertices
  entered : frontier ⊆ seen
  behind : ∀ u ∈ seen, u ∉ frontier → ∀ v, g.Edge u v → v ∈ seen

theorem Searching.round (hg : g.IsClosed) {seen frontier : List ι} (h : g.Searching seen frontier) :
    g.Searching (seen ++ g.found seen frontier) (g.found seen frontier) := by
  refine ⟨List.nodup_append.mpr ⟨h.nodup, nodup_eraseDups _, fun u hu v hv => ?_⟩, ?_, ?_, ?_⟩
  · rintro rfl
    exact (mem_found_iff.mp hv).2 hu
  · refine List.append_subset.mpr ⟨h.known, fun v hv => ?_⟩
    obtain ⟨⟨u, -, huv⟩, -⟩ := mem_found_iff.mp hv
    exact hg.known u v huv
  · exact List.subset_append_right _ _
  · intro u hu hold v huv
    have hseen := (List.mem_append.mp hu).resolve_right hold
    rw [List.mem_append]
    by_cases hfront : u ∈ frontier
    · by_cases hv : v ∈ seen
      · exact .inl hv
      · exact .inr (mem_found_iff.mpr ⟨⟨u, hfront, huv⟩, hv⟩)
    · exact .inl (h.behind u hseen hfront v huv)

theorem subset_grow (room : Nat) (seen frontier : List ι) : seen ⊆ g.grow room seen frontier := by
  induction room generalizing seen frontier with
  | zero => exact List.Subset.refl _
  | succ room ih =>
      rw [grow_succ]
      split_ifs
      · exact List.Subset.refl _
      · exact List.Subset.trans (List.subset_append_left _ _) (ih _ _)

/-- Nothing that a search ends with leads out of it. A round without an end adds a vertex, so the
room lasts. -/
theorem closed_grow (hg : g.IsClosed) {room : Nat} {seen frontier : List ι}
    (h : g.Searching seen frontier) (hroom : g.vertices.length < seen.length + room) {u v : ι}
    (hu : u ∈ g.grow room seen frontier) (huv : g.Edge u v) : v ∈ g.grow room seen frontier := by
  induction room generalizing seen frontier with
  | zero =>
      have hlength := (h.nodup.subperm h.known).length_le
      omega
  | succ room ih =>
      rw [grow_succ] at hu ⊢
      split_ifs at hu ⊢ with hempty
      · by_cases hfront : u ∈ frontier
        · by_contra hv
          have hfound : v ∈ g.found seen frontier := mem_found_iff.mpr ⟨⟨u, hfront, huv⟩, hv⟩
          simp [List.isEmpty_iff.mp hempty] at hfound
        · exact h.behind u hu hfront v huv
      · refine ih (h.round hg) ?_ hu
        have hadded : 0 < (g.found seen frontier).length := by
          rw [List.length_pos_iff_ne_nil, ne_eq, ← List.isEmpty_iff]
          exact hempty
        rw [List.length_append]
        omega

/-- Everything that the search collects can be reached. -/
theorem reaches_of_grow {room : Nat} {seen frontier : List ι} {u : ι}
    (hseen : ∀ v ∈ seen, g.Reaches u v) (hfrontier : frontier ⊆ seen) {v : ι}
    (hv : v ∈ g.grow room seen frontier) : g.Reaches u v := by
  induction room generalizing seen frontier with
  | zero => exact hseen v hv
  | succ room ih =>
      rw [grow_succ] at hv
      split_ifs at hv
      · exact hseen v hv
      · refine ih (fun w hw => ?_) (List.subset_append_right _ _) hv
        rcases List.mem_append.mp hw with hw | hw
        · exact hseen w hw
        · obtain ⟨⟨x, hx, hxw⟩, -⟩ := mem_found_iff.mp hw
          exact (hseen x (hfrontier hx)).tail hxw

/-- The search collects exactly what can be reached. -/
theorem mem_reachable_iff (hg : g.IsClosed) {u v : ι} (hu : u ∈ g.vertices) :
    v ∈ g.reachable u ↔ g.Reaches u v := by
  have hstart : g.Searching [u] [u] :=
    ⟨List.nodup_singleton u, by simpa using hu, List.Subset.refl _, fun v hv hn => absurd hv hn⟩
  constructor
  · exact reaches_of_grow (fun w hw => List.mem_singleton.mp hw ▸ .refl) (List.Subset.refl _)
  · intro h
    induction h with
    | refl => exact subset_grow _ _ _ List.mem_cons_self
    | tail _ hlast ih => exact closed_grow hg hstart (by simp) ih hlast

/-! ## Levels -/

theorem strictlyBelow_eq (g : Digraph ι) : g.strictlyBelow = g.vertices.map fun u =>
    (u, (g.reachable u).filter fun v =>
      u ∉ ((g.vertices.map fun u => (u, g.reachable u)).lookup v).getD []) := by
  rw [strictlyBelow, List.map_map]
  rfl

theorem mem_strictlyBelow_iff (hg : g.IsClosed) {u v : ι} (hu : u ∈ g.vertices) :
    v ∈ (g.reachable u).filter (fun v =>
      u ∉ ((g.vertices.map fun u => (u, g.reachable u)).lookup v).getD []) ↔ g.Above u v := by
  rw [List.mem_filter, decide_eq_true_eq, mem_reachable_iff hg hu]
  refine and_congr_right fun huv => not_congr ?_
  have hv := hg.mem_of_reaches hu huv
  rw [Keyed.lookup_map_key, if_pos hv, Option.getD_some, mem_reachable_iff hg hv]

/-- A vertex awaits exactly those that are strictly below it. -/
theorem awaits_strictlyBelow_iff (hg : g.IsClosed) {u v : ι} :
    Awaits g.strictlyBelow u v ↔ u ∈ g.vertices ∧ g.Above u v := by
  rw [strictlyBelow_eq, awaits_map_iff]
  exact and_congr_right fun hu => mem_strictlyBelow_iff hg hu

theorem keys_strictlyBelow (g : Digraph ι) : g.strictlyBelow.map Prod.fst = g.vertices := by
  rw [strictlyBelow_eq, List.map_map]
  exact List.map_id _

theorem isQueue_strictlyBelow (hg : g.IsClosed) : IsQueue g.strictlyBelow := by
  refine ⟨(keys_strictlyBelow g).symm ▸ hg.nodup, fun u v huv => ?_⟩
  obtain ⟨hu, habove⟩ := (awaits_strictlyBelow_iff hg).mp huv
  rw [keys_strictlyBelow]
  exact hg.mem_of_reaches hu habove.1

theorem Above.trans {u v w : ι} (huv : g.Above u v) (hvw : g.Above v w) : g.Above u w :=
  ⟨huv.1.trans hvw.1, fun hwu => huv.2 (hvw.1.trans hwu)⟩

/-- No vertex is strictly above itself, so all vertices are taken away. -/
theorem left_strictlyBelow (hg : g.IsClosed) : (peel g.strictlyBelow).2 = [] := by
  rw [(isQueue_strictlyBelow hg).left_eq_nil_iff]
  rintro ⟨c, hc⟩
  have hcycle : IsCycle (fun u v => g.Above v u) c :=
    hc.mono fun u v huv => ((awaits_strictlyBelow_iff hg).mp huv).2
  have habove (u v : ι) (huv : Relation.TransGen (fun u v => g.Above v u) u v) : g.Above v u := by
    induction huv with
    | single h => exact h
    | tail _ hlast ih => exact hlast.trans ih
  obtain ⟨u, hu⟩ := List.exists_mem_of_ne_nil c hcycle.ne_nil
  obtain ⟨hreach, hnot⟩ := habove u u (hcycle.transGen hu hu)
  exact hnot hreach

/-- The depth is the length of the longest chain of vertices each of which lies above the next. -/
theorem isGreatest_depth (hg : g.IsClosed) :
    IsGreatest (List.length '' {p | p.IsChain g.Above ∧ ∀ u ∈ p, u ∈ g.vertices}) g.depth := by
  have hchains : chains g.strictlyBelow = {p | p.IsChain g.Above ∧ ∀ u ∈ p, u ∈ g.vertices} := by
    ext p
    rw [chains, keys_strictlyBelow, Set.mem_ofPred_eq, Set.mem_ofPred_eq]
    refine and_congr_left fun hmem => ⟨fun h => ?_, fun h => ?_⟩
    · exact h.imp fun u v huv => ((awaits_strictlyBelow_iff hg).mp huv).2
    · exact h.imp_of_mem_imp fun u v hu _ huv =>
        (awaits_strictlyBelow_iff hg).mpr ⟨hmem u hu, huv⟩
  rw [← hchains]
  exact (isQueue_strictlyBelow hg).rounds (left_strictlyBelow hg)

end Digraph

end SpatialDiagram
