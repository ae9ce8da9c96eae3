import SpatialDiagram.Proofs.Layout.LongestPaths
import SpatialDiagram.Proofs.Structure.Depth

/-!
# Depth and layers

If a graph has no cycles but loops, every node lies behind a root, and heights
rise from each node to whatever it reaches. So no chain of levels is longer than
the greatest height, and the longest path to a node of that height is such a
chain: the depth of the graph is the number of its layers.
-/

namespace SpatialDiagram

namespace Layout

open Layers SpatialDiagram.Graph

/-- A path in the digraph of a graph goes along children, loops left out. -/
theorem reaches_digraph_iff {g : Graph} {u v : Value} :
    g.digraph.Reaches u v ↔ Relation.ReflTransGen (Strict g.Child) u v := by
  have hedge : g.digraph.Edge = g.Child := by
    funext u v
    exact propext (edge_digraph_iff g u v)
  unfold Digraph.Reaches
  rw [hedge, reflTransGen_strict_iff]

section

variable {g : Graph} (hloops : ∀ c, ¬ g.IsProperCycle c)

include hloops

/-- A node without a way down from a root would have a parent without one, and so on forever. -/
theorem isReached_of_mem (hparents : ∀ u v, u ∈ g.parentsOf v → v ∈ g.childrenOf u) {u : Value}
    (hu : u ∈ g.nodeIds) : g.IsReached u := by
  by_contra hmissed
  have hbefore (v : Value) (hv : v ∈ g.nodeIds ∧ ¬ g.IsReached v) :
      ∃ w, (w ∈ g.nodeIds ∧ ¬ g.IsReached w) ∧ Strict g.Child w v := by
    obtain ⟨hmem, hv⟩ := hv
    have hroot : ¬ ∀ p ∈ g.parentsOf v, p = v := fun h => hv (isReached_of_isRoot ⟨hmem, h⟩)
    push Not at hroot
    obtain ⟨p, hp, hne⟩ := hroot
    have hchild : g.Child p v := ⟨hparents p v hp, hmem⟩
    exact ⟨p, ⟨hchild.mem_left, fun h => hv (h.tail hchild)⟩, hchild, hne⟩
  obtain ⟨c, hc, -⟩ := exists_isCycle_of_forall_before (fun _ h => h.1) hbefore ⟨hu, hmissed⟩
  exact hloops c (isCycle_strict_iff.mp hc)

/-- There is no way back from a child other than the node itself. -/
theorem above_of_child {u v : Value} (huv : Strict g.Child u v) : g.digraph.Above u v := by
  refine ⟨reaches_digraph_iff.mpr (.single huv), fun hback => ?_⟩
  have hround : Relation.TransGen (Strict g.Child) u u :=
    .head' huv (reaches_digraph_iff.mp hback)
  obtain ⟨c, hc⟩ := exists_isCycle_of_transGen (fun _ _ h => h.1.2) hround
  exact hloops c (isCycle_strict_iff.mp hc)

variable (hids : g.nodeIds.Nodup) (hparents : ∀ u v, u ∈ g.parentsOf v → v ∈ g.childrenOf u)

include hids hparents

/-- What is strictly below a node has the greater height. -/
theorem height_lt_of_above {u v : Value} (hu : u ∈ g.nodeIds) (huv : g.digraph.Above u v) :
    height (walkOf g).layers u < height (walkOf g).layers v := by
  have hcapped := not_capped hids fun c hc => absurd hc (hloops c)
  have hpos := height_pos_of_isReached hids hcapped (isReached_of_mem hloops hparents hu)
  have hrise (w : Value) (hw : Relation.TransGen (Strict g.Child) u w) :
      height (walkOf g).layers u < height (walkOf g).layers w := by
    induction hw with
    | single h => exact height_lt_of_child hcapped hpos h
    | tail _ hlast ih => exact ih.trans (height_lt_of_child hcapped (hpos.trans ih) hlast)
  obtain ⟨hreach, hback⟩ := huv
  refine hrise v ((Relation.reflTransGen_iff_eq_or_transGen.mp
    (reaches_digraph_iff.mp hreach)).resolve_left ?_)
  rintro rfl
  exact hback hreach

/-- Heights differ along a chain of levels, so it is no longer than the greatest height. -/
theorem length_le_of_isChain_above {p : List Value} (hp : p.IsChain g.digraph.Above)
    (hmem : ∀ u ∈ p, u ∈ g.nodeIds) {n : Nat}
    (hn : ∀ u ∈ g.nodeIds, height (walkOf g).layers u ≤ n) : p.length ≤ n := by
  have hcapped := not_capped hids fun c hc => absurd hc (hloops c)
  have hrising : (p.map (height (walkOf g).layers)).IsChain (· < ·) := by
    rw [List.isChain_map]
    exact hp.imp_of_mem_imp fun u v hu _ huv =>
      height_lt_of_above hloops hids hparents (hmem u hu) huv
  have hsub : p.map (height (walkOf g).layers) ⊆ List.range' 1 n := by
    intro k hk
    obtain ⟨u, hu, rfl⟩ := List.mem_map.mp hk
    have hpos := height_pos_of_isReached hids hcapped
      (isReached_of_mem hloops hparents (hmem u hu))
    have hle := hn u (hmem u hu)
    rw [List.mem_range'_1]
    omega
  have hlength := (hrising.pairwise.nodup.subperm hsub).length_le
  rwa [List.length_map, List.length_range'] at hlength

/-- The longest path to a node is a chain of levels, so the greatest height is the depth. -/
theorem depth_eq_height {u : Value} (hu : u ∈ g.nodeIds)
    (hmax : ∀ v ∈ g.nodeIds, height (walkOf g).layers v ≤ height (walkOf g).layers u) :
    g.depth = height (walkOf g).layers u := by
  have hgreatest := Digraph.isGreatest_depth (isClosed_digraph hids)
  rw [vertices_digraph] at hgreatest
  refine hgreatest.unique ⟨?_, ?_⟩
  · obtain ⟨⟨p, ⟨⟨root, hroot, hhead⟩, -, hchain, hnodup⟩, hlength⟩, -⟩ :=
      isGreatest_height hids (fun c hc => absurd hc (hloops c))
        (isReached_of_mem hloops hparents hu)
    have hlevels : p.IsChain g.digraph.Above :=
      (isChain_strict_of_nodup hchain hnodup).imp fun _ _ => above_of_child hloops
    exact ⟨p, ⟨hlevels, fun v hv => (isReached_of_isChain hchain hroot hhead v hv).mem⟩, hlength⟩
  · rintro _ ⟨p, ⟨hp, hmem⟩, rfl⟩
    exact length_le_of_isChain_above hloops hids hparents hp hmem hmax

end

/-- A graph that has no cycles but loops is as deep as it has layers. Of the lists only this
matters: each entry among the parents of a node has its counterpart among the children. -/
theorem depth_eq_one_add_layer {g : Graph} (hne : g.nodes ≠ []) (hids : g.nodeIds.Nodup)
    (hparents : ∀ u v, u ∈ g.parentsOf v → v ∈ g.childrenOf u)
    (hloops : ∀ c, ¬ g.IsProperCycle c) :
    ∃ l deepest, (assignLayers g).result = .ok l ∧
      IsGreatest {k | ∃ u ∈ g.nodeIds, l.layers.get? u = some k} deepest ∧
      g.depth = 1 + deepest := by
  have hcycle : ∀ c, g.IsProperCycle c → ∀ u ∈ c, ¬ g.IsReached u :=
    fun c hc => absurd hc (hloops c)
  have hheight := isReached_iff_height_pos hids hcycle
  have hreached (v : Value) (hv : v ∈ g.nodeIds) : g.IsReached v :=
    isReached_of_mem hloops hparents hv
  obtain ⟨hgreatest, hupper⟩ := isGreatest_extraLayer g
  obtain ⟨w, hw⟩ := List.exists_mem_of_ne_nil g.nodeIds fun h => hne (List.map_eq_nil_iff.mp h)
  have hwpos := (hheight w).mp (hreached w hw)
  have hwle := hupper (.inr ⟨w, rfl⟩)
  obtain ⟨u, hextra⟩ := hgreatest.resolve_left (by omega)
  have hu : u ∈ g.nodeIds := ((hheight u).mpr (by omega)).mem
  have hmax (v : Value) : height (walkOf g).layers v ≤ height (walkOf g).layers u :=
    hextra ▸ hupper (.inr ⟨v, rfl⟩)
  obtain ⟨deepest, hdeepest⟩ := Nat.exists_eq_add_one_of_ne_zero
    ((hheight u).mp (hreached u hu)).ne'
  refine ⟨_, deepest, result_assignLayers g, ⟨⟨u, hu, ?_⟩, ?_⟩, ?_⟩
  · exact (layer_eq_some_iff hids hcycle (hreached u hu)).mpr hdeepest
  · rintro k ⟨v, hv, hk⟩
    have hlower := (layer_eq_some_iff hids hcycle (hreached v hv)).mp hk
    have hle := hmax v
    omega
  · rw [depth_eq_height hloops hids hparents hu fun v _ => hmax v, hdeepest, Nat.add_comm]

/-- The graph has three layers; the loop at A is not a way down. -/
theorem depth_eq_one_add_layer_loop :
    let g : Graph :=
      { id := .str "g", name := .str "Test"
        nodes := [{ Node.plain "A" with
            children := [.str "A", .str "B", .str "C"], parents := [.str "A"] },
          { Node.plain "B" with children := [.str "C"], parents := [.str "A"] },
          { Node.plain "C" with parents := [.str "A", .str "B"] }] }
    (∀ c, ¬ g.IsProperCycle c) ∧
      ∃ l, (assignLayers g).result = .ok l ∧
        IsGreatest {k | ∃ u ∈ g.nodeIds, l.layers.get? u = some k} 2 := by
  intro g
  have hids : g.nodeIds.Nodup := by decide
  have hlisted : ∀ v ∈ g.nodeIds, ∀ u ∈ g.parentsOf v, v ∈ g.childrenOf u := by decide
  have hparents (u v : Value) (h : u ∈ g.parentsOf v) : v ∈ g.childrenOf u :=
    hlisted v (mem_nodeIds_of_mem_entries h) u h
  have hrise : ∀ u ∈ g.nodeIds, ∀ v ∈ g.nodeIds, g.Child u v ∧ u ≠ v →
      g.nodeIds.idxOf u < g.nodeIds.idxOf v := by
    decide
  have hloops (c : List Value) (hc : g.IsProperCycle c) : False :=
    (isCycle_strict_iff.mpr hc).not_rising fun u _ v _ huv =>
      hrise u huv.1.mem_left v huv.1.2 huv
  obtain ⟨l, deepest, hl, hgreatest, hdepth⟩ :=
    depth_eq_one_add_layer (by decide) hids hparents hloops
  have hthree : g.depth = 3 := by decide +kernel
  obtain rfl : deepest = 2 := by omega
  exact ⟨hloops, l, hl, hgreatest⟩

end Layout

end SpatialDiagram
