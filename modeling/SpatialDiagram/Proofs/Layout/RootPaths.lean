import Mathlib.Order.Lattice.Nat
import SpatialDiagram.Proofs.Structure.GraphCycles

/-!
# Paths from the roots

A layering by longest paths gives each node that a root leads to the number of
edges on the longest path to it, and puts the other nodes together below all of
these. A graph has one such layering at most, and the order of its nodes and
lists makes no difference to it.
-/

namespace SpatialDiagram

namespace Graph

/-- A node without a parent other than itself. -/
def IsRoot (g : Graph) (u : Value) : Prop := u ∈ g.nodeIds ∧ ∀ p ∈ g.parentsOf u, p = u

/-- Some root leads to a node along children. -/
def IsReached (g : Graph) (u : Value) : Prop :=
  ∃ root, g.IsRoot root ∧ Relation.ReflTransGen g.Child root u

/-- The paths from roots to a node. A path comes to no node twice, so it uses no loop. -/
def pathsTo (g : Graph) (u : Value) : Set (List Value) :=
  {p | (∃ root, g.IsRoot root ∧ p.head? = some root) ∧ p.getLast? = some u ∧ p.IsChain g.Child ∧
    p.Nodup}

/-- A cycle through at least two different nodes, the first of which is written twice. -/
def IsProperCycle (g : Graph) (c : List Value) : Prop := IsCycle g.Child c ∧ 3 ≤ c.length

/-- Layers by the longest paths from roots. -/
structure IsLongestPathLayering (g : Graph) (layer? : Value → Option Nat) : Prop where
  reached : ∀ u, g.IsReached u →
    ∃ l, layer? u = some l ∧ IsGreatest ((fun p => p.length - 1) '' g.pathsTo u) l
  stranded : ∃ extra, (∀ u ∈ g.nodeIds, ¬ g.IsReached u → layer? u = some extra) ∧
    (∀ deepest, IsGreatest {l | ∃ u, g.IsReached u ∧ layer? u = some l} deepest →
      extra = deepest + 1) ∧
    ((∀ u, ¬ g.IsReached u) → extra = 0)
  others : ∀ u, u ∉ g.nodeIds → layer? u = none

/-- The same nodes with the same lists, all in some order. -/
structure Rearranged (g h : Graph) : Prop where
  nodes : g.nodeIds.Perm h.nodeIds
  children : ∀ u, (g.childrenOf u).Perm (h.childrenOf u)
  parents : ∀ u, (g.parentsOf u).Perm (h.parentsOf u)

theorem isReached_of_isRoot {g : Graph} {u : Value} (h : g.IsRoot u) : g.IsReached u :=
  ⟨u, h, .refl⟩

/-- A root that leads to a node leads to its children. -/
theorem IsReached.tail {g : Graph} {u v : Value} (h : g.IsReached u) (huv : g.Child u v) :
    g.IsReached v := by
  obtain ⟨root, hroot, hpath⟩ := h
  exact ⟨root, hroot, hpath.tail huv⟩

theorem IsReached.mem {g : Graph} {u : Value} (h : g.IsReached u) : u ∈ g.nodeIds := by
  obtain ⟨root, hroot, hpath⟩ := h
  cases hpath with
  | refl => exact hroot.1
  | tail _ hlast => exact hlast.2

/-- A chain of children from a root runs through nodes that are reached. -/
theorem isReached_of_isChain {g : Graph} {p : List Value} (hp : p.IsChain g.Child) {root : Value}
    (hroot : g.IsRoot root) (hhead : p.head? = some root) : ∀ u ∈ p, g.IsReached u := by
  refine hp.induction g.IsReached p (fun u v huv hu => hu.tail huv) fun hne => ?_
  obtain rfl := Option.some.inj ((List.head?_eq_some_head hne).symm.trans hhead)
  exact isReached_of_isRoot hroot

/-- Whoever reaches one node of a cycle reaches all. -/
theorem IsProperCycle.isReached {g : Graph} {c : List Value} (hc : g.IsProperCycle c) {u v : Value}
    (hu : u ∈ c) (hv : v ∈ c) (h : g.IsReached u) : g.IsReached v := by
  obtain ⟨root, hroot, hpath⟩ := h
  exact ⟨root, hroot, hpath.trans (hc.1.transGen hu hv).to_reflTransGen⟩

/-- A path is no longer than there are nodes. -/
theorem length_le_of_pathsTo {g : Graph} {u : Value} {p : List Value} (hp : p ∈ g.pathsTo u) :
    p.length ≤ g.nodeIds.length := by
  obtain ⟨⟨root, hroot, hhead⟩, -, hchain, hnodup⟩ := hp
  have hsub : p ⊆ g.nodeIds := fun v hv => (isReached_of_isChain hchain hroot hhead v hv).mem
  exact (hnodup.subperm hsub).length_le

/-! ## Order does not matter -/

/-- No path has more nodes than the graph, so there is a deepest layer. -/
theorem IsLongestPathLayering.exists_deepest {g : Graph} {f : Value → Option Nat}
    (h : g.IsLongestPathLayering f) {u : Value} (hu : g.IsReached u) :
    ∃ deepest, IsGreatest {l | ∃ u, g.IsReached u ∧ f u = some l} deepest := by
  obtain ⟨l, hl, -⟩ := h.reached u hu
  have hbounded : BddAbove {l | ∃ u, g.IsReached u ∧ f u = some l} := by
    refine ⟨g.nodeIds.length, ?_⟩
    rintro l ⟨v, hv, hl⟩
    obtain ⟨l', hl', ⟨p, hp, rfl⟩, -⟩ := h.reached v hv
    obtain rfl := Option.some.inj (hl.symm.trans hl')
    exact (Nat.sub_le _ _).trans (length_le_of_pathsTo hp)
  exact ⟨_, Nat.sSup_mem ⟨l, u, hu, hl⟩ hbounded, fun k hk => le_csSup hbounded hk⟩

/-- There is one layering by longest paths. -/
theorem IsLongestPathLayering.unique {g : Graph} {f f' : Value → Option Nat}
    (h : g.IsLongestPathLayering f) (h' : g.IsLongestPathLayering f') : f = f' := by
  have hreached (u : Value) (hu : g.IsReached u) : f u = f' u := by
    obtain ⟨l, hl, hgreatest⟩ := h.reached u hu
    obtain ⟨l', hl', hgreatest'⟩ := h'.reached u hu
    rw [hl, hl', hgreatest.unique hgreatest']
  have hlayers : {l | ∃ u, g.IsReached u ∧ f u = some l} =
      {l | ∃ u, g.IsReached u ∧ f' u = some l} := by
    ext l
    exact exists_congr fun v => and_congr_right fun hv => by rw [hreached v hv]
  obtain ⟨extra, hextra, hsucc, hzero⟩ := h.stranded
  obtain ⟨extra', hextra', hsucc', hzero'⟩ := h'.stranded
  have hsame : extra = extra' := by
    by_cases hnone : ∀ u, ¬ g.IsReached u
    · rw [hzero hnone, hzero' hnone]
    · obtain ⟨u, hu⟩ := not_forall_not.mp hnone
      obtain ⟨deepest, hdeepest⟩ := h.exists_deepest hu
      rw [hsucc deepest hdeepest, hsucc' deepest (hlayers ▸ hdeepest)]
  funext u
  by_cases hu : g.IsReached u
  · exact hreached u hu
  · by_cases hmem : u ∈ g.nodeIds
    · rw [hextra u hmem hu, hextra' u hmem hu, hsame]
    · rw [h.others u hmem, h'.others u hmem]

namespace Rearranged

variable {g h : Graph} (hgh : g.Rearranged h)

include hgh

theorem child_eq : h.Child = g.Child := by
  funext u v
  exact propext (and_congr (hgh.children u).mem_iff.symm hgh.nodes.mem_iff.symm)

theorem isRoot_eq : h.IsRoot = g.IsRoot := by
  funext u
  refine propext (and_congr hgh.nodes.mem_iff.symm ?_)
  exact forall_congr' fun p => imp_congr_left (hgh.parents u).mem_iff.symm

/-- The order of the lists does not matter to what a root leads to. -/
theorem isReached_eq : h.IsReached = g.IsReached := by
  funext u
  rw [IsReached, IsReached, hgh.child_eq, hgh.isRoot_eq]

/-- The order of the lists does not matter to the cycles. -/
theorem isProperCycle_eq : h.IsProperCycle = g.IsProperCycle := by
  funext c
  rw [IsProperCycle, IsProperCycle, hgh.child_eq]

/-- Layers by longest paths stay so when the lists are rearranged. -/
theorem isLongestPathLayering {f : Value → Option Nat} (hf : h.IsLongestPathLayering f) :
    g.IsLongestPathLayering f := by
  have hpaths : h.pathsTo = g.pathsTo := by
    funext u
    rw [pathsTo, pathsTo, hgh.child_eq, hgh.isRoot_eq]
  have hnodes (u : Value) : u ∈ h.nodeIds ↔ u ∈ g.nodeIds := hgh.nodes.mem_iff.symm
  obtain ⟨hlayers, hstranded, hothers⟩ := hf
  simp only [hgh.isReached_eq, hpaths, hnodes] at hlayers hstranded hothers
  exact ⟨hlayers, hstranded, hothers⟩

end Rearranged

end Graph

end SpatialDiagram
