import SpatialDiagram.Proofs.Layout.RootPaths
import SpatialDiagram.Proofs.Layout.Walks

/-!
# Layers are longest paths

A node has earned its height by a descent of as many nodes, and in the end each
node has pushed its children below it. As long as no cycle of different nodes
can be reached from a root, a descent is a path, so the layers are those by
longest paths. The walk warns of a cycle exactly if there is such a cycle.
-/

namespace SpatialDiagram

namespace Layout

open Layers SpatialDiagram.Graph

/-! ## The walk of a graph -/

/-- The walk that gives a graph its layers. -/
def walkOf (g : Graph) : Walk Value :=
  walk g.nodeIds (Layering.childrenOf (membersOf g)) (start (membersOf g))

theorem ids_membersOf (g : Graph) : (membersOf g).map Member.id = g.nodeIds := by
  rw [membersOf, List.map_map, nodeIds]
  rfl

/-- The layering sees the children that the graph records. -/
theorem childrenOf_membersOf (g : Graph) (u : Value) :
    Layering.childrenOf (membersOf g) u = g.childrenOf u := by
  rw [Layering.childrenOf, membersOf, childrenOf, entries, node?]
  induction g.nodes with
  | nil => rfl
  | cons n ns ih =>
      rw [List.map_cons, Keyed.find_cons, Keyed.find_cons]
      split
      · rfl
      · exact ih

theorem down_eq (g : Graph) :
    Down g.nodeIds (Layering.childrenOf (membersOf g)) = Strict g.Child := by
  funext u v
  rw [Down, Strict, Strict, childrenOf_membersOf]
  rfl

/-- With distinct ids, the walk starts at the roots. -/
theorem isStart_iff {g : Graph} (hids : g.nodeIds.Nodup) (u : Value) :
    IsStart (membersOf g) u ↔ g.IsRoot u := by
  have hroot (n : Node) :
      isRoot ⟨n.id, n.children, n.parents⟩ = true ↔ ∀ p ∈ n.parents, p = n.id := by
    simp [isRoot]
  simp only [IsStart, start, membersOf, List.mem_map, List.mem_filter, IsRoot]
  constructor
  · rintro ⟨m, ⟨⟨n, hn, rfl⟩, hm⟩, rfl⟩
    refine ⟨List.mem_map_of_mem hn, ?_⟩
    rw [parentsOf, entries_of_mem Node.parents hids hn]
    exact (hroot n).mp hm
  · rintro ⟨hu, hparents⟩
    obtain ⟨n, hn, rfl⟩ := List.mem_map.mp hu
    rw [parentsOf, entries_of_mem Node.parents hids hn] at hparents
    exact ⟨_, ⟨⟨n, hn, rfl⟩, (hroot n).mpr hparents⟩, rfl⟩

/-- The descents of a graph: chains of different children from a root. -/
theorem mem_descents_iff {g : Graph} (hids : g.nodeIds.Nodup) {u : Value} {p : List Value} :
    p ∈ descents g.nodeIds (Layering.childrenOf (membersOf g)) (IsStart (membersOf g)) u ↔
      (∃ root, g.IsRoot root ∧ p.head? = some root) ∧ p.getLast? = some u ∧
        p.IsChain (Strict g.Child) := by
  rw [descents, Set.mem_ofPred_eq, down_eq]
  simp only [isStart_iff hids]

/-- Every layer of the walk comes from a descent. -/
theorem earned_walkOf (g : Graph) : Earned g.nodeIds (Layering.childrenOf (membersOf g))
    (IsStart (membersOf g)) (walkOf g) :=
  (invariants_walk (earned_start _) (passedOn_start _)).1

/-- Every layer of the walk has been passed on to the children, and nothing is left to visit. -/
theorem passedOn_walkOf (g : Graph) : PassedOn g.nodeIds (Layering.childrenOf (membersOf g))
    (IsStart (membersOf g)) (walkOf g) ∧ (walkOf g).queue = [] :=
  (invariants_walk (earned_start _) (passedOn_start _)).2

/-- A node has a layer only if a root leads to it. -/
theorem isReached_of_height {g : Graph} (hids : g.nodeIds.Nodup) {u : Value}
    (hu : 0 < height (walkOf g).layers u) : g.IsReached u := by
  obtain ⟨p, hp, -⟩ := (earned_walkOf g).climbed u hu
  obtain ⟨⟨root, hroot, hhead⟩, hlast, hchain⟩ := (mem_descents_iff hids).mp hp
  exact isReached_of_isChain (hchain.imp fun _ _ h => h.1) hroot hhead u
    (List.mem_of_getLast? hlast)

/-- A walk that did not meet the cap has pushed every child of a node with a layer below it. -/
theorem height_lt_of_child {g : Graph} (hcapped : (walkOf g).capped = false) {u v : Value}
    (hu : 0 < height (walkOf g).layers u) (huv : Strict g.Child u v) :
    height (walkOf g).layers u < height (walkOf g).layers v := by
  obtain ⟨hpassed, hqueue⟩ := passedOn_walkOf g
  have hpushed := (hpassed.pushed u hu).resolve_left (by simp [hqueue])
  rw [down_eq] at hpushed
  exact (hpushed v huv).resolve_left (by simp [hcapped])

section

variable {g : Graph} (hids : g.nodeIds.Nodup)

include hids

/-! ## Without the cap -/

section

variable (hcapped : (walkOf g).capped = false)

include hcapped

/-- A walk that is not capped gives a layer to all that a root leads to. -/
theorem height_pos_of_isReached {u : Value} (hu : g.IsReached u) :
    0 < height (walkOf g).layers u := by
  obtain ⟨root, hroot, hpath⟩ := hu
  induction hpath with
  | refl => exact (passedOn_walkOf g).1.started root ((isStart_iff hids root).mpr hroot)
  | @tail v w _ hvw ih =>
      by_cases hne : v = w
      · exact hne ▸ ih
      · exact Nat.zero_lt_of_lt (height_lt_of_child hcapped ih ⟨hvw, hne⟩)

/-- A walk that is not capped has met no cycle of two nodes or more. -/
theorem not_isProperCycle_of_not_capped {c : List Value} (hc : g.IsProperCycle c) {u : Value}
    (hu : u ∈ c) : ¬ g.IsReached u := by
  intro hreached
  have hstrict := isCycle_strict_iff.mpr hc
  exact hstrict.not_rising fun v hv w _ hvw =>
    height_lt_of_child hcapped
      (height_pos_of_isReached hids hcapped (hc.isReached hu hv hreached)) hvw

end

/-! ## Without a cycle that is reached -/

variable (hcycle : ∀ c, g.IsProperCycle c → ∀ u ∈ c, ¬ g.IsReached u)

include hcycle

/-- Without a cycle that a root leads to, the descents to a node are its paths from roots. -/
theorem mem_descents_iff_mem_pathsTo {u : Value} {p : List Value} :
    p ∈ descents g.nodeIds (Layering.childrenOf (membersOf g)) (IsStart (membersOf g)) u ↔
      p ∈ g.pathsTo u := by
  rw [mem_descents_iff hids]
  constructor
  · rintro ⟨⟨root, hroot, hhead⟩, hlast, hchain⟩
    have hplain : p.IsChain g.Child := hchain.imp fun _ _ h => h.1
    refine ⟨⟨root, hroot, hhead⟩, hlast, hplain, ?_⟩
    by_contra hdup
    obtain ⟨c, hc, hsub⟩ := exists_isCycle_of_not_nodup hchain hdup
    obtain ⟨v, hv⟩ := List.exists_mem_of_ne_nil c hc.ne_nil
    exact hcycle c (isCycle_strict_iff.mp hc) v hv
      (isReached_of_isChain hplain hroot hhead v (hsub.subset hv))
  · rintro ⟨hhead, hlast, hchain, hnodup⟩
    exact ⟨hhead, hlast, isChain_strict_of_nodup hchain hnodup⟩

/-- Without a cycle that a root leads to, the walk is not capped. -/
theorem not_capped : (walkOf g).capped = false := by
  by_contra hcapped
  obtain ⟨u, p, hp, hlonger⟩ := (earned_walkOf g).capped (Bool.eq_true_of_not_eq_false hcapped)
  have hpath := (mem_descents_iff_mem_pathsTo hids hcycle).mp hp
  exact absurd (length_le_of_pathsTo hpath) (Nat.not_le_of_lt hlonger)

/-- The height of a node is the number of nodes on the longest path to it. -/
theorem isGreatest_height {u : Value} (hu : g.IsReached u) :
    IsGreatest (List.length '' g.pathsTo u) (height (walkOf g).layers u) := by
  have hcapped := not_capped hids hcycle
  obtain ⟨hpassed, hqueue⟩ := passedOn_walkOf g
  obtain ⟨p, hp, hlength⟩ :=
    (earned_walkOf g).climbed u (height_pos_of_isReached hids hcapped hu)
  refine ⟨⟨p, (mem_descents_iff_mem_pathsTo hids hcycle).mp hp, hlength⟩, ?_⟩
  rintro _ ⟨q, hq, rfl⟩
  exact length_le_height hpassed hqueue hcapped ((mem_descents_iff_mem_pathsTo hids hcycle).mpr hq)

end

/-! ## The layers of a graph -/

/-- The greatest of some numbers and one to start with. -/
theorem isGreatest_foldl_max (ns : List Nat) (m : Nat) :
    IsGreatest (insert m {n | n ∈ ns}) (ns.foldl Nat.max m) := by
  induction ns generalizing m with
  | nil => simp
  | cons n ns ih =>
      obtain ⟨hmem, hupper⟩ := ih (Nat.max m n)
      have hstart : Nat.max m n ≤ ns.foldl Nat.max (Nat.max m n) := hupper (Set.mem_insert _ _)
      refine ⟨?_, ?_⟩
      · rcases hmem with hmem | hmem
        · rw [List.foldl_cons, hmem]
          rcases Nat.le_total m n with hle | hle
          · exact .inr (by simp [Nat.max_eq_right hle])
          · exact .inl (Nat.max_eq_left hle)
        · exact .inr (List.mem_cons_of_mem n hmem)
      · rintro k (rfl | hk)
        · exact (Nat.le_max_left k n).trans hstart
        · rcases List.mem_cons.mp hk with rfl | hk
          · exact (Nat.le_max_right m k).trans hstart
          · exact hupper (.inr hk)

theorem walk_membersOf (g : Graph) : walk ((membersOf g).map Member.id)
    (Layering.childrenOf (membersOf g)) (start (membersOf g)) = walkOf g := by
  rw [ids_membersOf, walkOf]

/-- A node has an entry exactly for its layer. -/
theorem mem_entries_walkOf_iff (g : Graph) (u : Value) (l : Nat) :
    (u, l) ∈ (walkOf g).layers.entries ↔ height (walkOf g).layers u = l + 1 := by
  have hstart : (start (membersOf g)).layers.keys.Nodup :=
    Table.nodup_keys_putAll (t := .empty) List.nodup_nil _
  rw [height_eq_succ_iff, Table.get_eq_lookup]
  exact (Keyed.lookup_eq_some_iff_mem (nodup_keys_walk hstart) u l).symm

/-- The extra layer is the greatest height. -/
theorem isGreatest_extraLayer (g : Graph) :
    IsGreatest (insert 0 (Set.range (height (walkOf g).layers)))
      (Layering.ofMembers (membersOf g)).extraLayer := by
  have hextra : (Layering.ofMembers (membersOf g)).extraLayer =
      ((walkOf g).layers.entries.map fun e => e.2 + 1).foldl Nat.max 0 := by
    rw [← walk_membersOf]
    rfl
  have hheights : insert 0 {n | n ∈ (walkOf g).layers.entries.map fun e => e.2 + 1} =
      insert 0 (Set.range (height (walkOf g).layers)) := by
    ext n
    simp only [Set.mem_insert_iff, Set.mem_ofPred_eq, List.mem_map, Set.mem_range]
    refine or_congr_right' fun hn => ⟨?_, ?_⟩
    · rintro ⟨⟨u, l⟩, hmem, rfl⟩
      exact ⟨u, (mem_entries_walkOf_iff g u l).mp hmem⟩
    · rintro ⟨u, rfl⟩
      obtain ⟨l, hl⟩ := Nat.exists_eq_add_one_of_ne_zero hn
      exact ⟨(u, l), (mem_entries_walkOf_iff g u l).mpr hl, hl.symm⟩
  rw [hextra, ← hheights]
  exact isGreatest_foldl_max _ 0

/-- Nodes of the graph that the walk missed share the extra layer. -/
theorem layer_ofMembers (g : Graph) (u : Value) :
    (Layering.ofMembers (membersOf g)).layers.get? u =
      if u ∈ g.nodeIds ∧ height (walkOf g).layers u = 0 then
        some (Layering.ofMembers (membersOf g)).extraLayer
      else (walkOf g).layers.get? u := by
  have hlayers : (Layering.ofMembers (membersOf g)).layers =
      (walkOf g).layers.putAll ((g.nodeIds.filter fun v => ((walkOf g).layers.get? v).isNone).map
        fun v => (v, (Layering.ofMembers (membersOf g)).extraLayer)) := by
    rw [← walk_membersOf, ← ids_membersOf]
    rfl
  have hmissed : u ∈ g.nodeIds.filter (fun v => ((walkOf g).layers.get? v).isNone) ↔
      u ∈ g.nodeIds ∧ height (walkOf g).layers u = 0 := by
    rw [List.mem_filter, height_eq_zero_iff]
  rw [hlayers, Table.get_putAll_const]
  simp only [hmissed]

/-- What is logged when the walk has been stopped at its cap. -/
def capWarning : Event := .logged ⟨.warning, layersLogger,
  "Hierarchical layering stopped at the layer cap; the graph contains a cycle."⟩

/-- The warning is logged exactly if the walk was capped. -/
theorem capWarning_mem_iff (g : Graph) :
    capWarning ∈ (assignLayers g).events ↔ (walkOf g).capped = true := by
  have hcapped : (Layering.ofMembers (membersOf g)).capped = (walkOf g).capped := by
    rw [← walk_membersOf]
    rfl
  rw [← hcapped, assignLayers]
  cases (Layering.ofMembers (membersOf g)).capped <;>
    cases (Layering.ofMembers (membersOf g)).stranded.isEmpty <;>
    simp [Trace.events_bind, Trace.log, capWarning]

section

variable {g : Graph} (hids : g.nodeIds.Nodup)
  (hcycle : ∀ c, g.IsProperCycle c → ∀ u ∈ c, ¬ g.IsReached u)

include hids hcycle

/-- A node has a layer from the walk exactly if a root leads to it. -/
theorem isReached_iff_height_pos (u : Value) :
    g.IsReached u ↔ 0 < height (walkOf g).layers u :=
  ⟨height_pos_of_isReached hids (not_capped hids hcycle), isReached_of_height hids⟩

/-- The layer of a node that a root leads to is one below its height. -/
theorem layer_eq_some_iff {u : Value} {l : Nat} (hu : g.IsReached u) :
    (Layering.ofMembers (membersOf g)).layers.get? u = some l ↔
      height (walkOf g).layers u = l + 1 := by
  have hpos := (isReached_iff_height_pos hids hcycle u).mp hu
  rw [layer_ofMembers, if_neg fun h => hpos.ne' h.2, height_eq_succ_iff]

/-- A node that a root leads to has the length of its longest path for a layer. -/
theorem isGreatest_layer {u : Value} (hu : g.IsReached u) :
    ∃ l, (Layering.ofMembers (membersOf g)).layers.get? u = some l ∧
      IsGreatest ((fun p => p.length - 1) '' g.pathsTo u) l := by
  obtain ⟨l, hl⟩ :=
    Nat.exists_eq_add_one_of_ne_zero ((isReached_iff_height_pos hids hcycle u).mp hu).ne'
  refine ⟨l, (layer_eq_some_iff hids hcycle hu).mpr hl, ?_⟩
  obtain ⟨⟨p, hp, hlength⟩, hmax⟩ := isGreatest_height hids hcycle hu
  refine ⟨⟨p, hp, by simp [hlength, hl]⟩, ?_⟩
  rintro _ ⟨q, hq, rfl⟩
  have hle := hmax ⟨q, hq, rfl⟩
  simp only
  omega

/-- The extra layer lies right below the deepest of the others. -/
theorem extraLayer_eq_succ {deepest : Nat}
    (h : IsGreatest {l | ∃ u, g.IsReached u ∧
      (Layering.ofMembers (membersOf g)).layers.get? u = some l} deepest) :
    (Layering.ofMembers (membersOf g)).extraLayer = deepest + 1 := by
  obtain ⟨⟨u, hu, hl⟩, hmax⟩ := h
  obtain ⟨hmem, hupper⟩ := isGreatest_extraLayer g
  have hleast := hupper (.inr ⟨u, (layer_eq_some_iff hids hcycle hu).mp hl⟩)
  refine Nat.le_antisymm ?_ hleast
  rcases hmem with hzero | ⟨v, hv⟩
  · omega
  · by_contra hlt
    obtain ⟨l, hl⟩ := Nat.exists_eq_add_one_of_ne_zero (n := height (walkOf g).layers v) (by omega)
    have hreached : g.IsReached v := (isReached_iff_height_pos hids hcycle v).mpr (by omega)
    have hle : l ≤ deepest := hmax ⟨v, hreached, (layer_eq_some_iff hids hcycle hreached).mpr hl⟩
    omega

/-- Where no root leads anywhere, the nodes that are left get the first layer. -/
theorem extraLayer_eq_zero (hnone : ∀ u, ¬ g.IsReached u) :
    (Layering.ofMembers (membersOf g)).extraLayer = 0 := by
  rcases (isGreatest_extraLayer g).1 with hzero | ⟨v, hv⟩
  · exact hzero
  · rw [← hv]
    exact Nat.eq_zero_of_not_pos fun h => hnone v ((isReached_iff_height_pos hids hcycle v).mpr h)

/-- Without a cycle that a root leads to, the layers are by longest paths. -/
theorem isLongestPathLayering_of_no_cycle :
    g.IsLongestPathLayering (Layering.ofMembers (membersOf g)).layers.get? := by
  have hheight (u : Value) (hu : ¬ g.IsReached u) : height (walkOf g).layers u = 0 :=
    Nat.eq_zero_of_not_pos fun h => hu ((isReached_iff_height_pos hids hcycle u).mpr h)
  refine ⟨fun u => isGreatest_layer hids hcycle,
    ⟨(Layering.ofMembers (membersOf g)).extraLayer, fun u hu hmissed => ?_,
      fun deepest => extraLayer_eq_succ hids hcycle, extraLayer_eq_zero hids hcycle⟩,
    fun u hu => ?_⟩
  · rw [layer_ofMembers, if_pos ⟨hu, hheight u hmissed⟩]
  · rw [layer_ofMembers, if_neg fun h => hu h.1, ← Option.isNone_iff_eq_none, ← height_eq_zero_iff]
    exact hheight u fun h => hu h.mem

end

/-- If no proper cycle can be reached from a root, the layers are the longest paths, whatever the
order of nodes and lists, and there is no warning; otherwise there is one. The lists of children
and parents need not mirror each other or be free of repetition. -/
theorem assignLayers_by_longest_path {g : Graph} (hids : g.nodeIds.Nodup) :
    ∃ l, (assignLayers g).result = .ok l ∧
      ((∀ c, g.IsProperCycle c → ∀ u ∈ c, ¬ g.IsReached u) →
        g.IsLongestPathLayering l.layers.get? ∧ capWarning ∉ (assignLayers g).events ∧
        ∀ h : Graph, g.Rearranged h → ∃ l', (assignLayers h).result = .ok l' ∧
          l'.layers.get? = l.layers.get?) ∧
      ∀ c, g.IsProperCycle c → (∃ u ∈ c, g.IsReached u) → capWarning ∈ (assignLayers g).events := by
  refine ⟨_, result_assignLayers g, fun hcycle => ⟨?_, ?_, fun h hgh => ?_⟩, ?_⟩
  · exact isLongestPathLayering_of_no_cycle hids hcycle
  · rw [capWarning_mem_iff, not_capped hids hcycle]
    simp
  · have hlayering := isLongestPathLayering_of_no_cycle hids hcycle
    rw [← hgh.isProperCycle_eq, ← hgh.isReached_eq] at hcycle
    have hother := isLongestPathLayering_of_no_cycle (hgh.nodes.nodup_iff.mp hids) hcycle
    exact ⟨_, result_assignLayers h, (hgh.isLongestPathLayering hother).unique hlayering⟩
  · rintro c hc ⟨u, hu, hreached⟩
    rw [capWarning_mem_iff]
    by_contra hcapped
    exact not_isProperCycle_of_not_capped hids (Bool.eq_false_iff.mpr hcapped) hc hu hreached

/-- In the first graph A lists itself, and D and E circle each other out of reach. In the second
graph A leads to such a circle. -/
theorem assignLayers_by_longest_path_island :
    let g : Graph :=
      { id := .str "g", name := .str "Test"
        nodes := [{ Node.plain "A" with
            children := [.str "A", .str "B", .str "C"], parents := [.str "A"] },
          { Node.plain "B" with children := [.str "C"], parents := [.str "A"] },
          { Node.plain "C" with parents := [.str "A", .str "B"] },
          { Node.plain "D" with children := [.str "E"], parents := [.str "E"] },
          { Node.plain "E" with children := [.str "D"], parents := [.str "D"] }] }
    let h : Graph :=
      { id := .str "h", name := .str "Test"
        nodes := [{ Node.plain "A" with children := [.str "B"] },
          { Node.plain "B" with children := [.str "C"], parents := [.str "A", .str "C"] },
          { Node.plain "C" with children := [.str "B"], parents := [.str "B"] }] }
    g.nodeIds.Nodup ∧ h.nodeIds.Nodup ∧
      (∃ l, (assignLayers g).result = .ok l ∧ g.IsLongestPathLayering l.layers.get?) ∧
      capWarning ∉ (assignLayers g).events ∧ capWarning ∈ (assignLayers h).events := by
  intro g h
  have hg : g.nodeIds.Nodup := by decide
  have hh : h.nodeIds.Nodup := by decide
  let upper : List Value := [.str "A", .str "B", .str "C"]
  have hreached (u : Value) (hu : g.IsReached u) : u ∈ upper := by
    obtain ⟨root, ⟨hroot, hparents⟩, hpath⟩ := hu
    have hroots : ∀ u ∈ g.nodeIds, (∀ p ∈ g.parentsOf u, p = u) → u ∈ upper := by decide
    have hchildren : ∀ u ∈ upper, ∀ v ∈ g.nodeIds, g.Child u v → v ∈ upper := by decide
    induction hpath with
    | refl => exact hroots root hroot hparents
    | tail _ huv ih => exact hchildren _ ih _ huv.2 huv
  have hnone (c : List Value) (hc : g.IsProperCycle c) (u : Value) (hu : u ∈ c) :
      ¬ g.IsReached u := by
    intro hstart
    have hin (v : Value) (hv : v ∈ c) : v ∈ upper := hreached v (hc.isReached hu hv hstart)
    have hrise : ∀ u ∈ upper, ∀ v ∈ upper, g.Child u v ∧ u ≠ v → upper.idxOf u < upper.idxOf v := by
      decide
    exact (isCycle_strict_iff.mpr hc).not_rising fun u hu v hv => hrise u (hin u hu) v (hin v hv)
  have hcycle : h.IsProperCycle [.str "B", .str "C", .str "B"] :=
    ⟨(isCycle_cons_concat_iff (Value.str "B") [.str "C"]).mpr (by decide), by decide⟩
  have hroot : h.IsRoot (Value.str "A") := by
    constructor <;> decide
  have hcircled : h.IsReached (Value.str "B") := ⟨_, hroot, .single (by decide)⟩
  obtain ⟨l, hl, hwithout, -⟩ := assignLayers_by_longest_path hg
  obtain ⟨-, -, -, hwith⟩ := assignLayers_by_longest_path hh
  obtain ⟨hlayers, hquiet, -⟩ := hwithout hnone
  exact ⟨hg, hh, ⟨l, hl, hlayers⟩, hquiet, hwith _ hcycle ⟨_, by decide, hcircled⟩⟩

end Layout

end SpatialDiagram
