import Mathlib.Algebra.Order.Ring.Rat
import Mathlib.Data.List.Range
import Mathlib.Tactic.Ring
import SpatialDiagram.Proofs.Building.Pinning
import SpatialDiagram.Proofs.Geometry.ExactArithmetic
import SpatialDiagram.Proofs.Layout.WalkLength

/-!
# Rows and grids keep their members apart

A member of a row stands at a multiple of the spacing, moved so that the row is
balanced around zero, and a row stands at a multiple of twice the spacing. In
the grid the column and the line of a member are the remainder and the quotient
of its index, of which one differs for another index. So two members differ by
a multiple of the spacing other than zero along some axis.
-/

namespace SpatialDiagram

open scoped Scalar.Exact

namespace Arrangement

section

variable {ι K : Type} [DecidableEq ι] [Field K] [LinearOrder K]

/-- Two points are at least a distance apart along some axis. -/
def Apart (distance : K) (v w : Vec K) : Prop := ∃ a, distance ≤ |v.get a - w.get a|

/-- Where a list of places puts a member, the origin if it is not in the list. -/
def placeOf {α : Type} [Scalar α] (ps : List (ι × Vec α)) (u : ι) : Vec α :=
  (ps.lookup u).getD Vec.zero

/-- All of the members have places, and any two of them are a distance apart. -/
structure KeepsApart (distance : K) (members : List ι) (ps : List (ι × Vec K)) : Prop where
  placed : ∀ u ∈ members, (ps.lookup u).isSome = true
  apart : ∀ u ∈ members, ∀ v ∈ members, u ≠ v → Apart distance (placeOf ps u) (placeOf ps v)

/-- The first coordinates of the members of a layer, in the order of the members. -/
def abscissas (layer? : ι → Option Nat) (members : List ι) (ps : List (ι × Vec K)) (l : Nat) :
    List K :=
  (members.filter fun u => layer? u = some l).map fun u => (placeOf ps u).x

/-- Each layer is a row at its height, whose members follow each other at one distance and balance
each other. -/
structure InRows (layer? : ι → Option Nat) (distance : K) (members : List ι)
    (ps : List (ι × Vec K)) : Prop where
  height : ∀ u ∈ members, ∃ l, layer? u = some l ∧ (placeOf ps u).y = 2 * l * distance
  spaced : ∀ l, (abscissas layer? members ps l).IsChain fun x x' => x' - x = distance
  balanced : ∀ l, (abscissas layer? members ps l).sum = 0

/-- With distinct keys, a place in the list is where its member is put. -/
theorem lookup_of_mem {ps : List (ι × Vec K)} (h : (ps.map Prod.fst).Nodup) {e : ι × Vec K}
    (he : e ∈ ps) : ps.lookup e.1 = some e.2 ∧ placeOf ps e.1 = e.2 := by
  have hfound := (Keyed.lookup_eq_some_iff_mem h e.1 e.2).mpr he
  exact ⟨hfound, by rw [placeOf, hfound, Option.getD_some]⟩

/-- Places are apart if any two entries of the list are. -/
theorem keepsApart_of_mem {distance : K} {members : List ι} {ps : List (ι × Vec K)}
    (hkeys : (ps.map Prod.fst).Nodup) (hplaced : ∀ u ∈ members, u ∈ ps.map Prod.fst)
    (hapart : ∀ u v p q, u ≠ v → (u, p) ∈ ps → (v, q) ∈ ps → Apart distance p q) :
    KeepsApart distance members ps := by
  constructor
  case placed =>
    intro u hu
    obtain ⟨e, he, rfl⟩ := List.mem_map.mp (hplaced u hu)
    rw [(lookup_of_mem hkeys he).1, Option.isSome_some]
  case apart =>
    intro u hu v hv huv
    obtain ⟨e, he, rfl⟩ := List.mem_map.mp (hplaced u hu)
    obtain ⟨d, hd, rfl⟩ := List.mem_map.mp (hplaced v hv)
    rw [(lookup_of_mem hkeys he).2, (lookup_of_mem hkeys hd).2]
    exact hapart _ _ _ _ huv he hd

end

/-! ## Places by index -/

theorem mem_zipIdx_map_iff {ι α : Type} {members : List ι} {f : Nat → α} {u : ι} {p : α} :
    (u, p) ∈ (members.zipIdx.map fun m => (m.1, f m.2)) ↔
      ∃ i, members[i]? = some u ∧ p = f i := by
  simp only [List.mem_map, Prod.exists, List.mem_zipIdx_iff_getElem?, Prod.mk.injEq]
  constructor
  · rintro ⟨_, i, hi, rfl, rfl⟩
    exact ⟨i, hi, rfl⟩
  · rintro ⟨i, hi, rfl⟩
    exact ⟨u, i, hi, rfl, rfl⟩

variable {ι K : Type} [Field K] [LinearOrder K]

@[simp] theorem exact_ofNat (n : Nat) : (ofNat n : K) = n := Int.cast_natCast n

/-- The spacing is raised to the least one of thirty. -/
theorem clamped_eq_max (spacing : K) : clamped spacing = max spacing 30 := by
  have hleast : (leastSpacing : K) = 30 := Int.cast_ofNat 30
  rw [clamped, hleast, Scalar.max, max_def_lt]
  simp [Scalar.less]

/-- The place of a member of a row by its index. -/
def rowPlace (spacing : K) (layer length i : Nat) : Vec K :=
  ⟨(i - (length - 1) / 2) * spacing, 2 * layer * spacing, 0⟩

/-- A row gives each member its place by its position in the row. -/
theorem row_eq (spacing : K) (layer : Nat) (members : List ι) :
    row spacing layer members =
      members.zipIdx.map fun m => (m.1, rowPlace spacing layer members.length m.2) := by
  apply List.map_congr_left
  intro m _
  simp only [rowPlace, exact_ofNat, Scalar.exact_ofInt, Scalar.exact_two, Scalar.exact_zero]
  congr 2 <;> push_cast <;> ring

/-- The place of a member of the grid by its index. -/
def cellPlace (spacing : K) (columns i : Nat) : Vec K :=
  ⟨((i % columns : Nat) - (columns - 1) / 2) * spacing, 0,
    ((i / columns : Nat) - (columns - 1) / 2) * spacing⟩

/-- A grid gives each member its cell by its position in the list. -/
theorem grid_eq (spacing : K) (members : List ι) :
    grid spacing members =
      members.zipIdx.map fun m => (m.1, cellPlace spacing (side members.length) m.2) := by
  apply List.map_congr_left
  intro m _
  simp only [cellPlace, exact_ofNat, Scalar.exact_ofInt, Scalar.exact_two, Scalar.exact_zero]
  congr 2 <;> push_cast <;> ring

/-- A place of the rows is one of the row of some layer. -/
theorem mem_rows_iff {spacing : K} {layerOf : ι → Nat} {lowest : Nat} {members : List ι}
    {e : ι × Vec K} : e ∈ rows spacing layerOf lowest members ↔
      ∃ l ≤ lowest, e ∈ row spacing l (members.filter fun u => layerOf u = l) := by
  simp only [rows, List.mem_flatMap, List.mem_range, Nat.lt_succ_iff]

/-- Each member keeps its name, and the rows share no members. -/
theorem nodup_keys_rows (spacing : K) (layerOf : ι → Nat) (lowest : Nat) {members : List ι}
    (h : members.Nodup) : ((rows spacing layerOf lowest members).map Prod.fst).Nodup := by
  rw [rows, List.map_flatMap]
  simp only [row, fst_zipIdx_map]
  refine List.nodup_flatMap.mpr ⟨fun l _ => h.filter _, ?_⟩
  refine List.nodup_range.imp fun {l l'} hl u hu hu' => hl ?_
  have hlayer := of_decide_eq_true (List.mem_filter.mp hu).2
  have hlayer' := of_decide_eq_true (List.mem_filter.mp hu').2
  exact hlayer.symm.trans hlayer'

/-! ## No place is taken twice -/

section

variable [IsStrictOrderedRing K] {spacing : K} (hspacing : 0 ≤ spacing)

include hspacing

/-- Different whole numbers differ by one at least. -/
theorem apart_of_sub_eq {v w : Vec K} (a : Axis) {i j : Nat} (hij : i ≠ j)
    (h : v.get a - w.get a = (i - j) * spacing) : Apart spacing v w := by
  have hone : (1 : K) ≤ |(i : K) - j| := by
    have hint : 1 ≤ |(i : ℤ) - j| := Int.one_le_abs (by omega)
    exact_mod_cast hint
  refine ⟨a, ?_⟩
  calc spacing = 1 * spacing := (one_mul spacing).symm
    _ ≤ |(i : K) - j| * spacing := mul_le_mul_of_nonneg_right hone hspacing
    _ = |v.get a - w.get a| := by rw [h, abs_mul, abs_of_nonneg hspacing]

/-- Two places of one row are apart along the row. -/
theorem apart_rowPlace (layer length : Nat) {i j : Nat} (hij : i ≠ j) :
    Apart spacing (rowPlace spacing layer length i) (rowPlace spacing layer length j) := by
  refine apart_of_sub_eq hspacing .x hij ?_
  simp only [rowPlace, Vec.get]
  ring

/-- Places of two rows are apart in height. -/
theorem apart_rowPlace_of_layer {l l' : Nat} (hl : l ≠ l') (length length' i j : Nat) :
    Apart spacing (rowPlace spacing l length i) (rowPlace spacing l' length' j) := by
  have hdouble : 2 * l ≠ 2 * l' := by omega
  refine apart_of_sub_eq hspacing .y hdouble ?_
  simp only [rowPlace, Vec.get]
  push_cast
  ring

/-- Two cells differ in their column or in their row. -/
theorem apart_cellPlace (columns : Nat) {i j : Nat} (hij : i ≠ j) :
    Apart spacing (cellPlace spacing columns i) (cellPlace spacing columns j) := by
  by_cases hcolumn : i % columns = j % columns
  · have hline : i / columns ≠ j / columns := by
      intro hline
      apply hij
      rw [← Nat.div_add_mod i columns, ← Nat.div_add_mod j columns, hline, hcolumn]
    refine apart_of_sub_eq hspacing .z hline ?_
    simp only [cellPlace, Vec.get]
    ring
  · refine apart_of_sub_eq hspacing .x hcolumn ?_
    simp only [cellPlace, Vec.get]
    ring

/-- Two members of a grid are apart. -/
theorem apart_of_mem_grid {members : List ι} {u v : ι} (huv : u ≠ v) {p q : Vec K}
    (hp : (u, p) ∈ grid spacing members) (hq : (v, q) ∈ grid spacing members) :
    Apart spacing p q := by
  rw [grid_eq, mem_zipIdx_map_iff] at hp hq
  obtain ⟨i, hi, rfl⟩ := hp
  obtain ⟨j, hj, rfl⟩ := hq
  apply apart_cellPlace hspacing
  rintro rfl
  exact huv (Option.some.inj (hi.symm.trans hj))

/-- Two members of the rows are apart, in one row or in two. -/
theorem apart_of_mem_rows {layerOf : ι → Nat} {lowest : Nat} {members : List ι} {u v : ι}
    (huv : u ≠ v) {p q : Vec K} (hp : (u, p) ∈ rows spacing layerOf lowest members)
    (hq : (v, q) ∈ rows spacing layerOf lowest members) : Apart spacing p q := by
  obtain ⟨l, -, hp⟩ := mem_rows_iff.mp hp
  obtain ⟨l', -, hq⟩ := mem_rows_iff.mp hq
  rw [row_eq, mem_zipIdx_map_iff] at hp hq
  obtain ⟨i, hi, rfl⟩ := hp
  obtain ⟨j, hj, rfl⟩ := hq
  by_cases hl : l = l'
  · subst hl
    apply apart_rowPlace hspacing
    rintro rfl
    exact huv (Option.some.inj (hi.symm.trans hj))
  · exact apart_rowPlace_of_layer hspacing hl _ _ i j

end

/-! ## Rows are balanced -/

/-- A row is spaced evenly about its middle. -/
theorem abscissas_row (spacing : K) (layer : Nat) (members : List ι) :
    (row spacing layer members).map (fun e => e.2.x) =
      (List.range members.length).map fun i : Nat =>
        ((i : K) - (members.length - 1) / 2) * spacing := by
  rw [row_eq, List.map_map, List.range_eq_range', ← List.zipIdx_map_snd 0 members, List.map_map]
  rfl

/-- The members of a row follow each other at the spacing. -/
theorem isChain_row (spacing : K) (layer : Nat) (members : List ι) :
    ((row spacing layer members).map fun e => e.2.x).IsChain fun x x' => x' - x = spacing := by
  rw [abscissas_row, List.isChain_map, List.isChain_range]
  intro i _
  push_cast
  ring

variable [IsStrictOrderedRing K]

/-- The sum of the first multiples of the spacing, each of them moved by the same amount. -/
theorem sum_range_sub (spacing shift : K) (n : Nat) :
    ((List.range n).map fun i : Nat => ((i : K) - shift) * spacing).sum =
      n * ((n - 1) / 2 - shift) * spacing := by
  induction n with
  | zero => simp
  | succ n ih =>
      rw [List.range_succ, List.map_append, List.sum_append, ih]
      simp only [List.map_singleton, List.sum_singleton]
      push_cast
      ring

/-- A row balances about its middle. -/
theorem sum_row (spacing : K) (layer : Nat) (members : List ι) :
    ((row spacing layer members).map fun e => e.2.x).sum = 0 := by
  rw [abscissas_row, sum_range_sub, sub_self, mul_zero, zero_mul]

/-! ## Arrangements -/

variable [DecidableEq ι]

/-- A grid keeps its members apart. -/
theorem keepsApart_grid {spacing : K} (hspacing : 0 ≤ spacing) {members : List ι}
    (h : members.Nodup) : KeepsApart spacing members (grid spacing members) := by
  have hkeys : (grid spacing members).map Prod.fst = members := by
    rw [grid, fst_zipIdx_map]
  apply keepsApart_of_mem
  · rwa [hkeys]
  · rw [hkeys]
    exact fun u hu => hu
  · exact fun u v p q huv hp hq => apart_of_mem_grid hspacing huv hp hq

section

variable {layerOf : ι → Nat} {lowest : Nat} {members : List ι} (hmembers : members.Nodup)
  (hlowest : ∀ u ∈ members, layerOf u ≤ lowest)

include hmembers hlowest

/-- Rows keep their members apart. -/
theorem keepsApart_rows {spacing : K} (hspacing : 0 ≤ spacing) :
    KeepsApart spacing members (rows spacing layerOf lowest members) := by
  apply keepsApart_of_mem
  · exact nodup_keys_rows spacing layerOf lowest hmembers
  · exact fun u hu => mem_rows spacing hu (hlowest u hu)
  · exact fun u v p q huv hp hq => apart_of_mem_rows hspacing huv hp hq

section

variable {layer? : ι → Option Nat} (hlayer : ∀ u ∈ members, layer? u = some (layerOf u))

include hlayer

omit [IsStrictOrderedRing K] in
/-- The members of a layer are those of one row, in the same order. -/
theorem abscissas_rows (spacing : K) (l : Nat) :
    abscissas layer? members (rows spacing layerOf lowest members) l =
      (row spacing l (members.filter fun u => layerOf u = l)).map fun e => e.2.x := by
  have hfilter : (members.filter fun u => layer? u = some l) =
      members.filter fun u => layerOf u = l :=
    List.filter_congr fun u hu => by simp [hlayer u hu]
  have hfst : (row spacing l (members.filter fun u => layerOf u = l)).map Prod.fst =
      members.filter fun u => layerOf u = l := by
    rw [row, fst_zipIdx_map]
  have hkeys := nodup_keys_rows spacing layerOf lowest hmembers
  rw [abscissas, hfilter, ← hfst, List.map_map, hfst]
  refine List.map_congr_left fun e he => congrArg Vec.x (lookup_of_mem hkeys ?_).2
  obtain ⟨hu, hl⟩ := List.mem_filter.mp (hfst ▸ List.mem_map_of_mem he)
  exact mem_rows_iff.mpr ⟨l, of_decide_eq_true hl ▸ hlowest e.1 hu, he⟩

/-- Rows have their heights, their even spacing and their balance. -/
theorem inRows_rows (spacing : K) :
    InRows layer? spacing members (rows spacing layerOf lowest members) := by
  constructor
  case height =>
    intro u hu
    obtain ⟨⟨v, p⟩, he, rfl⟩ := List.mem_map.mp (mem_rows spacing hu (hlowest u hu))
    have hplace := lookup_of_mem (nodup_keys_rows spacing layerOf lowest hmembers) he
    obtain ⟨l, -, hp⟩ := mem_rows_iff.mp he
    rw [row_eq, mem_zipIdx_map_iff] at hp
    obtain ⟨i, hi, rfl⟩ := hp
    obtain rfl := of_decide_eq_true (List.mem_filter.mp (List.mem_of_getElem? hi)).2
    exact ⟨_, hlayer v hu, congrArg Vec.y hplace.2⟩
  case spaced =>
    intro l
    rw [abscissas_rows hmembers hlowest hlayer]
    exact isChain_row spacing l _
  case balanced =>
    intro l
    rw [abscissas_rows hmembers hlowest hlayer]
    exact sum_row spacing l _

end

end

end Arrangement

namespace Layout

/-- The names of the nodes that are not pinned, in the order of the nodes. -/
def freeIds (g : Graph) (pinned : List Value) : List Value :=
  (g.nodes.filter fun n => n.id ∉ pinned).map Node.id

/-- The places that the layered layout finds, in any arithmetic. -/
def layeredPlaces {α : Type} [Scalar α] (g : Graph) (pinned : List Value) (spacing : α) :
    List (Value × Vec α) :=
  Arrangement.rows (Arrangement.clamped spacing) (Layering.ofMembers (membersOf g)).layerOf
    g.nodes.length (freeIds g pinned)

/-- The places that the grid layout finds, in any arithmetic. -/
def gridPlaces {α : Type} [Scalar α] (g : Graph) (pinned : List Value) (spacing : α) :
    List (Value × Vec α) :=
  Arrangement.grid (Arrangement.clamped spacing) (freeIds g pinned)

/-- A layout succeeds and moves the nodes that are not pinned to given places. -/
def MovesTo (a : LayoutAlgorithm) (c : Context) (ps : Positions) : Prop :=
  ∃ g, (apply a c).result = .ok g ∧ ∀ u ∈ freeIds c.graph c.pinned,
    (g.node? u).map Node.position = some (Arrangement.placeOf ps u)

/-- A layout that finds places moves every free node to its own. -/
theorem movesTo_of_positions {a : LayoutAlgorithm} {c : Context} {ps : Positions}
    (h : (positions a c).result = .ok ps) : MovesTo a c ps := by
  refine ⟨moveAll c.graph ps, by rw [result_apply, h]; rfl, fun u hu => ?_⟩
  have hplaced : u ∈ ps.map Prod.fst := covered_of_positions h hu
  obtain ⟨p, hp⟩ : ∃ p, ps.lookup u = some p := by
    obtain ⟨e, he, rfl⟩ := List.mem_map.mp hplaced
    exact Option.isSome_iff_exists.mp (List.lookup_isSome_iff.mpr ⟨e, he, beq_self_eq_true e.1⟩)
  have hmem : u ∈ c.graph.nodeIds := (List.filter_sublist.map Node.id).subset hu
  obtain ⟨n, hn⟩ := Option.isSome_iff_exists.mp ((Graph.mem_nodeIds_iff c.graph u).mp hmem)
  obtain ⟨rfl, -⟩ := Keyed.find_some_key hn
  rw [node_moveAll, hn, Arrangement.placeOf, hp]
  simp only [Option.map_some, placed, hp, Option.getD_some]
  rfl

theorem positions_hierarchical (c : Context) : (positions .hierarchical c).result =
    .ok (layeredPlaces c.graph c.pinned c.spacing) := by
  rw [positions, layered, Trace.result_bind, result_assignLayers]
  rfl

theorem positions_grid (c : Context) : (positions .grid c).result =
    .ok (gridPlaces c.graph c.pinned c.spacing) := rfl

theorem layer_of_mem {g : Graph} {u : Value} (hu : u ∈ g.nodeIds) :
    (Layering.ofMembers (membersOf g)).layers.get? u =
      some ((Layering.ofMembers (membersOf g)).layerOf u) := by
  obtain ⟨l, hl⟩ := Option.isSome_iff_exists.mp ((isSome_layer_iff g u).mpr hu)
  rw [Layering.layerOf, hl, Option.getD_some]

/-- In exact arithmetic the layered layout and the grid layout give any two nodes that are not
pinned places that differ by the clamped spacing along some axis, and the layered one puts each
layer in a balanced row at its height. The same arrangement of floating-point numbers is where they
move the nodes. -/
theorem layouts_keep_apart {K : Type} [Field K] [LinearOrder K] [IsStrictOrderedRing K] {g : Graph}
    (hids : g.nodeIds.Nodup) (pinned : List Value) (spacing : K) :
    let ids := freeIds g pinned
    let distance := Arrangement.clamped spacing
    distance = max spacing 30 ∧
      Arrangement.KeepsApart distance ids (layeredPlaces g pinned spacing) ∧
      Arrangement.KeepsApart distance ids (gridPlaces g pinned spacing) ∧
      (∃ l, (assignLayers g).result = .ok l ∧ Arrangement.InRows l.layers.get? distance ids
        (layeredPlaces g pinned spacing)) ∧
      ∀ x : Float, let c : Context := { graph := g, pinned, spacing := x }
        MovesTo .hierarchical c (layeredPlaces g pinned x) ∧
          MovesTo .grid c (gridPlaces g pinned x) := by
  intro ids distance
  have hdistance : distance = max spacing 30 := Arrangement.clamped_eq_max spacing
  have hnonneg : 0 ≤ distance := by
    rw [hdistance]
    exact le_max_of_le_right (by norm_num)
  have hsub : ids.Sublist g.nodeIds := List.filter_sublist.map Node.id
  have hlowest (u : Value) (_ : u ∈ ids) :
      (Layering.ofMembers (membersOf g)).layerOf u ≤ g.nodes.length := by
    have hle := Layering.layerOf_le (membersOf g) u
    rwa [membersOf, List.length_map] at hle
  refine ⟨hdistance, ?_, ?_, ⟨_, result_assignLayers g, ?_⟩, fun x => ⟨?_, ?_⟩⟩
  · exact Arrangement.keepsApart_rows (hids.sublist hsub) hlowest hnonneg
  · exact Arrangement.keepsApart_grid hnonneg (hids.sublist hsub)
  · exact Arrangement.inRows_rows (hids.sublist hsub) hlowest
      (fun u hu => layer_of_mem (hsub.subset hu)) distance
  · exact movesTo_of_positions (positions_hierarchical _)
  · exact movesTo_of_positions (positions_grid _)

/-- B and C are both children of A, and D is pinned; a spacing of ten is raised to thirty. -/
theorem layouts_keep_apart_fork :
    let g : Graph :=
      { id := .str "g", name := .str "Test"
        nodes := [{ Node.plain "A" with children := [.str "B", .str "C"] }, Node.plain "D",
          { Node.plain "B" with parents := [.str "A"] },
          { Node.plain "C" with parents := [.str "A"] }] }
    let layered : List (Value × Vec ℚ) := layeredPlaces g [.str "D"] 10
    let grid : List (Value × Vec ℚ) := gridPlaces g [.str "D"] 10
    g.nodeIds.Nodup ∧ freeIds g [.str "D"] = [.str "A", .str "B", .str "C"] ∧
      Arrangement.KeepsApart 30 [.str "A", .str "B", .str "C"] layered ∧
      Arrangement.KeepsApart 30 [.str "A", .str "B", .str "C"] grid ∧
      ∃ l, (assignLayers g).result = .ok l ∧
        Arrangement.InRows l.layers.get? 30 [.str "A", .str "B", .str "C"] layered := by
  intro g layered grid
  have hids : g.nodeIds.Nodup := by decide
  have hfree : freeIds g [.str "D"] = [.str "A", .str "B", .str "C"] := by decide
  obtain ⟨hdistance, hlayered, hgrid, hrows, -⟩ := layouts_keep_apart hids [.str "D"] (10 : ℚ)
  have hthirty : (Arrangement.clamped 10 : ℚ) = 30 := hdistance.trans (max_eq_right (by decide))
  rw [hthirty, hfree] at hlayered hgrid hrows
  exact ⟨hids, hfree, hlayered, hgrid, hrows⟩

end Layout

end SpatialDiagram
