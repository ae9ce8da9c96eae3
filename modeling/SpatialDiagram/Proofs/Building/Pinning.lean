import SpatialDiagram.Proofs.Building.Contents
import SpatialDiagram.Proofs.Layout.Coverage

/-!
# Pinned nodes and layouts

A layout moves every node that is not pinned and changes nothing else. In a
build a node whose last declaration gives a position other than the origin is
pinned, so it ends where that declaration puts it.
-/

namespace SpatialDiagram

open Notation

namespace Layout

/-- What a layout makes of a node. A pinned node stays as it is; any other one is moved without
being turned or scaled, and takes the box and the faces of its new transform. -/
structure LaidOut (pinned : List Value) (n n' : Node) : Prop where
  stays : n.id ∈ pinned → n' = n
  moves : n.id ∉ pinned → ∃ p, n' =
    { n with
      transform := { n.transform with position := p }
      box := .ofTransform { n.transform with position := p }
      faces := Face.generate n.shape { n.transform with position := p } }

/-- A node is laid out as its algorithm does it: a pinned one stays, any other goes to its place. -/
theorem laidOut_placed {a : LayoutAlgorithm} {context : Context} {ps : Positions}
    (h : (positions a context).result = .ok ps) {n : Node} (hn : n ∈ context.graph.nodes) :
    LaidOut context.pinned n (placed ps n) where
  stays hpinned := by
    have hnone : ps.lookup n.id = none := by
      rw [List.lookup_eq_none_iff]
      intro p hp
      have hne : n.id ≠ p.1 := by
        rintro he
        obtain ⟨m, hm, hid⟩ := List.mem_map.mp (unpinned_of_positions h hp)
        have hfree : m.id ∉ context.pinned := of_decide_eq_true (List.mem_filter.mp hm).2
        exact hfree (hid.trans he.symm ▸ hpinned)
      simpa using hne
    rw [placed, hnone]
  moves hfree := by
    have hcovered : n.id ∈ ps.map Prod.fst :=
      covered_of_positions h
        (List.mem_map_of_mem (List.mem_filter.mpr ⟨hn, decide_eq_true hfree⟩))
    obtain ⟨p, hp⟩ : ∃ p, ps.lookup n.id = some p := by
      rw [← Option.isSome_iff_exists, List.lookup_isSome_iff]
      obtain ⟨x, hx, hid⟩ := List.mem_map.mp hcovered
      exact ⟨x, hx, by simp [hid]⟩
    refine ⟨p, ?_⟩
    rw [placed, hp]
    rfl

/-- A layout moves the nodes to the positions it has found and does nothing else. -/
theorem result_apply (a : LayoutAlgorithm) (context : Context) :
    (apply a context).result = (positions a context).result.map (moveAll context.graph) := by
  rw [apply, applyWith]
  simp only [Registry.standard, announce, Trace.result_bind, Trace.result_log]
  cases (positions a context).result <;> rfl

/-- Every layout succeeds; it changes nothing but the nodes of the graph, and each of them only as
`LaidOut` says. -/
theorem laidOut_of_apply (a : LayoutAlgorithm) (context : Context) :
    ∃ g, (apply a context).result = .ok g ∧ g = { context.graph with nodes := g.nodes } ∧
      List.Forall₂ (LaidOut context.pinned) context.graph.nodes g.nodes := by
  obtain ⟨ps, hps⟩ := (Trace.failure_eq_none_iff _).mp (failure_positions a context)
  refine ⟨moveAll context.graph ps, ?_, rfl, ?_⟩
  · rw [result_apply, hps]
    rfl
  · rw [moveAll, List.forall₂_map_right_iff, List.forall₂_same]
    exact fun n hn => laidOut_placed hps hn

end Layout

namespace Build

/-- A node whose last declaration gives a position other than the origin is built there, and
whatever a layout works on, it moves the nodes that are not pinned and changes nothing else. -/
theorem position_of_run_of_apply :
    (∀ (source : Value) (d : Diagram) (id : String) (c : Config) (g : Graph),
      (Diagram.parse source).result = .ok d → (run id c d).result = .ok g →
      ∀ before n after v p, d.nodes = before ++ n :: after →
        n.id ∉ after.map NodeDeclaration.id → n.properties.get? "position" = some v →
        Placement.position? v = .ok (some p) → p.isOrigin = false →
        ∃ m, g.node? (.str n.id) = some m ∧ m.transform.position = p) ∧
    ∀ (a : LayoutAlgorithm) (context : Layout.Context),
      ∃ g, (Layout.apply a context).result = .ok g ∧
        g = { context.graph with nodes := g.nodes } ∧
        List.Forall₂ (Layout.LaidOut context.pinned) context.graph.nodes g.nodes := by
  refine ⟨?_, Layout.laidOut_of_apply⟩
  intro source d id c g hd hg before n after v p hsplit hlast hv hp horigin
  obtain ⟨draft, hassemble, harrange, -⟩ := run_of_ok hg
  obtain ⟨hassembled, -⟩ := assembled_of_ok (Diagram.nodup_connections hd) hassemble
  have hposition : positionOf n = some p := by
    rw [positionOf, placementOf, hv, Option.bind_some, hp]
  have hpinned : isPinned n = true := by
    rw [isPinned, hposition, Option.any_some, horigin]
    rfl
  obtain ⟨o, q, -, hq, hnode⟩ :=
    (contains_of_assembled hassembled harrange).node before n after hsplit hlast
  obtain rfl : p = q := Option.some.inj (hposition.symm.trans (hq hpinned))
  exact ⟨_, hnode, rfl⟩

/-- A name that only its second declaration pins, and a grid of which one node is pinned. -/
theorem position_of_run_of_apply_pinned :
    let text := "A[Function: f]\nA[Function: f] \x7bposition: 1, 2, 3\x7d"
    let node (properties : Properties) (line : Nat) : NodeDeclaration :=
      { id := "A", category := .function, name := "f", delimiter := .square, properties, line }
    let d : Diagram :=
      { nodes := [node .empty 1, node ⟨[("position", .str "1, 2, 3")]⟩ 2] }
    let a : Node := .make (.str "A") .function (.str "f") .box .unit
    let b : Node := .make (.str "B") .function (.str "f") .plate .unit
    let g : Graph := { id := .str "g", name := .str "Test", nodes := [a, b] }
    (Diagram.parse (.str text)).result = .ok d ∧
      (∃ h, (run "h" {} d).result = .ok h ∧
        ∃ m, h.node? (.str "A") = some m ∧ m.transform.position = ⟨1.0, 2.0, 3.0⟩) ∧
      ∃ h p, (Layout.apply .grid { graph := g, pinned := [.str "A"] }).result = .ok h ∧
        h.nodes = [a, b.setPosition p] := by
  intro text node d a b g
  have hlines : SourceLine.ofText text.toList = [⟨1, "A[Function: f]".toList⟩,
      ⟨2, "A[Function: f] \x7bposition: 1, 2, 3\x7d".toList⟩] := by decide
  have hd : (Diagram.parse (.str text)).result = .ok d := by
    rw [Diagram.parse_of_no_block hlines (by decide)]
    rfl
  obtain ⟨hpinned, hlayout⟩ := position_of_run_of_apply
  refine ⟨hd, ?_, ?_⟩
  · obtain ⟨h, hh⟩ := exists_of_run "h" (c := {}) (x := 2.0) rfl (d := d) (by decide +kernel)
    exact ⟨h, hh, hpinned _ d "h" {} h hd hh [node .empty 1] _ [] (.str "1, 2, 3") _ rfl
      List.not_mem_nil rfl (by decide +kernel) (by decide +kernel)⟩
  · obtain ⟨h, hh, -, hnodes⟩ := hlayout .grid { graph := g, pinned := [.str "A"] }
    generalize hns : h.nodes = ns at hnodes
    obtain _ | ⟨ha, hrest⟩ := hnodes
    obtain _ | ⟨hb, hrest⟩ := hrest
    obtain _ | _ := hrest
    obtain ⟨p, hp⟩ := hb.moves (by decide)
    exact ⟨h, p, hh, by rw [hns, ha.stays List.mem_cons_self, hp]; rfl⟩

end Build

end SpatialDiagram
