import SpatialDiagram.Proofs.Building.ReadingBack

/-!
# Anchors of what was built

The faces of a solid have different names, so an end that names one of them has
one centre to attach to. Anchors are computed anew after the layout, when every
node has the faces of its last transform.
-/

namespace SpatialDiagram

open Notation

namespace Face

/-- No two faces of one shape share an id. -/
theorem nodup_ids (shape : Shape) (t : Transform Float) :
    ((generate shape t).map Face.id).Nodup := by
  cases shape with
  | box => simp [generate, boxFaces, ofBox]
  | plate => exact List.nodup_singleton _
  | manyFaced =>
      have hids : (generate .manyFaced t).map Face.id =
          (List.range facets).map fun i => "face_" ++ toString i := List.map_map
      rw [hids]
      refine List.Nodup.map (fun i j h => toString_injective ?_) List.nodup_range
      simpa using h

end Face

/-! ## One end -/

/-- An end is anchored at a node: at the centre of the face that it names among those that the shape
of the node has under its transform, and at the place of the node if it names none of them. -/
structure Terminal.AnchoredAt (t : Terminal) (n : Node) : Prop where
  face : ∀ f ∈ Face.generate n.shape n.transform, .str f.id = t.face → t.anchor = some f.center
  center : (∀ f ∈ Face.generate n.shape n.transform, .str f.id ≠ t.face) →
    t.anchor = some n.transform.position

namespace Graph

/-- An end that names a node of the graph is anchored at that node. -/
theorem anchoredAt_anchored {g : Graph} {t : Terminal} {n : Node} (hn : g.node? t.node = some n)
    (hfaces : n.faces = Face.generate n.shape n.transform) : (g.anchored t).AnchoredAt n := by
  have hanchor : g.anchored t =
      { t with anchor := some (((g.face? t).map Face.center).getD n.position) } := by
    rw [anchored, anchor?, hn]
    rfl
  rw [hanchor]
  have hface : g.face? t = n.faces.find? fun f => .str f.id = t.face := by
    rw [face?, hn, Option.bind_some, Node.face?]
    split
    · rename_i hnull
      rw [eq_comm, List.find?_eq_none]
      intro f _
      simp [hnull]
    · rfl
  rw [hfaces] at hface
  constructor
  · intro f hf (hid : Value.str f.id = t.face)
    have hfound : g.face? t = some f := by
      obtain ⟨f', hf'⟩ : ∃ f', (Face.generate n.shape n.transform).find?
          (fun f => decide (Value.str f.id = t.face)) = some f' :=
        Option.isSome_iff_exists.mp (List.find?_isSome.mpr ⟨f, hf, decide_eq_true hid⟩)
      have hid' : Value.str f'.id = t.face := by simpa using List.find?_some hf'
      have hsame : f'.id = f.id := Value.str.inj (hid'.trans hid.symm)
      rw [hface, hf', List.inj_on_of_nodup_map (Face.nodup_ids n.shape n.transform)
        (List.mem_of_find?_eq_some hf') hf hsame]
    rw [hfound]
    rfl
  · intro hnone
    have hmissing : g.face? t = none := by
      rw [hface, List.find?_eq_none]
      exact fun f hf => by simpa using hnone f hf
    rw [hmissing]
    rfl

end Graph

namespace Build

/-- Every end of every connection of a graph that is built has its node in the graph, and its anchor
is the one it has at that node as the layout left it. -/
theorem anchors_of_run {id : String} {c : Config} {d : Diagram} {g : Graph}
    (h : (run id c d).result = .ok g) {e : Connection} (he : e ∈ g.connections) {t : Terminal}
    (ht : t = e.source ∨ t = e.target) : ∃ n, g.node? t.node = some n ∧ t.AnchoredAt n := by
  have hsound := isSound_of_run h
  obtain ⟨hsource, htarget⟩ := hsound.consistent.ends_known e he
  have hknown : t.node ∈ g.nodeIds := by
    rcases ht with rfl | rfl
    · exact hsource
    · exact htarget
  obtain ⟨n, hn⟩ := Option.isSome_iff_exists.mp ((Graph.mem_nodeIds_iff g t.node).mp hknown)
  obtain ⟨draft, -, harrange, -⟩ := run_of_ok h
  obtain ⟨⟨ps, rfl, -⟩, -⟩ := arrange_of_ok harrange
  obtain ⟨e', -, rfl⟩ := List.mem_map.mp he
  obtain ⟨t', rfl⟩ : ∃ t', t = (Layout.moveAll draft.graph ps).anchored t' :=
    ht.elim (fun hs => ⟨_, hs⟩) fun hs => ⟨_, hs⟩
  refine ⟨n, hn, Graph.anchoredAt_anchored ?_ (hsound.node n (Keyed.find_some_key hn).2).faces⟩
  rwa [Graph.node_anchored] at hn

/-- A connection from a named face to a node whose face is left open. -/
theorem anchors_of_run_face :
    let node (id : String) (line : Nat) : NodeDeclaration :=
      { id, category := .function, name := "f", delimiter := .square, properties := .empty, line }
    let d : Diagram :=
      { nodes := [node "A" 1, node "B" 2]
        connections := [{ id := "conn_0", category := .dataFlow, source := ⟨"A", some "top"⟩
                          target := ⟨"B", none⟩, label := none, line := 3 }] }
    ∃ g, (run "g" {} d).result = .ok g ∧ ∃ e ∈ g.connections, ∃ m n,
      g.node? (.str "A") = some m ∧ g.node? (.str "B") = some n ∧
      e.source.anchor = some (Face.ofBox m.transform "top" .y true).center ∧
      e.target.anchor = some n.transform.position := by
  intro node d
  obtain ⟨g, hg⟩ := exists_of_run "g" (c := {}) (x := 2.0) rfl (d := d) rfl
  obtain ⟨draft, hassemble, harrange, -⟩ := run_of_ok hg
  have hcontains := contains_of_assembled (assembled_of_ok (by simp [d]) hassemble).1 harrange
  have hconnections : g.connections.map Connection.bare = [connectionOf d.connections[0]] :=
    hcontains.connections.trans (by decide)
  obtain ⟨e, he, hbare⟩ : ∃ e ∈ g.connections, e.bare = connectionOf d.connections[0] :=
    List.mem_map.mp (hconnections ▸ List.mem_singleton_self _)
  have hsource : e.source.node = .str "A" := congrArg (fun c => c.source.node) hbare
  have htop : e.source.face = .str "top" := congrArg (fun c => c.source.face) hbare
  have htarget : e.target.node = .str "B" := congrArg (fun c => c.target.node) hbare
  have hopen : e.target.face = .null := congrArg (fun c => c.target.face) hbare
  obtain ⟨m, hm, hface⟩ := anchors_of_run hg he (.inl rfl)
  obtain ⟨n, hn, hcenter⟩ := anchors_of_run hg he (.inr rfl)
  rw [hsource] at hm
  rw [htarget] at hn
  have hshape : m.shape = .box := by
    obtain ⟨_, _, -, -, hdeclared⟩ :=
      hcontains.node [] (node "A" 1) [node "B" 2] rfl (by simp [node])
    rw [hm] at hdeclared
    exact congrArg Node.shape (Option.some.inj hdeclared)
  refine ⟨g, hg, e, he, m, n, hm, hn, hface.face _ ?_ htop.symm, hcenter.center fun f _ => ?_⟩
  · rw [hshape]
    exact List.mem_cons_of_mem _ (List.mem_cons_of_mem _ List.mem_cons_self)
  · rw [hopen]
    exact Value.noConfusion

end Build

end SpatialDiagram
