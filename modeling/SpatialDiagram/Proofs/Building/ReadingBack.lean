import Mathlib.Algebra.Group.Int.Defs
import SpatialDiagram.Proofs.Building.Assembly
import SpatialDiagram.Proofs.Building.Contents
import SpatialDiagram.Proofs.Config.CheckedDocuments
import SpatialDiagram.Proofs.Scene.Changes

/-!
# Reading back what was built

Every graph that is built is sound, whatever the diagram: its nodes are placed
by scales that have been checked, and its connections are added between nodes
it has. An opacity comes from a property, as a floating-point number, or else
from the configuration as it is; only the latter can be an integer that no
floating-point number holds.
-/

namespace SpatialDiagram

open Notation

namespace Build

/-! ## Nodes of declarations -/

/-- Every declared node has a usable scale, since an unusable one gives way to the default. -/
theorem isUsable_transformOf (n : NodeDeclaration) :
    Transform.isUsable (transformOf n).scale = true := by
  have hscale : (transformOf n).scale = (scaleOf n).getD Vec.one := rfl
  rw [hscale]
  cases hs : scaleOf n with
  | none => decide +kernel
  | some s =>
      rw [scaleOf, placementOf, Option.bind_eq_some_iff] at hs
      obtain ⟨v, -, hs⟩ := hs
      split at hs
      · rename_i p hp
        subst hs
        exact isUsable_of_scale hp
      · cases hs

theorem isSound_declaredNode (c : Config) (n : NodeDeclaration) (o : Number) :
    (declaredNode c n o).IsSound := ⟨⟨n.id, rfl⟩, isUsable_transformOf n, rfl, rfl⟩

/-- An opacity that a build gives to a node. -/
def GivenOpacity (c : Config) (o : Number) : Prop := o = c.material.opacity ∨ o.IsExact

/-- An opacity that was accepted is a float read from a property or the default of the
configuration. -/
theorem givenOpacity_of_ok {c : Config} {n : NodeDeclaration} {o : Number}
    (h : opacityOf c n = .ok o) : GivenOpacity c o := by
  rw [opacityOf] at h
  cases hv : n.properties.get? "opacity" with
  | none =>
      simp only [hv] at h
      exact Or.inl (Except.ok.inj h).symm
  | some v =>
      simp only [hv] at h
      split at h
      · rename_i x _
        exact Or.inr (Except.ok.inj h ▸ Number.isExact_float x)
      · cases h
      · cases h

/-! ## Builds -/

/-- A declaration that is accepted keeps the graph of a draft sound. -/
theorem isSound_addNode {c : Config} {n : NodeDeclaration} {draft draft' : Draft}
    (h : draft.graph.IsSound (GivenOpacity c)) (hn : (addNode c draft n).result = .ok draft') :
    draft'.graph.IsSound (GivenOpacity c) := by
  obtain ⟨⟨o, ho, rfl⟩, -⟩ := addNode_of_ok hn
  exact Graph.isSound_addNode h (isNew_declaredNode c n o) (isSound_declaredNode c n o)
    (givenOpacity_of_ok ho)

/-- A connection keeps a graph sound, whether it is kept or dropped. -/
theorem isSound_addConnection {kind : Number → Prop} {d : Diagram} {g g' : Graph}
    {e : ConnectionDeclaration} (hd : Shows d g) (h : g.IsSound kind)
    (he : (addConnection g e).result = .ok g') : Shows d g' ∧ g'.IsSound kind := by
  obtain ⟨rfl, -⟩ := addConnection_of_ok hd he
  by_cases hkept : isKept (Validation.names d) e = true
  · rw [if_pos hkept]
    obtain ⟨hsource, htarget⟩ := (isKept_iff _ e).mp hkept
    obtain ⟨hs, ht⟩ := terminals_connectionOf e
    have hend {t : Endpoint} (ht : t.node ∈ Validation.names d) :
        (terminalOf t).node ∈ g.nodeIds := by
      rw [hd.nodeIds]
      exact List.mem_map_of_mem ht
    exact ⟨shows_connected hd _ true, Graph.isSound_connected h true (hs ▸ hend hsource)
      (ht ▸ hend htarget) ⟨e.id, id_connectionOf e⟩⟩
  · rw [if_neg hkept]
    exact ⟨hd, h⟩

/-- Every graph that an assembly returns is sound. -/
theorem isSound_assemble {id : String} {c : Config} {d : Diagram} {draft : Draft}
    (h : (assemble id c d).result = .ok draft) : draft.graph.IsSound (GivenOpacity c) := by
  rw [assemble] at h
  obtain ⟨_, -, h⟩ := Trace.exists_of_result_bind h
  obtain ⟨nodes, hnodes, h⟩ := Trace.exists_of_result_bind h
  obtain ⟨_, -, h⟩ := Trace.exists_of_result_bind h
  obtain ⟨g, hg, h⟩ := Trace.exists_of_result_bind h
  obtain ⟨_, -, h⟩ := Trace.exists_of_result_bind h
  obtain rfl := Except.ok.inj h
  have hstart : (shell id d).IsSound (GivenOpacity c) := Graph.isSound_of_empty rfl rfl
  have hdrawn : nodes.graph.IsSound (GivenOpacity c) :=
    Trace.foldlM_induction (fun _ draft => draft.graph.IsSound (GivenOpacity c)) hstart
      (fun _ _ _ _ _ _ hb hx => isSound_addNode hb hx) hnodes
  have hshows := (wired_of_drafted (drafted_foldlM hnodes)).shows
  exact (Trace.foldlM_induction (fun _ g => Shows d g ∧ g.IsSound (GivenOpacity c))
    ⟨hshows, hdrawn⟩ (fun _ _ _ _ _ _ hb hx => isSound_addConnection hb.1 hb.2 hx) hg).2

/-- A layout keeps a graph sound: it changes positions only. -/
theorem isSound_moveAll {kind : Number → Prop} {g : Graph} (h : g.IsSound kind)
    (ps : Layout.Positions) : (Layout.moveAll g ps).IsSound kind := by
  apply Graph.isSound_map_nodes h
  intro n
  split
  · rename_i p _
    exact Or.inr ⟨{ n.transform with position := p }, fun hn => hn.scale, rfl⟩
  · exact Or.inl rfl

/-- Whatever the diagram, a graph that is built is sound. -/
theorem isSound_of_run {id : String} {c : Config} {d : Diagram} {g : Graph}
    (h : (run id c d).result = .ok g) : g.IsSound (GivenOpacity c) := by
  obtain ⟨draft, hassemble, harrange, -⟩ := run_of_ok h
  obtain ⟨⟨ps, rfl, -⟩, -⟩ := arrange_of_ok harrange
  exact Graph.isSound_refreshAnchors (isSound_moveAll (isSound_assemble hassemble) ps)

/-- A graph with a node that is left the opacity of the configuration is not read back if that
opacity fits no floating-point number. -/
theorem not_read_of_run {id : String} {c : Config} {d : Diagram} {g : Graph}
    (before : List NodeDeclaration) {n : NodeDeclaration} (after : List NodeDeclaration)
    (hids : (d.connections.map ConnectionDeclaration.id).Nodup)
    (hc : c.material.opacity.toFloat? = none) (hd : d.nodes = before ++ n :: after)
    (hlast : n.id ∉ after.map NodeDeclaration.id) (hn : n.properties.get? "opacity" = none)
    (hg : (run id c d).result = .ok g) (h : Graph) :
    (Graph.ofValue g.toValue).result ≠ .ok h := by
  intro hh
  obtain ⟨draft, hassemble, harrange, -⟩ := run_of_ok hg
  have hcontains := contains_of_assembled (assembled_of_ok hids hassemble).1 harrange
  obtain ⟨o, p, ho, -, hnode⟩ := hcontains.node before n after hd hlast
  obtain rfl : c.material.opacity = o := by
    rw [opacityOf, hn] at ho
    exact Except.ok.inj ho
  have hfits : c.material.opacity.toFloat?.isSome = true :=
    ((Graph.result_ofValue_toValue (isSound_of_run hg).isRestorable h).mp hh).1 _
      (Keyed.find_some_key hnode).2
  rw [hc] at hfits
  cases hfits

/-- A graph that was built can be read back exactly if its opacities are exact, which they are when
the opacity of the configuration is, as it is in a loaded one. A graph that proper changes lead to
from an empty one can always be read back. -/
theorem roundTrips_of_run_of_evolve :
    (∀ (raw : Value) (source : Option String) (c : Config),
      (Config.load raw source).result = .ok c → c.material.opacity.IsExact) ∧
    (∀ (id : String) (c : Config) (d : Diagram) (g : Graph), (run id c d).result = .ok g →
      (c.material.opacity.IsExact → g.IsExact) ∧ (g.RoundTrips ↔ g.IsExact)) ∧
    ∀ (g : Graph) (cs : List Change), g.nodes = [] → g.connections = [] →
      (∀ c ∈ cs, c.IsProper) → (g.evolve cs).RoundTrips := by
  refine ⟨fun raw source c hc => Config.isExact_of_load hc, fun id c d g hg => ⟨?_, ?_⟩, ?_⟩
  · intro hexact n hn
    rcases (isSound_of_run hg).opacity n hn with ho | ho
    · rw [ho]
      exact hexact
    · exact ho
  · exact Graph.roundTrips_iff (isSound_of_run hg)
  · intro g cs hn hc hcs
    have hsound := Graph.isSound_evolve (Graph.isSound_of_empty hn hc) hcs
    exact (Graph.roundTrips_iff hsound).mpr hsound.opacity

/-- Two parallel connections and a loop are built and read back, and so is a graph after moves, one
of which is refused, a detour and a removal. -/
theorem roundTrips_of_run_of_evolve_loop :
    let node (id : String) (line : Nat) : NodeDeclaration :=
      { id, category := .function, name := "f", delimiter := .square, properties := .empty, line }
    let connection (id source target : String) (line : Nat) : ConnectionDeclaration :=
      { id, category := .dataFlow, source := ⟨source, none⟩, target := ⟨target, none⟩
        label := some "l", line }
    let d : Diagram :=
      { nodes := [node "A" 1, node "B" 2]
        connections := [connection "c" "A" "B" 3, connection "d" "A" "B" 4,
          connection "e" "B" "B" 5] }
    let g : Graph := { id := .str "g", name := .str "Test" }
    let cs : List Change :=
      [.edit (.addNode (.plain "A")), .edit (.addNode (.plain "B")),
        .edit (.connect (.plain "c" "A" "B") true), .edit (.connect (.plain "d" "B" "B") false),
        .move (.str "A") (.position ⟨1.0, 2.0, 3.0⟩), .move (.str "B") (.transform .unit),
        .move (.str "B") (.scale Vec.zero), .detour (.str "c") (.add Vec.one), .refreshAnchors,
        .edit (.disconnect (.str "d"))]
    (Config.load .null none).result = .ok {} ∧
      (∃ h, (run "g" {} d).result = .ok h ∧ h.RoundTrips) ∧
      (g.nodes = [] ∧ g.connections = [] ∧ ∀ c ∈ cs, c.IsProper) ∧ (g.evolve cs).RoundTrips := by
  intro node connection d g cs
  obtain ⟨hload, hrun, hevolve⟩ := roundTrips_of_run_of_evolve
  have hplain (id : String) : (Node.plain id).IsNew ∧ (Node.plain id).IsSound ∧
      (Node.plain id).style.opacity.IsExact :=
    ⟨⟨rfl, rfl⟩, Node.isSound_make id _ _ _ (by decide +kernel), Number.isExact_float _⟩
  have hcs : ∀ c ∈ cs, c.IsProper := by
    have hunit : Transform.isUsable (Transform.unit : Transform Float).scale = true := by
      decide +kernel
    simp only [cs, List.forall_mem_cons]
    exact ⟨hplain "A", hplain "B", ⟨"c", rfl⟩, ⟨"d", rfl⟩, trivial, hunit, trivial, trivial,
      trivial, trivial, fun _ h => absurd h List.not_mem_nil⟩
  have hdefault : (Config.load .null none).result = .ok {} := rfl
  obtain ⟨h, hh⟩ := exists_of_run "g" (c := {}) (x := 2.0) rfl (d := d) rfl
  obtain ⟨hexact, hiff⟩ := hrun "g" {} d h hh
  exact ⟨hdefault, ⟨h, hh, hiff.mpr (hexact (hload _ _ _ hdefault))⟩, ⟨rfl, rfl, hcs⟩,
    hevolve g cs rfl rfl hcs⟩

/-- With an opacity beyond all floating-point numbers a graph is built but not read back. -/
theorem opacity_not_read :
    let c : Config := { material := { opacity := .int (10 ^ 400) } }
    let n : NodeDeclaration :=
      { id := "A", category := .function, name := "f", delimiter := .square, properties := .empty
        line := 1 }
    ∃ g, (run "g" c { nodes := [n] }).result = .ok g ∧
      ∀ h, (Graph.ofValue g.toValue).result ≠ .ok h := by
  intro c n
  obtain ⟨g, hg⟩ := exists_of_run "g" (c := c) (x := 2.0) rfl (d := { nodes := [n] }) rfl
  have hlarge : (Number.int (10 ^ 400)).toFloat? = none :=
    (Number.intToFloat_eq_none_iff _).mpr (by decide +kernel)
  exact ⟨g, hg, not_read_of_run (c := c) (d := { nodes := [n] }) [] [] List.nodup_nil hlarge rfl
    List.not_mem_nil rfl hg⟩

end Build

end SpatialDiagram
