import SpatialDiagram.Build
import SpatialDiagram.Proofs.Endings
import SpatialDiagram.Proofs.Scene.Editing

/-!
# What ends a build

A build that is given a loaded configuration fails on a property of a node and
on nothing else: the first node whose opacity is no number, or whose opacity,
scale or position holds an integer beyond all floating-point numbers. Unknown
faces, cycles and connections between undeclared nodes are coped with, and no
layout fails.
-/

namespace SpatialDiagram

open Notation

/-! ## Spacing and layouts -/

namespace Config

/-- The spacing of a configuration made from a document is a float, since it has been converted. -/
theorem spacing_of_document {doc : Value} {c : Config} (h : ofDocument doc = .ok c) :
    ∃ x, c.spacing = .float x := by
  simp only [ofDocument] at h
  split at h
  · cases h
  · rename_i x _
    obtain rfl := Except.ok.inj h
    exact ⟨x, rfl⟩

theorem spacing_of_read {raw : Value} {source : Option String} {c : Config}
    (h : read raw source = .ok c) : ∃ x, c.spacing = .float x := by
  cases raw with
  | mapping entries =>
      simp only [read] at h
      split at h
      · exact spacing_of_document h
      · cases h
  | _ => cases h

/-- A configuration that was loaded has a spacing that layouts can use. -/
theorem spacing_of_load {raw : Value} {source : Option String} {c : Config}
    (h : (load raw source).result = .ok c) : ∃ x, c.spacing = .float x := by
  rw [load] at h
  split at h
  · cases hr : read raw source with
    | error f => rw [hr] at h; cases h
    | ok c' =>
        rw [hr] at h
        obtain rfl : c' = c := Except.ok.inj h
        exact spacing_of_read hr
  · obtain rfl : ({} : Config) = c := Except.ok.inj h
    exact ⟨2.0, rfl⟩

end Config

namespace Layout

/-- The layered layout never fails. -/
theorem failure_layered (context : Context) :
    (layered context).failure? = none := by
  have hassign : (assignLayers context.graph).failure? = none := by
    rw [assignLayers]
    split <;> split <;> simp
  rw [layered, Trace.failure_bind_of_forall (e := none) _ fun _ => rfl, hassign]
  rfl

/-- The simulation never fails. -/
theorem failure_simulated (context : Context) :
    (simulated context).failure? = none := by
  rw [simulated]
  split
  · rfl
  · simp

/-- No layout fails. -/
theorem failure_positions (a : LayoutAlgorithm) (context : Context) :
    (positions a context).failure? = none := by
  cases a with
  | hierarchical => exact failure_layered context
  | forceDirected => exact failure_simulated context
  | circular => rfl
  | grid => rfl

end Layout

/-! ## Nodes, connections and the whole graph -/

namespace Build

/-- The failure that an opacity ends a build with. -/
def opacityFailure? (n : NodeDeclaration) : Option Failure :=
  (n.properties.get? "opacity").bind fun v =>
    match v.asFloat with
    | .ok _ => none
    | .error .tooLarge => some .tooLarge
    | .error _ => some (.diagnosed (.coercion "opacity" v "Opacity must be a number." n.id))

/-- The failure that a scale or a position ends a build with. -/
def placementFailure? (n : NodeDeclaration) (name : String)
    (read : Value → Except Failure (Option (Vec Float))) : Option Failure :=
  (n.properties.get? name).bind fun v => (Trace.ofResult (read v)).failure?

/-- The failure that a node ends a build with: its properties are read in this order. -/
def rejection? (n : NodeDeclaration) : Option Failure :=
  (opacityFailure? n).or
    ((placementFailure? n "scale" Placement.scale?).or
      (placementFailure? n "position" Placement.position?))

theorem failure_opacityOf (c : Config) (n : NodeDeclaration) :
    (Trace.ofResult (opacityOf c n)).failure? = opacityFailure? n := by
  rw [opacityOf, opacityFailure?]
  cases hv : n.properties.get? "opacity" with
  | none => rfl
  | some v =>
      cases hx : v.asFloat with
      | ok x => simp [hx]
      | error f => cases f <;> simp [hx, Trace.failure?, Trace.ofResult]

/-- A scale that is read is usable. -/
theorem isUsable_of_scale {v : Value} {s : Vec Float} (h : Placement.scale? v = .ok (some s)) :
    Transform.isUsable s = true := by
  rw [Placement.scale?] at h
  cases hc : Placement.components? v with
  | error f => rw [hc] at h; cases h
  | ok read =>
      rw [hc] at h
      have hfilter := Except.ok.inj h
      exact (Option.filter_eq_some_iff.mp hfilter).2

theorem failure_noticeUnusable (d : NodeDeclaration) (what consequence : String)
    (code : IssueCode) (v : Value) :
    (noticeUnusable d what consequence code v).failure? = none := by
  simp [noticeUnusable, Validation.noticeCode]

/-- Reading the scale of a node fails only for the size of its numbers. -/
theorem failure_scaled (d : NodeDeclaration) (n : Node) :
    (scaled d n).failure? = placementFailure? d "scale" Placement.scale? := by
  rw [scaled, placementFailure?]
  cases hv : d.properties.get? "scale" with
  | none => rfl
  | some v =>
      simp only [Option.bind_some]
      rw [Trace.failure_bind_of_forall_ok (e := none), Option.or_none]
      intro read hread
      cases read with
      | none => simp [failure_noticeUnusable]
      | some s =>
          have hs := isUsable_of_scale hread
          have hset : n.setScale s =
              .ok (n.place ⟨n.transform.position, n.transform.rotation, s⟩) := by
            simp [Node.setScale, Transform.checked, Transform.make?, hs, Except.map]
          exact Trace.failure_eq_none_of_result hset

theorem failure_positioned (d : NodeDeclaration) (n : Node) :
    (positioned d n).failure? = placementFailure? d "position" Placement.position? := by
  rw [positioned, placementFailure?]
  cases hv : d.properties.get? "position" with
  | none => rfl
  | some v =>
      simp only [Option.bind_some]
      rw [Trace.failure_bind_of_forall (e := none), Option.or_none]
      intro read
      cases read with
      | none => simp [failure_noticeUnusable]
      | some p => rfl

/-- The node of a declaration fails exactly as the declaration is rejected. -/
theorem failure_nodeOf (c : Config) (d : NodeDeclaration) :
    (nodeOf c d).failure? = rejection? d := by
  rw [nodeOf, Trace.failure_bind_of_forall, failure_opacityOf, rejection?]
  intro opacity
  rw [Trace.failure_bind_of_forall _ fun n => failure_positioned d n, failure_scaled]

/-- A node is always accepted by a graph. -/
theorem failure_addNodeLogged (g : Graph) (n : Node) : (g.addNodeLogged n).failure? = none :=
  Trace.failure_eq_none_of_result (g.result_addNodeLogged n)

/-- Adding a declaration to a draft fails exactly as the declaration is rejected. -/
theorem failure_addNode (c : Config) (d : NodeDeclaration) (draft : Draft) :
    (addNode c draft d).failure? = rejection? d := by
  rw [addNode, Trace.failure_bind_of_forall (e := none), failure_nodeOf, Option.or_none]
  intro built
  rw [Trace.failure_bind_of_forall (e := none) _ fun _ => rfl, failure_addNodeLogged]
  rfl

/-- Nothing is undeclared of a connection whose two ends are ids of the graph. -/
theorem undeclared_eq_none_iff (g : Graph) (d : ConnectionDeclaration) :
    undeclared? g d = none ↔ .str d.source.node ∈ g.nodeIds ∧ .str d.target.node ∈ g.nodeIds := by
  simp [undeclared?, Graph.mem_nodeIds_iff, Option.isSome_iff_ne_none]

theorem failure_checkFace (g : Graph) (c : Connection) (t : Terminal) :
    (checkFace g c t).failure? = none := by
  rw [checkFace]
  split
  · rfl
  · split
    · rfl
    · simp [Validation.noticeCode]

theorem source_connectionOf (d : ConnectionDeclaration) :
    (connectionOf d).source.node = .str d.source.node := by
  rw [connectionOf]
  split
  · split <;> rfl
  · rfl

theorem target_connectionOf (d : ConnectionDeclaration) :
    (connectionOf d).target.node = .str d.target.node := by
  rw [connectionOf]
  split
  · split <;> rfl
  · rfl

/-- A connection never stops the build: one that cannot be made is dropped. -/
theorem failure_addConnection (g : Graph) (d : ConnectionDeclaration) :
    (addConnection g d).failure? = none := by
  rw [addConnection]
  cases hu : undeclared? g d with
  | some id => simp [Validation.noticeCode]
  | none =>
      obtain ⟨hs, ht⟩ := (undeclared_eq_none_iff g d).mp hu
      have hsource : (connectionOf d).source.node ∈ g.nodeIds := by
        rw [source_connectionOf]
        exact hs
      have htarget : (connectionOf d).target.node ∈ g.nodeIds := by
        rw [target_connectionOf]
        exact ht
      have hc := Graph.connect_of_known true hsource htarget
      simp only [hc]
      rw [Trace.failure_bind_of_ok rfl]
      simp [failure_checkFace]

theorem failure_checkCycle (g : Graph) : (checkCycle g).failure? = none := by
  rw [checkCycle]
  split
  · rfl
  · simp [Validation.noticeCode]

/-- The first node that is rejected ends the assembly, and nothing else does. -/
theorem failure_assemble (id : String) (c : Config) (d : Diagram) :
    (assemble id c d).failure? = d.nodes.findSome? rejection? := by
  have hnodes (draft : Draft) :
      (d.nodes.foldlM (addNode c) draft).failure? = d.nodes.findSome? rejection? :=
    Trace.failure_foldlM _ (fun draft n _ => failure_addNode c n draft) draft
  have hconnections (g : Graph) : (d.connections.foldlM addConnection g).failure? = none := by
    rw [Trace.failure_foldlM (fun _ => none) fun g e _ => failure_addConnection g e]
    simp
  rw [assemble, Trace.failure_seq, Trace.failure_log, Option.none_or,
    Trace.failure_bind_of_forall (e := none), hnodes, Option.or_none]
  intro draft
  rw [Trace.failure_seq, Trace.failure_log, Option.none_or,
    Trace.failure_bind_of_forall (e := none), hconnections, Option.or_none]
  intro g
  simp [failure_checkCycle]

/-- With a spacing that is a float, no layout stops the build. -/
theorem failure_arrange {c : Config} {x : Float} (hx : c.spacing = .float x) (draft : Draft) :
    (arrange .standard c draft).failure? = none := by
  have happly (context : Layout.Context) :
      (Layout.applyWith .standard c.algorithm context).failure? = none := by
    rw [Layout.applyWith, Layout.announce, Trace.failure_seq, Trace.failure_log, Option.none_or,
      Trace.failure_bind_of_forall (e := none) _ fun _ => rfl, Option.or_none]
    exact Layout.failure_positions c.algorithm context
  rw [arrange, hx, Trace.failure_bind_of_ok (a := x) rfl,
    Trace.failure_bind_of_forall (e := none) _ fun _ => rfl, happly]
  rfl

/-- The first rejected declaration stops the build, and nothing else does. -/
theorem failure_graphOf (id : String) {c : Config} {x : Float} (hx : c.spacing = .float x)
    (d : Diagram) : (graphOf .standard id c d).failure? = d.nodes.findSome? rejection? := by
  rw [graphOf, Trace.failure_bind_of_forall (e := none), failure_assemble, Option.or_none]
  intro draft
  rw [Trace.failure_bind_of_forall (e := none) _ fun g => by simp, failure_arrange hx draft]
  rfl

/-- A build ends as its assembly does. -/
theorem failure_run (id : String) {c : Config} {x : Float} (hx : c.spacing = .float x)
    (d : Diagram) :
    (run id c d).failure? = (d.nodes.findSome? rejection?).map fun f => .build (reportOf f) := by
  rw [run, runWith, Trace.failure_mapFailure, failure_graphOf id hx]

end Build

end SpatialDiagram
