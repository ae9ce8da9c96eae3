import SpatialDiagram.Proofs.Building.ReadingBack
import SpatialDiagram.Proofs.Scene.Normalization

/-!
# Box and faces follow the transform

A node holds its transform, its box and its faces beside each other, and a call
that moves it assigns them one after the other. A new transform is checked
before the first of these assignments, so a call that fails has assigned nothing,
and any other call all three. Hence no run of calls leaves a box or a face
behind, and neither does a build or the reading of a document.
-/

namespace SpatialDiagram

namespace Node

/-- What a call does to a node. What it has assigned before it fails stays assigned. -/
abbrev Method := ExceptT Failure (StateM Node)

/-- Assigns a transform, and then the box and the faces that follow from it. -/
def assign (t : Transform Float) : Method Unit := do
  modify fun n => { n with transform := t }
  modify fun n => { n with box := .ofTransform t }
  modify fun n => { n with faces := Face.generate n.shape t }

/-- Assigns the transform that has the given parts, if there is one. -/
def assignParts (position rotation scale : Vec Float) : Method Unit := do
  let t ← Transform.checked position rotation scale
  assign t

/-- The call that makes a move. -/
def call : Move → Method Unit
  | .transform t => assign t
  | .position p => do
      let n ← get
      assignParts p n.transform.rotation n.transform.scale
  | .scale s => do
      let n ← get
      assignParts n.transform.position n.transform.rotation s

/-- How a call ends, and the node after it. -/
def called (n : Node) (m : Move) : Except Failure Unit × Node := (call m).run.run n

/-- The complaint about a scale that no node can have. -/
def refusal (s : Vec Float) : Failure :=
  .diagnosed (.transform s "Every scale component must be a positive, finite number.")

theorem run_assign (n : Node) (t : Transform Float) :
    (assign t).run.run n = (.ok (), n.place t) := rfl

/-- The parts are assigned together, or the node is left as it is. -/
theorem run_assignParts (n : Node) (p r s : Vec Float) : (assignParts p r s).run.run n =
    if Transform.isUsable s then (.ok (), n.place ⟨p, r, s⟩) else (.error (refusal s), n) := by
  rw [assignParts, Transform.checked, Transform.make?]
  by_cases hs : Transform.isUsable s = true
  · rw [if_pos hs, if_pos hs]
    exact run_assign n ⟨p, r, s⟩
  · rw [if_neg hs, if_neg hs]
    rfl

/-- A new position is refused only where the scale is unusable already. -/
theorem called_position (n : Node) (p : Vec Float) : n.called (.position p) =
    if Transform.isUsable n.transform.scale then (.ok (), n.setPosition p)
    else (.error (refusal n.transform.scale), n) :=
  run_assignParts n p n.transform.rotation n.transform.scale

/-- A new scale is refused if it is unusable, and the node is left as it is. -/
theorem called_scale (n : Node) (s : Vec Float) : n.called (.scale s) =
    if Transform.isUsable s then (.ok (), n.place { n.transform with scale := s })
    else (.error (refusal s), n) :=
  run_assignParts n n.transform.position n.transform.rotation s

/-- Whatever a call does, it does not fail halfway. -/
theorem called_of_error {n : Node} {m : Move} {f : Failure} (h : (n.called m).1 = .error f) :
    (n.called m).2 = n := by
  cases m with
  | transform t => cases h
  | position p =>
      rw [called_position] at h ⊢
      split at h
      · cases h
      · rename_i hs
        rw [if_neg hs]
  | scale s =>
      rw [called_scale] at h ⊢
      split at h
      · cases h
      · rename_i hs
        rw [if_neg hs]

theorem isDerived_place (n : Node) {t : Transform Float} (ht : Transform.isUsable t.scale = true) :
    (n.place t).IsDerived := ⟨ht, rfl, rfl⟩

/-- A call keeps the box and the faces of a node those of its transform, also one that fails. -/
theorem isDerived_called {n : Node} (h : n.IsDerived) {m : Move}
    (hm : ∀ t, m = .transform t → Transform.isUsable t.scale = true) :
    (n.called m).2.IsDerived := by
  cases m with
  | transform t => exact isDerived_place n (hm t rfl)
  | position p =>
      rw [called_position, if_pos h.scale]
      exact isDerived_place n h.scale
  | scale s =>
      rw [called_scale]
      split
      · rename_i hs
        exact isDerived_place n hs
      · exact h

/-- The node after some calls in turn, of which some may fail. -/
def calledAll (n : Node) (ms : List Move) : Node := ms.foldl (fun k m => (k.called m).2) n

/-- Any calls keep the box and the faces of a node those of its transform. -/
theorem isDerived_calledAll {n : Node} (h : n.IsDerived) {ms : List Move}
    (hms : ∀ t, .transform t ∈ ms → Transform.isUsable t.scale = true) :
    (n.calledAll ms).IsDerived := by
  induction ms generalizing n with
  | nil => exact h
  | cons m ms ih =>
      have hcall : (n.called m).2.IsDerived :=
        isDerived_called h fun t ht => hms t (ht ▸ List.mem_cons_self)
      exact ih hcall fun t ht => hms t (List.mem_cons_of_mem m ht)

/-- As long as the scale is usable, a call is what `moved` says. -/
theorem called_eq_moved {n : Node} (h : n.IsDerived) (m : Move) : n.called m =
    match n.moved m with
    | .ok k => (.ok (), k)
    | .error f => (.error f, n) := by
  cases m with
  | transform t => rfl
  | position p =>
      rw [called_position, if_pos h.scale]
      rfl
  | scale s =>
      rw [called_scale, moved, setScale, Transform.checked, Transform.make?]
      by_cases hs : Transform.isUsable s = true
      · rw [if_pos hs, if_pos hs]
        rfl
      · rw [if_neg hs, if_neg hs]
        rfl

end Node

namespace Graph

theorem IsReadFrom.isDerived {g : Graph} {v : Value} {ns : List Node} {cs : List Connection}
    (h : g.IsReadFrom v ns cs) : ∀ n ∈ g.nodes, n.IsDerived :=
  fun n hn => (h.isSettled.node n hn).derived

end Graph

/-- A new node, a node after any calls, a node that was built and a node that was read all have
usable extents and the box and the faces of their transform. A call fails only for extents that are
not usable, and leaves the node as it was. -/
theorem geometry_is_derived :
    (∀ (id : Value) (category : NodeCategory) (name : Value) (shape : Shape) (t : Transform Float),
      Transform.isUsable t.scale = true → (Node.make id category name shape t).IsDerived) ∧
    (∀ (n : Node) (ms : List Move), n.IsDerived →
      (∀ t, .transform t ∈ ms → Transform.isUsable t.scale = true) →
      (n.calledAll ms).IsDerived) ∧
    (∀ (n : Node) (m : Move), n.IsDerived → n.called m =
      match n.moved m with
      | .ok k => (.ok (), k)
      | .error f => (.error f, n)) ∧
    (∀ (n : Node) (s : Vec Float) (f : Failure), (n.called (.scale s)).1 = .error f ↔
      Transform.isUsable s = false ∧ f = Node.refusal s) ∧
    (∀ (n : Node) (m : Move) (f : Failure), (n.called m).1 = .error f → (n.called m).2 = n) ∧
    (∀ (id : String) (c : Config) (d : Notation.Diagram) (g : Graph),
      (Build.run id c d).result = .ok g → ∀ n ∈ g.nodes, n.IsDerived) ∧
    ∀ (v : Value) (g : Graph), (Graph.ofValue v).result = .ok g → ∀ n ∈ g.nodes, n.IsDerived := by
  refine ⟨?_, ?_, ?_, ?_, ?_, ?_, ?_⟩
  · exact fun _ _ _ _ _ ht => ⟨ht, rfl, rfl⟩
  · exact fun _ _ h hms => Node.isDerived_calledAll h hms
  · exact fun _ m h => Node.called_eq_moved h m
  · intro n s f
    rw [Node.called_scale]
    by_cases hs : Transform.isUsable s = true <;> simp [hs, eq_comm]
  · exact fun _ _ _ h => Node.called_of_error h
  · exact fun id c d g hg n hn => ((Build.isSound_of_run hg).node n hn).isDerived
  · intro v g hg
    obtain ⟨ns, cs, hread⟩ := (Graph.result_ofValue_eq_ok_iff v g).mp hg
    exact hread.isDerived

/-- A plate is moved, in vain flattened, turned and stretched; a box is built and another one
read. -/
theorem geometry_is_derived_plate :
    let n : Node := .make (.str "A") .function (.str "f") .plate .unit
    let turned : Transform Float := ⟨Vec.one, Vec.one, Vec.one⟩
    let ms : List Move :=
      [.position ⟨1.0, 2.0, 3.0⟩, .scale Vec.zero, .transform turned, .scale ⟨2.0, 1.0, 1.0⟩]
    let d : Notation.Diagram :=
      { nodes := [{ id := "A", category := .function, name := "f", delimiter := .square
                    properties := .empty, line := 1 }] }
    let v : Value := .plainGraph [.plainNode "A" []] []
    n.IsDerived ∧ (∀ t, .transform t ∈ ms → Transform.isUsable t.scale = true) ∧
      (n.calledAll ms).IsDerived ∧
      n.called (.scale Vec.zero) = (.error (Node.refusal Vec.zero), n) ∧
      (∃ g, (Build.run "g" {} d).result = .ok g ∧ ∀ n ∈ g.nodes, n.IsDerived) ∧
      ∃ g, (Graph.ofValue v).result = .ok g ∧ ∀ n ∈ g.nodes, n.IsDerived := by
  intro n turned ms d v
  obtain ⟨hnew, hcalls, -, hrefused, hkept, hbuilt, hread⟩ := geometry_is_derived
  have hunit : Transform.isUsable (Transform.unit : Transform Float).scale = true := by
    decide +kernel
  have hms : ∀ t, .transform t ∈ ms → Transform.isUsable t.scale = true := by
    intro t ht
    obtain rfl : t = turned := by simpa [ms] using ht
    exact hunit
  have hn : n.IsDerived := hnew _ _ _ _ _ hunit
  have hflat : (n.called (.scale Vec.zero)).1 = .error (Node.refusal Vec.zero) :=
    (hrefused n Vec.zero _).mpr ⟨by decide +kernel, rfl⟩
  obtain ⟨g, hg⟩ := Build.exists_of_run "g" (c := {}) (x := 2.0) rfl (d := d) rfl
  have hids : (Graph.ofValue v).result.map Graph.nodeIds = .ok [.str "A"] := by decide +kernel
  obtain ⟨h, hh⟩ := exists_of_map_ok hids
  exact ⟨hn, hms, hcalls n ms hn hms, Prod.ext hflat (hkept n _ _ hflat),
    ⟨g, hg, hbuilt _ _ _ g hg⟩, h, hh, hread v h hh⟩

end SpatialDiagram
