import SpatialDiagram.Proofs.Building.Rejection
import SpatialDiagram.Proofs.FirstOccurrences
import SpatialDiagram.Proofs.Notices

/-!
# Nodes as they are declared

A build makes the node of a declaration from that declaration alone. Scale and
position fall back to those of the unit transform where they cannot be read,
which is noticed. Of several declarations of a name the last one counts, while
the name keeps the place of the first one.
-/

namespace SpatialDiagram

open Notation

namespace Build

/-! ## One declaration -/

/-- The vector that a property gives, if it can be read. -/
def placementOf (n : NodeDeclaration) (name : String)
    (read : Value → Except Failure (Option (Vec Float))) : Option (Vec Float) :=
  (n.properties.get? name).bind fun v =>
    match read v with
    | .ok p => p
    | .error _ => none

def scaleOf (n : NodeDeclaration) : Option (Vec Float) :=
  placementOf n "scale" Placement.scale?

def positionOf (n : NodeDeclaration) : Option (Vec Float) :=
  placementOf n "position" Placement.position?

/-- A node is pinned by a readable position other than the origin. -/
def isPinned (n : NodeDeclaration) : Bool := (positionOf n).any fun p => !p.isOrigin

/-- The transform a node declaration asks for, with the defaults where a property does not read. -/
def transformOf (n : NodeDeclaration) : Transform Float :=
  { position := (positionOf n).getD Vec.zero
    rotation := Vec.zero
    scale := (scaleOf n).getD Vec.one }

/-- The style a node declaration asks for, once its opacity has been read. -/
def styleOf (c : Config) (n : NodeDeclaration) (opacity : Number) : NodeStyle :=
  { color := .str (colorOf c n)
    opacity
    wireframe := ((n.properties.get? "wireframe").map isYes).getD false }

/-- The node that a declaration says, with an opacity read before. -/
def declaredNode (c : Config) (n : NodeDeclaration) (opacity : Number) : Node :=
  { Node.make (.str n.id) n.category (.str n.name) n.shape (transformOf n) with
    description := (n.description.map Value.str).getD .null
    annotations := annotationsOf n.properties
    style := styleOf c n opacity }

/-- What is noticed of a property that gives no vector. -/
def unreadable (n : NodeDeclaration) (name : String) (code : IssueCode)
    (read : Value → Except Failure (Option (Vec Float))) : List Issue :=
  match n.properties.get? name with
  | none => []
  | some v =>
      match read v with
      | .ok none =>
          [.ofCode .warning code (some n.line) [("node_id", .str n.id), ("value", v)]]
      | _ => []

/-- What is noticed of the placement of a node. -/
def unreadablePlacement (n : NodeDeclaration) : List Issue :=
  unreadable n "scale" .invalidScale Placement.scale? ++
    unreadable n "position" .invalidPosition Placement.position?

/-- A property that does not read is reported under its own code. -/
theorem only_unreadable (code' : IssueCode) (n : NodeDeclaration) (name : String) (code : IssueCode)
    (read : Value → Except Failure (Option (Vec Float))) :
    Issue.only code' (unreadable n name code read) =
      if code = code' then unreadable n name code read else [] := by
  rw [unreadable]
  split
  · simp
  · split <;> simp

/-- Placement is reported under the two codes of placement only. -/
theorem only_unreadablePlacement (code : IssueCode) (n : NodeDeclaration)
    (hscale : code ≠ .invalidScale) (hposition : code ≠ .invalidPosition) :
    Issue.only code (unreadablePlacement n) = [] := by
  simp [unreadablePlacement, only_unreadable, Ne.symm hscale, Ne.symm hposition]

/-- A usable scale is accepted, and changes nothing but the scale of the transform. -/
theorem setScale_of_usable (n : Node) {s : Vec Float} (hs : Transform.isUsable s = true) :
    n.setScale s = .ok (n.place ⟨n.transform.position, n.transform.rotation, s⟩) := by
  simp [Node.setScale, Transform.checked, Transform.make?, hs, Except.map]

/-- A node takes the scale of its declaration, or keeps its own. -/
theorem scaled_of_ok {d : NodeDeclaration} {n n' : Node} (h : (scaled d n).result = .ok n') :
    n' = ((scaleOf d).map fun s =>
        n.place ⟨n.transform.position, n.transform.rotation, s⟩).getD n ∧
      (scaled d n).issues = unreadable d "scale" .invalidScale Placement.scale? := by
  rw [scaled] at h ⊢
  rw [scaleOf, placementOf, unreadable]
  cases hv : d.properties.get? "scale" with
  | none =>
      simp only [hv] at h
      exact ⟨(Except.ok.inj h).symm, rfl⟩
  | some v =>
      simp only [hv] at h
      obtain ⟨read, hread, hrest⟩ := Trace.exists_of_result_bind h
      rw [Trace.result_ofResult] at hread
      simp only [Option.bind_some, hread]
      rw [Trace.issues_bind_of_ok (a := read) rfl]
      cases read with
      | none =>
          simp only at hrest
          obtain ⟨_, -, hn⟩ := Trace.exists_of_result_bind hrest
          exact ⟨(Except.ok.inj hn).symm, rfl⟩
      | some s =>
          simp only [setScale_of_usable n (isUsable_of_scale hread)] at hrest ⊢
          exact ⟨(Except.ok.inj hrest).symm, rfl⟩

/-- A node takes the position of its declaration, or keeps its own. -/
theorem positioned_of_ok {d : NodeDeclaration} {n : Node} {b : Node × Bool}
    (h : (positioned d n).result = .ok b) :
    b = (((positionOf d).map n.setPosition).getD n, isPinned d) ∧
      (positioned d n).issues =
        unreadable d "position" .invalidPosition Placement.position? := by
  rw [positioned] at h ⊢
  rw [isPinned, positionOf, placementOf, unreadable]
  cases hv : d.properties.get? "position" with
  | none =>
      simp only [hv] at h
      exact ⟨(Except.ok.inj h).symm, rfl⟩
  | some v =>
      simp only [hv] at h
      obtain ⟨read, hread, hrest⟩ := Trace.exists_of_result_bind h
      rw [Trace.result_ofResult] at hread
      simp only [Option.bind_some, hread]
      rw [Trace.issues_bind_of_ok (a := read) rfl]
      cases read with
      | none =>
          simp only at hrest
          obtain ⟨_, -, hn⟩ := Trace.exists_of_result_bind hrest
          exact ⟨(Except.ok.inj hn).symm, rfl⟩
      | some p => exact ⟨(Except.ok.inj hrest).symm, rfl⟩

/-- The node of a declaration is what the declaration says. -/
theorem nodeOf_of_ok {c : Config} {d : NodeDeclaration} {b : Node × Bool}
    (h : (nodeOf c d).result = .ok b) :
    (∃ o, opacityOf c d = .ok o ∧ b = (declaredNode c d o, isPinned d)) ∧
      (nodeOf c d).issues = unreadablePlacement d := by
  rw [nodeOf] at h ⊢
  obtain ⟨o, ho, hrest⟩ := Trace.exists_of_result_bind h
  rw [Trace.issues_bind_of_ok ho]
  obtain ⟨n, hn, hb⟩ := Trace.exists_of_result_bind hrest
  obtain ⟨hscaled, hscale⟩ := scaled_of_ok hn
  obtain ⟨hpositioned, hposition⟩ := positioned_of_ok hb
  refine ⟨⟨o, ho, ?_⟩, ?_⟩
  · rw [hpositioned, hscaled, declaredNode, transformOf]
    cases scaleOf d <;> cases positionOf d <;> rfl
  · rw [Trace.issues_ofResult, List.nil_append, Trace.issues_bind_of_ok hn, hscale, hposition]
    rfl

/-! ## All declarations -/

/-- The nodes of a draft are those of the last declarations, in the order in which their names first
came, and nothing is connected yet. -/
structure Drafted (id : String) (c : Config) (d : Diagram) (ns : List NodeDeclaration)
    (draft : Draft) : Prop where
  shell : draft.graph = { shell id d with nodes := draft.graph.nodes }
  nodeIds : draft.graph.nodeIds = (ns.map NodeDeclaration.id).eraseDups.map Value.str
  node : ∀ name n, Keyed.last? NodeDeclaration.id name ns = some n →
    ∃ o, opacityOf c n = .ok o ∧ draft.graph.node? (.str name) = some (declaredNode c n o)
  pinned : ∀ name, name ∈ draft.pinned ↔
    ∃ n, Keyed.last? NodeDeclaration.id name ns = some n ∧ isPinned n = true

/-- The empty shell is the draft of no declarations. -/
theorem drafted_nil (id : String) (c : Config) (d : Diagram) :
    Drafted id c d [] { graph := shell id d } where
  shell := rfl
  nodeIds := rfl
  node := by simp [Keyed.last?]
  pinned := by simp [Keyed.last?]

/-- A node that takes the place of an unconnected one takes nothing over from it. -/
theorem inherit_of_unconnected (n : Node) {previous : Node} (hp : previous.IsNew) :
    Graph.inherit n previous = n := by
  simp [Graph.inherit, hp.1, hp.2]

theorem isNew_declaredNode (c : Config) (n : NodeDeclaration) (o : Number) :
    (declaredNode c n o).IsNew := ⟨rfl, rfl⟩

/-- A declared node takes over nothing, since no connection has been made yet. -/
theorem succeeding_drafted {id : String} {c : Config} {d : Diagram} {ns : List NodeDeclaration}
    {draft : Draft} (h : Drafted id c d ns draft) (n : NodeDeclaration) (o : Number) :
    draft.graph.succeeding (declaredNode c n o) = declaredNode c n o := by
  rw [Graph.succeeding]
  cases hp : draft.graph.node? (declaredNode c n o).id with
  | none => rfl
  | some previous =>
      have hm : (declaredNode c n o).id ∈ draft.graph.nodeIds :=
        (Graph.mem_nodeIds_iff _ _).mpr (by rw [hp]; rfl)
      rw [h.nodeIds, List.mem_map] at hm
      obtain ⟨name, hname, he⟩ := hm
      obtain rfl : name = n.id := Value.str.inj he
      rw [List.mem_eraseDups, ← Keyed.last_isSome_iff, Option.isSome_iff_exists] at hname
      obtain ⟨n', hn'⟩ := hname
      obtain ⟨o', -, hnode⟩ := h.node _ _ hn'
      obtain rfl := Option.some.inj (hp.symm.trans hnode)
      exact inherit_of_unconnected _ (isNew_declaredNode c n' o')

/-- A declaration that is accepted has an opacity, and adds its node to the draft. -/
theorem addNode_of_ok {c : Config} {n : NodeDeclaration} {draft draft' : Draft}
    (h : (addNode c draft n).result = .ok draft') :
    (∃ o, opacityOf c n = .ok o ∧ draft' =
      { graph := draft.graph.addNode (declaredNode c n o)
        pinned := draft.pinned.filter (· ≠ n.id) ++ if isPinned n then [n.id] else [] }) ∧
      (addNode c draft n).issues = unreadablePlacement n := by
  rw [addNode] at h ⊢
  obtain ⟨b, hb, hrest⟩ := Trace.exists_of_result_bind h
  obtain ⟨⟨o, ho, rfl⟩, hissues⟩ := nodeOf_of_ok hb
  have hadd := draft.graph.result_addNodeLogged (declaredNode c n o)
  have hquiet : (draft.graph.addNodeLogged (declaredNode c n o)).issues = [] := by
    rw [Graph.addNodeLogged]
    split <;> rfl
  obtain ⟨g, hg, hdraft⟩ := Trace.exists_of_result_bind hrest
  obtain rfl := Except.ok.inj (hadd.symm.trans hg)
  obtain rfl := Except.ok.inj hdraft
  refine ⟨⟨o, ho, ?_⟩, ?_⟩
  · cases isPinned n <;> simp
  · rw [Trace.issues_bind_of_ok hb, hissues, Trace.issues_bind_of_ok hg, hquiet]
    simp

/-- One more declaration keeps a draft in step with the declarations so far. -/
theorem drafted_addNode {id : String} {c : Config} {d : Diagram} {ns : List NodeDeclaration}
    {n : NodeDeclaration} {draft draft' : Draft} (h : Drafted id c d ns draft)
    (hn : (addNode c draft n).result = .ok draft') : Drafted id c d (ns ++ [n]) draft' := by
  obtain ⟨⟨o, ho, rfl⟩, -⟩ := addNode_of_ok hn
  have hid : (declaredNode c n o).id = .str n.id := rfl
  constructor
  · exact congrArg (fun g : Graph =>
      { g with nodes := (draft.graph.addNode (declaredNode c n o)).nodes }) h.shell
  · rw [Graph.nodeIds_addNode, hid, h.nodeIds, List.map_append, List.map_singleton,
      eraseDups_concat]
    simp only [List.mem_map, Value.str.injEq, exists_eq_right, List.mem_eraseDups]
    split <;> simp
  · intro name m hm
    rw [Keyed.last_concat] at hm
    rw [Graph.node_addNode, hid, succeeding_drafted h]
    by_cases hname : n.id = name
    · rw [if_pos hname] at hm
      obtain rfl := Option.some.inj hm
      exact ⟨o, ho, if_pos (congrArg Value.str hname)⟩
    · rw [if_neg hname] at hm
      obtain ⟨o', ho', hnode⟩ := h.node name m hm
      exact ⟨o', ho', by rw [if_neg fun he => hname (Value.str.inj he), hnode]⟩
  · intro name
    rw [Keyed.last_concat, List.mem_append, List.mem_filter]
    by_cases hname : n.id = name
    · subst hname
      cases hp : isPinned n <;> simp [hp]
    · rw [if_neg hname, ← h.pinned name]
      cases hp : isPinned n <;> simp [Ne.symm hname]

/-- All the declarations in turn keep the draft in step with them. -/
theorem drafted_foldlM {id : String} {c : Config} {d : Diagram} {ns : List NodeDeclaration}
    {draft : Draft} (h : (ns.foldlM (addNode c) { graph := shell id d }).result = .ok draft) :
    Drafted id c d ns draft :=
  Trace.foldlM_induction (Drafted id c d) (drafted_nil id c d)
    (fun _ _ _ _ _ _ hb hx => drafted_addNode hb hx) h

end Build

end SpatialDiagram
