import SpatialDiagram.Proofs.Building.Assembly
import SpatialDiagram.Proofs.Building.ValidDiagrams
import SpatialDiagram.Proofs.DigraphRenaming

/-!
# What a validation finds

The issues of a diagram are those of its four checks in turn: repeated names,
ends of connections, properties of nodes, and a cycle. A validation ends in them
unless a property holds an integer beyond all floating-point numbers, which
ends a build as well.
-/

namespace SpatialDiagram

open Notation

namespace Validation

/-! ## One check -/

/-- What is reported of ids that are declared again, in source order. -/
def duplicateIssues (d : Diagram) : List Issue :=
  (repeated [] d.nodes).map fun n =>
    .ofCode .error .duplicateNodeId (some n.line) [("node_id", .str n.id)]

/-- What is found of one end of a connection. -/
def endIssues (d : Diagram) (e : ConnectionDeclaration) (t : Endpoint) (missing : IssueCode) :
    List Issue :=
  if t.node ∈ names d then Build.unknownFace d e t (some e.line)
  else [.ofCode .error missing (some e.line) [("node_id", .str t.node)]]

/-- What is found of a property that does not pass its check. -/
def propertyIssues (n : NodeDeclaration) (name : String) (code : IssueCode)
    (passes : Value → Except Failure Bool) : List Issue :=
  match n.properties.get? name with
  | none => []
  | some v =>
      match passes v with
      | .ok false =>
          [.ofCode .warning code (some n.line) [("node_id", .str n.id), ("value", v)]]
      | _ => []

/-- What is found of the properties of a node, in the order in which they are checked. -/
def nodeIssues (n : NodeDeclaration) : List Issue :=
  propertyIssues n "color" .invalidColor (fun v => .ok v.isColor) ++
    (propertyIssues n "opacity" .opacityRange isOpacity ++ Build.unreadablePlacement n)

theorem issues_checkEnd (d : Diagram) (e : ConnectionDeclaration) (t : Endpoint)
    (missing : IssueCode) : (checkEnd d e t missing).issues = endIssues d e t missing := by
  rw [checkEnd, endIssues, Build.unknownFace]
  cases hn : declared? d t.node with
  | none =>
      have hname : t.node ∉ names d := by
        rw [Build.mem_names_iff, hn]
        simp
      rw [if_neg hname]
      rfl
  | some n =>
      rw [if_pos ((Build.mem_names_iff d t.node).mpr ⟨n, hn⟩)]
      cases t.face with
      | none => rfl
      | some face =>
          by_cases hface : face ∈ Face.idsOf n.shape
          · simp [hface]
          · simp only [hface, if_false]
            rfl

theorem result_checkEnd (d : Diagram) (e : ConnectionDeclaration) (t : Endpoint)
    (missing : IssueCode) : (checkEnd d e t missing).result = .ok () := by
  rw [checkEnd]
  split
  · rfl
  · rfl
  · split <;> rfl

theorem issues_checkConnection (d : Diagram) (e : ConnectionDeclaration) :
    (checkConnection d e).issues =
      endIssues d e e.source .unknownSourceNode ++ endIssues d e e.target .unknownTargetNode := by
  rw [checkConnection, Trace.issues_bind_of_ok (result_checkEnd d e _ _), issues_checkEnd,
    issues_checkEnd]

theorem issues_checkProperty_of_ok {n : NodeDeclaration} {name : String} {code : IssueCode}
    {passes : Value → Except Failure Bool}
    (h : (checkProperty n name code passes).result = .ok ()) :
    (checkProperty n name code passes).issues = propertyIssues n name code passes := by
  rw [checkProperty] at h ⊢
  rw [propertyIssues]
  cases hv : n.properties.get? name with
  | none => rfl
  | some v =>
      cases hp : passes v with
      | error f =>
          simp only [hv, Trace.result_bind, Trace.result_ofResult, hp] at h
          cases h
      | ok b =>
          simp only [hp]
          rw [Trace.issues_bind_of_ok (a := b) rfl]
          cases b <;> rfl

/-- A placement passes its check exactly if a build can read it. -/
theorem propertyIssues_placement (n : NodeDeclaration) (name : String) (code : IssueCode)
    (read : Value → Except Failure (Option (Vec Float))) :
    propertyIssues n name code (fun v => (read v).map Option.isSome) =
      Build.unreadable n name code read := by
  rw [propertyIssues, Build.unreadable]
  cases n.properties.get? name with
  | none => rfl
  | some v =>
      simp only
      rcases read v with f | (_ | p) <;> rfl

/-- The checks of a node that return report what its properties alone tell. -/
theorem issues_checkProperties_of_ok {n : NodeDeclaration}
    (h : (checkProperties n).result = .ok ()) : (checkProperties n).issues = nodeIssues n := by
  rw [checkProperties] at h ⊢
  obtain ⟨_, hcolor, h⟩ := Trace.exists_of_result_bind h
  obtain ⟨_, hopacity, h⟩ := Trace.exists_of_result_bind h
  obtain ⟨_, hscale, hposition⟩ := Trace.exists_of_result_bind h
  rw [Trace.issues_bind_of_ok hcolor, Trace.issues_bind_of_ok hopacity,
    Trace.issues_bind_of_ok hscale, issues_checkProperty_of_ok hcolor,
    issues_checkProperty_of_ok hopacity, issues_checkProperty_of_ok hscale,
    issues_checkProperty_of_ok hposition, propertyIssues_placement, propertyIssues_placement]
  rfl

theorem issues_checkCycle (d : Diagram) :
    (checkCycle d).issues =
      Build.cycleIssues (((digraph d).findCycle?.getD []).map Value.str) := by
  rw [checkCycle]
  cases hcycle : (digraph d).findCycle? with
  | none => rfl
  | some cycle =>
      obtain ⟨first, rest, rfl⟩ := List.exists_cons_of_ne_nil (Digraph.ne_nil_of_findCycle hcycle)
      have hnames : (.str first :: rest.map Value.str).map Value.display = first :: rest := by
        rw [← List.map_cons, List.map_map]
        exact List.map_id'' (fun _ => rfl) _
      simp only [Option.getD_some, List.map_cons, Build.cycleIssues]
      rw [← List.map_cons, hnames]
      rfl

/-! ## Which issues a check finds -/

theorem only_duplicateIssues (code : IssueCode) (d : Diagram) (h : code ≠ .duplicateNodeId) :
    Issue.only code (duplicateIssues d) = [] := by
  rw [duplicateIssues, List.map_eq_flatMap]
  simp [Ne.symm h]

theorem only_endIssues (code : IssueCode) (d : Diagram) (e : ConnectionDeclaration) (t : Endpoint)
    (missing : IssueCode) (hface : code ≠ .unknownFace) (hmissing : code ≠ missing) :
    Issue.only code (endIssues d e t missing) = [] := by
  rw [endIssues]
  split <;> simp [Build.only_unknownFace, Ne.symm hface, Ne.symm hmissing]

theorem only_propertyIssues (code' : IssueCode) (n : NodeDeclaration) (name : String)
    (code : IssueCode) (passes : Value → Except Failure Bool) :
    Issue.only code' (propertyIssues n name code passes) =
      if code = code' then propertyIssues n name code passes else [] := by
  rw [propertyIssues]
  split
  · simp
  · split <;> simp

theorem only_nodeIssues (code : IssueCode) (n : NodeDeclaration) (hcolor : code ≠ .invalidColor)
    (hopacity : code ≠ .opacityRange) :
    Issue.only code (nodeIssues n) = Issue.only code (Build.unreadablePlacement n) := by
  simp [nodeIssues, only_propertyIssues, Ne.symm hcolor, Ne.symm hopacity]

/-! ## All checks -/

/-- What is found of a diagram. -/
def diagramIssues (d : Diagram) : List Issue :=
  duplicateIssues d ++
    (d.connections.flatMap (fun e =>
        endIssues d e e.source .unknownSourceNode ++ endIssues d e e.target .unknownTargetNode) ++
      (d.nodes.flatMap nodeIssues ++
        Build.cycleIssues (((digraph d).findCycle?.getD []).map Value.str)))

/-- The checks of a diagram that return report what the diagram alone tells. -/
theorem issues_checks_of_ok {d : Diagram} (h : (checks d).result = .ok ()) :
    (checks d).issues = diagramIssues d := by
  rw [checks] at h ⊢
  obtain ⟨_, hnames, h⟩ := Trace.exists_of_result_bind h
  obtain ⟨_, hconnections, h⟩ := Trace.exists_of_result_bind h
  obtain ⟨_, hnodes, hcycle⟩ := Trace.exists_of_result_bind h
  have hduplicates : (checkNames d).issues = duplicateIssues d := by
    rw [checkNames, Trace.issues_forM_of_ok hnames, duplicateIssues]
    exact List.map_eq_flatMap.symm
  have hnode : ∀ n ∈ d.nodes, (checkProperties n).issues = nodeIssues n := by
    intro n hn
    have hall := Trace.failure_eq_none_of_result hnodes
    rw [Trace.failure_forM, List.findSome?_eq_none_iff] at hall
    obtain ⟨_, hok⟩ := (checkProperties n).failure_eq_none_iff.mp (hall n hn)
    exact issues_checkProperties_of_ok hok
  rw [Trace.issues_bind_of_ok hnames, Trace.issues_bind_of_ok hconnections,
    Trace.issues_bind_of_ok hnodes, hduplicates, Trace.issues_forM_of_ok hconnections,
    Trace.issues_forM_of_ok hnodes, issues_checkCycle, diagramIssues, List.flatMap_congr hnode]
  simp only [issues_checkConnection]

/-- A validation that ends in issues has found those of all checks. -/
theorem found_of_issues {d : Diagram} {found : List Issue}
    (h : (issues d).result = .ok found) : found = diagramIssues d := by
  rw [issues] at h
  obtain ⟨collected, hcollected, hfound⟩ := Trace.exists_of_result_bind h
  obtain ⟨_, -, hfound⟩ := Trace.exists_of_result_bind hfound
  obtain rfl := Except.ok.inj hfound
  obtain ⟨_, hchecks⟩ := exists_of_map_ok hcollected
  rw [Trace.result_collect_of_ok hchecks] at hcollected
  rw [← Except.ok.inj hcollected, issues_checks_of_ok hchecks]

/-! ## When a validation ends in issues -/

/-- A check of a property fails as the reading of its value does. -/
theorem failure_checkProperty_eq (n : NodeDeclaration) (name : String) (code : IssueCode)
    (passes : Value → Except Failure Bool) :
    (checkProperty n name code passes).failure? =
      (n.properties.get? name).bind fun v => (Trace.ofResult (passes v)).failure? := by
  rw [checkProperty]
  cases n.properties.get? name with
  | none => rfl
  | some v =>
      simp only [Option.bind_some]
      rw [Trace.failure_bind_of_forall (e := none), Option.or_none]
      intro b
      cases b <;> rfl

theorem failure_checkProperty_of_ok {n : NodeDeclaration} {name : String} {code : IssueCode}
    {passes : Value → Except Failure Bool}
    (h : ∀ v, n.properties.get? name = some v → ∃ b, passes v = .ok b) :
    (checkProperty n name code passes).failure? = none := by
  rw [failure_checkProperty_eq, Option.bind_eq_none_iff]
  intro v hv
  obtain ⟨b, hb⟩ := h v hv
  exact Trace.failure_eq_none_of_result hb

theorem failure_checkProperties_of_inRange {n : NodeDeclaration} (h : n.InRange) :
    (checkProperties n).failure? = none := by
  have hopacity : ∀ v, n.properties.get? "opacity" = some v → ∃ b, isOpacity v = .ok b := by
    intro v hv
    have hrange := h.opacity v hv
    rw [isOpacity]
    cases hx : v.asFloat with
    | ok x => exact ⟨_, rfl⟩
    | error f =>
        cases f with
        | tooLarge => exact absurd hx hrange
        | _ => exact ⟨false, rfl⟩
  have hplacement (name : String) (read : Value → Except Failure (Option (Vec Float)))
      (hread : ∀ v, n.properties.get? name = some v → ∃ p, read v = .ok p) (v : Value)
      (hv : n.properties.get? name = some v) : ∃ b, (read v).map Option.isSome = .ok b := by
    obtain ⟨p, hp⟩ := hread v hv
    exact ⟨p.isSome, by rw [hp]; rfl⟩
  rw [checkProperties, Trace.failure_seq, Trace.failure_seq, Trace.failure_seq,
    failure_checkProperty_of_ok fun v _ => ⟨_, rfl⟩, failure_checkProperty_of_ok hopacity,
    failure_checkProperty_of_ok (hplacement "scale" _ h.scale),
    failure_checkProperty_of_ok (hplacement "position" _ h.position)]
  rfl

/-- A validation fails on the properties of a node, and on nothing else. -/
theorem failure_issues (d : Diagram) :
    (issues d).failure? = d.nodes.findSome? fun n => (checkProperties n).failure? := by
  have hnames : (checkNames d).failure? = none := by
    rw [checkNames, Trace.failure_forM, List.findSome?_eq_none_iff]
    exact fun _ _ => rfl
  have hconnections : (d.connections.forM (checkConnection d)).failure? = none := by
    rw [Trace.failure_forM, List.findSome?_eq_none_iff]
    intro e _
    rw [checkConnection, Trace.failure_seq,
      Trace.failure_eq_none_of_result (result_checkEnd d e _ _),
      Trace.failure_eq_none_of_result (result_checkEnd d e _ _)]
    rfl
  have hcycle : (checkCycle d).failure? = none := by
    rw [checkCycle]
    split <;> rfl
  rw [issues, Trace.failure_bind_of_forall (e := none) _ fun _ => by simp,
    Trace.failure_collect, checks, Trace.failure_seq, Trace.failure_seq, Trace.failure_seq, hnames,
    hconnections, hcycle, Trace.failure_forM, Option.none_or, Option.none_or, Option.or_none,
    Option.or_none]

/-- In range, a validation returns and reports what the diagram tells. -/
theorem issues_of_inRange {d : Diagram} (h : ∀ n ∈ d.nodes, n.InRange) :
    (issues d).result = .ok (diagramIssues d) := by
  have hissues : (issues d).failure? = none := by
    rw [failure_issues, List.findSome?_eq_none_iff]
    exact fun n hn => failure_checkProperties_of_inRange (h n hn)
  obtain ⟨found, hfound⟩ := (issues d).failure_eq_none_iff.mp hissues
  rw [hfound, found_of_issues hfound]

end Validation

/-- A diagram that can be built can be validated. -/
theorem Build.inRange_of_assemble {id : String} {c : Config} {d : Diagram} {draft : Draft}
    (h : (assemble id c d).result = .ok draft) : ∀ n ∈ d.nodes, n.InRange := by
  intro n hn
  have hnone := Trace.failure_eq_none_of_result h
  rw [failure_assemble, List.findSome?_eq_none_iff] at hnone
  have hrejection := hnone n hn
  rw [rejection?, Option.or_eq_none_iff, Option.or_eq_none_iff] at hrejection
  obtain ⟨hopacity, hscale, hposition⟩ := hrejection
  constructor
  · intro v hv hlarge
    rw [opacityFailure?, hv, Option.bind_some, hlarge] at hopacity
    cases hopacity
  · exact (placementFailure_eq_none_iff n "scale" _).mp hscale
  · exact (placementFailure_eq_none_iff n "position" _).mp hposition

end SpatialDiagram
