import SpatialDiagram.Proofs.Building.Contents
import SpatialDiagram.Proofs.Building.GraphNames
import SpatialDiagram.Proofs.Validation.Findings

/-!
# Diagrams without errors

A validation finds an error exactly if a name is declared twice or an end of a
connection is not declared. These are also the diagrams that a build cannot take
over in full: a node replaces another one, or a connection is dropped.
-/

namespace SpatialDiagram

open Notation

namespace Validation

/-! ## Which issues are errors -/

@[simp] theorem ofLevel_nil (level : IssueLevel) : ofLevel level [] = [] := rfl

@[simp] theorem ofLevel_append (level : IssueLevel) (issues more : List Issue) :
    ofLevel level (issues ++ more) = ofLevel level issues ++ ofLevel level more :=
  List.filter_append issues more

theorem ofLevel_flatMap {α : Type} (level : IssueLevel) (xs : List α) (f : α → List Issue) :
    ofLevel level (xs.flatMap f) = xs.flatMap fun x => ofLevel level (f x) :=
  List.filter_flatMap

@[simp] theorem ofLevel_ofCode (level level' : IssueLevel) (code : IssueCode) (line : Option Nat)
    (details : List (String × Value)) :
    ofLevel level [.ofCode level' code line details] =
      if level' = level then [.ofCode level' code line details] else [] := by
  have hlevel : (Issue.ofCode level' code line details).level = level' := rfl
  simp only [ofLevel, List.filter_cons, List.filter_nil, hlevel, decide_eq_true_eq]

theorem errors_unknownFace (d : Diagram) (e : ConnectionDeclaration) (t : Endpoint)
    (line : Option Nat) : ofLevel .error (Build.unknownFace d e t line) = [] := by
  rw [Build.unknownFace]
  split
  · split <;> simp
  · rfl

/-- An end is an error exactly if its node is unknown. -/
theorem errors_endIssues (d : Diagram) (e : ConnectionDeclaration) (t : Endpoint)
    (missing : IssueCode) : ofLevel .error (endIssues d e t missing) = [] ↔ t.node ∈ names d := by
  rw [endIssues]
  split
  · simpa [errors_unknownFace] using ‹_›
  · simpa using ‹_›

theorem errors_unreadable (n : NodeDeclaration) (name : String) (code : IssueCode)
    (read : Value → Except Failure (Option (Vec Float))) :
    ofLevel .error (Build.unreadable n name code read) = [] := by
  rw [Build.unreadable]
  split
  · rfl
  · split <;> simp

theorem errors_propertyIssues (n : NodeDeclaration) (name : String) (code : IssueCode)
    (passes : Value → Except Failure Bool) :
    ofLevel .error (propertyIssues n name code passes) = [] := by
  rw [propertyIssues]
  split
  · rfl
  · split <;> simp

/-- The properties of a node are never errors. -/
theorem errors_nodeIssues (n : NodeDeclaration) : ofLevel .error (nodeIssues n) = [] := by
  simp [nodeIssues, Build.unreadablePlacement, errors_propertyIssues, errors_unreadable]

theorem errors_cycleIssues (cycle : List Value) :
    ofLevel .error (Build.cycleIssues cycle) = [] := by
  cases cycle <;> simp [Build.cycleIssues]

/-- No node repeats an earlier name exactly if the names differ from each other and from those
before. -/
theorem repeated_eq_nil_iff (earlier : List String) (ns : List NodeDeclaration) :
    repeated earlier ns = [] ↔
      (ns.map NodeDeclaration.id).Nodup ∧ ∀ n ∈ ns, n.id ∉ earlier := by
  induction ns generalizing earlier with
  | nil => simp [repeated]
  | cons n ns ih =>
      rw [repeated]
      split
      · rename_i hn
        simp [hn]
      · rename_i hn
        rw [ih, List.forall_mem_cons, List.map_cons, List.nodup_cons]
        simp only [List.mem_map, not_exists, not_and, List.mem_cons, not_or]
        constructor
        · rintro ⟨hnodup, hall⟩
          exact ⟨⟨fun m hm => (hall m hm).1, hnodup⟩, hn, fun m hm => (hall m hm).2⟩
        · rintro ⟨⟨hnew, hnodup⟩, -, hall⟩
          exact ⟨hnodup, fun m hm => ⟨hnew m hm, hall m hm⟩⟩

/-- Every name is declared once, and every end of a connection is declared. -/
def IsSound (d : Diagram) : Prop :=
  (d.nodes.map NodeDeclaration.id).Nodup ∧
    ∀ e ∈ d.connections, e.source.node ∈ d.nodes.map NodeDeclaration.id ∧
      e.target.node ∈ d.nodes.map NodeDeclaration.id

/-- A diagram has no errors exactly if it is sound. -/
theorem errors_eq_nil_iff (d : Diagram) : ofLevel .error (diagramIssues d) = [] ↔ IsSound d := by
  have hduplicates : ofLevel .error (duplicateIssues d) = [] ↔
      (d.nodes.map NodeDeclaration.id).Nodup := by
    rw [duplicateIssues, List.map_eq_flatMap, ofLevel_flatMap]
    simp only [ofLevel_ofCode, if_true]
    rw [← List.map_eq_flatMap, List.map_eq_nil_iff, repeated_eq_nil_iff]
    simp
  rw [diagramIssues, ofLevel_append, ofLevel_append, ofLevel_append, List.append_eq_nil_iff,
    hduplicates, ofLevel_flatMap, ofLevel_flatMap, IsSound]
  simp [errors_nodeIssues, errors_cycleIssues, errors_endIssues, names]

theorem any_isError_eq_false_iff (issues : List Issue) :
    issues.any Issue.isError = false ↔ ofLevel .error issues = [] := by
  rw [ofLevel, List.filter_eq_nil_iff, List.any_eq_false]
  rfl

theorem isValid_ofIssues (issues : List Issue) :
    (Verdict.ofIssues issues).isValid = !issues.any Issue.isError := by
  rw [Bool.eq_iff_iff, Bool.not_eq_true', any_isError_eq_false_iff, Verdict.isValid,
    Verdict.ofIssues, List.isEmpty_iff, List.map_eq_nil_iff]

end Validation

/-! ## Builds without loss -/

namespace Build

theorem kept_eq_iff (d : Diagram) : (kept d).length = d.connections.length ↔
    ∀ e ∈ d.connections, e.source.node ∈ d.nodes.map NodeDeclaration.id ∧
      e.target.node ∈ d.nodes.map NodeDeclaration.id := by
  rw [kept, List.length_filter_eq_length_iff]
  simp only [isKept_iff, Validation.names, List.mem_eraseDups]

/-- A graph has as many nodes and connections as its diagram exactly if the diagram is sound. -/
theorem isSound_iff_of_contains {c : Config} {d : Diagram} {g : Graph} (h : Contains c d g) :
    Validation.IsSound d ↔
      g.nodes.length = d.nodes.length ∧ g.connections.length = d.connections.length := by
  have hnodes : g.nodes.length = (d.nodes.map NodeDeclaration.id).eraseDups.length := by
    have hlength := congrArg List.length h.nodeIds
    rwa [Graph.nodeIds, List.length_map, List.length_map] at hlength
  have hconnections : g.connections.length = (kept d).length := by
    have hlength := congrArg List.length h.connections
    rwa [List.length_map, List.length_map] at hlength
  rw [hnodes, hconnections, kept_eq_iff, Validation.IsSound, ← length_eraseDups_eq_iff,
    List.length_map]

/-- A sound diagram has all its connections kept. -/
theorem isKept_of_isSound {d : Diagram} (h : Validation.IsSound d) {e : ConnectionDeclaration}
    (he : e ∈ d.connections) : isKept (Validation.names d) e = true := by
  rw [isKept_iff, Validation.names, List.mem_eraseDups, List.mem_eraseDups]
  exact h.2 e he

/-- A sound diagram is taken over in full and in order. -/
theorem ids_of_isSound {c : Config} {d : Diagram} {g : Graph} (h : Contains c d g)
    (hsound : Validation.IsSound d) :
    g.nodeIds = d.nodes.map (fun n => .str n.id) ∧
      g.connections.map Connection.id = d.connections.map fun e => .str e.id := by
  have hkept : kept d = d.connections := by
    rw [kept, List.filter_eq_self]
    exact fun e he => isKept_of_isSound hsound he
  constructor
  · rw [h.nodeIds, eraseDups_of_nodup hsound.1, List.map_map]
    rfl
  · have hbare := congrArg (List.map Connection.id) h.connections
    rw [hkept] at hbare
    simpa only [List.map_map, Function.comp_def, Connection.id_bare, id_connectionOf] using hbare

end Build

namespace Session

/-- With the check, a source is refused exactly for an error. -/
theorem result_diagramOf {source : Value} {d : Diagram} {found : List Issue}
    (hd : (Diagram.parse source).result = .ok d)
    (hfound : (Validation.issues d).result = .ok found) :
    (diagramOf source true).result =
      if found.any Issue.isError then .error (.refused (Diagnosis.invalid found).report.render)
      else .ok d := by
  have hcheck : (enforce d).result =
      if found.any Issue.isError then .error (.refused (Diagnosis.invalid found).report.render)
      else .ok d := by
    rw [enforce, Trace.result_bind, hfound]
    cases h : found.any Issue.isError <;> simp [bind, Except.bind, h]
  rw [diagramOf, Trace.result_bind, hd]
  exact hcheck

/-- A build ends in a failure of its own kind. -/
theorem run_ne_refused (id : String) (c : Config) (d : Diagram) (report : String) :
    (Build.run id c d).result ≠ .error (.refused report) := by
  rw [Build.run, Build.runWith, Trace.result_mapFailure]
  intro h
  cases hg : (Build.graphOf .standard id c d).result with
  | error f =>
      rw [hg] at h
      cases h
  | ok g =>
      rw [hg] at h
      cases h

/-- A source is refused exactly if its diagram has errors, before anything is built. -/
theorem generate_checked {source : Value} {d : Diagram} {found : List Issue}
    (hd : (Diagram.parse source).result = .ok d)
    (hfound : (Validation.issues d).result = .ok found) (s : Session) (id : String) :
    if found.any Issue.isError then
      (∃ report, (s.generate id source true).trace.result = .error (.refused report)) ∧
        (s.generate id source true).session = s
    else (s.generate id source true).trace.result = (Build.run id s.config d).result := by
  have hparsed := result_diagramOf hd hfound
  rw [generate]
  cases h : found.any Issue.isError with
  | true =>
      rw [h] at hparsed
      simp only [hparsed, if_true]
      exact ⟨⟨_, rfl⟩, trivial⟩
  | false =>
      rw [h] at hparsed
      simp only [hparsed, Bool.false_eq_true, if_false, Builder.build, s.builds]

theorem result_generate_unchecked {source : Value} {d : Diagram}
    (hd : (Diagram.parse source).result = .ok d) (s : Session) (id : String) :
    (s.generate id source false).trace.result = (Build.run id s.config d).result := by
  have hparsed : (diagramOf source false).result = .ok d := by
    rw [diagramOf, Trace.result_bind, hd]
    rfl
  rw [generate]
  simp only [hparsed, Builder.build, s.builds]

/-- The check finds no error exactly if the names of nodes differ and all ends are declared, and
exactly if the build loses no node and no connection. A check before the build refuses what the
check alone finds invalid, leaves the session as it was, and makes no other difference. -/
theorem error_free_iff {source : Value} {d : Diagram} (hd : (Diagram.parse source).result = .ok d) :
    (∀ id c g, (Build.run id c d).result = .ok g →
      ∃ found, (Validation.issues d).result = .ok found ∧
        ((∀ i ∈ found, i.level ≠ .error) ↔ Validation.IsSound d) ∧
        (Validation.IsSound d ↔
          g.nodes.length = d.nodes.length ∧ g.connections.length = d.connections.length) ∧
        (Validation.IsSound d →
          g.nodeIds = d.nodes.map (fun n => .str n.id) ∧
            g.connections.map Connection.id = d.connections.map (fun e => .str e.id) ∧
            Issue.only .connectionDropped (Build.run id c d).issues = [])) ∧
    ∀ v, (validate source).result = .ok v → ∀ (s : Session) (id id' : String),
      ((∃ report, (s.generate id source true).trace.result = .error (.refused report)) ↔
        v.isValid = false) ∧
      (v.isValid = false → (s.generate id source true).session = s) ∧
      (v.isValid = true → (s.generate id source true).trace.result =
        (s.generate id' source false).trace.result.map (Graph.named id)) := by
  constructor
  · intro id c g hg
    obtain ⟨draft, hassemble, harrange, hissues⟩ := Build.run_of_ok hg
    have hids := Diagram.nodup_connections hd
    obtain ⟨hassembled, -⟩ := Build.assembled_of_ok hids hassemble
    have hcontains := Build.contains_of_assembled hassembled harrange
    refine ⟨Validation.diagramIssues d,
      Validation.issues_of_inRange (Build.inRange_of_assemble hassemble), ?_,
      Build.isSound_iff_of_contains hcontains, fun hsound => ?_⟩
    · rw [← Validation.errors_eq_nil_iff, Validation.ofLevel, List.filter_eq_nil_iff]
      simp only [decide_eq_true_iff]
    · obtain ⟨hnodes, hconnections⟩ := Build.ids_of_isSound hcontains hsound
      refine ⟨hnodes, hconnections, ?_⟩
      rw [hissues, Build.dropped_of_assembled hids hassemble, List.filterMap_eq_nil_iff]
      intro e he
      rw [(Build.firstMissing_eq_none_iff _ e).mpr (Build.isKept_of_isSound hsound he)]
      rfl
  · intro v hv s id id'
    rw [validate_of_parse hd] at hv
    obtain ⟨found, hfound⟩ := exists_of_map_ok hv
    rw [hfound] at hv
    obtain rfl := Except.ok.inj hv
    have hchecked := generate_checked hd hfound s id
    rw [Validation.isValid_ofIssues]
    cases herrors : found.any Issue.isError with
    | true =>
        rw [herrors, if_pos rfl] at hchecked
        exact ⟨⟨fun _ => rfl, fun _ => hchecked.1⟩, fun _ => hchecked.2, fun h => by cases h⟩
    | false =>
        rw [herrors, if_neg (by simp)] at hchecked
        rw [hchecked, result_generate_unchecked hd s id']
        refine ⟨⟨fun ⟨report, hreport⟩ => ?_, fun h => by simp at h⟩, fun h => by simp at h, ?_⟩
        · exact absurd hreport (run_ne_refused id s.config d report)
        · exact fun _ => Build.result_run_named id id' s.config d

/-- A connection to a node that is not declared is an error, and the build drops it. -/
theorem error_free_iff_dangling :
    let text := "A[Function: f]\nA --> B"
    let d : Diagram :=
      { nodes := [{ id := "A", category := .function, name := "f", delimiter := .square
                    properties := .empty, line := 1 }]
        connections := [{ id := "conn_0", category := .dataFlow, source := ⟨"A", none⟩
                          target := ⟨"B", none⟩, label := none, line := 2 }] }
    let s : Session := {}
    (Diagram.parse (.str text)).result = .ok d ∧
      (∃ g, (Build.run "g" {} d).result = .ok g ∧
        ¬ (g.nodes.length = d.nodes.length ∧ g.connections.length = d.connections.length)) ∧
      (∃ report, (s.generate "g" (.str text) true).trace.result = .error (.refused report)) ∧
      (s.generate "g" (.str text) true).session = s := by
  intro text d s
  have hlines : SourceLine.ofText text.toList =
      [⟨1, "A[Function: f]".toList⟩, ⟨2, "A --> B".toList⟩] := by decide
  have hd : (Diagram.parse (.str text)).result = .ok d := by
    rw [Diagram.parse_of_no_block hlines (by decide)]
    rfl
  obtain ⟨g, hg⟩ := Build.exists_of_run "g" (c := {}) (x := 2.0) rfl (d := d) rfl
  obtain ⟨hbuild, hsession⟩ := error_free_iff hd
  obtain ⟨found, -, -, hlengths, -⟩ := hbuild "g" {} g hg
  have hunsound : ¬ Validation.IsSound d := fun h => by simpa [d] using h.2
  obtain ⟨hrefused, hsame, -⟩ := hsession _ ((validate_of_parse hd).trans rfl) s "g" "g"
  exact ⟨hd, ⟨g, hg, fun h => hunsound (hlengths.mpr h)⟩, hrefused.mpr rfl, hsame rfl⟩

end Session

end SpatialDiagram
