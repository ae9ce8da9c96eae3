import SpatialDiagram.Proofs.Scene.Adjacency
import SpatialDiagram.Proofs.Validation.Findings

/-!
# Validation and build notice the same

The check works on what a diagram declares, the build on the graph that it has
assembled. Both read scales and positions alike, look for faces among those of
the last declaration of a node, and search the same directed graph for a cycle,
once with names and once with values for vertices.
-/

namespace SpatialDiagram

open Notation

namespace Build

/-! ## The same directed graph -/

theorem digraph_eq_map_nodeIds {g : Graph} (h : g.nodeIds.Nodup) :
    g.digraph =
      ⟨g.nodeIds.map fun u => (u, ((g.childrenOf u).filter (· ∈ g.nodeIds)).eraseDups)⟩ := by
  rw [Graph.digraph, Digraph.mk.injEq, Graph.nodeIds, List.map_map]
  refine List.map_congr_left fun n hn => ?_
  have hchildren : g.childrenOf n.id = n.children := Graph.entries_of_mem Node.children h hn
  rw [Function.comp_apply, hchildren]

/-- The kept connections out of a declared node are the edges out of it. -/
theorem targets_eq_edges {d : Diagram} {s : String} (hs : s ∈ Validation.names d) :
    targets (kept d) s =
      (((d.connections.map fun e => (e.source.node, e.target.node)).filter fun e =>
        e.1 = s && e.2 ∈ Validation.names d).map Prod.snd).eraseDups := by
  have hfilter : (kept d).filter (fun e => e.source.node = s) =
      d.connections.filter fun e => e.source.node = s && e.target.node ∈ Validation.names d := by
    rw [kept, List.filter_filter]
    refine List.filter_congr fun e _ => ?_
    by_cases he : e.source.node = s
    · simp [isKept, he, hs]
    · simp [he]
  rw [targets, neighbours, hfilter, List.filter_map, List.map_map]
  rfl

/-- The graph that is built has the edges that the validation sees. -/
theorem digraph_of_assembled {id : String} {c : Config} {d : Diagram} {draft : Draft}
    (h : Assembled id c d draft) : draft.graph.digraph = (Validation.digraph d).map Value.str := by
  have hids : draft.graph.nodeIds.Nodup := by
    rw [h.nodeIds]
    exact (nodup_eraseDups _).map fun _ _ => Value.str.inj
  rw [digraph_eq_map_nodeIds hids, Validation.digraph, Digraph.ofEdges, Digraph.map,
    Digraph.mk.injEq, h.nodeIds, List.map_map, List.map_map]
  refine List.map_congr_left fun s hs => ?_
  obtain ⟨n, hn⟩ := (mem_names_iff d s).mp hs
  obtain ⟨o, -, hnode⟩ := h.node s n hn
  have hchildren : draft.graph.childrenOf (.str s) = (targets (kept d) s).map Value.str :=
    congrArg (fun m => (Option.map Node.children m).getD []) hnode
  have hknown : ((targets (kept d) s).map Value.str).filter
      (· ∈ (Validation.names d).map Value.str) = (targets (kept d) s).map Value.str := by
    rw [List.filter_eq_self]
    intro u hu
    obtain ⟨t, ht, rfl⟩ := List.mem_map.mp hu
    obtain ⟨e, he, -, rfl⟩ := (mem_neighbours _ _ _ _ _).mp ht
    exact decide_eq_true (List.mem_map_of_mem (declared_of_mem_kept he).2)
  have hnodup : ((targets (kept d) s).map Value.str).Nodup :=
    (nodup_eraseDups _).map fun _ _ => Value.str.inj
  simp only [Function.comp_apply]
  rw [hchildren, hknown, eraseDups_of_nodup hnodup, targets_eq_edges hs]

/-! ## The same unknown faces -/

/-- An issue about a connection between declared nodes. -/
def concernsKept (d : Diagram) (i : Issue) : Bool :=
  (kept d).any fun e => i.details.get? "connection_id" = some (.str e.id)

/-- An issue with its line left out, for a comparison with one that never had a line. -/
def withoutLine (i : Issue) : Issue := { i with line := none }

theorem connectionId_of_mem_unknownFace {d : Diagram} {e : ConnectionDeclaration} {t : Endpoint}
    {line : Option Nat} {i : Issue} (h : i ∈ unknownFace d e t line) :
    i.details.get? "connection_id" = some (.str e.id) := by
  rw [unknownFace] at h
  split at h
  · split at h
    · cases h
    · obtain rfl := List.mem_singleton.mp h
      rfl
  · cases h

theorem withoutLine_unknownFace (d : Diagram) (e : ConnectionDeclaration) (t : Endpoint)
    (line : Option Nat) : (unknownFace d e t line).map withoutLine = unknownFace d e t none := by
  rw [unknownFace, unknownFace]
  split
  · split <;> rfl
  · rfl

/-- What is found of the faces of an end, apart from the line, if its connection is kept. -/
theorem faces_endIssues {d : Diagram}
    (hids : (d.connections.map ConnectionDeclaration.id).Nodup) {e : ConnectionDeclaration}
    (he : e ∈ d.connections) (t : Endpoint) (missing : IssueCode)
    (hmissing : missing ≠ .unknownFace)
    (ht : isKept (Validation.names d) e = true → t.node ∈ Validation.names d) :
    ((Issue.only .unknownFace (Validation.endIssues d e t missing)).filter
        (concernsKept d)).map withoutLine =
      if isKept (Validation.names d) e then unknownFace d e t none else [] := by
  rw [Validation.endIssues]
  by_cases hkept : isKept (Validation.names d) e = true
  · have hmem : e ∈ kept d := List.mem_filter.mpr ⟨he, hkept⟩
    have hall : (unknownFace d e t (some e.line)).filter (concernsKept d) =
        unknownFace d e t (some e.line) := by
      rw [List.filter_eq_self]
      intro i hi
      rw [concernsKept, List.any_eq_true]
      exact ⟨e, hmem, decide_eq_true (connectionId_of_mem_unknownFace hi)⟩
    rw [if_pos (ht hkept), if_pos hkept, only_unknownFace, if_pos rfl, hall,
      withoutLine_unknownFace]
  · have hnone : (unknownFace d e t (some e.line)).filter (concernsKept d) = [] := by
      rw [List.filter_eq_nil_iff]
      intro i hi hconcerns
      rw [concernsKept, List.any_eq_true] at hconcerns
      obtain ⟨e', he', hid⟩ := hconcerns
      rw [decide_eq_true_iff, connectionId_of_mem_unknownFace hi, Option.some_inj,
        Value.str.injEq] at hid
      obtain ⟨hmem, hkept'⟩ := List.mem_filter.mp he'
      -- Only one connection has the name.
      have hsame : e = e' := List.inj_on_of_nodup_map hids he hmem hid
      exact hkept (hsame ▸ hkept')
    rw [if_neg hkept]
    split
    · rw [only_unknownFace, if_pos rfl, hnone, List.map_nil]
    · rw [Issue.only_ofCode, if_neg hmissing]
      rfl

/-- A kept connection is reported for its faces, a dropped one is not. -/
theorem faces_connectionIssues (d : Diagram) (e : ConnectionDeclaration) :
    Issue.only .unknownFace (connectionIssues d e) =
      if isKept (Validation.names d) e then
        unknownFace d e e.source none ++ unknownFace d e e.target none
      else [] := by
  rw [connectionIssues]
  cases hmissing : firstMissing? (Validation.names d) e with
  | none => simp [(firstMissing_eq_none_iff _ e).mp hmissing, only_unknownFace]
  | some name =>
      have hdropped : ¬ isKept (Validation.names d) e = true := by
        rw [← firstMissing_eq_none_iff, hmissing]
        simp
      simp [hdropped, dropped]

/-! ## The same issues -/

/-- The build reports the cycle that the validation finds. -/
theorem findCycle_of_assembled {id : String} {c : Config} {d : Diagram} {draft : Draft}
    (h : Assembled id c d draft) :
    draft.graph.findCycle = ((Validation.digraph d).findCycle?.getD []).map Value.str := by
  rw [Graph.findCycle, digraph_of_assembled h, Digraph.findCycle_map fun _ _ => Value.str.inj]
  cases (Validation.digraph d).findCycle? <;> rfl

/-- Unreadable placements and cycles are found as they are noticed. -/
theorem placements_of_assemble {id : String} {c : Config} {d : Diagram} {draft : Draft}
    (hids : (d.connections.map ConnectionDeclaration.id).Nodup)
    (h : (assemble id c d).result = .ok draft) {code : IssueCode}
    (hcode : code ∈ [.invalidScale, .invalidPosition, .cycleDetected]) :
    Issue.only code (Validation.diagramIssues d) = Issue.only code (assemble id c d).issues := by
  obtain ⟨hassembled, hnoticed⟩ := assembled_of_ok hids h
  obtain ⟨hduplicate, hface, hsource, htarget, hcolor, hopacity, hdropped⟩ :
      code ≠ .duplicateNodeId ∧ code ≠ .unknownFace ∧ code ≠ .unknownSourceNode ∧
        code ≠ .unknownTargetNode ∧ code ≠ .invalidColor ∧ code ≠ .opacityRange ∧
        code ≠ .connectionDropped := by
    simp only [List.mem_cons, List.not_mem_nil, or_false] at hcode
    rcases hcode with rfl | rfl | rfl <;> simp
  have hends : Issue.only code (d.connections.flatMap fun e =>
      Validation.endIssues d e e.source .unknownSourceNode ++
        Validation.endIssues d e e.target .unknownTargetNode) = [] := by
    apply Issue.only_flatMap_eq_nil
    intro e
    rw [Issue.only_append, Validation.only_endIssues code d e _ _ hface hsource,
      Validation.only_endIssues code d e _ _ hface htarget, List.append_nil]
  have hconnections : Issue.only code (d.connections.flatMap (connectionIssues d)) = [] :=
    Issue.only_flatMap_eq_nil fun e => only_connectionIssues code d e hface hdropped
  rw [hnoticed, findCycle_of_assembled hassembled, Validation.diagramIssues]
  simp only [Issue.only_append, hends, hconnections,
    Validation.only_duplicateIssues code d hduplicate, List.nil_append, Issue.only_flatMap,
    Validation.only_nodeIssues code _ hcolor hopacity]

/-- Unknown faces are found as they are noticed, apart from the line. -/
theorem faces_of_assemble {id : String} {c : Config} {d : Diagram} {draft : Draft}
    (hids : (d.connections.map ConnectionDeclaration.id).Nodup)
    (h : (assemble id c d).result = .ok draft) :
    ((Issue.only .unknownFace (Validation.diagramIssues d)).filter
        (concernsKept d)).map withoutLine =
      (Issue.only .unknownFace (assemble id c d).issues).map withoutLine := by
  have hnodes : Issue.only .unknownFace (d.nodes.flatMap Validation.nodeIssues) = [] :=
    Issue.only_flatMap_eq_nil fun n => by
      rw [Validation.only_nodeIssues _ n (by simp) (by simp),
        only_unreadablePlacement _ n (by simp) (by simp)]
  have hplacement : Issue.only .unknownFace (d.nodes.flatMap unreadablePlacement) = [] :=
    Issue.only_flatMap_eq_nil fun n => only_unreadablePlacement _ n (by simp) (by simp)
  rw [(assembled_of_ok hids h).2, Validation.diagramIssues]
  simp only [Issue.only_append, hnodes, hplacement, only_cycleIssues,
    Validation.only_duplicateIssues .unknownFace d (by simp), reduceCtorEq, if_false,
    List.nil_append, List.append_nil, Issue.only_flatMap, List.filter_flatMap, List.map_flatMap]
  apply List.flatMap_congr
  intro e he
  rw [List.filter_append, List.map_append, faces_connectionIssues,
    faces_endIssues hids he _ _ (by simp) fun hkept => ((isKept_iff _ e).mp hkept).1,
    faces_endIssues hids he _ _ (by simp) fun hkept => ((isKept_iff _ e).mp hkept).2]
  split
  · rw [List.map_append, withoutLine_unknownFace, withoutLine_unknownFace]
  · rfl

/-- A validation finds those issues of a parsed diagram that the build copes with: the same
unreadable scales and positions, the same unknown faces of connections between declared nodes, and
the same cycle. -/
theorem prediction_of_run {source : Value} {d : Diagram}
    (hd : (Diagram.parse source).result = .ok d) {id : String} {c : Config} {g : Graph}
    (hg : (run id c d).result = .ok g) :
    ∃ found, (Validation.issues d).result = .ok found ∧
      Issue.only .invalidScale found = Issue.only .invalidScale (run id c d).issues ∧
      Issue.only .invalidPosition found = Issue.only .invalidPosition (run id c d).issues ∧
      ((Issue.only .unknownFace found).filter (concernsKept d)).map withoutLine =
        (Issue.only .unknownFace (run id c d).issues).map withoutLine ∧
      Issue.only .cycleDetected found = Issue.only .cycleDetected (run id c d).issues := by
  obtain ⟨draft, hassemble, -, hissues⟩ := run_of_ok hg
  have hids := Diagram.nodup_connections hd
  have hfound := Validation.issues_of_inRange (inRange_of_assemble hassemble)
  rw [hissues]
  exact ⟨Validation.diagramIssues d, hfound, placements_of_assemble hids hassemble (by simp),
    placements_of_assemble hids hassemble (by simp), faces_of_assemble hids hassemble,
    placements_of_assemble hids hassemble (by simp)⟩

/-- A scale that cannot be read, a face that a node does not have, and a loop. -/
theorem prediction_of_run_loop :
    let text := "A[Function: f] \x7bscale: high\x7d\nA@lid --> A"
    let d : Diagram :=
      { nodes := [{ id := "A", category := .function, name := "f", delimiter := .square
                    properties := ⟨[("scale", .str "high")]⟩, line := 1 }]
        connections := [{ id := "conn_0", category := .dataFlow, source := ⟨"A", some "lid"⟩
                          target := ⟨"A", none⟩, label := none, line := 2 }] }
    (Diagram.parse (.str text)).result = .ok d ∧ (∃ g, (run "g" {} d).result = .ok g) ∧
      ∀ code ∈ [IssueCode.invalidScale, .unknownFace, .cycleDetected],
        (Issue.only code (run "g" {} d).issues).length = 1 := by
  intro text d
  have hlines : SourceLine.ofText text.toList =
      [⟨1, "A[Function: f] \x7bscale: high\x7d".toList⟩, ⟨2, "A@lid --> A".toList⟩] := by decide
  have hd : (Diagram.parse (.str text)).result = .ok d := by
    rw [Diagram.parse_of_no_block hlines (by decide)]
    rfl
  obtain ⟨g, hg⟩ := exists_of_run "g" (c := {}) (x := 2.0) rfl (d := d) rfl
  obtain ⟨found, hfound, hscale, -, hface, hcycle⟩ := prediction_of_run hd hg
  obtain rfl := Validation.found_of_issues hfound
  refine ⟨hd, ⟨g, hg⟩, ?_⟩
  simp only [List.forall_mem_cons, List.not_mem_nil, false_implies, implies_true, and_true]
  refine ⟨?_, ?_, ?_⟩
  · rw [← hscale]
    decide
  · have hlength := congrArg List.length hface
    rw [List.length_map, List.length_map] at hlength
    rw [← hlength]
    decide
  · rw [← hcycle]
    decide

end Build

end SpatialDiagram
