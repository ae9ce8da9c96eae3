import SpatialDiagram.Proofs.Building.Overflow
import SpatialDiagram.Proofs.Notation.WrittenOpacity
import SpatialDiagram.Proofs.Validation.Findings

/-!
# When a source gets a verdict

A source that cannot be parsed is invalid for that one reason. The verdict on
any other source lists what its checks find, but for one case: the checks end
without a verdict on an integer beyond all floating-point numbers.
-/

namespace SpatialDiagram

open Notation

namespace Validation

/-! ## How checks fail -/

theorem eq_tooLarge_of_isOpacity {v : Value} {f : Failure} (h : isOpacity v = .error f) :
    f = .tooLarge := by
  rw [isOpacity] at h
  split at h
  · cases h
  · exact (Except.error.inj h).symm
  · cases h

/-- The checks of a node fail only for the size of a number. -/
theorem eq_tooLarge_of_checkProperties {n : NodeDeclaration} {f : Failure}
    (h : (checkProperties n).failure? = some f) : f = .tooLarge := by
  have hcheck {name : String} {code : IssueCode} {passes : Value → Except Failure Bool}
      (hpasses : ∀ v, passes v = .error f → f = .tooLarge)
      (hfail : (checkProperty n name code passes).failure? = some f) : f = .tooLarge := by
    rw [failure_checkProperty_eq, Option.bind_eq_some_iff] at hfail
    obtain ⟨v, -, hv⟩ := hfail
    exact hpasses v ((Trace.failure_eq_some_iff _ f).mp hv)
  simp only [checkProperties, Trace.failure_seq, Option.or_eq_some_iff] at h
  rcases h with hcolor | ⟨-, hopacity | ⟨-, hscale | ⟨-, hposition⟩⟩⟩
  · exact hcheck (fun v hv => by cases hv) hcolor
  · exact hcheck (fun v hv => eq_tooLarge_of_isOpacity hv) hopacity
  · refine hcheck (fun v hv => ?_) hscale
    exact ((Placement.scale_eq_error_iff v f).mp ((map_eq_error_iff _ _ f).mp hv)).2
  · refine hcheck (fun v hv => ?_) hposition
    exact ((Placement.position_eq_error_iff v f).mp ((map_eq_error_iff _ _ f).mp hv)).2

/-- A validation of a diagram ends in what its checks find, unless a node holds an integer beyond
all floating-point numbers. -/
theorem issues_cases (d : Diagram) :
    (∀ n ∈ d.nodes, ¬ n.Overflows) ∧ (issues d).result = .ok (diagramIssues d) ∨
      (∃ n ∈ d.nodes, n.Overflows) ∧ (issues d).result = .error .tooLarge := by
  by_cases hrange : ∀ n ∈ d.nodes, n.InRange
  · exact .inl ⟨fun n hn => n.inRange_iff.mp (hrange n hn), issues_of_inRange hrange⟩
  · right
    constructor
    · simpa [NodeDeclaration.inRange_iff] using hrange
    · cases h : (issues d).result with
      | ok found => exact absurd (inRange_of_issues h) hrange
      | error f =>
          have hfailure := ((issues d).failure_eq_some_iff f).mpr h
          rw [failure_issues] at hfailure
          obtain ⟨n, -, hn⟩ := List.exists_of_findSome?_eq_some hfailure
          rw [eq_tooLarge_of_checkProperties hn]

end Validation

theorem overflows_opacityNode_iff (v : Value) :
    (opacityNode v).Overflows ↔ ∃ k, v = .int k ∧ Number.IsTooLarge k := by
  simp [NodeDeclaration.Overflows, NodeDeclaration.PlacementOverflows, opacityNode, Table.get?,
    Keyed.find?]

theorem overflows_nines_iff (n : Nat) :
    (opacityNode (.int ((10 ^ n - 1 : Nat) : Int))).Overflows ↔ Number.floatLimit ≤ 10 ^ n - 1 := by
  rw [overflows_opacityNode_iff]
  constructor
  · rintro ⟨k, hk, hlarge⟩
    obtain rfl := Value.int.inj hk
    exact hlarge
  · exact fun hlarge => ⟨_, rfl, hlarge⟩

namespace Session

/-- A source that cannot be parsed is invalid for that reason alone. -/
theorem validate_of_no_parse {source : Value} {f : Failure}
    (h : (Diagram.parse source).result = .error f) :
    (validate source).result = .ok { errors := [failureText f], warnings := [] } := by
  rw [validate]
  simp only [h]
  rfl

/-- An opacity of nines is validated up to the limit of floats. -/
theorem result_validate_nines {n : Nat} (hpos : 0 < n) (hread : n ≤ Json.digitLimit) :
    (validate (.str (opacitySource (nines n)))).result =
      if Number.floatLimit ≤ 10 ^ n - 1 then .error .tooLarge
      else .ok (.ofIssues (Validation.diagramIssues
        { nodes := [opacityNode (.int ((10 ^ n - 1 : Nat) : Int))] })) := by
  have hd := (result_parse_nines hpos).trans (if_neg (Nat.not_lt.mpr hread))
  have hover := overflows_nines_iff n
  rw [validate_of_parse hd]
  rcases Validation.issues_cases { nodes := [opacityNode (.int ((10 ^ n - 1 : Nat) : Int))] } with
    ⟨hnone, hissues⟩ | ⟨hsome, hissues⟩
  · rw [hissues, if_neg (mt hover.mpr (hnone _ List.mem_cons_self))]
    rfl
  · rw [hissues, if_pos (hover.mp (by simpa using hsome))]
    rfl

/-- A source that cannot be parsed gets the text of its failure as the only error. Any other source
gets its errors and its warnings in the order in which the checks find them, exactly if no opacity,
scale or position holds an integer beyond all floating-point numbers; else there is no verdict. -/
theorem validate_ok_iff (source : Value) :
    (∀ f, (Diagram.parse source).result = .error f →
      (validate source).result = .ok { errors := [failureText f], warnings := [] }) ∧
    ∀ d, (Diagram.parse source).result = .ok d →
      ((∃ v, (validate source).result = .ok v) ↔ ∀ n ∈ d.nodes, ¬ n.Overflows) ∧
      (∀ v, (validate source).result = .ok v →
        ∃ found, (Validation.issues d).result = .ok found ∧ found = Validation.diagramIssues d ∧
          v.errors = (found.filter fun i => i.level = .error).map Issue.message ∧
          v.warnings = (found.filter fun i => i.level = .warning).map Issue.message) ∧
      ∀ f, (validate source).result = .error f → f = .tooLarge := by
  refine ⟨fun f hf => validate_of_no_parse hf, fun d hd => ?_⟩
  rw [validate_of_parse hd]
  rcases Validation.issues_cases d with ⟨hnone, hissues⟩ | ⟨⟨n, hn, hover⟩, hissues⟩
  · rw [hissues]
    refine ⟨iff_of_true ⟨_, rfl⟩ hnone, fun v hv => ?_, fun f hf => by cases hf⟩
    obtain rfl := Except.ok.inj hv
    exact ⟨_, rfl, rfl, rfl, rfl⟩
  · rw [hissues]
    refine ⟨iff_of_false ?_ fun hall => hall n hn hover, ?_, ?_⟩
    · rintro ⟨v, hv⟩
      cases hv
    · intro v hv
      cases hv
    · exact fun f hf => (Except.error.inj hf).symm

/-- An opacity of 309 nines can be parsed, but there is no verdict on it. -/
theorem validate_ok_iff_nines :
    let d : Diagram := { nodes := [opacityNode (.int ((10 ^ 309 - 1 : Nat) : Int))] }
    (Diagram.parse (.str (opacitySource (nines 309)))).result = .ok d ∧
      (validate (.str (opacitySource (nines 309)))).result = .error .tooLarge := by
  intro d
  have hd : (Diagram.parse (.str (opacitySource (nines 309)))).result = .ok d :=
    (result_parse_nines (by decide)).trans (if_neg (by decide))
  have hover : (opacityNode (.int ((10 ^ 309 - 1 : Nat) : Int))).Overflows :=
    (overflows_nines_iff 309).mpr (by decide +kernel)
  refine ⟨hd, ?_⟩
  obtain ⟨hiff, -, hfail⟩ := (validate_ok_iff _).2 d hd
  cases h : (validate (.str (opacitySource (nines 309)))).result with
  | ok v => exact absurd hover (hiff.mp ⟨v, h⟩ _ List.mem_cons_self)
  | error f => exact congrArg Except.error (hfail f h)

/-- One nine less gives an opacity that gets a verdict. -/
theorem huge_opacity_has_no_verdict :
    (∃ v, (validate (.str (opacitySource (nines 308)))).result = .ok v) ∧
      (validate (.str (opacitySource (nines 309)))).result = .error .tooLarge :=
  ⟨⟨_, (result_validate_nines (by decide) (by decide)).trans (if_neg (by decide +kernel))⟩,
    (result_validate_nines (by decide) (by decide)).trans (if_pos (by decide +kernel))⟩

end Session

end SpatialDiagram
