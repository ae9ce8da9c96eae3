import SpatialDiagram.Proofs.Building.Rejection
import SpatialDiagram.Proofs.Notation.Reference
import SpatialDiagram.Session

/-!
# Builds of valid diagrams

A diagram that passes its check can be built but for one property: an opacity
that spells no number is a warning to the check and ends the build. Scales and
positions that cannot be read are warnings, too, and the build copes with them.
-/

namespace SpatialDiagram

open Notation

/-! ## What a passed check says about properties -/

/-- No property of a node that is read as a number holds an integer beyond all floating-point
numbers. -/
structure Notation.NodeDeclaration.InRange (n : NodeDeclaration) : Prop where
  opacity : ∀ v, n.properties.get? "opacity" = some v → v.asFloat ≠ .error .tooLarge
  scale : ∀ v, n.properties.get? "scale" = some v → ∃ s, Placement.scale? v = .ok s
  position : ∀ v, n.properties.get? "position" = some v → ∃ p, Placement.position? v = .ok p

namespace Validation

/-- A check that returns has read the property, where it is given. -/
theorem failure_checkProperty {n : NodeDeclaration} {name : String} {code : IssueCode}
    {passes : Value → Except Failure Bool}
    (h : (checkProperty n name code passes).failure? = none) {v : Value}
    (hv : n.properties.get? name = some v) : ∃ b, passes v = .ok b := by
  rw [checkProperty, hv, Trace.failure_eq_none_iff] at h
  obtain ⟨_, h⟩ := h
  cases hp : passes v with
  | ok b => exact ⟨b, rfl⟩
  | error f =>
      simp only [Trace.result_bind, Trace.result_ofResult, hp] at h
      cases h

/-- A declaration whose checks return is in range. -/
theorem inRange_of_checkProperties {n : NodeDeclaration}
    (h : (checkProperties n).failure? = none) : n.InRange := by
  simp only [checkProperties, Trace.failure_seq, Option.or_eq_none_iff] at h
  obtain ⟨-, hopacity, hscale, hposition⟩ := h
  constructor
  · intro v hv hlarge
    obtain ⟨b, hb⟩ := failure_checkProperty hopacity hv
    rw [isOpacity, hlarge] at hb
    cases hb
  · intro v hv
    obtain ⟨b, hb⟩ := failure_checkProperty hscale hv
    exact exists_of_map_ok hb
  · intro v hv
    obtain ⟨b, hb⟩ := failure_checkProperty hposition hv
    exact exists_of_map_ok hb

theorem inRange_of_issues {d : Diagram} {found : List Issue}
    (h : (issues d).result = .ok found) : ∀ n ∈ d.nodes, n.InRange := by
  intro n hn
  have hchecks : (checks d).failure? = none := by
    have hf := Trace.failure_eq_none_of_result h
    rw [issues, Trace.failure_bind_of_forall (e := none) _ fun _ => by simp] at hf
    simpa using hf
  simp only [checks, Trace.failure_seq, Option.or_eq_none_iff, Trace.failure_forM,
    List.findSome?_eq_none_iff] at hchecks
  exact inRange_of_checkProperties (hchecks.2.2.1 n hn)

end Validation

/-! ## What can still end the build -/

namespace Build

/-- The opacity of a node that spells no number. -/
def unreadable? (n : NodeDeclaration) : Option Diagnosis :=
  (n.properties.get? "opacity").bind fun v =>
    match v.asFloat with
    | .ok _ => none
    | .error _ => some (.coercion "opacity" v "Opacity must be a number." n.id)

/-- An opacity is not complained of exactly if it is read where it is given. -/
theorem unreadable_eq_none_iff (n : NodeDeclaration) :
    unreadable? n = none ↔
      ∀ v, n.properties.get? "opacity" = some v → ∃ x, v.asFloat = .ok x := by
  rw [unreadable?]
  cases n.properties.get? "opacity" with
  | none => simp
  | some v => cases h : v.asFloat <;> simp [h]

theorem placementFailure_eq_none_iff (n : NodeDeclaration) (name : String)
    (read : Value → Except Failure (Option (Vec Float))) :
    placementFailure? n name read = none ↔
      ∀ v, n.properties.get? name = some v → ∃ p, read v = .ok p := by
  rw [placementFailure?, Option.bind_eq_none_iff]
  exact forall₂_congr fun v _ => Trace.failure_eq_none_iff (Trace.ofResult (read v))

/-- In range, an opacity stops the build for being no number only. -/
theorem opacityFailure_of_inRange {n : NodeDeclaration} (h : n.InRange) :
    opacityFailure? n = (unreadable? n).map Failure.diagnosed := by
  rw [opacityFailure?, unreadable?]
  cases hv : n.properties.get? "opacity" with
  | none => rfl
  | some v =>
      have hrange := h.opacity v hv
      cases hx : v.asFloat with
      | ok x => simp [hx]
      | error f =>
          cases f with
          | tooLarge => exact absurd hx hrange
          | _ => simp [hx]

/-- In range, a declaration is rejected for its opacity only. -/
theorem rejection_of_inRange {n : NodeDeclaration} (h : n.InRange) :
    rejection? n = (unreadable? n).map Failure.diagnosed := by
  rw [rejection?, opacityFailure_of_inRange h,
    (placementFailure_eq_none_iff n "scale" _).mpr h.scale,
    (placementFailure_eq_none_iff n "position" _).mpr h.position, Option.or_none, Option.or_none]

/-- In range, a build fails with the report of the first opacity that is no number. -/
theorem failure_run_of_inRange (id : String) {c : Config} {x : Float} (hx : c.spacing = .float x)
    {d : Diagram} (h : ∀ n ∈ d.nodes, n.InRange) :
    (run id c d).failure? =
      (d.nodes.findSome? unreadable?).map fun e => .build e.report.render := by
  have hnodes : d.nodes.findSome? rejection? =
      (d.nodes.findSome? unreadable?).map Failure.diagnosed := by
    rw [List.map_findSome?]
    exact findSome_congr fun n hn => rejection_of_inRange (h n hn)
  calc (run id c d).failure?
      _ = (d.nodes.findSome? rejection?).map fun f => .build (reportOf f) := failure_run id hx d
      _ = ((d.nodes.findSome? unreadable?).map Failure.diagnosed).map
            fun f => .build (reportOf f) := by rw [hnodes]
      _ = (d.nodes.findSome? unreadable?).map fun e => .build e.report.render := by
            rw [Option.map_map]
            rfl

end Build

/-! ## Sessions -/

/-- A source of one line states what that line says. -/
theorem Notation.Diagram.parse_line {text : String} {l : List Char}
    (h : SourceLine.ofText text.toList = [⟨1, l⟩]) :
    (Diagram.parse (.str text)).result =
      (Diagram.declare {} ⟨⟨1, l⟩, classify l, none⟩).result := by
  have hone : statements [⟨1, l⟩] = [⟨⟨1, l⟩, classify l, none⟩] := by rw [statements]
  rw [Diagram.result_parse, h, hone, List.foldlM_cons, Trace.result_bind]
  cases (Diagram.declare {} ⟨⟨1, l⟩, classify l, none⟩).result <;> rfl

namespace Session

/-- The verdict on a text that parses is the one on its diagram. -/
theorem validate_of_parse {text : Value} {d : Diagram} (hd : (Diagram.parse text).result = .ok d) :
    (validate text).result = (Validation.issues d).result.map Verdict.ofIssues := by
  simp only [validate, hd, Trace.result_bind, Trace.result_emit]
  cases (Validation.issues d).result <;> rfl

/-- A source that was found valid states a diagram that passed every check. -/
theorem parse_of_valid {text : Value} {v : Verdict} (hv : (validate text).result = .ok v)
    (hvalid : v.isValid = true) :
    ∃ d, (Diagram.parse text).result = .ok d ∧ ∀ n ∈ d.nodes, n.InRange := by
  cases hp : (Diagram.parse text).result with
  | error f =>
      rw [validate] at hv
      simp only [hp] at hv
      obtain rfl := Except.ok.inj hv
      simp [Verdict.isValid] at hvalid
  | ok d =>
      rw [validate_of_parse hp] at hv
      refine ⟨d, rfl, ?_⟩
      cases hi : (Validation.issues d).result with
      | ok found => exact Validation.inRange_of_issues hi
      | error f => rw [hi] at hv; cases hv

theorem failure_generate (s : Session) (id : String) {text : Value} {d : Diagram}
    (hd : (Diagram.parse text).result = .ok d) :
    (s.generate id text false).trace.failure? = (Build.run id s.config d).failure? := by
  have hparsed : (diagramOf text false).result = .ok d := by
    rw [diagramOf, Trace.result_bind, hd]
    rfl
  rw [generate]
  simp only [hparsed, Builder.build, s.builds]
  rfl

/-- A valid source can be built exactly if every opacity in it spells a number; otherwise the build
ends with a report on the first one that does not. -/
theorem generate_ok_iff_of_valid {raw : Value} {source : Option String} {s : Session}
    (hc : (Config.load raw source).result = .ok s.config) {text : Value} {v : Verdict}
    (hv : (validate text).result = .ok v) (hvalid : v.isValid = true) (id : String) :
    ∃ d, (Diagram.parse text).result = .ok d ∧
      ((∃ g, (s.generate id text false).trace.result = .ok g) ↔
        ∀ n ∈ d.nodes, ∀ o, n.properties.get? "opacity" = some o → ∃ x, o.asFloat = .ok x) ∧
      ∀ f, (s.generate id text false).trace.result = .error f ↔
        ∃ e, d.nodes.findSome? Build.unreadable? = some e ∧ f = .build e.report.render := by
  obtain ⟨d, hd, hrange⟩ := parse_of_valid hv hvalid
  obtain ⟨x, hx⟩ := Config.spacing_of_load hc
  have hfailure :=
    calc (s.generate id text false).trace.failure?
      _ = (Build.run id s.config d).failure? := failure_generate s id hd
      _ = (d.nodes.findSome? Build.unreadable?).map fun e => .build e.report.render :=
            Build.failure_run_of_inRange id hx hrange
  refine ⟨d, hd, ?_, fun f => ?_⟩
  · rw [← Trace.failure_eq_none_iff, hfailure, Option.map_eq_none_iff, List.findSome?_eq_none_iff]
    exact forall₂_congr fun n _ => Build.unreadable_eq_none_iff n
  · rw [← Trace.failure_eq_some_iff, hfailure, Option.map_eq_some_iff]
    exact exists_congr fun e => and_congr_right fun _ => eq_comm

/-- An unreadable scale is a warning, too, but the build copes with it. -/
theorem generate_ok_of_unreadable_scale :
    let text : Value := .str "A[Function: f] \x7bscale: high\x7d"
    let s : Session := {}
    ((Config.load .null none).result = .ok s.config ∧
      ∃ v, (validate text).result = .ok v ∧ v.isValid = true ∧ v.warnings ≠ []) ∧
      ∃ g, (s.generate "g" text false).trace.result = .ok g := by
  intro text s
  have hd : (Diagram.parse text).result = .ok
      { nodes := [{ id := "A", category := .function, name := "f", delimiter := .square
                    properties := ⟨[("scale", .str "high")]⟩, line := 1 }] } := by
    rw [Diagram.parse_line (l := "A[Function: f] \x7bscale: high\x7d".toList) (by decide)]
    rfl
  have hc : (Config.load .null none).result = .ok s.config := rfl
  have hv := validate_of_parse hd
  obtain ⟨d, hd', hiff, -⟩ := generate_ok_iff_of_valid hc hv rfl "g"
  refine ⟨⟨hc, _, hv, rfl, by decide⟩, hiff.mpr ?_⟩
  obtain rfl := Except.ok.inj (hd.symm.trans hd')
  simp [Table.get?, Keyed.find?]

/-- The check only warns of an opacity that spells no number, but the build ends on it. -/
theorem valid_not_buildable :
    let text : Value := .str "A[Function: f] \x7bopacity: high\x7d"
    let s : Session := {}
    (Config.load .null none).result = .ok s.config ∧
      (∃ v, (validate text).result = .ok v ∧ v.isValid = true) ∧
      ¬ ∃ g, (s.generate "g" text false).trace.result = .ok g := by
  intro text s
  let d : Diagram :=
    { nodes := [{ id := "A", category := .function, name := "f", delimiter := .square
                  properties := ⟨[("opacity", .str "high")]⟩, line := 1 }] }
  have hd : (Diagram.parse text).result = .ok d := by
    rw [Diagram.parse_line (l := "A[Function: f] \x7bopacity: high\x7d".toList) (by decide)]
    rfl
  have hbuild : (Build.run "g" s.config d).failure?.isSome = true := rfl
  refine ⟨rfl, ⟨_, validate_of_parse hd, rfl⟩, ?_⟩
  rw [← Trace.failure_eq_none_iff, failure_generate s "g" hd]
  exact Option.isSome_iff_ne_none.mp hbuild

end Session

end SpatialDiagram
