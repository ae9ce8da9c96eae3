import SpatialDiagram.Proofs.Building.Overflow
import SpatialDiagram.Proofs.Notation.PropertyValues

/-!
# Which builds fail

A parsed diagram can be built under a loaded configuration unless a declared
node, be it replaced later or not, has an opacity that is no floating-point
number, or a scale or position with an integer beyond all of them. The first
such node in the order of the source decides on the report.
-/

namespace SpatialDiagram

open Notation

/-! ## Values that an opacity cannot have -/

/-- A text that spells no number, or a list. -/
def Value.IsNonNumeric (v : Value) : Prop :=
  (∃ s, v = .str s ∧ Decimal.readFloat? s.toList = none) ∨ ∃ items, v = .list items

/-- Of the values a property can have, the non-numeric ones are those that no number is read from,
other than for their size. -/
theorem Value.isNonNumeric_iff {v : Value} (h : IsRead v) :
    v.IsNonNumeric ↔ ∃ f, v.asFloat = .error f ∧ f ≠ .tooLarge := by
  constructor
  · rintro (⟨s, rfl, hs⟩ | ⟨items, rfl⟩)
    · exact ⟨.notNumeric s, by rw [asFloat_str, hs], by simp⟩
    · exact ⟨.wrongType, rfl, by simp⟩
  · rintro ⟨f, hf, hlarge⟩
    cases h with
    | int k =>
        have hint := (asFloat_number (.int k)).symm.trans hf
        exact absurd ((Placement.toFloat_eq_error_iff _ f).mp hint).2 hlarge
    | float x => cases hf
    | str s =>
        rw [asFloat_str] at hf
        cases hread : Decimal.readFloat? s.toList with
        | some x => rw [hread] at hf; cases hf
        | none => exact .inl ⟨s, rfl, hread⟩
    | list items => exact .inr ⟨items, rfl⟩

/-! ## Nodes that cannot be built -/

namespace Notation.NodeDeclaration

/-- The opacity of a node cannot be taken as a floating-point number, or its scale or position holds
an integer beyond all of these. -/
def IsRejected (n : NodeDeclaration) : Prop :=
  (∃ v f, n.properties.get? "opacity" = some v ∧ v.asFloat = .error f) ∨ n.PlacementOverflows

/-- The declaration gives an opacity, and its value is no number. -/
def HasNonNumericOpacity (n : NodeDeclaration) (v : Value) : Prop :=
  n.properties.get? "opacity" = some v ∧ v.IsNonNumeric

end Notation.NodeDeclaration

namespace Build

/-- The report of a build that stops at the opacity of a declaration. -/
def coercion (n : NodeDeclaration) (v : Value) : Diagnosis :=
  .coercion "opacity" v "Opacity must be a number." n.id

/-- The placement of a node fails exactly for its size, with the one report that says so. -/
theorem placements_eq_some_iff (n : NodeDeclaration) (f : Failure) :
    (placementFailure? n "scale" Placement.scale?).or
        (placementFailure? n "position" Placement.position?) = some f ↔
      n.PlacementOverflows ∧ f = .tooLarge := by
  have hscale := placementFailure_eq_some_iff n "scale" Placement.scale_eq_error_iff
  have hposition := placementFailure_eq_some_iff n "position" Placement.position_eq_error_iff
  have hparts : n.PlacementOverflows ↔
      (∃ v, n.properties.get? "scale" = some v ∧ Placement.Overflows v) ∨
        ∃ v, n.properties.get? "position" = some v ∧ Placement.Overflows v := by
    simp [NodeDeclaration.PlacementOverflows]
  rw [hparts, or_and_right, ← hscale, ← hposition, Option.or_eq_some_iff]
  constructor
  · exact Or.imp_right And.right
  · rintro (hs | hp)
    · exact .inl hs
    · cases hs : placementFailure? n "scale" Placement.scale? with
      | none => exact .inr ⟨rfl, hp⟩
      | some e =>
          rw [((hscale e).mp hs).2, ((hposition f).mp hp).2]
          exact .inl rfl

theorem opacityFailure_eq_none_iff (n : NodeDeclaration) :
    opacityFailure? n = none ↔
      ∀ v, n.properties.get? "opacity" = some v → ∃ x, v.asFloat = .ok x := by
  rw [opacityFailure?]
  cases n.properties.get? "opacity" with
  | none => simp
  | some v =>
      cases h : v.asFloat with
      | ok x => simp [h]
      | error f => cases f <;> simp [h]

/-- An opacity fails because it is no number or because it is too large, and says which. -/
theorem opacityFailure_eq_some_iff {n : NodeDeclaration} (h : AllRead n.properties) (f : Failure) :
    opacityFailure? n = some f ↔
      (∃ v, n.HasNonNumericOpacity v ∧ f = .diagnosed (coercion n v)) ∨
        (∃ v, n.properties.get? "opacity" = some v ∧ v.asFloat = .error .tooLarge) ∧
          f = .tooLarge := by
  rw [opacityFailure?]
  simp only [NodeDeclaration.HasNonNumericOpacity]
  cases hv : n.properties.get? "opacity" with
  | none => simp
  | some v =>
      have hnumeric := Value.isNonNumeric_iff (h _ v hv)
      cases hx : v.asFloat with
      | ok x => simp [hx, hnumeric]
      | error e => cases e <;> simp [hx, hnumeric, coercion, eq_comm]

/-- A node is rejected for a list or a text that spells no number as opacity, and else for an
integer beyond all floating-point numbers. -/
theorem rejection_cases {n : NodeDeclaration} (h : AllRead n.properties) :
    rejection? n = none ∧ ¬ n.IsRejected ∨
      n.IsRejected ∧ ((∃ v, n.HasNonNumericOpacity v ∧
          rejection? n = some (.diagnosed (coercion n v))) ∨
        (∀ v, ¬ n.HasNonNumericOpacity v) ∧ rejection? n = some .tooLarge) := by
  have hnumeric {v : Value} (hv : n.HasNonNumericOpacity v) :
      ∃ f, v.asFloat = .error f ∧ f ≠ .tooLarge :=
    (Value.isNonNumeric_iff (h _ v hv.1)).mp hv.2
  rw [rejection?]
  cases ho : opacityFailure? n with
  | some f =>
      right
      rw [Option.some_or]
      rcases (opacityFailure_eq_some_iff h f).mp ho with ⟨v, hv, rfl⟩ | ⟨⟨v, hv, hlarge⟩, rfl⟩
      · obtain ⟨f, hf, -⟩ := hnumeric hv
        exact ⟨.inl ⟨v, f, hv.1, hf⟩, .inl ⟨v, hv, rfl⟩⟩
      · refine ⟨.inl ⟨v, _, hv, hlarge⟩, .inr ⟨fun v' hv' => ?_, rfl⟩⟩
        obtain rfl := Option.some.inj (hv.symm.trans hv'.1)
        obtain ⟨f, hf, hne⟩ := hnumeric hv'
        exact hne (Except.error.inj (hf.symm.trans hlarge))
  | none =>
      have hok := (opacityFailure_eq_none_iff n).mp ho
      have hno {v : Value} {f : Failure} (hv : n.properties.get? "opacity" = some v) :
          v.asFloat ≠ .error f := fun hf => by
        obtain ⟨x, hx⟩ := hok v hv
        cases hx.symm.trans hf
      rw [Option.none_or]
      cases hp : (placementFailure? n "scale" Placement.scale?).or
          (placementFailure? n "position" Placement.position?) with
      | none =>
          refine .inl ⟨rfl, ?_⟩
          rintro (⟨v, f, hv, hf⟩ | hover)
          · exact hno hv hf
          · rw [(placements_eq_some_iff n .tooLarge).mpr ⟨hover, rfl⟩] at hp
            cases hp
      | some f =>
          obtain ⟨hover, rfl⟩ := (placements_eq_some_iff n f).mp hp
          refine .inr ⟨.inr hover, .inr ⟨fun v hv => ?_, rfl⟩⟩
          obtain ⟨f, hf, -⟩ := hnumeric hv
          exact hno hv.1 hf

/-- Nothing stops the build at a declaration exactly when the declaration is not a rejected one. -/
theorem rejection_eq_none_iff {n : NodeDeclaration} (h : AllRead n.properties) :
    rejection? n = none ↔ ¬ n.IsRejected := by
  rcases rejection_cases h with ⟨hnone, hn⟩ | ⟨hn, ⟨v, -, hsome⟩ | ⟨-, hsome⟩⟩
  · exact iff_of_true hnone hn
  · simp [hsome, hn]
  · simp [hsome, hn]

/-- A build stops at an opacity that is no number or at a number that is too large. -/
theorem cause_of_rejection {n : NodeDeclaration} (h : AllRead n.properties) {f : Failure}
    (hf : rejection? n = some f) : (∃ v, f = .diagnosed (coercion n v)) ∨ f = .tooLarge := by
  rcases rejection_cases h with ⟨hnone, -⟩ | ⟨-, ⟨v, -, hsome⟩ | ⟨-, hsome⟩⟩
  · cases hnone.symm.trans hf
  · exact .inl ⟨v, Option.some.inj (hf.symm.trans hsome)⟩
  · exact .inr (Option.some.inj (hf.symm.trans hsome))

/-! ## Failing builds -/

section

variable {source : Value} {d : Diagram} (hd : (Diagram.parse source).result = .ok d)

include hd

theorem findSome_rejection_eq_none_iff :
    d.nodes.findSome? rejection? = none ↔ ∀ n ∈ d.nodes, ¬ n.IsRejected := by
  rw [List.findSome?_eq_none_iff]
  exact forall₂_congr fun n hn => rejection_eq_none_iff (Diagram.allRead_of_parse hd n hn)

/-- The first rejected declaration decides the report. -/
theorem findSome_rejection_of_first {before after : List NodeDeclaration} {n : NodeDeclaration}
    (hnodes : d.nodes = before ++ n :: after) (hbefore : ∀ m ∈ before, ¬ m.IsRejected)
    {f : Failure} (hn : rejection? n = some f) : d.nodes.findSome? rejection? = some f := by
  refine List.findSome?_eq_some_iff.mpr ⟨before, n, after, hnodes, hn, fun m hm => ?_⟩
  have hmem : m ∈ d.nodes := hnodes ▸ List.mem_append_left _ hm
  exact (rejection_eq_none_iff (Diagram.allRead_of_parse hd m hmem)).mpr (hbefore m hm)

end

/-- A build under a loaded configuration fails exactly if a declared node is rejected, and no scale
or connection is ever the cause. The first of these nodes decides on the report: it names the node
and its opacity if that is a list or a text that spells no number, and else it says that an integer
was beyond all floating-point numbers. -/
theorem run_error_iff {raw : Value} {path : Option String} {c : Config}
    (hc : (Config.load raw path).result = .ok c) {source : Value} {d : Diagram}
    (hd : (Diagram.parse source).result = .ok d) (id : String) :
    ((∃ f, (run id c d).result = .error f) ↔ ∃ n ∈ d.nodes, n.IsRejected) ∧
    ((∃ g, (run id c d).result = .ok g) ↔ ∀ n ∈ d.nodes, ¬ n.IsRejected) ∧
    (∀ f, (run id c d).result = .error f →
      ∃ cause, (graphOf .standard id c d).result = .error cause ∧ f = .build (reportOf cause) ∧
        (∀ scale details, cause ≠ .diagnosed (.transform scale details)) ∧
        ∀ connection missing, cause ≠ .diagnosed (.unknownNodes connection missing)) ∧
    ∀ before n after, d.nodes = before ++ n :: after → (∀ m ∈ before, ¬ m.IsRejected) →
      n.IsRejected →
      (∀ v, n.HasNonNumericOpacity v →
        (run id c d).result = .error (.build (coercion n v).report.render) ∧
          (coercion n v).report.errorType = "Property Coercion Error" ∧
          (coercion n v).report.node = .str n.id) ∧
      ((∀ v, ¬ n.HasNonNumericOpacity v) →
        (run id c d).result = .error (.build (reportOf .tooLarge))) := by
  obtain ⟨x, hx⟩ := Config.spacing_of_load hc
  have hread := Diagram.allRead_of_parse hd
  have hrun := failure_run id hx d
  have hok : (∃ g, (run id c d).result = .ok g) ↔ ∀ n ∈ d.nodes, ¬ n.IsRejected := by
    rw [← Trace.failure_eq_none_iff, hrun, Option.map_eq_none_iff,
      findSome_rejection_eq_none_iff hd]
  have hfirst {before n after} (hnodes : d.nodes = before ++ n :: after)
      (hbefore : ∀ m ∈ before, ¬ m.IsRejected) {f : Failure} (hn : rejection? n = some f) :
      (run id c d).result = .error (.build (reportOf f)) := by
    rw [← Trace.failure_eq_some_iff, hrun, findSome_rejection_of_first hd hnodes hbefore hn]
    rfl
  refine ⟨?_, hok, fun f hf => ?_, fun before n after hnodes hbefore hn => ?_⟩
  · have herror : (∃ f, (run id c d).result = .error f) ↔ ¬ ∃ g, (run id c d).result = .ok g := by
      cases (run id c d).result <;> simp
    rw [herror, hok]
    simp
  · rw [← Trace.failure_eq_some_iff, hrun, Option.map_eq_some_iff] at hf
    obtain ⟨cause, hcause, rfl⟩ := hf
    obtain ⟨n, hn, hrejection⟩ := List.exists_of_findSome?_eq_some hcause
    refine ⟨cause, ?_, rfl, ?_⟩
    · rw [← Trace.failure_eq_some_iff, failure_graphOf id hx, hcause]
    · rcases cause_of_rejection (hread n hn) hrejection with ⟨v, rfl⟩ | rfl
      · simp [coercion]
      · simp
  · have hmem : n ∈ d.nodes := hnodes ▸ List.mem_append_right _ List.mem_cons_self
    rcases rejection_cases (hread n hmem) with ⟨-, hno⟩ | ⟨-, ⟨v, hv, hsome⟩ | ⟨hnumeric, hsome⟩⟩
    · exact absurd hn hno
    · have hresult := hfirst hnodes hbefore hsome
      refine ⟨fun v' hv' => ?_, fun hno => absurd hv (hno v)⟩
      obtain rfl := Option.some.inj (hv.1.symm.trans hv'.1)
      exact ⟨hresult, rfl, rfl⟩
    · exact ⟨fun v hv => absurd hv (hnumeric v), fun _ => hfirst hnodes hbefore hsome⟩

/-- The opacity of a node ends the build although the node is declared once more without it. -/
theorem run_error_iff_replaced :
    let text := "A[Function: f] \x7bopacity: high\x7d\nA[Function: f]"
    let n : NodeDeclaration :=
      { id := "A", category := .function, name := "f", delimiter := .square
        properties := ⟨[("opacity", .str "high")]⟩, line := 1 }
    let d : Diagram := { nodes := [n, { n with properties := .empty, line := 2 }] }
    (Config.load .null none).result = .ok {} ∧ (Diagram.parse (.str text)).result = .ok d ∧
      (run "g" {} d).result = .error (.build (coercion n (.str "high")).report.render) := by
  intro text n d
  have hlines : SourceLine.ofText text.toList =
      [⟨1, "A[Function: f] \x7bopacity: high\x7d".toList⟩, ⟨2, "A[Function: f]".toList⟩] := by
    decide
  have hd : (Diagram.parse (.str text)).result = .ok d := by
    rw [Diagram.parse_of_no_block hlines (by decide)]
    rfl
  have hc : (Config.load .null none).result = .ok {} := rfl
  have hv : n.HasNonNumericOpacity (.str "high") := ⟨rfl, .inl ⟨"high", rfl, by decide⟩⟩
  have hn : n.IsRejected := .inl ⟨_, .notNumeric "high", rfl, rfl⟩
  obtain ⟨-, -, -, hfirst⟩ := run_error_iff hc hd "g"
  have hbefore : ∀ m ∈ ([] : List NodeDeclaration), ¬ m.IsRejected :=
    fun m hm => absurd hm List.not_mem_nil
  exact ⟨hc, hd, ((hfirst [] n _ rfl hbefore hn).1 _ hv).1⟩

end Build

end SpatialDiagram
