import SpatialDiagram.Proofs.Building.ValidDiagrams
import SpatialDiagram.Proofs.Scene.Rereading

/-!
# Integers beyond all floating-point numbers

A property that holds a number fails to be read, rather than being unreadable,
on one thing only: an integer beyond all floating-point numbers, given as it is
or, for a placement, among the numbers of a list.
-/

namespace SpatialDiagram

open Notation

/-! ## Numbers -/

namespace Number

/-- An integer that no finite number is nearest to. -/
def IsTooLarge (k : Int) : Prop := floatLimit ≤ k.natAbs

/-- An integer is too large or has a float, and never both. -/
theorem intToFloat_cases (k : Int) :
    IsTooLarge k ∧ intToFloat? k = none ∨ ¬ IsTooLarge k ∧ ∃ x, intToFloat? k = some x := by
  by_cases hlarge : IsTooLarge k
  · exact .inl ⟨hlarge, (intToFloat_eq_none_iff k).mpr hlarge⟩
  · refine .inr ⟨hlarge, Option.ne_none_iff_exists'.mp fun hnone => hlarge ?_⟩
    exact (intToFloat_eq_none_iff k).mp hnone

theorem ofValue_eq_some_iff (v : Value) (n : Number) : ofValue? v = some n ↔ v = n.toValue := by
  constructor
  · intro h
    cases v with
    | int k => exact congrArg toValue (Option.some.inj h)
    | float x => exact congrArg toValue (Option.some.inj h)
    | _ => cases h
  · rintro rfl
    exact ofValue_toValue n

theorem mapM_ofValue_eq_some_iff (items : List Value) (ns : List Number) :
    items.mapM ofValue? = some ns ↔ items = ns.map toValue := by
  induction items generalizing ns with
  | nil => cases ns <;> simp
  | cons v items ih =>
      rw [List.mapM_cons]
      simp only [bind, Option.bind_eq_some_iff, ofValue_eq_some_iff, ih]
      constructor
      · rintro ⟨n, rfl, ns', rfl, h⟩
        exact congrArg (List.map toValue) (Option.some.inj h)
      · intro h
        obtain ⟨n, ns', rfl, rfl, rfl⟩ := List.map_eq_cons_iff.mp h.symm
        exact ⟨n, rfl, ns', rfl, rfl⟩

end Number

/-! ## Reading numbers -/

namespace Placement

/-- A number has no float only if it is an integer that is too large. -/
theorem toFloat_eq_error_iff (n : Number) (f : Failure) :
    toFloat n = .error f ↔ (∃ k, n = .int k ∧ Number.IsTooLarge k) ∧ f = .tooLarge := by
  cases n with
  | float x => simp [toFloat, Number.toFloat?]
  | int k =>
      rw [toFloat, Number.toFloat?]
      rcases Number.intToFloat_cases k with ⟨hlarge, h⟩ | ⟨hlarge, x, h⟩ <;>
        simp [h, hlarge, eq_comm]

end Placement

namespace Value

theorem asFloat_str (s : String) :
    (str s).asFloat = match Decimal.readFloat? s.toList with
      | some x => .ok x
      | none => .error (.notNumeric s) := by
  unfold asFloat
  split
  case h_4 t ht =>
    obtain rfl := str.inj ht
    cases Decimal.readFloat? s.toList <;> rfl
  case h_5 _ _ _ hstr => exact (hstr s rfl).elim
  all_goals contradiction

theorem asFloat_number (n : Number) : n.toValue.asFloat = Placement.toFloat n := asFloat_toValue n

/-- Only an integer can be too large for a float; a text reads as infinity there. -/
theorem asFloat_eq_tooLarge_iff (v : Value) :
    v.asFloat = .error .tooLarge ↔ ∃ k, v = .int k ∧ Number.IsTooLarge k := by
  cases v with
  | int k =>
      change (Number.int k).toValue.asFloat = _ ↔ _
      simp [asFloat_number, Placement.toFloat_eq_error_iff]
  | str s =>
      rw [asFloat_str]
      cases Decimal.readFloat? s.toList <;> simp
  | _ =>
      constructor
      · intro h
        cases h
      · rintro ⟨k, hk, -⟩
        cases hk

end Value

namespace Placement

theorem mapM_toFloat_eq_error_iff (ns : List Number) (f : Failure) :
    ns.mapM toFloat = .error f ↔ (∃ k, .int k ∈ ns ∧ Number.IsTooLarge k) ∧ f = .tooLarge := by
  induction ns with
  | nil => simp [pure, Except.pure]
  | cons n ns ih =>
      have hn := toFloat_eq_error_iff n
      rw [List.mapM_cons]
      cases hx : toFloat n with
      | error e =>
          obtain ⟨⟨k, rfl, hlarge⟩, rfl⟩ := (hn e).mp hx
          have hmem : ∃ j, .int j ∈ Number.int k :: ns ∧ Number.IsTooLarge j :=
            ⟨k, List.mem_cons_self, hlarge⟩
          rw [and_iff_right hmem]
          simp [bind, Except.bind, eq_comm]
      | ok x =>
          have hfirst : ¬ ∃ k, n = .int k ∧ Number.IsTooLarge k := fun hlarge => by
            have herror := (hn .tooLarge).mpr ⟨hlarge, rfl⟩
            rw [hx] at herror
            cases herror
          have hmem : (∃ k, .int k ∈ n :: ns ∧ Number.IsTooLarge k) ↔
              ∃ k, .int k ∈ ns ∧ Number.IsTooLarge k := by
            refine exists_congr fun k => and_congr_left fun hlarge => ?_
            rw [List.mem_cons, or_iff_right]
            exact fun hk => hfirst ⟨k, hk.symm, hlarge⟩
          rw [hmem, ← ih]
          cases ns.mapM toFloat <;> simp [bind, Except.bind, pure, Except.pure]

/-- An integer beyond all floating-point numbers, or a list of numbers alone that has one. -/
def Overflows (v : Value) : Prop :=
  ∃ k, Number.IsTooLarge k ∧
    (v = .int k ∨ ∃ ns : List Number, v = .list (ns.map Number.toValue) ∧ .int k ∈ ns)

/-- The components of a value fail exactly if one of its numbers overflows. -/
theorem components_eq_error_iff (v : Value) (f : Failure) :
    components? v = .error f ↔ Overflows v ∧ f = .tooLarge := by
  cases v with
  | list items =>
      rw [components?]
      cases hns : items.mapM Number.ofValue? with
      | none =>
          have hnumbers (ns : List Number) : items ≠ ns.map Number.toValue := fun h => by
            rw [(Number.mapM_ofValue_eq_some_iff items ns).mpr h] at hns
            cases hns
          simp [Overflows, hnumbers]
      | some ns =>
          have hitems (ns' : List Number) : items = ns'.map Number.toValue ↔ ns = ns' := by
            rw [← Number.mapM_ofValue_eq_some_iff, hns, Option.some.injEq]
          have hmap := mapM_toFloat_eq_error_iff ns f
          simp only [Overflows, reduceCtorEq, false_or, Value.list.injEq, hitems,
            exists_eq_left', and_comm (a := Number.IsTooLarge _), ← hmap]
          exact map_eq_error_iff _ _ f
  | int k =>
      have hoverflows : Overflows (.int k) ↔ ∃ j, Number.int k = .int j ∧ Number.IsTooLarge j := by
        simp [Overflows]
      rw [hoverflows, ← toFloat_eq_error_iff]
      exact map_eq_error_iff (toFloat (.int k)) (fun x => some [x]) f
  | float x => simp [components?, Number.ofValue?, toFloat, Number.toFloat?, Except.map, Overflows]
  | _ => simp [components?, Number.ofValue?, Overflows]

/-- A scale fails exactly if one of its numbers overflows. -/
theorem scale_eq_error_iff (v : Value) (f : Failure) :
    scale? v = .error f ↔ Overflows v ∧ f = .tooLarge :=
  (map_eq_error_iff (components? v) _ f).trans (components_eq_error_iff v f)

/-- A position fails exactly if one of its numbers overflows. -/
theorem position_eq_error_iff (v : Value) (f : Failure) :
    position? v = .error f ↔ Overflows v ∧ f = .tooLarge :=
  (map_eq_error_iff (components? v) _ f).trans (components_eq_error_iff v f)

end Placement

/-! ## Nodes -/

/-- The scale or the position of a node holds an integer beyond all floating-point numbers. -/
def Notation.NodeDeclaration.PlacementOverflows (n : NodeDeclaration) : Prop :=
  ∃ name ∈ ["scale", "position"], ∃ v, n.properties.get? name = some v ∧ Placement.Overflows v

/-- The opacity, the scale or the position of a node holds such an integer. -/
def Notation.NodeDeclaration.Overflows (n : NodeDeclaration) : Prop :=
  (∃ k, n.properties.get? "opacity" = some (.int k) ∧ Number.IsTooLarge k) ∨ n.PlacementOverflows

/-- A placement property stops the build exactly if it is given and overflows. -/
theorem Build.placementFailure_eq_some_iff (n : NodeDeclaration) (name : String)
    {read : Value → Except Failure (Option (Vec Float))}
    (hread : ∀ v f, read v = .error f ↔ Placement.Overflows v ∧ f = .tooLarge) (f : Failure) :
    placementFailure? n name read = some f ↔
      (∃ v, n.properties.get? name = some v ∧ Placement.Overflows v) ∧ f = .tooLarge := by
  simp only [placementFailure?, Option.bind_eq_some_iff, Trace.failure_eq_some_iff,
    Trace.result_ofResult, hread]
  constructor
  · rintro ⟨v, hv, hover, rfl⟩
    exact ⟨⟨v, hv, hover⟩, rfl⟩
  · rintro ⟨⟨v, hv, hover⟩, rfl⟩
    exact ⟨v, hv, hover, rfl⟩

/-- A declaration is in range exactly if none of its numbers overflows. -/
theorem Notation.NodeDeclaration.inRange_iff (n : NodeDeclaration) : n.InRange ↔ ¬ n.Overflows := by
  have hplacement (name : String) {read : Value → Except Failure (Option (Vec Float))}
      (hread : ∀ v f, read v = .error f ↔ Placement.Overflows v ∧ f = .tooLarge) :
      (∀ v, n.properties.get? name = some v → ∃ p, read v = .ok p) ↔
        ¬ ∃ v, n.properties.get? name = some v ∧ Placement.Overflows v := by
    rw [← Build.placementFailure_eq_none_iff, Option.eq_none_iff_forall_ne_some]
    simp only [ne_eq, Build.placementFailure_eq_some_iff n name hread, not_and']
    simp
  have hopacity : (∀ v, n.properties.get? "opacity" = some v → v.asFloat ≠ .error .tooLarge) ↔
      ¬ ∃ k, n.properties.get? "opacity" = some (.int k) ∧ Number.IsTooLarge k := by
    simp only [ne_eq, Value.asFloat_eq_tooLarge_iff]
    constructor
    · rintro h ⟨k, hk, hlarge⟩
      exact h _ hk ⟨k, rfl, hlarge⟩
    · rintro h v hv ⟨k, rfl, hlarge⟩
      exact h ⟨k, hv, hlarge⟩
  have hparts : n.InRange ↔ _ ∧ _ ∧ _ :=
    ⟨fun h => ⟨h.opacity, h.scale, h.position⟩, fun h => ⟨h.1, h.2.1, h.2.2⟩⟩
  rw [hparts, hopacity, hplacement "scale" Placement.scale_eq_error_iff,
    hplacement "position" Placement.position_eq_error_iff, Overflows, PlacementOverflows]
  simp

end SpatialDiagram
