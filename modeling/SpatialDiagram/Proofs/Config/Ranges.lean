import SpatialDiagram.Proofs.Config.Settings
import SpatialDiagram.Proofs.Decimal.FloatOrder
import SpatialDiagram.Proofs.Layout.Coverage

/-!
# What accepted documents promise

A document is accepted if it has no complaints and its spacing fits; nothing at
all counts as the document without fields. The settings of the configuration
obey the schema again, the colours cover every category, and a number is in its
range unless the document has a NaN in its place, which no comparison refuses.
-/

namespace SpatialDiagram

/-! ## Numbers in range -/

namespace Number

/-- The number is above zero, which a NaN never is. -/
def IsPositive : Number → Prop
  | int n => 0 < n
  | float x => 0.0 < x

/-- A number from zero to one. -/
def IsFraction : Number → Prop
  | int n => 0 ≤ n ∧ n ≤ 1
  | float x => 0.0 ≤ x ∧ x ≤ 1.0

def IsNaN : Number → Prop
  | int _ => False
  | float x => x.isNaN = true

end Number

namespace Value

def IsNaN (v : Value) : Prop := ∃ x, v = float x ∧ x.isNaN = true

/-- A document has a NaN at the end of a path. -/
def HoldsNaN (v : Value) (path : List String) : Prop := ∃ w, v.reach? path = some w ∧ w.IsNaN

theorem isNaN_toValue (n : Number) : n.toValue.IsNaN ↔ n.IsNaN := by
  cases n <;> simp [IsNaN, Number.toValue, Number.IsNaN]

end Value

namespace NumberRule

open Decimal

/-- What a rule is meant to ensure. -/
def Bounds (n : Number) : NumberRule → Prop
  | positive => n.IsPositive
  | unitInterval => n.IsFraction

/-- A number that obeys its rule is in range or a NaN, of which every comparison is false. -/
theorem complaints_eq_nil_iff (rule : NumberRule) (n : Number) :
    rule.complaints n = [] ↔ rule.Bounds n ∨ n.IsNaN := by
  have hzero : (0.0 : Float).isNaN = false := by decide
  have hone : (1.0 : Float).isNaN = false := by decide
  cases n with
  | int k =>
      cases rule with
      | positive => simp [complaints, isAtMostZero, Bounds, Number.IsPositive, Number.IsNaN]
      | unitInterval =>
          simp [complaints, isBelowZero, isAboveOne, Bounds, Number.IsFraction, Number.IsNaN]
  | float x =>
      cases hx : x.isNaN with
      | true =>
          have hnan : (Number.float x).IsNaN := hx
          have hfalse (y : Float) : ¬ x ≤ y ∧ ¬ x < y ∧ ¬ y < x := by
            refine ⟨fun h => ?_, fun h => ?_, fun h => ?_⟩
            · exact Bool.noConfusion (hx.symm.trans (not_isNaN_of_le h).1)
            · exact Bool.noConfusion (hx.symm.trans (not_isNaN_of_lt h).1)
            · exact Bool.noConfusion (hx.symm.trans (not_isNaN_of_lt h).2)
          cases rule <;> simp [complaints, isAtMostZero, isBelowZero, isAboveOne, hfalse, hnan]
      | false =>
          have hnumber : ¬ (Number.float x).IsNaN := Bool.eq_false_iff.mp hx
          cases rule with
          | positive =>
              simp [complaints, isAtMostZero, Bounds, Number.IsPositive, hnumber,
                not_le_iff_lt hx hzero]
          | unitInterval =>
              simp [complaints, isBelowZero, isAboveOne, Bounds, Number.IsFraction, hnumber,
                not_lt_iff_le hx hzero, not_lt_iff_le hone hx]

/-- A number within bounds is no NaN: every comparison with a NaN is false. -/
theorem not_isNaN_of_bounds {rule : NumberRule} {n : Number} (h : rule.Bounds n) : ¬ n.IsNaN := by
  cases n with
  | int k => exact id
  | float x =>
      have hx : x.isNaN = false := by
        cases rule with
        | positive => exact (not_isNaN_of_lt h).2
        | unitInterval => exact (not_isNaN_of_le h.1).2
      exact Bool.eq_false_iff.mp hx

/-- Of the numbers that obey a rule those in range are the ones that are no NaN. -/
theorem bounds_iff {rule : NumberRule} {n : Number} (h : rule.complaints n = []) :
    rule.Bounds n ↔ ¬ n.IsNaN :=
  ⟨not_isNaN_of_bounds, fun hn => ((complaints_eq_nil_iff rule n).mp h).resolve_right hn⟩

end NumberRule

/-! ## Loaded configurations -/

namespace Config

open Schema

variable {doc raw : Value} {source : Option String} {c : Config}

/-- A configuration in the form that loading gives it: it obeys the schema, has a colour for every
category and a spacing that is a floating-point number. -/
structure IsSound (c : Config) : Prop where
  distinct : c.palette.keys.Nodup
  complete : ∀ k ∈ defaultPalette.keys, k ∈ c.palette.keys
  accepted : ∀ s v, c.setting? s = some v → s.rule.Accepts v
  spacing : ∃ x, c.spacing = .float x

/-- Every default passes the rule of its own setting. -/
theorem accepts_default {s : Setting} {v : Value} (h : ({} : Config).setting? s = some v) :
    s.rule.Accepts v := by
  cases s with
  | color k =>
      obtain ⟨x, hx, rfl⟩ := Option.map_eq_some_iff.mp h
      have hcolors : ∀ e ∈ defaultPalette.entries, (Schema.text .notEmpty).Accepts (.str e.2) := by
        decide
      rw [Table.get_eq_lookup] at hx
      exact hcolors _ ((Keyed.lookup_eq_some_iff_mem (by decide) k x).mp hx)
  | _ =>
      obtain rfl := Option.some.inj h
      decide

/-- A positive integer becomes a positive number. -/
theorem zero_lt_of_accepts {n : Int} (h : (Schema.number .positive).Accepts (.int n)) :
    0.0 < Float.ofInt n := by
  have hrule := (accepts_toValue_iff .positive (.int n)).mp h
  exact Decimal.zero_lt_ofInt ((NumberRule.bounds_iff hrule).mpr id)

/-- What a setting stores of an accepted value is accepted again. -/
theorem accepts_stored {s : Setting} {v : Value} (h : s.rule.Accepts v) :
    s.rule.Accepts (s.stored v) := by
  cases s with
  | spacing =>
      cases v with
      | int n =>
          apply (accepts_toValue_iff .positive (.float _)).mpr
          apply (NumberRule.complaints_eq_nil_iff _ _).mpr
          exact .inl (zero_lt_of_accepts h)
      | _ => exact h
  | _ => exact h

/-- The palette is the default one with the colours of the document put over it. -/
theorem palette_of_document (h : ofDocument doc = .ok c) :
    ∃ colors, c.palette = defaultPalette.putAll colors ∧
      ∀ k x, (k, x) ∈ colors → ∃ entries,
        doc.reach? ["visual", "colors"] = some (.mapping entries) ∧ (.str k, .str x) ∈ entries := by
  obtain ⟨-, -, hpalette, -⟩ := parts_of_document h
  refine ⟨_, hpalette, fun k x hkx => ?_⟩
  cases hv : doc.reach? ["visual", "colors"] with
  | none => simp [hv] at hkx
  | some v =>
      rw [hv, Option.map_some, Option.getD_some] at hkx
      cases v with
      | mapping entries => exact ⟨entries, rfl, mem_paletteOf_iff.mp hkx⟩
      | _ => cases hkx

/-- No colour of a configuration is empty. -/
theorem color_ne_of_document (hclean : (Schema.record schema).Accepts doc)
    (h : ofDocument doc = .ok c) : ∀ e ∈ c.palette.entries, e.2 ≠ "" := by
  obtain ⟨colors, hpalette, hcolors⟩ := palette_of_document h
  rw [hpalette]
  rintro ⟨k, x⟩ he
  rcases Table.mem_entries_putAll he with he | he
  · have hdefault : ∀ e ∈ defaultPalette.entries, e.2 ≠ "" := by decide
    exact hdefault _ he
  · obtain ⟨entries, hplace, hmem⟩ := hcolors k x he
    have htable : (Schema.table (.text .notEmpty)).Accepts (.mapping entries) :=
      accepts_of_reach rfl hclean hplace
    obtain ⟨_, ⟨rfl⟩, hentries⟩ := (accepts_iff_of_mappings rfl _).mp htable
    obtain ⟨_, ⟨rfl⟩, hx⟩ := hentries _ hmem
    rw [accepts_str_iff] at hx
    simpa [TextRule.complaints] using hx

/-- What was taken from an accepted document is accepted again. -/
theorem accepts_setting (hclean : (Schema.record schema).Accepts doc) (h : ofDocument doc = .ok c)
    {s : Setting} {v : Value} (hv : c.setting? s = some v) : s.rule.Accepts v := by
  cases s with
  | color k =>
      obtain ⟨x, hx, rfl⟩ := Option.map_eq_some_iff.mp hv
      obtain ⟨e, he, rfl⟩ := Option.map_eq_some_iff.mp hx
      have hne := color_ne_of_document hclean h e (Keyed.find_some_key he).2
      simpa [Setting.rule, accepts_str_iff, TextRule.complaints] using hne
  | _ =>
      rw [setting_of_document hclean h (by simp), Option.or_eq_some_iff] at hv
      obtain hv | ⟨-, hv⟩ := hv
      · obtain ⟨w, hw, rfl⟩ := Option.map_eq_some_iff.mp hv
        exact accepts_stored (accepts_of_reach (Setting.reach_path _) hclean hw)
      · exact accepts_default hv

/-- A configuration made of an accepted document is sound. -/
theorem isSound_of_document (hclean : (Schema.record schema).Accepts doc)
    (h : ofDocument doc = .ok c) : c.IsSound := by
  obtain ⟨colors, hpalette, -⟩ := palette_of_document h
  refine ⟨?_, fun k hk => ?_, fun s v hv => accepts_setting hclean h hv, spacing_of_document h⟩
  · rw [hpalette]
    exact Table.nodup_keys_putAll (by decide) colors
  · rw [← Table.get_isSome_iff] at hk ⊢
    rw [hpalette, Table.get_putAll, Option.isSome_or, hk, Bool.or_true]

/-- Every configuration that is loaded is sound. -/
theorem isSound_of_load (h : (load raw source).result = .ok c) : c.IsSound := by
  obtain ⟨doc, hclean, hdocument, -⟩ := exists_document_of_load h
  exact isSound_of_document hclean hdocument

/-! ## What the schema lets through -/

/-- No default is a NaN. -/
theorem not_isNaN_default {s : Setting} {v : Value} (h : ({} : Config).setting? s = some v) :
    ¬ v.IsNaN := by
  rintro ⟨x, rfl, hx⟩
  cases s with
  | color k =>
      obtain ⟨_, -, hk⟩ := Option.map_eq_some_iff.mp h
      cases hk
  | spacing | metalness | roughness | opacity =>
      rw [← Value.float.inj (Option.some.inj h)] at hx
      revert hx
      decide
  | algorithm | theme | defaultColor => cases h

/-- Storing an accepted value makes no NaN and loses none. -/
theorem isNaN_stored_iff {s : Setting} {v : Value} (h : s.rule.Accepts v) :
    (s.stored v).IsNaN ↔ v.IsNaN := by
  cases s with
  | spacing =>
      cases v with
      | int n =>
          have hx := (Decimal.not_isNaN_of_lt (zero_lt_of_accepts h)).2
          refine iff_of_false ?_ (by simp [Value.IsNaN])
          rintro ⟨y, hy, hnan⟩
          rw [← Value.float.inj hy, hx] at hnan
          cases hnan
      | _ => exact Iff.rfl
  | _ => exact Iff.rfl

/-- A number that was loaded is in range unless its document has a NaN in its place. -/
theorem bounds_iff_of_document (hclean : (Schema.record schema).Accepts doc)
    (h : ofDocument doc = .ok c) {s : Setting} {rule : NumberRule} (hrule : s.rule = .number rule)
    {n : Number} (hn : c.setting? s = some n.toValue) :
    rule.Bounds n ↔ ¬ doc.HoldsNaN s.path := by
  have hs : ∀ k, s ≠ .color k := by
    rintro k rfl
    cases hrule
  have haccepts := accepts_setting hclean h hn
  rw [hrule, accepts_toValue_iff] at haccepts
  rw [NumberRule.bounds_iff haccepts, not_iff_not, ← Value.isNaN_toValue, Value.HoldsNaN]
  rw [setting_of_document hclean h hs] at hn
  cases hv : doc.reach? s.path with
  | none =>
      rw [hv] at hn
      simpa using not_isNaN_default hn
  | some v =>
      rw [hv] at hn
      rw [← Option.some.inj hn, isNaN_stored_iff (accepts_of_reach s.reach_path hclean hv)]
      simp

/-- A loaded configuration has a colour for every category and no empty one, and each of its
numbers is in range exactly if its document has no NaN in the place of it. -/
theorem inRange_iff_of_load (h : (load raw source).result = .ok c) :
    (c.spacing.IsPositive ↔ ¬ raw.HoldsNaN ["layout", "node_spacing"]) ∧
    (c.material.metalness.IsFraction ↔ ¬ raw.HoldsNaN ["visual", "material", "metalness"]) ∧
    (c.material.roughness.IsFraction ↔ ¬ raw.HoldsNaN ["visual", "material", "roughness"]) ∧
    (c.material.opacity.IsFraction ↔ ¬ raw.HoldsNaN ["visual", "material", "opacity"]) ∧
    (∀ e ∈ c.palette.entries, e.2 ≠ "") ∧ c.defaultColor ≠ "" ∧
    ∀ k : NodeCategory, (c.palette.get? k.name).isSome = true := by
  obtain ⟨doc, hclean, hdocument, hfields⟩ := exists_document_of_load h
  have hplace (name : String) (names : List String) :
      raw.HoldsNaN (name :: names) ↔ doc.HoldsNaN (name :: names) := by
    simp only [Value.HoldsNaN, Value.reach?, hfields]
  have hbounds {s : Setting} {rule : NumberRule} (hrule : s.rule = .number rule) {n : Number}
      (hn : c.setting? s = some n.toValue) := bounds_iff_of_document hclean hdocument hrule hn
  have hsound := isSound_of_document hclean hdocument
  simp only [hplace]
  refine ⟨hbounds (s := .spacing) rfl rfl, hbounds (s := .metalness) rfl rfl,
    hbounds (s := .roughness) rfl rfl, hbounds (s := .opacity) rfl rfl,
    color_ne_of_document hclean hdocument, ?_, fun k => ?_⟩
  · have hdefault := hsound.accepted .defaultColor _ rfl
    simpa [Setting.rule, accepts_str_iff, TextRule.complaints] using hdefault
  · rw [Table.get_isSome_iff]
    exact hsound.complete _ (by cases k <;> decide)

/-- A document with an integer as its spacing and a NaN as one amount of its material. -/
def shinyDocument : Value := .record
  [("layout", .record [("node_spacing", .int 40)]),
   ("visual", .record
      [("colors", .record [("function", .str "#00FF00")]),
       ("material", .record [("metalness", .float (0.0 / 0.0)), ("opacity", .int 1)])])]

/-- A configuration outside the ranges its documentation gives: its metalness is a NaN. -/
def shinyConfig : Config :=
  { spacing := .float 40.0
    palette := defaultPalette.put "function" "#00FF00"
    material := { metalness := .float (0.0 / 0.0), opacity := .int 1 } }

theorem load_shinyDocument : (load shinyDocument none).result = .ok shinyConfig :=
  (load_eq_ok_iff ⟨_, rfl⟩).mpr ⟨by decide +kernel, by decide +kernel⟩

/-- A document with a NaN for the metalness. -/
theorem inRange_iff_of_load_shiny :
    (load shinyDocument none).result = .ok shinyConfig ∧
      (shinyConfig.spacing.IsPositive ↔ ¬ shinyDocument.HoldsNaN ["layout", "node_spacing"]) ∧
      (shinyConfig.material.metalness.IsFraction ↔
        ¬ shinyDocument.HoldsNaN ["visual", "material", "metalness"]) ∧
      (shinyConfig.material.roughness.IsFraction ↔
        ¬ shinyDocument.HoldsNaN ["visual", "material", "roughness"]) ∧
      (shinyConfig.material.opacity.IsFraction ↔
        ¬ shinyDocument.HoldsNaN ["visual", "material", "opacity"]) ∧
      (∀ e ∈ shinyConfig.palette.entries, e.2 ≠ "") ∧ shinyConfig.defaultColor ≠ "" ∧
      ∀ k : NodeCategory, (shinyConfig.palette.get? k.name).isSome = true :=
  ⟨load_shinyDocument, inRange_iff_of_load load_shinyDocument⟩

/-- A spacing that is no number is accepted although it is not positive. -/
theorem nan_spacing_is_accepted :
    (load (.record [("layout", .record [("node_spacing", .float (0.0 / 0.0))])]) none).result =
        .ok { spacing := .float (0.0 / 0.0) } ∧
      ¬ (Number.float (0.0 / 0.0)).IsPositive := by
  refine ⟨(load_eq_ok_iff ⟨_, rfl⟩).mpr ⟨by decide +kernel, rfl⟩, ?_⟩
  rw [Number.IsPositive]
  decide

end Config

end SpatialDiagram
