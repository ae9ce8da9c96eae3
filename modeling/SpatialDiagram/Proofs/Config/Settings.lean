import SpatialDiagram.Proofs.Building.Overflow
import SpatialDiagram.Proofs.Config.Overlay

/-!
# The settings of a configuration

A setting has a place in a document, a path of field names. A configuration
that was loaded has the settings of its document and, where that is silent, the
default ones; it can be written down and read again. A spacing becomes a
floating-point number on the way.
-/

namespace SpatialDiagram

theorem Value.field_record (fields : List (String × Value)) (name : String) :
    (Value.record fields).field? name = fields.lookup name := lookup_record fields name

/-- What a configuration says at one place; there is a colour for each category it knows. -/
inductive Setting where
  | algorithm
  | spacing
  | theme
  | defaultColor
  | metalness
  | roughness
  | opacity
  | color (category : String)
deriving DecidableEq, Repr

namespace Setting

/-- Where a setting stands in a document. -/
def path : Setting → List String
  | algorithm => ["layout", "algorithm"]
  | spacing => ["layout", "node_spacing"]
  | theme => ["visual", "theme"]
  | defaultColor => ["visual", "default_color"]
  | metalness => ["visual", "material", "metalness"]
  | roughness => ["visual", "material", "roughness"]
  | opacity => ["visual", "material", "opacity"]
  | color category => ["visual", "colors", category]

/-- What the schema asks of a setting. -/
def rule : Setting → Schema
  | algorithm => .text (.oneOf (LayoutAlgorithm.all.map LayoutAlgorithm.name))
  | spacing => .number .positive
  | theme => .text (.oneOf ["dark", "light", "custom"])
  | defaultColor => .text .notEmpty
  | metalness => .number .unitInterval
  | roughness => .number .unitInterval
  | opacity => .number .unitInterval
  | color _ => .text .notEmpty

/-- The schema has at the path of a setting the rule of that setting. -/
theorem reach_path (s : Setting) : (Schema.record Config.schema).reach? s.path = some s.rule := by
  cases s <;> rfl

theorem isPlain_rule (s : Setting) : s.rule.isOfMappings = false := by
  cases s <;> rfl

/-- How a value is kept: an integer that is a spacing becomes a floating-point number. -/
def stored : Setting → Value → Value
  | spacing, .int n => .float (Float.ofInt n)
  | _, v => v

/-- Every setting but the spacing is stored as it is given. -/
theorem map_stored {s : Setting} (hs : s ≠ .spacing) (o : Option Value) : o.map s.stored = o := by
  cases s with
  | spacing => exact absurd rfl hs
  | _ => exact Option.map_id_apply

end Setting

namespace Config

open Schema

/-- The value of a setting; a colour may be missing. -/
def setting? (c : Config) : Setting → Option Value
  | .algorithm => some (.str c.algorithm.name)
  | .spacing => some c.spacing.toValue
  | .theme => some (.str c.theme)
  | .defaultColor => some (.str c.defaultColor)
  | .metalness => some c.material.metalness.toValue
  | .roughness => some c.material.roughness.toValue
  | .opacity => some c.material.opacity.toValue
  | .color category => (c.palette.get? category).map Value.str

/-- The record form of a configuration has each setting at its place. -/
theorem reach_toValue (c : Config) (s : Setting) : c.toValue.reach? s.path = c.setting? s := by
  cases s with
  | color category =>
      have hcolors : (Value.record (c.palette.entries.map fun e => (e.1, Value.str e.2))).field?
          category = (c.palette.get? category).map Value.str := by
        rw [Value.field_record, Table.get_eq_lookup, Keyed.lookup_map_snd]
      simp only [Setting.path, Value.reach?, toValue, Value.field_record, List.lookup_cons,
        String.reduceBEq, Option.bind_some, hcolors, setting?]
      cases c.palette.get? category <;> rfl
  | _ =>
      simp only [Setting.path, Value.reach?, toValue, Material.toValue, Value.field_record,
        List.lookup_cons, String.reduceBEq, Option.bind_some, setting?]

/-! ## From documents to settings -/

/-- A section of a document is what its path reaches. -/
theorem section_field (doc : Value) (a b : String) :
    Config.section? (doc.field? a) b = doc.reach? [a, b] := by
  simp [section?, Value.reach?]

theorem section_section_field (doc : Value) (a b c : String) :
    Config.section? (section? (doc.field? a) b) c = doc.reach? [a, b, c] := by
  rw [section_field]
  simp [section?, Value.reach?, Option.bind_assoc]

/-- A text rule accepts texts only. -/
theorem exists_text_of_accepts {rule : TextRule} {v : Value} (h : (Schema.text rule).Accepts v) :
    ∃ t, v = .str t ∧ rule.complaints t = [] := by
  cases v <;> simp_all [Accepts, complaints]

/-- A number rule accepts numbers only. -/
theorem exists_number_of_accepts {rule : NumberRule} {v : Value}
    (h : (Schema.number rule).Accepts v) :
    ∃ n : Number, v = n.toValue ∧ rule.complaints n = [] := by
  cases v with
  | int k => exact ⟨.int k, rfl, by simpa [Accepts, complaints, Number.ofValue?] using h⟩
  | float x => exact ⟨.float x, rfl, by simpa [Accepts, complaints, Number.ofValue?] using h⟩
  | _ => simp [Accepts, complaints, Number.ofValue?] at h

theorem accepts_str_iff (rule : TextRule) (t : String) :
    (Schema.text rule).Accepts (.str t) ↔ rule.complaints t = [] := by
  simp [Accepts, complaints]

theorem accepts_toValue_iff (rule : NumberRule) (n : Number) :
    (Schema.number rule).Accepts n.toValue ↔ rule.complaints n = [] := by
  cases n <;> simp [Accepts, complaints, Number.toValue, Number.ofValue?]

variable {doc : Value} {c : Config}

/-- The spacing is the float of the number that is given, or of the default. -/
theorem spacing_of_places (h : ofDocument doc = .ok c) :
    ∃ x, c.spacing = .float x ∧
      (((doc.reach? Setting.spacing.path).bind Number.ofValue?).getD (.float 2.0)).toFloat? =
        some x := by
  simp only [ofDocument, spacingOf?, section_field] at h
  split at h
  · cases h
  · rename_i x hx
    obtain rfl := Except.ok.inj h
    exact ⟨x, rfl, hx⟩

/-- The parts of a configuration by their places in the document. -/
theorem parts_of_document (h : ofDocument doc = .ok c) :
    c.algorithm = (((doc.reach? Setting.algorithm.path).bind textOf?).bind
      LayoutAlgorithm.ofName?).getD .hierarchical ∧
    c.theme = ((doc.reach? Setting.theme.path).bind textOf?).getD "dark" ∧
    c.palette = defaultPalette.putAll
      (((doc.reach? ["visual", "colors"]).map paletteOf).getD []) ∧
    c.defaultColor = ((doc.reach? Setting.defaultColor.path).bind textOf?).getD neutralGray ∧
    c.material.metalness =
      ((doc.reach? Setting.metalness.path).bind Number.ofValue?).getD (.float 0.1) ∧
    c.material.roughness =
      ((doc.reach? Setting.roughness.path).bind Number.ofValue?).getD (.float 0.7) ∧
    c.material.opacity =
      ((doc.reach? Setting.opacity.path).bind Number.ofValue?).getD (.float 0.9) := by
  simp only [ofDocument, materialOf, section_section_field] at h
  split at h
  · cases h
  · obtain rfl := Except.ok.inj h
    simp only [section_field, Setting.path, and_self]

/-- A setting that is a text is the accepted text, or the default. -/
theorem text_setting {o : Option Value} {rule : TextRule}
    (h : ∀ v, o = some v → (Schema.text rule).Accepts v) (default : String) :
    some (Value.str ((o.bind textOf?).getD default)) = o.or (some (.str default)) := by
  cases o with
  | none => rfl
  | some v =>
      obtain ⟨t, rfl, -⟩ := exists_text_of_accepts (h v rfl)
      rfl

/-- A setting that is a number is the accepted number, or the default. -/
theorem number_setting {o : Option Value} {rule : NumberRule}
    (h : ∀ v, o = some v → (Schema.number rule).Accepts v) (default : Number) :
    some ((o.bind Number.ofValue?).getD default).toValue = o.or (some default.toValue) := by
  cases o with
  | none => rfl
  | some v =>
      obtain ⟨n, rfl, -⟩ := exists_number_of_accepts (h v rfl)
      rw [Option.bind_some, Number.ofValue_toValue]
      rfl

/-- The algorithm is the one whose name was accepted, or the default. -/
theorem algorithm_setting {o : Option Value}
    (h : ∀ v, o = some v → Setting.algorithm.rule.Accepts v) (default : LayoutAlgorithm) :
    some (Value.str (((o.bind textOf?).bind LayoutAlgorithm.ofName?).getD default).name) =
      o.or (some (.str default.name)) := by
  cases o with
  | none => rfl
  | some v =>
      obtain ⟨t, rfl, ht⟩ := exists_text_of_accepts (h v rfl)
      have hmem : t ∈ LayoutAlgorithm.all.map LayoutAlgorithm.name := by
        by_contra hnot
        simp [TextRule.complaints, hnot] at ht
      obtain ⟨a, -, rfl⟩ := List.mem_map.mp hmem
      simp [textOf?, LayoutAlgorithm.ofName_name]

/-- The spacing is the accepted number as a float, or the default. -/
theorem spacing_setting {o : Option Value}
    (h : ∀ v, o = some v → Setting.spacing.rule.Accepts v) {default x : Float}
    (hx : ((o.bind Number.ofValue?).getD (.float default)).toFloat? = some x) :
    some (Value.float x) = (o.map Setting.spacing.stored).or (some (.float default)) := by
  cases o with
  | none => exact congrArg (fun y => some (Value.float y)) (Option.some.inj hx).symm
  | some v =>
      obtain ⟨n, rfl, -⟩ := exists_number_of_accepts (h v rfl)
      rw [Option.bind_some, Number.ofValue_toValue, Option.getD_some] at hx
      cases n with
      | int k =>
          rw [Number.toFloat?, Number.intToFloat?] at hx
          split at hx
          · cases hx
          · obtain rfl := Option.some.inj hx
            rfl
      | float y =>
          obtain rfl := Option.some.inj hx
          rfl

/-- All settings but the colours. -/
theorem setting_of_document (hclean : (Schema.record schema).Accepts doc)
    (h : ofDocument doc = .ok c) {s : Setting} (hs : ∀ k, s ≠ .color k) :
    c.setting? s = ((doc.reach? s.path).map s.stored).or (({} : Config).setting? s) := by
  have haccepts (v : Value) (hv : doc.reach? s.path = some v) : s.rule.Accepts v :=
    accepts_of_reach s.reach_path hclean hv
  obtain ⟨x, hspacing, hx⟩ := spacing_of_places h
  obtain ⟨halgorithm, htheme, -, hdefault, hmetalness, hroughness, hopacity⟩ :=
    parts_of_document h
  cases s with
  | spacing =>
      rw [setting?, hspacing]
      exact spacing_setting haccepts hx
  | algorithm =>
      rw [setting?, halgorithm, algorithm_setting haccepts, Setting.map_stored (by simp)]
      rfl
  | theme =>
      rw [setting?, htheme, text_setting haccepts, Setting.map_stored (by simp)]
      rfl
  | defaultColor =>
      rw [setting?, hdefault, text_setting haccepts, Setting.map_stored (by simp)]
      rfl
  | metalness =>
      rw [setting?, hmetalness, number_setting haccepts, Setting.map_stored (by simp)]
      rfl
  | roughness =>
      rw [setting?, hroughness, number_setting haccepts, Setting.map_stored (by simp)]
      rfl
  | opacity =>
      rw [setting?, hopacity, number_setting haccepts, Setting.map_stored (by simp)]
      rfl
  | color k => exact absurd rfl (hs k)

/-! ## Colours -/

/-- The colours that are read are the entries whose key and value are texts. -/
theorem mem_paletteOf_iff {entries : List (Value × Value)} {k x : String} :
    (k, x) ∈ paletteOf (.mapping entries) ↔ (.str k, .str x) ∈ entries := by
  rw [paletteOf, List.mem_filterMap]
  constructor
  · rintro ⟨⟨l, v⟩, he, hkx⟩
    split at hkx
    · obtain ⟨rfl, rfl⟩ := Prod.mk.inj (Option.some.inj hkx)
      rename_i heq
      rwa [heq] at he
    · cases hkx
  · exact fun he => ⟨_, he, rfl⟩

theorem nodup_keys_paletteOf {entries : List (Value × Value)}
    (h : (entries.map Prod.fst).Nodup) :
    ((paletteOf (.mapping entries)).map Prod.fst).Nodup := by
  rw [paletteOf, List.Nodup, List.pairwise_map, List.pairwise_filterMap]
  refine (List.pairwise_map.mp h).imp ?_
  rintro ⟨k, v⟩ ⟨l, w⟩ hne ⟨i, x⟩ hi ⟨j, y⟩ hj rfl
  split at hi <;> cases hi
  split at hj <;> cases hj
  simp_all

/-- The last colour of a category is its only one where keys are distinct. -/
theorem lookup_paletteOf {v : Value} (h : v.hasDistinctKeys = true) (k : String) :
    (paletteOf v).reverse.lookup k = (v.field? k).bind textOf? := by
  cases v with
  | mapping entries =>
      have hkeys := ((Value.hasDistinctKeys_mapping_iff entries).mp h).1
      have hreverse : ((paletteOf (.mapping entries)).reverse.map Prod.fst).Nodup := by
        rw [List.map_reverse, List.nodup_reverse]
        exact nodup_keys_paletteOf hkeys
      refine Option.ext fun x => ?_
      rw [Keyed.lookup_eq_some_iff_mem hreverse, List.mem_reverse, mem_paletteOf_iff,
        ← Keyed.lookup_eq_some_iff_mem hkeys, Option.bind_eq_some_iff]
      constructor
      · exact fun hx => ⟨.str x, hx, rfl⟩
      · rintro ⟨w, hw, hx⟩
        cases w with
        | str t =>
            obtain rfl : t = x := Option.some.inj hx
            exact hw
        | _ => cases hx
  | _ => rfl

theorem reach_hasDistinctKeys {names : List String} {v w : Value} (h : v.hasDistinctKeys = true)
    (hw : v.reach? names = some w) : w.hasDistinctKeys = true := by
  induction names generalizing v with
  | nil => exact Option.some.inj hw ▸ h
  | cons name names ih =>
      obtain ⟨v', hv', hw'⟩ := Option.bind_eq_some_iff.mp hw
      cases v with
      | mapping entries => exact ih (Value.hasDistinctKeys_of_lookup h hv') hw'
      | _ => cases hv'

/-- A colour is the one the document gives, or else that of the default palette. -/
theorem color_of_document (hkeys : doc.hasDistinctKeys = true) (h : ofDocument doc = .ok c)
    (k : String) :
    c.palette.get? k =
      ((doc.reach? (Setting.color k).path).bind textOf?).or (defaultPalette.get? k) := by
  have hpath : doc.reach? (Setting.color k).path =
      (doc.reach? ["visual", "colors"]).bind fun v => v.field? k := by
    simp [Setting.path, Value.reach?, Option.bind_assoc]
  obtain ⟨-, -, hpalette, -⟩ := parts_of_document h
  rw [hpalette, Table.get_putAll, hpath]
  cases hv : doc.reach? ["visual", "colors"] with
  | none => rfl
  | some v =>
      rw [Option.map_some, Option.getD_some, Option.bind_some,
        lookup_paletteOf (reach_hasDistinctKeys hkeys hv)]

/-- A configuration has the settings of its document, and else the default ones. -/
theorem settings_of_document (hkeys : doc.hasDistinctKeys = true)
    (hclean : (Schema.record schema).Accepts doc) (h : ofDocument doc = .ok c) (s : Setting) :
    c.setting? s = ((doc.reach? s.path).map s.stored).or (({} : Config).setting? s) := by
  cases s with
  | color k =>
      rw [setting?, color_of_document hkeys h]
      cases hv : doc.reach? (Setting.color k).path with
      | none => rfl
      | some v =>
          obtain ⟨t, rfl, -⟩ := exists_text_of_accepts
            (accepts_of_reach (Setting.color k).reach_path hclean hv)
          rfl
  | _ => exact setting_of_document hclean h (by simp)

/-! ## Loading -/

/-- An integer that is the spacing of a document can be read as a floating-point number. -/
def HasFittingSpacing (doc : Value) : Prop :=
  ∀ k, doc.reach? Setting.spacing.path = some (.int k) → ¬ Number.IsTooLarge k

/-- Taking the settings of a document fails on its spacing only. -/
theorem ofDocument_cases (doc : Value) :
    HasFittingSpacing doc ∧ (∃ c, ofDocument doc = .ok c) ∨
      ¬ HasFittingSpacing doc ∧ ofDocument doc = .error .tooLarge := by
  have hplace : spacingOf? doc = doc.reach? Setting.spacing.path := section_field doc _ _
  simp only [ofDocument, HasFittingSpacing, hplace]
  cases hv : doc.reach? Setting.spacing.path with
  | none =>
      refine .inl ⟨fun k hk => ?_, _, rfl⟩
      cases hk
  | some v =>
      cases v with
      | int k =>
          rcases Number.intToFloat_cases k with ⟨hlarge, hk⟩ | ⟨hlarge, x, hk⟩
          · simp [Number.ofValue?, Number.toFloat?, hk, hlarge]
          · simp [Number.ofValue?, Number.toFloat?, hk, hlarge]
      | _ =>
          refine .inl ⟨fun k hk => ?_, _, rfl⟩
          cases hk

/-- Nothing is found exactly if the document is accepted. -/
theorem check_isEmpty_iff (entries : List (Value × Value)) :
    (check schema entries).isEmpty = true ↔ (Schema.record schema).Accepts (.mapping entries) := by
  rw [List.isEmpty_iff, check, findingsOf_eq_nil_iff, Accepts, complaints, nested_eq_nil_iff]

theorem accepts_nil : (Schema.record schema).Accepts (.mapping []) :=
  (accepts_iff_of_mappings rfl _).mpr ⟨[], rfl, nofun⟩

theorem result_load_mapping (entries : List (Value × Value)) (source : Option String) :
    (load (.mapping entries) source).result = read (.mapping entries) source := by
  rw [load]
  split
  · rw [Trace.result_bind, Trace.result_ofResult]
    cases read (.mapping entries) source <;> rfl
  · rename_i habsent
    obtain rfl : entries = [] := by simpa [Value.isPresent] using habsent
    rw [read, if_pos ((check_isEmpty_iff []).mpr accepts_nil)]
    rfl

/-- A mapping is loaded exactly if it is accepted and its spacing has a float. -/
theorem load_eq_ok_iff (hdoc : doc.IsMapping) {source : Option String} :
    (load doc source).result = .ok c ↔
      (Schema.record schema).Accepts doc ∧ ofDocument doc = .ok c := by
  obtain ⟨entries, rfl⟩ := hdoc
  rw [result_load_mapping, read, ← check_isEmpty_iff]
  by_cases hcheck : (check schema entries).isEmpty = true <;> simp [hcheck]

/-- A mapping can be loaded exactly if it is accepted and its spacing fits into a float. -/
theorem exists_load_iff (hdoc : doc.IsMapping) (source : Option String) :
    (∃ c, (load doc source).result = .ok c) ↔
      (Schema.record schema).Accepts doc ∧ HasFittingSpacing doc := by
  simp only [load_eq_ok_iff hdoc, exists_and_left]
  refine and_congr_right fun _ => ?_
  rcases ofDocument_cases doc with ⟨hfits, hc⟩ | ⟨hfits, hfail⟩
  · exact iff_of_true hc hfits
  · simp [hfits, hfail]

/-- Every setting of a loaded configuration is what the document stores at its path, or the default.
-/
theorem settings_of_load (hdoc : doc.IsMapping) (hkeys : doc.hasDistinctKeys = true)
    {source : Option String} (h : (load doc source).result = .ok c) (s : Setting) :
    c.setting? s = ((doc.reach? s.path).map s.stored).or (({} : Config).setting? s) := by
  obtain ⟨hclean, hdocument⟩ := (load_eq_ok_iff hdoc).mp h
  exact settings_of_document hkeys hclean hdocument s

/-- What is loaded is a document, or nothing, which counts as the document without fields. -/
theorem exists_document_of_load {raw : Value} {source : Option String}
    (h : (load raw source).result = .ok c) :
    ∃ doc, (Schema.record schema).Accepts doc ∧ ofDocument doc = .ok c ∧
      ∀ name, doc.field? name = raw.field? name := by
  cases raw with
  | mapping entries =>
      obtain ⟨hclean, hc⟩ := (load_eq_ok_iff ⟨entries, rfl⟩).mp h
      exact ⟨_, hclean, hc, fun _ => rfl⟩
  | _ =>
      rw [load] at h
      split at h
      · cases h
      · exact ⟨.mapping [], accepts_nil, h, fun _ => rfl⟩

end Config

end SpatialDiagram
