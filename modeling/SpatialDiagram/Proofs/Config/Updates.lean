import SpatialDiagram.Proofs.Config.Reloading

/-!
# Updates of configurations

Two updates after each other are the one whose document is the second laid over
the first, or both ways fail. An update keeps what its document does not
mention, except that loading fills in the default colours: a category without a
colour gets its default one.
-/

namespace SpatialDiagram

namespace Config

open Schema

variable {a b base c : Config} {o : Value}

/-! ## Equal configurations -/

/-- Whether two configurations are equal, with numbers compared by amount and colours by
category. -/
structure Same (a b : Config) : Prop where
  algorithm : a.algorithm = b.algorithm
  spacing : a.spacing.alike b.spacing = true
  theme : a.theme = b.theme
  colors : ∀ k, a.palette.get? k = b.palette.get? k
  defaultColor : a.defaultColor = b.defaultColor
  metalness : a.material.metalness.alike b.material.metalness = true
  roughness : a.material.roughness.alike b.material.roughness = true
  opacity : a.material.opacity.alike b.material.opacity = true

theorem alike_of_toValue {m n : Number} (h : some m.toValue = some n.toValue) :
    m.alike n = true := by
  rw [← Value.alike_toValue, Option.some.inj h, Value.alike_refl]

/-- Two configurations are the same if all their settings are. -/
theorem same_of_settings (h : ∀ s, a.setting? s = b.setting? s) : a.Same b where
  algorithm := by
    have hname : a.algorithm.name = b.algorithm.name :=
      Value.str.inj (Option.some.inj (h .algorithm))
    rw [← Option.some_inj, ← LayoutAlgorithm.ofName_name, hname, LayoutAlgorithm.ofName_name]
  spacing := alike_of_toValue (h .spacing)
  theme := Value.str.inj (Option.some.inj (h .theme))
  colors k := Option.map_injective (fun _ _ => Value.str.inj) (h (.color k))
  defaultColor := Value.str.inj (Option.some.inj (h .defaultColor))
  metalness := alike_of_toValue (h .metalness)
  roughness := alike_of_toValue (h .roughness)
  opacity := alike_of_toValue (h .opacity)

/-- A configuration that was loaded, or made from one by updates. -/
inductive Obtained : Config → Prop where
  | loaded {raw : Value} {source : Option String} {c : Config}
      (h : (load raw source).result = .ok c) : Obtained c
  | updated {base c : Config} {overrides : Value} (hbase : Obtained base)
      (h : (base.merge overrides).result = .ok c) : Obtained c

/-- Every change that is accepted gives a sound configuration. -/
theorem isSound_of_merge (h : (base.merge o).result = .ok c) : c.IsSound := by
  rw [merge_eq_load (isMapping_of_merge h)] at h
  exact isSound_of_load h

/-- Every configuration that was loaded and changed is sound. -/
theorem Obtained.isSound (h : Obtained c) : c.IsSound := by
  cases h with
  | loaded h => exact isSound_of_load h
  | updated _ h => exact isSound_of_merge h

/-! ## Updates after each other -/

/-- Storing a value a second time changes nothing. -/
theorem stored_stored (s : Setting) (v : Value) : s.stored (s.stored v) = s.stored v := by
  cases s <;> cases v <;> rfl

theorem isSound_default : ({} : Config).IsSound := isSound_of_document accepts_nil rfl

/-- Storing and filling in twice is the same as doing so once. -/
theorem stored_or_default (s : Setting) (v : Option Value) :
    ((((v.map s.stored).or (({} : Config).setting? s)).map s.stored).or
      (({} : Config).setting? s)) = (v.map s.stored).or (({} : Config).setting? s) := by
  cases v with
  | none => exact stored_setting isSound_default s
  | some v => simp [stored_stored]

section Composed

variable {c₁ : Config} {o₁ o₂ : Value} (hc : c.IsSound) (hkeys₁ : o₁.hasDistinctKeys = true)
  (hkeys₂ : o₂.hasDistinctKeys = true) (ho₂ : o₂.IsMapping)
  (h₁ : (c.merge o₁).result = .ok c₁)

include hc hkeys₁ hkeys₂ ho₂ h₁

/-- A second update succeeds exactly if the joint one does. -/
theorem exists_merge_merge_iff :
    (∃ a, (c₁.merge o₂).result = .ok a) ↔
      ∃ b, (c.merge (o₂.overlay (some o₁))).result = .ok b := by
  have hc₁ := isSound_of_merge h₁
  have ho₁ := isMapping_of_merge h₁
  obtain ⟨hclean₁, hfits₁⟩ := (exists_merge_iff hc.isAccepted hkeys₁ ho₁).mp ⟨c₁, h₁⟩
  rw [exists_merge_iff hc₁.isAccepted hkeys₂ ho₂,
    exists_merge_iff hc.isAccepted (Value.hasDistinctKeys_overlay_some hkeys₁ hkeys₂)
      (Value.isMapping_overlay ho₁ ho₂),
    accepts_overlay_some_iff _ hkeys₁ hkeys₂ hclean₁]
  refine and_congr_right fun hclean₂ => ?_
  rw [reach_overlay Setting.spacing.reach_path Setting.spacing.isPlain_rule hclean₁ hclean₂ hkeys₂]
  -- Where the second document has no spacing, the first update settled that it fits.
  cases o₂.reach? Setting.spacing.path with
  | some v => exact Iff.rfl
  | none =>
      obtain ⟨x, hx⟩ := hc₁.spacing
      refine iff_of_true (fun k hk => ?_) hfits₁
      rw [setting?, hx] at hk
      cases hk

/-- Two changes one after the other give each setting what both changes together give it. -/
theorem setting_merge_merge (ha : (c₁.merge o₂).result = .ok a)
    (hb : (c.merge (o₂.overlay (some o₁))).result = .ok b) (s : Setting) :
    a.setting? s = b.setting? s := by
  have hc₁ := isSound_of_merge h₁
  have ho₁ := isMapping_of_merge h₁
  obtain ⟨hclean₁, -⟩ := (exists_merge_iff hc.isAccepted hkeys₁ ho₁).mp ⟨c₁, h₁⟩
  obtain ⟨hclean₂, -⟩ := (exists_merge_iff hc₁.isAccepted hkeys₂ ho₂).mp ⟨a, ha⟩
  have hkeys := Value.hasDistinctKeys_overlay_some hkeys₁ hkeys₂
  rw [settings_of_merge hc₁.isAccepted hkeys₂ ha, settings_of_merge hc.isAccepted hkeys hb,
    settings_of_merge hc.isAccepted hkeys₁ h₁,
    reach_overlay s.reach_path s.isPlain_rule hclean₁ hclean₂ hkeys₂]
  cases o₂.reach? s.path with
  | some v => rfl
  | none => exact stored_or_default s _

end Composed

/-- A configuration can be written down and loaded again, and two updates after each other are one
update by the second document laid over the first. -/
theorem updates_compose (h : Obtained c) :
    (∃ r, (load c.toValue none).result = .ok r ∧ r.Same c) ∧
      ∀ o₁ o₂ c₁, o₁.hasDistinctKeys = true → o₂.hasDistinctKeys = true → o₂.IsMapping →
        (c.merge o₁).result = .ok c₁ →
        (∃ a b, (c₁.merge o₂).result = .ok a ∧
          (c.merge (o₂.overlay (some o₁))).result = .ok b ∧ a.Same b) ∨
        (∃ e f, (c₁.merge o₂).result = .error e ∧
          (c.merge (o₂.overlay (some o₁))).result = .error f) := by
  have hc := h.isSound
  constructor
  · obtain ⟨r, hr, hsettings⟩ := exists_load_toValue hc none
    exact ⟨r, hr, same_of_settings hsettings⟩
  · intro o₁ o₂ c₁ hkeys₁ hkeys₂ ho₂ h₁
    have hboth := exists_merge_merge_iff hc hkeys₁ hkeys₂ ho₂ h₁
    cases ha : (c₁.merge o₂).result with
    | ok a =>
        obtain ⟨b, hb⟩ := hboth.mp ⟨a, ha⟩
        have hsettings := setting_merge_merge hc hkeys₁ hkeys₂ ho₂ h₁ ha hb
        exact .inl ⟨a, b, rfl, hb, same_of_settings hsettings⟩
    | error e =>
        cases hb : (c.merge (o₂.overlay (some o₁))).result with
        | ok b =>
            obtain ⟨a, ha'⟩ := hboth.mpr ⟨b, hb⟩
            cases ha.symm.trans ha'
        | error f => exact .inr ⟨e, f, rfl, rfl⟩

/-- A document with a new spacing and a colour for a category of its own. -/
def widgetUpdate : Value := .record
  [("layout", .record [("node_spacing", .int 3)]),
   ("visual", .record [("colors", .record [("widget", .str "#111111")])])]

/-- A document with another layout and another colour for the same category. -/
def gridUpdate : Value := .record
  [("layout", .record [("algorithm", .str "grid")]),
   ("visual", .record [("colors", .record [("widget", .str "#222222")])])]

def widgetConfig : Config :=
  { shinyConfig with
    spacing := .float 3.0
    palette := shinyConfig.palette.put "widget" "#111111" }

/-- A configuration with a NaN in it, changed twice. -/
theorem updates_compose_shiny :
    Obtained shinyConfig ∧ (shinyConfig.merge widgetUpdate).result = .ok widgetConfig ∧
      (∃ r, (load shinyConfig.toValue none).result = .ok r ∧ r.Same shinyConfig) ∧
      ((∃ a b, (widgetConfig.merge gridUpdate).result = .ok a ∧
          (shinyConfig.merge (gridUpdate.overlay (some widgetUpdate))).result = .ok b ∧ a.Same b) ∨
        (∃ e f, (widgetConfig.merge gridUpdate).result = .error e ∧
          (shinyConfig.merge (gridUpdate.overlay (some widgetUpdate))).result = .error f)) := by
  have hshiny : Obtained shinyConfig := .loaded load_shinyDocument
  have hwidget : (shinyConfig.merge widgetUpdate).result = .ok widgetConfig := by decide +kernel
  obtain ⟨hreload, hcompose⟩ := updates_compose hshiny
  exact ⟨hshiny, hwidget, hreload, hcompose widgetUpdate gridUpdate widgetConfig (by decide)
    (by decide) ⟨_, rfl⟩ hwidget⟩

/-! ## What an update keeps -/

/-- Whether a document says something about a setting of a configuration. The default colour is also
that of every category without a colour. -/
def IsMentioned (c : Config) (o : Value) : Setting → Prop
  | .color k => (o.reach? (Setting.color k).path).isSome = true ∨
      c.palette.get? k = none ∧ (o.reach? Setting.defaultColor.path).isSome = true
  | s => (o.reach? s.path).isSome = true

/-- Whether two configurations agree at a setting: on the amount of a spacing, and on the colour in
which a category is drawn. -/
def AgreesAt (a b : Config) : Setting → Prop
  | .spacing => a.spacing.alike b.spacing = true
  | .color k => a.colorFor k = b.colorFor k
  | s => a.setting? s = b.setting? s

/-- Whether an update can keep a setting: reading a spacing as a floating-point number has to leave
its amount alone, and a category without a colour must not have another default one. -/
def IsKept (c : Config) : Setting → Prop
  | .spacing => c.spacing.IsExact
  | .color k => c.palette.get? k = none → ∀ x ∈ defaultPalette.get? k, x = c.defaultColor
  | _ => True

/-- A spacing is the same after it is stored as a float exactly if its float is exact. -/
theorem alike_stored_iff {m n : Number} (hfits : ∀ k, n = .int k → ¬ Number.IsTooLarge k)
    (hm : m.toValue = Setting.spacing.stored n.toValue) : m.alike n = true ↔ n.IsExact := by
  cases n with
  | float x =>
      obtain rfl : m = .float x := Option.some.inj <| by
        rw [← Number.ofValue_toValue m, hm]
        rfl
      exact iff_of_true (Number.alike_refl _) (Number.isExact_float x)
  | int k =>
      obtain rfl : m = .float (Float.ofInt k) := Option.some.inj <| by
        rw [← Number.ofValue_toValue m, hm]
        rfl
      have hk : Number.intToFloat? k = some (Float.ofInt k) := if_neg (hfits k rfl)
      simp [Number.IsExact, Number.toFloat?, hk]

/-- The default palette has a colour for exactly the categories. -/
theorem mem_keys_defaultPalette_iff (k : String) :
    k ∈ defaultPalette.keys ↔ ∃ category : NodeCategory, category.name = k := by
  have hkeys : defaultPalette.keys = NodeCategory.all.map NodeCategory.name := by decide
  have hall (category : NodeCategory) : category ∈ NodeCategory.all := by
    cases category <;> decide
  simp [hkeys, hall]

section Kept

variable {r : Config} (hpalette : base.palette.keys.Nodup)
  (hbase : (load base.toValue none).result = .ok r) (hkeys : o.hasDistinctKeys = true)
  (h : (base.merge o).result = .ok c)

include hpalette hbase hkeys h

/-- A setting that a change leaves out is stored from the base, or the default where the base has
none. -/
theorem setting_of_unmentioned {s : Setting} (hs : o.reach? s.path = none) :
    c.setting? s = ((base.setting? s).map s.stored).or (({} : Config).setting? s) := by
  have hclean := ((load_eq_ok_iff (isMapping_toValue base)).mp hbase).1
  rw [settings_of_merge ⟨hpalette, hclean⟩ hkeys h, hs, Option.none_or]

/-- An unmentioned spacing survives a change exactly if its float is exact. -/
theorem spacing_of_unmentioned (hs : o.reach? Setting.spacing.path = none) :
    c.spacing.alike base.spacing = true ↔ base.spacing.IsExact := by
  have hfits := ((exists_load_iff (isMapping_toValue base) none).mp ⟨r, hbase⟩).2
  refine alike_stored_iff (fun k hk => hfits k ?_) (Option.some.inj ?_)
  · rw [reach_toValue, setting?, hk]
    rfl
  · exact setting_of_unmentioned hpalette hbase hkeys h hs

/-- An unmentioned colour that the base has not is filled in from the default palette. -/
theorem color_of_unmentioned {k : String} (hk : o.reach? (Setting.color k).path = none) :
    c.palette.get? k = (base.palette.get? k).or (defaultPalette.get? k) := by
  have hsetting := setting_of_unmentioned hpalette hbase hkeys h hk
  refine Option.map_injective (fun _ _ => Value.str.inj) (hsetting.trans ?_)
  simp only [setting?]
  cases base.palette.get? k <;> rfl

/-- An unmentioned setting agrees with the base exactly if the base keeps it. -/
theorem agreesAt_iff_isKept (s : Setting) (hs : ¬ base.IsMentioned o s) :
    c.AgreesAt base s ↔ base.IsKept s := by
  cases s with
  | spacing =>
      exact spacing_of_unmentioned hpalette hbase hkeys h (Option.not_isSome_iff_eq_none.mp hs)
  | color k =>
      obtain ⟨hcolor, hdefault⟩ := not_or.mp hs
      rw [AgreesAt, IsKept, colorFor, colorFor, color_of_unmentioned hpalette hbase hkeys h
        (Option.not_isSome_iff_eq_none.mp hcolor)]
      cases hk : base.palette.get? k with
      | some x => simp
      | none =>
          have hnone := Option.not_isSome_iff_eq_none.mp (not_and.mp hdefault hk)
          have hsetting := setting_of_unmentioned hpalette hbase hkeys h hnone
          have hsame : c.defaultColor = base.defaultColor :=
            Value.str.inj (Option.some.inj hsetting)
          cases defaultPalette.get? k <;> simp [hsame]
  | _ =>
      exact iff_of_true (setting_of_unmentioned hpalette hbase hkeys h
        (Option.not_isSome_iff_eq_none.mp hs)) trivial

end Kept

/-- The empty change loads the record form of the configuration. -/
theorem merge_nil (base : Config) : base.merge (.mapping []) = load base.toValue none := by
  rw [merge_eq_load ⟨[], rfl⟩, toValue, Value.record, Value.overlay_mapping, Value.overlayEntries]

/-- The record form is loaded as an equal configuration if every category has a colour and the
spacing keeps its amount. -/
theorem same_reload_iff {r : Config} (hpalette : base.palette.keys.Nodup)
    (hbase : (load base.toValue none).result = .ok r) :
    r.Same base ↔ base.spacing.IsExact ∧
      ∀ k : NodeCategory, (base.palette.get? k.name).isSome = true := by
  have h := hbase
  rw [← merge_nil] at h
  have hspacing := spacing_of_unmentioned hpalette hbase rfl h rfl
  have hcolor (k : String) := color_of_unmentioned hpalette hbase rfl h (k := k) rfl
  constructor
  · intro hsame
    refine ⟨hspacing.mp hsame.spacing, fun k => ?_⟩
    have hdefault : (defaultPalette.get? k.name).isSome = true :=
      (Table.get_isSome_iff _ _).mpr ((mem_keys_defaultPalette_iff _).mpr ⟨k, rfl⟩)
    rw [← hsame.colors, hcolor, Option.isSome_or, hdefault, Bool.or_true]
  · rintro ⟨hexact, hcolors⟩
    have hkept (k : String) : r.palette.get? k = base.palette.get? k := by
      rw [hcolor]
      cases hk : base.palette.get? k with
      | some x => rfl
      | none =>
          rw [Option.none_or, ← Option.not_isSome_iff_eq_none, Table.get_isSome_iff,
            mem_keys_defaultPalette_iff]
          rintro ⟨category, rfl⟩
          exact absurd (hcolors category) (by simp [hk])
    have hsettings : r.Same { base with spacing := r.spacing } := same_of_settings fun s => by
      cases s with
      | spacing => rfl
      | color k => exact congrArg (Option.map Value.str) (hkept k)
      | _ => exact setting_of_unmentioned hpalette hbase rfl h rfl
    exact { hsettings with spacing := hspacing.mpr hexact }

/-- A sound configuration keeps all its settings. -/
theorem isKept_of_isSound (hc : c.IsSound) (s : Setting) : c.IsKept s := by
  cases s with
  | spacing =>
      obtain ⟨x, hx⟩ := hc.spacing
      rw [IsKept, hx]
      exact Number.isExact_float x
  | color k =>
      intro hk x hx
      have hmem := hc.complete k ((Table.get_isSome_iff _ _).mp (Option.isSome_of_mem hx))
      rw [← Table.get_isSome_iff, hk] at hmem
      cases hmem
  | _ => trivial

/-- An update keeps a setting that its document does not mention exactly if loading can keep it; the
empty update gives back an equal configuration exactly if every category has a colour and the
spacing keeps its amount. Configurations that were loaded lose nothing. -/
theorem agreesAt_merge_iff {r : Config} (hpalette : base.palette.keys.Nodup)
    (hbase : (load base.toValue none).result = .ok r) (hkeys : o.hasDistinctKeys = true)
    (h : (base.merge o).result = .ok c) :
    (∀ s, ¬ base.IsMentioned o s → (c.AgreesAt base s ↔ base.IsKept s)) ∧
    (base.merge (.mapping [])).result = .ok r ∧
    (r.Same base ↔ base.spacing.IsExact ∧
      ∀ k : NodeCategory, (base.palette.get? k.name).isSome = true) ∧
    (Obtained base → r.Same base ∧ ∀ s, base.IsKept s) := by
  have hsame := same_reload_iff hpalette hbase
  refine ⟨agreesAt_iff_isKept hpalette hbase hkeys h, by rwa [merge_nil], hsame,
    fun hobtained => ?_⟩
  have hsound := hobtained.isSound
  refine ⟨hsame.mpr ⟨isKept_of_isSound hsound .spacing, fun k => ?_⟩, isKept_of_isSound hsound⟩
  rw [Table.get_isSome_iff]
  exact hsound.complete _ ((mem_keys_defaultPalette_iff _).mpr ⟨k, rfl⟩)

/-- A configuration with a colour for one category only. -/
def sparseConfig : Config :=
  { palette := ⟨[("function", "#000000")]⟩, defaultColor := "#111111" }

def filledConfig : Config :=
  { sparseConfig with palette := defaultPalette.put "function" "#000000" }

def layoutUpdate : Value := .record [("layout", .record [("algorithm", .str "grid")])]

theorem load_sparseConfig : (load sparseConfig.toValue none).result = .ok filledConfig :=
  (load_eq_ok_iff (isMapping_toValue _)).mpr ⟨by decide +kernel, by decide +kernel⟩

theorem merge_sparseConfig :
    (sparseConfig.merge layoutUpdate).result = .ok { filledConfig with algorithm := .grid } := by
  decide +kernel

/-- A palette of one colour, changed in another place. -/
theorem agreesAt_merge_iff_sparse :
    sparseConfig.palette.keys.Nodup ∧
      (load sparseConfig.toValue none).result = .ok filledConfig ∧
      layoutUpdate.hasDistinctKeys = true ∧
      ∃ c, (sparseConfig.merge layoutUpdate).result = .ok c ∧
        (∀ s, ¬ sparseConfig.IsMentioned layoutUpdate s →
          (c.AgreesAt sparseConfig s ↔ sparseConfig.IsKept s)) ∧
        (sparseConfig.merge (.mapping [])).result = .ok filledConfig ∧
        (filledConfig.Same sparseConfig ↔ sparseConfig.spacing.IsExact ∧
          ∀ k : NodeCategory, (sparseConfig.palette.get? k.name).isSome = true) ∧
        (Obtained sparseConfig → filledConfig.Same sparseConfig ∧ ∀ s, sparseConfig.IsKept s) := by
  have hkeys : sparseConfig.palette.keys.Nodup := by decide
  have hdistinct : layoutUpdate.hasDistinctKeys = true := by decide
  exact ⟨hkeys, load_sparseConfig, hdistinct, _, merge_sparseConfig,
    agreesAt_merge_iff hkeys load_sparseConfig hdistinct merge_sparseConfig⟩

/-- An update of the layout changes the colour of a category that has none of its own. -/
theorem unmentioned_color_is_lost :
    sparseConfig.palette.keys.Nodup ∧
      (load sparseConfig.toValue none).result = .ok filledConfig ∧
      ∃ c, (sparseConfig.merge layoutUpdate).result = .ok c ∧
        ¬ sparseConfig.IsMentioned layoutUpdate (.color "class") ∧
        c.colorFor "class" ≠ sparseConfig.colorFor "class" := by
  refine ⟨by decide, load_sparseConfig, _, merge_sparseConfig, ?_, by decide⟩
  rw [IsMentioned]
  decide

end Config

end SpatialDiagram
