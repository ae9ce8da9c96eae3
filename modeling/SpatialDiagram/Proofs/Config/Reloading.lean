import SpatialDiagram.Proofs.Config.Ranges

/-!
# Record forms

The record form of a sound configuration is accepted and loaded as the same
configuration again. An update is loaded from its document laid over the record
form of the base, so each setting comes from the document or else from the base,
and the default ones fill in what both leave open.
-/

namespace SpatialDiagram

namespace Schema

variable {fields : List (String × Schema)} {values : List (String × Value)} {s : Schema}

theorem accepts_record_nil : (record fields).Accepts (.record []) :=
  (accepts_iff_of_mappings rfl _).mpr ⟨[], rfl, nofun⟩

/-- A record is accepted field by field. -/
theorem accepts_record_cons {name : String} {v : Value} (hs : fields.lookup name = some s)
    (hv : s.Accepts v) (hrest : (record fields).Accepts (.record values)) :
    (record fields).Accepts (.record ((name, v) :: values)) := by
  obtain ⟨_, ⟨rfl⟩, hentries⟩ := (accepts_iff_of_mappings rfl _).mp hrest
  exact (accepts_iff_of_mappings rfl _).mpr
    ⟨_, rfl, List.forall_mem_cons.mpr ⟨⟨s, hs, hv⟩, hentries⟩⟩

/-- A table accepts a record exactly if it accepts every value of it. -/
theorem accepts_table_iff :
    (table s).Accepts (.record values) ↔ ∀ f ∈ values, s.Accepts f.2 := by
  simp only [accepts_iff_of_mappings (s := table s) rfl, Value.record, Value.mapping.injEq,
    exists_eq_left', List.forall_mem_map, under?, Option.some.injEq]

end Schema

namespace Value

theorem hasDistinctKeys_record_iff (values : List (String × Value)) :
    (record values).hasDistinctKeys = true ↔
      (values.map Prod.fst).Nodup ∧ ∀ f ∈ values, f.2.hasDistinctKeys = true := by
  have hkeys : (values.map fun f => (str f.1, f.2)).map Prod.fst =
      (values.map Prod.fst).map str := by simp
  rw [record, hasDistinctKeys_mapping_iff, hkeys,
    List.nodup_map_iff fun _ _ => Value.str.inj, List.forall_mem_map]

end Value

namespace Config

open Schema

variable {base c : Config} {o : Value}

/-! ## Record forms -/

/-- The record form of a configuration has distinct keys. -/
theorem hasDistinctKeys_toValue (h : c.palette.keys.Nodup) : c.toValue.hasDistinctKeys = true := by
  have hkeys : (c.palette.entries.map fun e => (e.1, Value.str e.2)).map Prod.fst =
      c.palette.keys := List.map_map
  have hcolors : (Value.record (c.palette.entries.map fun e =>
      (e.1, Value.str e.2))).hasDistinctKeys = true := by
    rw [Value.hasDistinctKeys_record_iff, hkeys]
    exact ⟨h, List.forall_mem_map.mpr fun _ _ => rfl⟩
  have hnumber (n : Number) : n.toValue.hasDistinctKeys = true := by cases n <;> rfl
  simp [toValue, Material.toValue, Value.hasDistinctKeys_record_iff, hcolors, hnumber,
    Value.hasDistinctKeys]

/-- The record form of a configuration is accepted if each of its settings is. -/
theorem accepts_toValue (hkeys : c.palette.keys.Nodup)
    (h : ∀ s v, c.setting? s = some v → s.rule.Accepts v) :
    (Schema.record schema).Accepts c.toValue := by
  have hcolors : (Schema.table (.text .notEmpty)).Accepts
      (.record (c.palette.entries.map fun e => (e.1, .str e.2))) := by
    rw [accepts_table_iff, List.forall_mem_map]
    intro e he
    refine h (.color e.1) (.str e.2) ?_
    rw [setting?, Table.get_eq_lookup, (Keyed.lookup_eq_some_iff_mem hkeys e.1 e.2).mpr he]
    rfl
  have hmaterial : (Schema.record materialSchema).Accepts c.material.toValue :=
    accepts_record_cons rfl (h .metalness _ rfl) <|
    accepts_record_cons rfl (h .roughness _ rfl) <|
    accepts_record_cons rfl (h .opacity _ rfl) accepts_record_nil
  refine accepts_record_cons rfl ?_ (accepts_record_cons rfl ?_ accepts_record_nil)
  · exact accepts_record_cons rfl (h .algorithm _ rfl) <|
      accepts_record_cons rfl (h .spacing _ rfl) accepts_record_nil
  · exact accepts_record_cons rfl (h .theme _ rfl) <| accepts_record_cons rfl hcolors <|
      accepts_record_cons rfl (h .defaultColor _ rfl) <|
      accepts_record_cons rfl hmaterial accepts_record_nil

theorem isMapping_toValue (c : Config) : c.toValue.IsMapping := ⟨_, rfl⟩

/-- Loading leaves the settings of a sound configuration alone. -/
theorem stored_setting (h : c.IsSound) (s : Setting) :
    ((c.setting? s).map s.stored).or (({} : Config).setting? s) = c.setting? s := by
  cases s with
  | spacing =>
      obtain ⟨x, hx⟩ := h.spacing
      rw [setting?, hx]
      rfl
  | color k =>
      rw [setting?]
      cases hk : c.palette.get? k with
      | some x => rfl
      | none =>
          have hnot : k ∉ defaultPalette.keys := fun hmem => by
            have hsome := (Table.get_isSome_iff _ _).mpr (h.complete k hmem)
            rw [hk] at hsome
            cases hsome
          have hnone : defaultPalette.get? k = none := by
            rwa [← Option.not_isSome_iff_eq_none, Table.get_isSome_iff]
          rw [setting?, hnone]
          rfl
  | _ => rfl

/-- A configuration whose record form is a document without complaints. -/
structure IsAccepted (c : Config) : Prop where
  distinct : c.palette.keys.Nodup
  accepts : (Schema.record schema).Accepts c.toValue

theorem IsSound.isAccepted (h : c.IsSound) : c.IsAccepted :=
  ⟨h.distinct, accepts_toValue h.distinct h.accepted⟩

/-- A sound configuration is read back from its record form, setting by setting. -/
theorem exists_load_toValue (h : c.IsSound) (source : Option String) :
    ∃ r, (load c.toValue source).result = .ok r ∧ ∀ s, r.setting? s = c.setting? s := by
  have hfits : HasFittingSpacing c.toValue := by
    obtain ⟨x, hx⟩ := h.spacing
    intro k hk
    rw [reach_toValue, setting?, hx] at hk
    cases hk
  obtain ⟨r, hr⟩ := (exists_load_iff (isMapping_toValue c) source).mpr
    ⟨h.isAccepted.accepts, hfits⟩
  refine ⟨r, hr, fun s => ?_⟩
  rw [settings_of_load (isMapping_toValue c) (hasDistinctKeys_toValue h.distinct) hr,
    reach_toValue, stored_setting h]

/-! ## Updates -/

/-- To change a configuration is to load its record form with the change laid over it. -/
theorem merge_eq_load (ho : o.IsMapping) (base : Config) :
    base.merge o = load (o.overlay (some base.toValue)) none := by
  obtain ⟨entries, rfl⟩ := ho
  rfl

/-- A change that is accepted is a mapping. -/
theorem isMapping_of_merge (h : (base.merge o).result = .ok c) : o.IsMapping := by
  cases o with
  | mapping entries => exact ⟨entries, rfl⟩
  | _ => cases h

section Accepted

variable (hbase : base.IsAccepted) (hkeys : o.hasDistinctKeys = true)

include hbase hkeys

/-- A setting is taken from the change if it is given there, and else from the base. -/
theorem reach_update (ho : (Schema.record schema).Accepts o) (s : Setting) :
    (o.overlay (some base.toValue)).reach? s.path = (o.reach? s.path).or (base.setting? s) := by
  rw [reach_overlay s.reach_path s.isPlain_rule hbase.accepts ho hkeys, reach_toValue]

/-- An update needs an accepted document, and a spacing that fits in it or in the base. -/
theorem exists_merge_iff (ho : o.IsMapping) :
    (∃ c, (base.merge o).result = .ok c) ↔ (Schema.record schema).Accepts o ∧
      ∀ k, (o.reach? Setting.spacing.path).or (base.setting? .spacing) = some (.int k) →
        ¬ Number.IsTooLarge k := by
  rw [merge_eq_load ho, exists_load_iff (Value.isMapping_overlay (isMapping_toValue base) ho),
    accepts_overlay_some_iff _ (hasDistinctKeys_toValue hbase.distinct) hkeys hbase.accepts]
  refine and_congr_right fun hclean => ?_
  rw [HasFittingSpacing, reach_update hbase hkeys hclean]

/-- The settings after an update come from its document, else from the base. -/
theorem settings_of_merge (h : (base.merge o).result = .ok c) (s : Setting) :
    c.setting? s = (((o.reach? s.path).or (base.setting? s)).map s.stored).or
      (({} : Config).setting? s) := by
  have ho := isMapping_of_merge h
  have hclean := ((exists_merge_iff hbase hkeys ho).mp ⟨c, h⟩).1
  have hdistinct :=
    Value.hasDistinctKeys_overlay_some (hasDistinctKeys_toValue hbase.distinct) hkeys
  rw [merge_eq_load ho] at h
  rw [settings_of_load (Value.isMapping_overlay (isMapping_toValue base) ho) hdistinct h,
    reach_update hbase hkeys hclean]

end Accepted

end Config

end SpatialDiagram
