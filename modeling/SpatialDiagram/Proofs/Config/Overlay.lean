import SpatialDiagram.Config.Merge
import SpatialDiagram.Proofs.Config.CheckedDocuments

/-!
# Documents laid over documents

A mapping has each of its keys once. Laid over another one, it decides about the
keys it has, and the lower one about the rest, at every depth. Hence a document
laid over one without complaints has complaints exactly if it has some itself,
and what stands at the end of a path is what the upper document has there, or
else what the lower one has.
-/

namespace SpatialDiagram

namespace Value

/-! ## Keys that occur once -/

mutual

/-- Whether every mapping inside a value has each of its keys once. -/
def hasDistinctKeys : Value → Bool
  | mapping entries => (entries.map Prod.fst).Nodup && haveDistinctKeys entries
  | _ => true

def haveDistinctKeys : List (Value × Value) → Bool
  | [] => true
  | (_, v) :: rest => hasDistinctKeys v && haveDistinctKeys rest

end

theorem haveDistinctKeys_iff (entries : List (Value × Value)) :
    haveDistinctKeys entries = true ↔ ∀ e ∈ entries, e.2.hasDistinctKeys = true := by
  induction entries with
  | nil => simp [haveDistinctKeys]
  | cons e entries ih => rw [haveDistinctKeys, Bool.and_eq_true, ih, List.forall_mem_cons]

/-- A mapping has distinct keys if its own are distinct and its values have them. -/
theorem hasDistinctKeys_mapping_iff (entries : List (Value × Value)) :
    (mapping entries).hasDistinctKeys = true ↔
      (entries.map Prod.fst).Nodup ∧ ∀ e ∈ entries, e.2.hasDistinctKeys = true := by
  rw [hasDistinctKeys, Bool.and_eq_true, decide_eq_true_eq, haveDistinctKeys_iff]

/-! ## Look-ups -/

def IsMapping (v : Value) : Prop := ∃ entries, v = mapping entries

theorem overlay_none (v : Value) : overlay none v = v := by
  cases v <;> rw [overlay] <;> simp

/-- One mapping is laid over another entry by entry. -/
theorem overlay_mapping (base upper : List (Value × Value)) :
    overlay (some (mapping base)) (mapping upper) = mapping (overlayEntries base upper) := by
  rw [overlay]

/-- A mapping over a mapping is a mapping. -/
theorem isMapping_overlay {b u : Value} (hb : b.IsMapping) (hu : u.IsMapping) :
    (overlay (some b) u).IsMapping := by
  obtain ⟨base, rfl⟩ := hb
  obtain ⟨upper, rfl⟩ := hu
  exact ⟨_, overlay_mapping base upper⟩

/-- Only a mapping is merged into what is below it. -/
theorem overlay_of_not_isMapping {v : Value} (h : ¬ v.IsMapping) (below : Option Value) :
    overlay below v = v := by
  cases v with
  | mapping entries => exact absurd ⟨entries, rfl⟩ h
  | _ => rw [overlay]; simp

/-- Nothing is merged into a value that is no mapping. -/
theorem overlay_of_below {b : Value} (h : ¬ b.IsMapping) (v : Value) :
    overlay (some b) v = v := by
  cases b with
  | mapping entries => exact absurd ⟨entries, rfl⟩ h
  | _ => cases v <;> rw [overlay] <;> simp

/-- A key that the upper mapping gives has its value laid over the lower one; any other keeps the
lower value. -/
theorem lookup_overlayEntries {upper : List (Value × Value)} (h : (upper.map Prod.fst).Nodup)
    (base : List (Value × Value)) (k : Value) :
    (overlayEntries base upper).lookup k =
      match upper.lookup k with
      | some v => some (overlay (base.lookup k) v)
      | none => base.lookup k := by
  induction upper generalizing base with
  | nil => rw [overlayEntries, List.lookup_nil]
  | cons e upper ih =>
      obtain ⟨l, w⟩ := e
      obtain ⟨hl, hupper⟩ := List.nodup_cons.mp h
      rw [overlayEntries, ih hupper, Keyed.lookup_put, List.lookup_cons]
      by_cases hk : l = k
      · subst hk
        have hnone : upper.lookup l = none := by
          rw [Keyed.lookup_eq_find, Option.map_eq_none_iff, ← Option.not_isSome_iff_eq_none,
            Keyed.find_isSome_iff]
          exact hl
        simp [hnone]
      · rw [if_neg hk, beq_false_of_ne (Ne.symm hk)]

/-- Entries laid over distinct keys leave them distinct. -/
theorem nodup_overlayEntries {base : List (Value × Value)} (h : (base.map Prod.fst).Nodup)
    (upper : List (Value × Value)) : ((overlayEntries base upper).map Prod.fst).Nodup := by
  induction upper generalizing base with
  | nil => rwa [overlayEntries]
  | cons e upper ih =>
      rw [overlayEntries]
      exact ih (Keyed.nodup_keys_put h _)

/-- A field of a mapping laid over another one. -/
theorem field_overlay {b u : Value} (hb : b.IsMapping) (hu : u.IsMapping)
    (hkeys : u.hasDistinctKeys = true) (name : String) :
    (overlay (some b) u).field? name =
      match u.field? name with
      | some w => some (overlay (b.field? name) w)
      | none => b.field? name := by
  obtain ⟨base, rfl⟩ := hb
  obtain ⟨upper, rfl⟩ := hu
  rw [overlay_mapping]
  exact lookup_overlayEntries ((hasDistinctKeys_mapping_iff upper).mp hkeys).1 base (str name)

theorem sizeOf_lt_of_mem {entries : List (Value × Value)} {k v : Value} (h : (k, v) ∈ entries) :
    sizeOf v < sizeOf (mapping entries) := by
  have hentry := List.sizeOf_lt_of_mem h
  simp only [Prod.mk.sizeOf_spec, mapping.sizeOf_spec] at hentry ⊢
  omega

theorem hasDistinctKeys_of_lookup {entries : List (Value × Value)}
    (h : (mapping entries).hasDistinctKeys = true) {k v : Value}
    (hv : entries.lookup k = some v) : v.hasDistinctKeys = true := by
  obtain ⟨hnodup, hvalues⟩ := (hasDistinctKeys_mapping_iff entries).mp h
  exact hvalues _ ((Keyed.lookup_eq_some_iff_mem hnodup k v).mp hv)

/-- Distinct keys on all levels survive an overlay. -/
theorem hasDistinctKeys_overlay (v : Value) (hv : v.hasDistinctKeys = true)
    (below : Option Value) (hbelow : ∀ b ∈ below, b.hasDistinctKeys = true) :
    (overlay below v).hasDistinctKeys = true := by
  by_cases hm : v.IsMapping
  · obtain ⟨upper, rfl⟩ := hm
    by_cases hb : ∃ base, below = some (mapping base)
    · obtain ⟨base, rfl⟩ := hb
      have hbase := hbelow _ rfl
      have hnodup := nodup_overlayEntries ((hasDistinctKeys_mapping_iff base).mp hbase).1 upper
      have hupper := ((hasDistinctKeys_mapping_iff upper).mp hv).1
      rw [overlay_mapping, hasDistinctKeys_mapping_iff]
      refine ⟨hnodup, fun e he => ?_⟩
      have hlookup := (Keyed.lookup_eq_some_iff_mem hnodup e.1 e.2).mpr he
      rw [lookup_overlayEntries hupper] at hlookup
      cases hw : upper.lookup e.1 with
      | none =>
          rw [hw] at hlookup
          exact hasDistinctKeys_of_lookup hbase hlookup
      | some w =>
          rw [hw] at hlookup
          have hlt := sizeOf_lt_of_mem ((Keyed.lookup_eq_some_iff_mem hupper e.1 w).mp hw)
          rw [← Option.some.inj hlookup]
          exact hasDistinctKeys_overlay w (hasDistinctKeys_of_lookup hv hw) _
            fun b hb => hasDistinctKeys_of_lookup hbase hb
    · cases below with
      | none => rwa [overlay_none]
      | some b =>
          rw [overlay_of_below (fun ⟨base, hbase⟩ => hb ⟨base, congrArg some hbase⟩)]
          exact hv
  · rwa [overlay_of_not_isMapping hm]
termination_by sizeOf v

theorem hasDistinctKeys_overlay_some {b v : Value} (hb : b.hasDistinctKeys = true)
    (hv : v.hasDistinctKeys = true) : (overlay (some b) v).hasDistinctKeys = true := by
  refine hasDistinctKeys_overlay v hv (some b) fun d hd => ?_
  obtain rfl := Option.some.inj hd
  exact hb

end Value

namespace Schema

/-! ## Complaints -/

/-- A value that a schema has no complaint about. -/
def Accepts (s : Schema) (v : Value) : Prop := s.complaints v = []

instance (s : Schema) (v : Value) : Decidable (s.Accepts v) :=
  inferInstanceAs (Decidable (s.complaints v = []))

/-- The schema of the values under a key, where a schema is one of mappings. -/
def under? : Schema → Value → Option Schema
  | record fields, .str name => fields.lookup name
  | table values, .str _ => some values
  | _, _ => none

/-- Whether a schema is one of mappings. -/
def isOfMappings : Schema → Bool
  | record _ => true
  | table _ => true
  | _ => false

/-- A field is not complained of exactly if the record knows it and accepts its value. -/
theorem fieldComplaints_eq_nil_iff (fields : List (String × Schema)) (e : Value × Value) :
    fieldComplaints fields e = [] ↔
      ∃ s, (record fields).under? e.1 = some s ∧ s.Accepts e.2 := by
  obtain ⟨k, v⟩ := e
  cases k with
  | str name =>
      rw [fieldComplaints_str, under?]
      cases fields.lookup name <;> simp [Accepts]
  | _ => induction fields <;> simp_all [fieldComplaints, under?]

theorem keyComplaints_eq_nil_iff (k : Value) : keyComplaints k = [] ↔ ∃ name, k = .str name := by
  cases k <;> simp [keyComplaints]

/-- A schema of mappings accepts exactly the mappings whose every entry it accepts. -/
theorem accepts_iff_of_mappings {s : Schema} (hs : s.isOfMappings = true) (v : Value) :
    s.Accepts v ↔ ∃ entries, v = .mapping entries ∧
      ∀ e ∈ entries, ∃ s', s.under? e.1 = some s' ∧ s'.Accepts e.2 := by
  cases s with
  | text rule => cases hs
  | number rule => cases hs
  | record fields =>
      cases v with
      | mapping entries =>
          rw [Accepts, complaints, nested_eq_nil_iff, List.forall_mem_map]
          simp only [fieldComplaints_eq_nil_iff, Value.mapping.injEq, exists_eq_left']
      | _ => simp [Accepts, complaints]
  | table values =>
      cases v with
      | mapping entries =>
          rw [Accepts, complaints, List.append_eq_nil_iff, nested_eq_nil_iff, nested_eq_nil_iff,
            List.forall_mem_map, List.forall_mem_map, ← forall₂_and]
          simp only [keyComplaints_eq_nil_iff, Value.mapping.injEq, exists_eq_left']
          refine forall₂_congr fun e _ => ⟨?_, ?_⟩
          · rintro ⟨⟨name, hname⟩, hv⟩
            exact ⟨values, by rw [hname, under?], hv⟩
          · rintro ⟨s', hs', hv⟩
            obtain ⟨k, w⟩ := e
            cases k with
            | str name => exact ⟨⟨name, rfl⟩, Option.some.inj hs' ▸ hv⟩
            | _ => cases hs'
      | _ => simp [Accepts, complaints]

/-- In a mapping with distinct keys each value that is found is accepted by its schema. -/
theorem accepts_mapping_iff {s : Schema} (hs : s.isOfMappings = true)
    {entries : List (Value × Value)} (hkeys : (entries.map Prod.fst).Nodup) :
    s.Accepts (.mapping entries) ↔
      ∀ k v, entries.lookup k = some v → ∃ s', s.under? k = some s' ∧ s'.Accepts v := by
  simp only [accepts_iff_of_mappings hs, Value.mapping.injEq, exists_eq_left',
    Keyed.lookup_eq_some_iff_mem hkeys]
  exact Prod.forall

theorem not_isMapping_of_accepts {s : Schema} (hs : s.isOfMappings = false) {v : Value}
    (h : s.Accepts v) : ¬ v.IsMapping := by
  rintro ⟨entries, rfl⟩
  cases s with
  | text rule => simp [Accepts, complaints] at h
  | number rule => simp [Accepts, complaints, Number.ofValue?] at h
  | record fields => cases hs
  | table values => cases hs

theorem isMapping_of_accepts {s : Schema} (hs : s.isOfMappings = true) {v : Value}
    (h : s.Accepts v) : v.IsMapping := by
  obtain ⟨entries, hv, -⟩ := (accepts_iff_of_mappings hs v).mp h
  exact ⟨entries, hv⟩

/-- Laid over a value without complaints, a value has complaints exactly if it has some itself. -/
theorem accepts_overlay_iff (s : Schema) (v : Value) (hv : v.hasDistinctKeys = true)
    (below : Option Value) (hbelow : ∀ b ∈ below, b.hasDistinctKeys = true ∧ s.Accepts b) :
    s.Accepts (v.overlay below) ↔ s.Accepts v := by
  cases below with
  | none => rw [Value.overlay_none]
  | some b =>
      obtain ⟨hkeys, hb⟩ := hbelow b rfl
      by_cases hs : s.isOfMappings = true
      · by_cases hm : v.IsMapping
        · obtain ⟨base, rfl⟩ := isMapping_of_accepts hs hb
          obtain ⟨upper, rfl⟩ := hm
          have hupper := ((Value.hasDistinctKeys_mapping_iff upper).mp hv).1
          have hbase := ((Value.hasDistinctKeys_mapping_iff base).mp hkeys).1
          rw [accepts_mapping_iff hs hbase] at hb
          -- Under each key of the upper mapping the lower value meets the same schema.
          have hentry {k w : Value} {s' : Schema} (hw : upper.lookup k = some w)
              (hs' : s.under? k = some s') :
              s'.Accepts (w.overlay (base.lookup k)) ↔ s'.Accepts w := by
            have hlt := Value.sizeOf_lt_of_mem ((Keyed.lookup_eq_some_iff_mem hupper k w).mp hw)
            refine accepts_overlay_iff s' w (Value.hasDistinctKeys_of_lookup hv hw) _ ?_
            intro b' hb'
            obtain ⟨s'', hs'', haccepts⟩ := hb k b' hb'
            obtain rfl : s'' = s' := Option.some.inj (hs''.symm.trans hs')
            exact ⟨Value.hasDistinctKeys_of_lookup hkeys hb', haccepts⟩
          rw [Value.overlay_mapping, accepts_mapping_iff hs hupper,
            accepts_mapping_iff hs (Value.nodup_overlayEntries hbase upper)]
          refine forall_congr' fun k => ?_
          rw [Value.lookup_overlayEntries hupper]
          cases hw : upper.lookup k with
          | none => simpa using hb k
          | some w =>
              simp only [Option.some.injEq, forall_eq']
              exact exists_congr fun s' => and_congr_right fun hs' => hentry hw hs'
        · rw [Value.overlay_of_not_isMapping hm]
      · rw [Value.overlay_of_below (not_isMapping_of_accepts (Bool.eq_false_iff.mpr hs) hb)]
termination_by sizeOf v

/-- Over an accepted document, the overlay is accepted exactly if what is laid over it is. -/
theorem accepts_overlay_some_iff (s : Schema) {b v : Value} (hb : b.hasDistinctKeys = true)
    (hv : v.hasDistinctKeys = true) (haccepts : s.Accepts b) :
    s.Accepts (v.overlay (some b)) ↔ s.Accepts v := by
  refine accepts_overlay_iff s v hv (some b) fun d hd => ?_
  obtain rfl := Option.some.inj hd
  exact ⟨hb, haccepts⟩

end Schema

/-! ## Paths -/

namespace Value

/-- What stands at the end of a path of field names. -/
def reach? (v : Value) : List String → Option Value
  | [] => some v
  | name :: names => (v.field? name).bind fun w => w.reach? names

end Value

namespace Schema

/-- The schema of what stands at the end of a path. -/
def reach? (s : Schema) : List String → Option Schema
  | [] => some s
  | name :: names => (s.under? (.str name)).bind fun s' => s'.reach? names

theorem isOfMappings_of_under {s s' : Schema} {k : Value} (h : s.under? k = some s') :
    s.isOfMappings = true := by
  cases s with
  | text rule => cases h
  | number rule => cases h
  | record fields => rfl
  | table values => rfl

/-- An accepted mapping has accepted fields. -/
theorem accepts_of_field {s s' : Schema} {name : String} (hs : s.under? (.str name) = some s')
    {v w : Value} (h : s.Accepts v) (hw : v.field? name = some w) : s'.Accepts w := by
  obtain ⟨entries, rfl, hentries⟩ := (accepts_iff_of_mappings (isOfMappings_of_under hs) v).mp h
  obtain ⟨before, after, rfl, -⟩ := List.lookup_eq_some_iff.mp hw
  obtain ⟨s'', hs'', haccepts⟩ := hentries (.str name, w) (by simp)
  obtain rfl : s'' = s' := Option.some.inj (hs''.symm.trans hs)
  exact haccepts

/-- What an accepted document gives at a path is accepted by the schema at that path. -/
theorem accepts_of_reach {names : List String} {s leaf : Schema}
    (hleaf : s.reach? names = some leaf) {v w : Value} (h : s.Accepts v)
    (hw : v.reach? names = some w) : leaf.Accepts w := by
  induction names generalizing s v with
  | nil =>
      obtain rfl := Option.some.inj hleaf
      obtain rfl := Option.some.inj hw
      exact h
  | cons name names ih =>
      obtain ⟨s', hs', hleaf⟩ := Option.bind_eq_some_iff.mp hleaf
      obtain ⟨v', hv', hw⟩ := Option.bind_eq_some_iff.mp hw
      exact ih hleaf (accepts_of_field hs' h hv') hw

/-- At a path to plain values the upper of two accepted documents decides, if it has one there. -/
theorem reach_overlay {names : List String} {s leaf : Schema} (hleaf : s.reach? names = some leaf)
    (hplain : leaf.isOfMappings = false) {b u : Value} (hb : s.Accepts b) (hu : s.Accepts u)
    (hkeys : u.hasDistinctKeys = true) :
    (u.overlay (some b)).reach? names = (u.reach? names).or (b.reach? names) := by
  induction names generalizing s b u with
  | nil =>
      obtain rfl := Option.some.inj hleaf
      rw [Value.overlay_of_not_isMapping (not_isMapping_of_accepts hplain hu)]
      rfl
  | cons name names ih =>
      obtain ⟨s', hs', hleaf⟩ := Option.bind_eq_some_iff.mp hleaf
      have hs := isOfMappings_of_under hs'
      have hmapping := isMapping_of_accepts hs hu
      simp only [Value.reach?, Value.field_overlay (isMapping_of_accepts hs hb) hmapping hkeys]
      cases hw : u.field? name with
      | none => rfl
      | some w =>
          have hkeys' : w.hasDistinctKeys = true := by
            obtain ⟨entries, rfl⟩ := hmapping
            exact Value.hasDistinctKeys_of_lookup hkeys hw
          have hw' := accepts_of_field hs' hu hw
          cases hb' : b.field? name with
          | none => simp [Value.overlay_none]
          | some b' => simpa using ih hleaf (accepts_of_field hs' hb hb') hw' hkeys'

end Schema

end SpatialDiagram
