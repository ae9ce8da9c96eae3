import SpatialDiagram.Proofs.Config.Complaints
import SpatialDiagram.Proofs.Config.Settings

/-!
# Documents that are refused

A document that is not accepted is refused with the complaints about it. To say
them takes that the keys they name can be put in order, in each mapping and at
last among the fields of the document, and written out; an accepted document may
still have a spacing beyond all floating-point numbers. Nothing else ends a
loading.
-/

namespace SpatialDiagram

namespace Schema

/-! ## The complaints about the entries of a mapping -/

/-- The schema of the values under a key, whether or not the key is accepted. -/
def below? : Schema → Value → Option Schema
  | record fields, .str name => fields.lookup name
  | table values, _ => some values
  | _, _ => none

/-- The complaints about an entry of a mapping. -/
def entryComplaints (s : Schema) (e : Value × Value) : List Complaint :=
  match s with
  | record fields => fieldComplaints fields e
  | table values => keyComplaints e.1 ++ complaints values e.2
  | _ => []

/-- The findings are the complaints of every key, each with its key. -/
theorem mem_findingsOf_iff {found : List (Value × List Complaint)} {f : Finding} :
    f ∈ findingsOf found ↔ ∃ g ∈ found, g.1 = f.1 ∧ f.2 ∈ g.2 := by
  simp only [findingsOf, List.mem_flatMap, List.mem_map]
  constructor
  · rintro ⟨g, hg, c, hc, rfl⟩
    exact ⟨g, hg, rfl, hc⟩
  · rintro ⟨g, hg, hkey, hc⟩
    exact ⟨g, hg, f.2, hc, Prod.ext hkey rfl⟩

theorem mem_findingsOf_map_iff {entries : List (Value × Value)}
    {complain : Value × Value → List Complaint} {f : Finding} :
    f ∈ findingsOf (entries.map fun e => (e.1, complain e)) ↔
      ∃ e ∈ entries, e.1 = f.1 ∧ f.2 ∈ complain e := by
  rw [mem_findingsOf_iff]
  constructor
  · rintro ⟨g, hg, h⟩
    obtain ⟨e, he, rfl⟩ := List.mem_map.mp hg
    exact ⟨e, he, h⟩
  · rintro ⟨e, he, h⟩
    exact ⟨_, List.mem_map_of_mem he, h⟩

/-- A mapping with findings is complained of once, by all of them together. -/
theorem mem_nested_iff {rule : Rule} {found : List (Value × List Complaint)} {c : Complaint} :
    c ∈ nested rule found ↔ findingsOf found ≠ [] ∧ c = .nested rule (findingsOf found) := by
  rw [nested]
  split
  · rename_i hempty
    simp [List.isEmpty_iff.mp hempty]
  · rename_i hempty
    rw [List.mem_singleton, and_iff_right fun hnil => hempty (List.isEmpty_iff.mpr hnil)]

/-- A complaint about a mapping holds others. -/
theorem exists_nested_of_mem {s : Schema} (hs : s.isOfMappings = true)
    {entries : List (Value × Value)} {c : Complaint} (hc : c ∈ s.complaints (.mapping entries)) :
    ∃ rule inner, c = .nested rule inner := by
  cases s with
  | text rule => cases hs
  | number rule => cases hs
  | record fields =>
      rw [complaints, mem_nested_iff] at hc
      exact ⟨_, _, hc.2⟩
  | table values =>
      rw [complaints, List.mem_append, mem_nested_iff, mem_nested_iff] at hc
      rcases hc with hc | hc <;> exact ⟨_, _, hc.2⟩

/-- The complaints about a mapping hold those about its entries, and no others. -/
theorem exists_nested_mem_iff {s : Schema} (hs : s.isOfMappings = true)
    {entries : List (Value × Value)} {f : Finding} :
    (∃ rule inner, .nested rule inner ∈ s.complaints (.mapping entries) ∧ f ∈ inner) ↔
      ∃ e ∈ entries, e.1 = f.1 ∧ f.2 ∈ s.entryComplaints e := by
  have hheld {found : List (Value × List Complaint)} (rule' : Rule) :
      (∃ rule inner, .nested rule inner ∈ nested rule' found ∧ f ∈ inner) ↔
        f ∈ findingsOf found := by
    simp only [mem_nested_iff, Complaint.nested.injEq]
    constructor
    · rintro ⟨_, _, ⟨-, -, rfl⟩, hf⟩
      exact hf
    · intro hf
      exact ⟨_, _, ⟨List.ne_nil_of_mem hf, rfl, rfl⟩, hf⟩
  cases s with
  | text rule => cases hs
  | number rule => cases hs
  | record fields =>
      rw [complaints, hheld, mem_findingsOf_map_iff]
      rfl
  | table values =>
      simp only [complaints, List.mem_append, or_and_right, exists_or, hheld,
        mem_findingsOf_map_iff, entryComplaints]
      simp only [and_or_left, exists_or]

/-- A key that is no text is an unknown field. -/
theorem fieldComplaints_of_not_str (fields : List (String × Schema)) {k : Value}
    (hk : ∀ name, k ≠ .str name) (v : Value) :
    fieldComplaints fields (k, v) = [unknownField] := by
  induction fields with
  | nil => rw [fieldComplaints]
  | cons f fields ih => rw [fieldComplaints, if_neg (hk f.1), ih]

/-- A complaint about an entry is about its key, or one about its value. -/
theorem mem_entryComplaints_cases {s : Schema} {e : Value × Value} {c : Complaint}
    (hc : c ∈ s.entryComplaints e) :
    (∃ rule text, c = .plain rule (some text)) ∨
      ∃ s', s.below? e.1 = some s' ∧ c ∈ s'.complaints e.2 := by
  obtain ⟨k, v⟩ := e
  cases s with
  | text rule => cases hc
  | number rule => cases hc
  | table values =>
      rcases List.mem_append.mp hc with hc | hc
      · cases k with
        | str name => cases hc
        | _ =>
            obtain rfl := List.mem_singleton.mp hc
            exact .inl ⟨_, _, rfl⟩
      · exact .inr ⟨values, rfl, hc⟩
  | record fields =>
      cases k with
      | str name =>
          rw [entryComplaints, fieldComplaints_str] at hc
          cases hs : fields.lookup name with
          | none =>
              rw [hs] at hc
              obtain rfl := List.mem_singleton.mp hc
              exact .inl ⟨_, _, rfl⟩
          | some s' =>
              rw [hs] at hc
              exact .inr ⟨s', hs, hc⟩
      | _ =>
          rw [entryComplaints, fieldComplaints_of_not_str fields (by simp)] at hc
          obtain rfl := List.mem_singleton.mp hc
          exact .inl ⟨_, _, rfl⟩

/-- What is complained of below a key is among the complaints of its entry. -/
theorem mem_entryComplaints_of_below {s s' : Schema} {k v : Value} {c : Complaint}
    (hs : s.below? k = some s') (hc : c ∈ s'.complaints v) : c ∈ s.entryComplaints (k, v) := by
  cases s with
  | text rule => cases hs
  | number rule => cases hs
  | table values =>
      obtain rfl := Option.some.inj hs
      exact List.mem_append_right _ hc
  | record fields =>
      cases k with
      | str name =>
          rw [below?] at hs
          rwa [entryComplaints, fieldComplaints_str, hs]
      | _ => cases hs

/-- A mapping is not complained of exactly if none of its entries is. -/
theorem complaints_mapping_eq_nil_iff {s : Schema} (hs : s.isOfMappings = true)
    (entries : List (Value × Value)) :
    s.complaints (.mapping entries) = [] ↔ ∀ e ∈ entries, s.entryComplaints e = [] := by
  cases s with
  | text rule => cases hs
  | number rule => cases hs
  | record fields =>
      rw [complaints, nested_eq_nil_iff, List.forall_mem_map]
      rfl
  | table values =>
      rw [complaints, List.append_eq_nil_iff, nested_eq_nil_iff, nested_eq_nil_iff,
        List.forall_mem_map, List.forall_mem_map, ← forall₂_and]
      simp only [entryComplaints, List.append_eq_nil_iff]

/-- An entry is not complained of exactly if its key is known and its value accepted. -/
theorem entryComplaints_eq_nil_iff {s : Schema} (hs : s.isOfMappings = true) (e : Value × Value) :
    s.entryComplaints e = [] ↔ ∃ s', s.under? e.1 = some s' ∧ s'.Accepts e.2 := by
  have hsingle := accepts_iff_of_mappings hs (.mapping [e])
  rw [Accepts, complaints_mapping_eq_nil_iff hs, List.forall_mem_singleton] at hsingle
  simpa only [Value.mapping.injEq, exists_eq_left', List.forall_mem_singleton] using hsingle

/-- A rule on a text complains in a text that can be shown. -/
theorem exists_plain_of_mem_textRule {rule : TextRule} {t : String} {c : Complaint}
    (hc : c ∈ rule.complaints t) : ∃ r text, c = .plain r (some text) := by
  cases rule with
  | oneOf names =>
      rw [TextRule.complaints] at hc
      split at hc
      · cases hc
      · exact ⟨_, _, List.mem_singleton.mp hc⟩
  | notEmpty =>
      rw [TextRule.complaints] at hc
      split at hc
      · exact ⟨_, _, List.mem_singleton.mp hc⟩
      · cases hc

/-- A rule on a number complains in a text that can be shown, except of an integer not above zero
with too many digits. -/
theorem exists_plain_of_mem_numberRule {rule : NumberRule} {n : Number} {c : Complaint}
    (hc : c ∈ rule.complaints n) :
    ∃ r text?, c = .plain r text? ∧ (text? = none →
      rule = .positive ∧ ∃ k : Int, n = .int k ∧ k ≤ 0 ∧ (Value.int k).isWritable = false) := by
  cases rule with
  | unitInterval =>
      have hc : (NumberRule.isBelowZero n = true ∧ c = .plain .atLeast "min value is 0") ∨
          (NumberRule.isAboveOne n = true ∧ c = .plain .atMost "max value is 1") := by
        simpa [NumberRule.complaints] using hc
      obtain ⟨-, rfl⟩ | ⟨-, rfl⟩ := hc
      · exact ⟨_, _, rfl, fun hnone => by cases hnone⟩
      · exact ⟨_, _, rfl, fun hnone => by cases hnone⟩
  | positive =>
      obtain ⟨hn, rfl⟩ : NumberRule.isAtMostZero n = true ∧
          c = .plain .whole (NumberRule.notPositive? n) := by
        simpa [NumberRule.complaints] using hc
      refine ⟨_, _, rfl, fun hnone => ⟨rfl, ?_⟩⟩
      cases n with
      | int k =>
          refine ⟨k, rfl, by simpa [NumberRule.isAtMostZero] using hn, ?_⟩
          rw [← Bool.not_eq_true]
          intro hshort
          rw [NumberRule.notPositive?, Number.toValue, if_pos hshort] at hnone
          cases hnone
      | float x => cases hnone

/-- A complaint about a value that is checked as a whole holds no others. It has its text unless it
is about a number that is too long to be shown. -/
theorem exists_plain_of_mem {s : Schema} {v : Value}
    (h : s.isOfMappings = true → ¬ v.IsMapping) {c : Complaint} (hc : c ∈ s.complaints v) :
    ∃ rule text?, c = .plain rule text? ∧ (text? = none → ∃ n : Int, s = .number .positive ∧
      v = .int n ∧ n ≤ 0 ∧ v.isWritable = false) := by
  have htext (hc : ∃ rule text, c = .plain rule (some text)) :
      ∃ rule text?, c = .plain rule text? ∧ (text? = none → ∃ n : Int, s = .number .positive ∧
        v = .int n ∧ n ≤ 0 ∧ v.isWritable = false) := by
    obtain ⟨rule, text, rfl⟩ := hc
    exact ⟨rule, text, rfl, nofun⟩
  have hsingle {rule : Rule} {text : String} (hc : c ∈ [.plain rule (some text)]) :
      ∃ rule text, c = .plain rule (some text) := ⟨rule, text, List.mem_singleton.mp hc⟩
  cases s with
  | text rule =>
      cases v with
      | str t =>
          rw [complaints] at hc
          exact htext (exists_plain_of_mem_textRule hc)
      | _ => exact htext (hsingle (by simpa only [complaints, wrongType, noNull] using hc))
  | number rule =>
      have hnumber {n : Number} (hv : v = n.toValue) (hc : c ∈ rule.complaints n) :
          ∃ r text?, c = .plain r text? ∧ (text? = none → ∃ k : Int,
            number rule = .number .positive ∧ v = .int k ∧ k ≤ 0 ∧ v.isWritable = false) := by
        obtain ⟨r, text?, rfl, hnone⟩ := exists_plain_of_mem_numberRule hc
        refine ⟨r, text?, rfl, fun h => ?_⟩
        obtain ⟨rfl, k, rfl, hk, hlong⟩ := hnone h
        exact ⟨k, rfl, hv, hk, by rw [hv]; exact hlong⟩
      cases v with
      | int n => exact hnumber (n := .int n) rfl (by simpa [complaints, Number.ofValue?] using hc)
      | float x =>
          exact hnumber (n := .float x) rfl (by simpa [complaints, Number.ofValue?] using hc)
      | _ =>
          exact htext (hsingle (by
            simpa only [complaints, Number.ofValue?, wrongType, noNull] using hc))
  | _ =>
      cases v with
      | mapping entries => exact absurd ⟨entries, rfl⟩ (h rfl)
      | _ => exact htext (hsingle (by simpa only [complaints, wrongType, noNull] using hc))

/-! ## What complaints name and hide -/

/-- The complaints about a value name a key: that of an entry with complaints, at any depth. -/
inductive Blames : Schema → Value → Value → Prop
  | entry {s : Schema} {entries : List (Value × Value)} {k v : Value} (hs : s.isOfMappings = true)
      (hmem : (k, v) ∈ entries) (h : ∀ s', s.under? k = some s' → ¬ s'.Accepts v) :
      Blames s (.mapping entries) k
  | inner {s s' : Schema} {entries : List (Value × Value)} {k v l : Value}
      (hs : s.below? k = some s') (hmem : (k, v) ∈ entries) (h : Blames s' v l) :
      Blames s (.mapping entries) l

/-- The complaints about a value have to show a number that is too long for it, at any depth. -/
inductive Hides : Schema → Value → Prop
  | number {n : Int} (hn : n ≤ 0) (h : (Value.int n).isWritable = false) :
      Hides (.number .positive) (.int n)
  | inner {s s' : Schema} {entries : List (Value × Value)} {k v : Value}
      (hs : s.below? k = some s') (hmem : (k, v) ∈ entries) (h : Hides s' v) :
      Hides s (.mapping entries)

theorem isOfMappings_of_below {s s' : Schema} {k : Value} (h : s.below? k = some s') :
    s.isOfMappings = true := by
  cases s <;> first | rfl | cases h

/-- A complaint about the value of an entry is held by one about the mapping. -/
theorem exists_nested_of_below {s s' : Schema} {entries : List (Value × Value)} {k v : Value}
    {c : Complaint} (hs : s.below? k = some s') (hmem : (k, v) ∈ entries)
    (hc : c ∈ s'.complaints v) :
    ∃ rule inner, .nested rule inner ∈ s.complaints (.mapping entries) ∧ (k, c) ∈ inner :=
  (exists_nested_mem_iff (isOfMappings_of_below hs)).mpr
    ⟨(k, v), hmem, rfl, mem_entryComplaints_of_below hs hc⟩

/-- Every key that is to blame for a refusal is named by a complaint. -/
theorem exists_names_of_blames {s : Schema} {v k : Value} (h : s.Blames v k) :
    ∃ c ∈ s.complaints v, c.Names k := by
  induction h with
  | @entry s entries k v hs hmem hbad =>
      have hne : s.entryComplaints (k, v) ≠ [] := fun hnil => by
        obtain ⟨s', hs', haccepts⟩ := (entryComplaints_eq_nil_iff hs _).mp hnil
        exact hbad s' hs' haccepts
      obtain ⟨c, hc⟩ := List.exists_mem_of_ne_nil _ hne
      obtain ⟨rule, inner, hmem', hf⟩ :=
        (exists_nested_mem_iff (f := (k, c)) hs).mpr ⟨(k, v), hmem, rfl, hc⟩
      exact ⟨_, hmem', .key hf⟩
  | inner hs hmem _ ih =>
      obtain ⟨c, hc, hk⟩ := ih
      obtain ⟨rule, inner, hmem', hf⟩ := exists_nested_of_below hs hmem hc
      exact ⟨_, hmem', .inner hf hk⟩

/-- Every key that a complaint names is to blame for the refusal. -/
theorem blames_of_names {s : Schema} {v k : Value} {c : Complaint} (hc : c ∈ s.complaints v)
    (hk : c.Names k) : s.Blames v k := by
  by_cases hplain : s.isOfMappings = true → ¬ v.IsMapping
  · obtain ⟨rule, text?, rfl, -⟩ := exists_plain_of_mem hplain hc
    exact absurd hk Complaint.not_names_plain
  · obtain ⟨hs, entries, rfl⟩ : s.isOfMappings = true ∧ v.IsMapping := by simpa using hplain
    obtain ⟨rule, inner, rfl⟩ := exists_nested_of_mem hs hc
    obtain ⟨f, hf, hk⟩ := Complaint.names_nested_iff.mp hk
    obtain ⟨⟨l, w⟩, hmem, rfl, hentry⟩ := (exists_nested_mem_iff hs).mp ⟨rule, inner, hc, hf⟩
    have hlt := Value.sizeOf_lt_of_mem hmem
    rcases hk with rfl | hk
    · refine .entry hs hmem fun s' hs' haccepts => ?_
      rw [(entryComplaints_eq_nil_iff hs _).mpr ⟨s', hs', haccepts⟩] at hentry
      cases hentry
    · rcases mem_entryComplaints_cases hentry with ⟨rule, text, hplain⟩ | ⟨s', hs', hvalue⟩
      · rw [hplain] at hk
        exact absurd hk Complaint.not_names_plain
      · exact .inner hs' hmem (blames_of_names hvalue hk)
termination_by sizeOf v

theorem names_complaints_iff (s : Schema) (v k : Value) :
    (∃ c ∈ s.complaints v, c.Names k) ↔ s.Blames v k :=
  ⟨fun ⟨_, hc, hk⟩ => blames_of_names hc hk, exists_names_of_blames⟩

/-- Spacing that cannot be shown leaves a complaint that cannot be shown. -/
theorem exists_not_isShown_of_hides {s : Schema} {v : Value} (h : s.Hides v) :
    ∃ c ∈ s.complaints v, c.isShown = false := by
  induction h with
  | @number n hn h =>
      refine ⟨.plain .whole none, ?_, rfl⟩
      simp [complaints, Number.ofValue?, NumberRule.complaints, NumberRule.isAtMostZero, hn,
        NumberRule.notPositive?, Number.toValue, h]
  | inner hs hmem _ ih =>
      obtain ⟨c, hc, hshown⟩ := ih
      obtain ⟨rule, inner, hmem', hf⟩ := exists_nested_of_below hs hmem hc
      refine ⟨_, hmem', ?_⟩
      rw [Complaint.isShown, ← Bool.not_eq_true, Complaint.areShown_iff]
      intro hall
      exact absurd (hall _ hf) (by simp [hshown])

/-- A complaint that cannot be shown comes from spacing that cannot be shown. -/
theorem hides_of_not_isShown {s : Schema} {v : Value} {c : Complaint} (hc : c ∈ s.complaints v)
    (hshown : c.isShown = false) : s.Hides v := by
  by_cases hplain : s.isOfMappings = true → ¬ v.IsMapping
  · obtain ⟨rule, text?, rfl, htext⟩ := exists_plain_of_mem hplain hc
    obtain ⟨n, rfl, rfl, hn, hlong⟩ := htext (by simpa [Complaint.isShown] using hshown)
    exact .number hn hlong
  · obtain ⟨hs, entries, rfl⟩ : s.isOfMappings = true ∧ v.IsMapping := by simpa using hplain
    obtain ⟨rule, inner, rfl⟩ := exists_nested_of_mem hs hc
    rw [Complaint.isShown, ← Bool.not_eq_true, Complaint.areShown_iff] at hshown
    obtain ⟨f, hf, hshown⟩ : ∃ f ∈ inner, f.2.isShown = false := by simpa using hshown
    obtain ⟨⟨l, w⟩, hmem, rfl, hentry⟩ := (exists_nested_mem_iff hs).mp ⟨rule, inner, hc, hf⟩
    have hlt := Value.sizeOf_lt_of_mem hmem
    rcases mem_entryComplaints_cases hentry with ⟨rule, text, hplain⟩ | ⟨s', hs', hvalue⟩
    · rw [hplain] at hshown
      cases hshown
    · exact .inner hs' hmem (hides_of_not_isShown hvalue hshown)
termination_by sizeOf v

theorem isShown_complaints_iff (s : Schema) (v : Value) :
    (∃ c ∈ s.complaints v, c.isShown = false) ↔ s.Hides v :=
  ⟨fun ⟨_, hc, hshown⟩ => hides_of_not_isShown hc hshown, exists_not_isShown_of_hides⟩

/-! ### Numbers that cannot be shown -/

theorem not_hides_text (rule : TextRule) (v : Value) : ¬ (text rule).Hides v := by
  rintro (_ | ⟨hs, -, -⟩)
  cases hs

theorem not_hides_unitInterval (v : Value) : ¬ (number .unitInterval).Hides v := by
  rintro (_ | ⟨hs, -, -⟩)
  cases hs

/-- A record hides a number in the value of one of its fields. -/
theorem exists_of_hides_record {fields : List (String × Schema)} {v : Value}
    (h : (record fields).Hides v) : ∃ entries name s w, v = .mapping entries ∧
      (name, s) ∈ fields ∧ (.str name, w) ∈ entries ∧ s.Hides w := by
  obtain _ | @⟨_, s, entries, k, w, hs, hmem, h⟩ := h
  cases k with
  | str name =>
      obtain ⟨before, after, rfl, -⟩ := List.lookup_eq_some_iff.mp hs
      exact ⟨entries, name, s, w, rfl, by simp, hmem, h⟩
  | _ => cases hs

end Schema

/-! ## How a loading ends -/

namespace Config

open Schema

/-- The keys of the entries of a document that have complaints. -/
def refusedKeys (entries : List (Value × Value)) : List Value :=
  (entries.filter fun e => !(fieldComplaints schema e).isEmpty).map Prod.fst

/-- The findings of a document are the complaints of its sections. -/
theorem mem_check_iff {entries : List (Value × Value)} {f : Finding} :
    f ∈ check schema entries ↔ ∃ e ∈ entries, e.1 = f.1 ∧ f.2 ∈ fieldComplaints schema e :=
  mem_findingsOf_map_iff

/-- The findings of a document stand under its refused keys. -/
theorem mem_keys_check_iff {entries : List (Value × Value)} {k : Value} :
    k ∈ (check schema entries).map Prod.fst ↔ k ∈ refusedKeys entries := by
  simp only [refusedKeys, List.mem_map, List.mem_filter, mem_check_iff, Bool.not_eq_true',
    List.isEmpty_eq_false_iff]
  constructor
  · rintro ⟨f, ⟨e, he, hkey, hf⟩, rfl⟩
    exact ⟨e, ⟨he, List.ne_nil_of_mem hf⟩, hkey⟩
  · rintro ⟨e, ⟨he, hne⟩, rfl⟩
    obtain ⟨c, hc⟩ := List.exists_mem_of_ne_nil _ hne
    exact ⟨(e.1, c), ⟨e, he, rfl, hc⟩, rfl⟩

/-- The refused keys can be put in order: any two of them are texts, or numbers. -/
def HasOrderedFields (entries : List (Value × Value)) : Prop :=
  ∀ k ∈ refusedKeys entries, ∀ l ∈ refusedKeys entries, k ≠ l → k.Comparable l

instance (entries : List (Value × Value)) : Decidable (HasOrderedFields entries) :=
  inferInstanceAs (Decidable (∀ k ∈ refusedKeys entries, ∀ l ∈ refusedKeys entries, _))

/-- The complaints about the entries of each mapping inside a document can be put in order. -/
def HasOrderedSections (entries : List (Value × Value)) : Prop :=
  ∀ f ∈ check schema entries, f.2.isOrderable = true

instance (entries : List (Value × Value)) : Decidable (HasOrderedSections entries) :=
  inferInstanceAs (Decidable (∀ f ∈ check schema entries, f.2.isOrderable = true))

/-- A spacing that is at most zero and whose complaint, which shows it, cannot be written out. -/
def HasUnshownSpacing (entries : List (Value × Value)) : Prop :=
  ∃ layout n, (.str "layout", .mapping layout) ∈ entries ∧ (.str "node_spacing", .int n) ∈ layout ∧
    n ≤ 0 ∧ (Value.int n).isWritable = false

/-! ### The complaints about a document -/

/-- Complaints under texts and whole numbers can be put in order. -/
theorem hasOrderedSections_of_isOrdinary {entries : List (Value × Value)}
    (h : ∀ s k v l, (Schema.record schema).below? k = some s → (k, v) ∈ entries → s.Blames v l →
      l.IsOrdinary) : HasOrderedSections entries := by
  intro f hf
  obtain ⟨⟨k, v⟩, hmem, -, hentry⟩ := mem_check_iff.mp hf
  refine Complaint.isOrderable_of_names f.2 fun l hl => ?_
  rcases mem_entryComplaints_cases (s := .record schema) hentry with ⟨rule, text, hplain⟩ |
    ⟨s, hs, hvalue⟩
  · rw [hplain] at hl
    exact absurd hl Complaint.not_names_plain
  · exact h s k v l hs hmem (blames_of_names hvalue hl)

/-- For other keys it matters which entry comes first. -/
example :
    HasOrderedSections [(.str "layout", .mapping [(.null, .int 2), (.str "algorithm", .str "")])] ∧
      ¬ HasOrderedSections
        [(.str "layout", .mapping [(.str "algorithm", .str ""), (.null, .int 2)])] := by
  decide +kernel

/-- A refused document has one complaint, made of all its findings. -/
theorem mem_complaints_schema_iff {entries : List (Value × Value)} {c : Complaint} :
    c ∈ (Schema.record schema).complaints (.mapping entries) ↔
      check schema entries ≠ [] ∧ c = .nested .fields (check schema entries) := by
  rw [complaints, mem_nested_iff]
  rfl

theorem not_hides_materialSchema (v : Value) : ¬ (Schema.record materialSchema).Hides v := by
  intro h
  obtain ⟨_, name, s, w, -, hfield, -, h⟩ := exists_of_hides_record h
  have hs : s = .number .unitInterval := by
    simp only [materialSchema, List.mem_cons, List.not_mem_nil, or_false, Prod.mk.injEq] at hfield
    rcases hfield with ⟨-, rfl⟩ | ⟨-, rfl⟩ | ⟨-, rfl⟩ <;> rfl
  exact not_hides_unitInterval w (hs ▸ h)

/-- Only the spacing of the layout section can be beyond showing. -/
theorem hides_schema_iff (entries : List (Value × Value)) :
    (Schema.record schema).Hides (.mapping entries) ↔ HasUnshownSpacing entries := by
  constructor
  · intro h
    obtain ⟨_, name, s, v, ⟨rfl⟩, hfield, hmem, h⟩ := exists_of_hides_record h
    simp only [schema, List.mem_cons, List.not_mem_nil, or_false, Prod.mk.injEq] at hfield
    rcases hfield with ⟨rfl, rfl⟩ | ⟨rfl, rfl⟩
    · obtain ⟨layout, name, s, w, rfl, hfield, hspacing, h⟩ := exists_of_hides_record h
      simp only [List.mem_cons, List.not_mem_nil, or_false, Prod.mk.injEq] at hfield
      rcases hfield with ⟨rfl, rfl⟩ | ⟨rfl, rfl⟩
      · exact absurd h (not_hides_text _ _)
      · obtain ⟨hn, hlong⟩ | ⟨hs, -, -⟩ := h
        · exact ⟨layout, _, hmem, hspacing, hn, hlong⟩
        · cases hs
    · obtain ⟨visual, name, s, w, rfl, hfield, -, h⟩ := exists_of_hides_record h
      simp only [List.mem_cons, List.not_mem_nil, or_false, Prod.mk.injEq] at hfield
      rcases hfield with ⟨rfl, rfl⟩ | ⟨rfl, rfl⟩ | ⟨rfl, rfl⟩ | ⟨rfl, rfl⟩
      · exact absurd h (not_hides_text _ _)
      · obtain _ | ⟨hs, -, h⟩ := h
        obtain rfl := Option.some.inj hs
        exact absurd h (not_hides_text _ _)
      · exact absurd h (not_hides_text _ _)
      · exact absurd h (not_hides_materialSchema _)
  · rintro ⟨layout, n, hlayout, hspacing, hn, hlong⟩
    exact .inner rfl hlayout (.inner rfl hspacing (.number hn hlong))

/-- All findings can be shown unless the spacing cannot. -/
theorem isShown_check_iff (entries : List (Value × Value)) :
    Complaint.areShown (check schema entries) = true ↔ ¬ HasUnshownSpacing entries := by
  rw [← hides_schema_iff, ← isShown_complaints_iff]
  simp only [mem_complaints_schema_iff]
  constructor
  · rintro hshown ⟨_, ⟨-, rfl⟩, hhidden⟩
    rw [Complaint.isShown, hshown] at hhidden
    cases hhidden
  · intro h
    by_cases hnil : check schema entries = []
    · rw [hnil, Complaint.areShown]
    · simpa [Complaint.isShown] using fun hhidden => h ⟨_, ⟨hnil, rfl⟩, hhidden⟩

/-- The errors can be written exactly if every key that is to blame can. -/
theorem isWritable_check_iff (entries : List (Value × Value)) :
    (Value.mapping (Complaint.entries (check schema entries))).isWritable = true ↔
      ∀ k, (Schema.record schema).Blames (.mapping entries) k → k.isWritable = true := by
  simp only [← names_complaints_iff, mem_complaints_schema_iff, Complaint.isWritable_entries_iff]
  constructor
  · rintro h k ⟨_, ⟨-, rfl⟩, hk⟩
    obtain ⟨f, hf, rfl | hk⟩ := Complaint.names_nested_iff.mp hk
    · exact (h f hf).1
    · exact (h f hf).2 k hk
  · intro h f hf
    have hne := List.ne_nil_of_mem hf
    exact ⟨h _ ⟨_, ⟨hne, rfl⟩, .key hf⟩, fun k hk => h k ⟨_, ⟨hne, rfl⟩, .inner hf hk⟩⟩

/-- The errors stand under exactly the refused keys. -/
theorem mem_errors_iff {entries : List (Value × Value)} {k : Value} :
    k ∈ (Complaint.entries (check schema entries)).map Prod.fst ↔ k ∈ refusedKeys entries := by
  rw [Complaint.mem_keys_entries_iff, mem_keys_check_iff]

/-- The errors can be sorted exactly if the refused keys have an order. -/
theorem isSome_sort_errors_iff (entries : List (Value × Value)) :
    (Sorting.sort Value.isLess?
      ((Complaint.entries (check schema entries)).map Prod.fst)).isSome = true ↔
        HasOrderedFields entries := by
  have hsymm : Std.Symm Value.Comparable := ⟨fun _ _ => Value.comparable_symm⟩
  constructor
  · intro hsort k hk l hl hkl
    obtain ⟨sorted, hsort⟩ := Option.isSome_iff_exists.mp hsort
    have hpairs := Sorting.pairwise_of_sort (fun a b => (Value.isSome_isLess_iff a b).mp)
      Value.comparable_symm Value.comparable_trans hsort
    exact hpairs.forall (mem_errors_iff.mpr hk) (mem_errors_iff.mpr hl) hkl
  · intro h
    refine Sorting.isSome_sort ((Complaint.nodup_keys_entries _).pairwise_of_forall_ne
      fun k hk l hl hkl => ?_)
    have hcomparable := h k (mem_errors_iff.mp hk) l (mem_errors_iff.mp hl) hkl
    exact ⟨(Value.isSome_isLess_iff k l).mpr hcomparable,
      (Value.isSome_isLess_iff l k).mpr (Value.comparable_symm hcomparable)⟩

/-- Comparable fields have a place among the complaints about a document. -/
theorem exists_ofMarks_check {entries : List (Value × Value)} (h : HasOrderedFields entries) :
    ∃ l, Ledger.ofMarks ((check schema entries).map Mark.ofFinding) = some l := by
  have hrefused {m : Mark} (hm : m ∈ (check schema entries).map Mark.ofFinding) :
      m.key ∈ refusedKeys entries := by
    obtain ⟨f, hf, rfl⟩ := List.mem_map.mp hm
    exact mem_keys_check_iff.mp (List.mem_map_of_mem hf)
  obtain ⟨l, hl, -⟩ := Ledger.exists_ofMarks (List.pairwise_of_forall_mem_list fun a ha b hb =>
    Mark.answers_of_keys fun hab => by
      have hcomparable := h _ (hrefused ha) _ (hrefused hb) hab
      exact ⟨Value.isSome_goesBefore_of_comparable hcomparable,
        Value.isSome_goesBefore_of_comparable (Value.comparable_symm hcomparable)⟩)
  exact ⟨l, hl⟩

/-- How complaints about a document end: they are said if each of them can be shown, those about the
entries of each mapping can be put in order, and the keys that they name can be written out. -/
theorem refusal_cases (entries : List (Value × Value)) (source : Option String) :
    let failure := refusal (check schema entries) source
    let shown := ∀ k, (Schema.record schema).Blames (.mapping entries) k → k.isWritable = true
    (¬ HasUnshownSpacing entries ∧ HasOrderedSections entries ∧ HasOrderedFields entries ∧ shown ∧
        failure = .diagnosed
          (.config (.mapping (Complaint.entries (check schema entries))) source)) ∨
      ((HasUnshownSpacing entries ∨ ¬ shown) ∧ failure = .unwritable) ∨
      ((¬ HasOrderedSections entries ∨ ¬ HasOrderedFields entries) ∧ failure = .wrongType) := by
  intro failure shown
  have hwritable := isWritable_check_iff entries
  have hsort := isSome_sort_errors_iff entries
  rcases Complaint.settleAll_cases (check schema entries) {} with
    ⟨l, hl, -, hshown, hsections⟩ | ⟨hl, hshown⟩ | ⟨hl, hbad⟩
  · have hshown := (isShown_check_iff entries).mp hshown
    have hsections := (Complaint.areOrderable_iff _).mp hsections
    by_cases hfields : HasOrderedFields entries
    · have hsorted : ¬ (Sorting.sort Value.isLess?
          ((Complaint.entries (check schema entries)).map Prod.fst)).isNone = true := by
        rw [← Option.not_isSome, Bool.not_eq_true', Bool.not_eq_false, hsort]
        exact hfields
      by_cases hkeys : shown
      · refine .inl ⟨hshown, hsections, hfields, hkeys, ?_⟩
        simp only [failure, refusal, hl, if_neg hsorted, if_pos (hwritable.mpr hkeys)]
      · refine .inr (.inl ⟨.inr hkeys, ?_⟩)
        simp only [failure, refusal, hl, if_neg hsorted, if_neg (mt hwritable.mp hkeys)]
    · refine .inr (.inr ⟨.inr hfields, ?_⟩)
      have hunsorted : (Sorting.sort Value.isLess?
          ((Complaint.entries (check schema entries)).map Prod.fst)).isNone = true := by
        rw [← Option.not_isSome, Bool.not_eq_true', ← Bool.not_eq_true, hsort]
        exact hfields
      simp only [failure, refusal, hl, if_pos hunsorted]
  · refine .inr (.inl ⟨.inl ?_, by simp only [failure, refusal, hl]⟩)
    by_contra hspacing
    rw [(isShown_check_iff entries).mpr hspacing] at hshown
    cases hshown
  · refine .inr (.inr ⟨?_, by simp only [failure, refusal, hl]⟩)
    rcases hbad with hsections | hmarks
    · refine .inl fun h => ?_
      rw [(Complaint.areOrderable_iff _).mpr h] at hsections
      cases hsections
    · refine .inr fun h => ?_
      obtain ⟨l, hl⟩ := exists_ofMarks_check h
      rw [Ledger.ofMarks, hmarks] at hl
      cases hl

/-- A document that is not accepted ends in a refusal over its findings. -/
theorem load_of_not_accepts {entries : List (Value × Value)}
    (h : ¬ (Schema.record schema).Accepts (.mapping entries)) (source : Option String) :
    (load (.mapping entries) source).result =
      .error (refusal (check schema entries) source) := by
  rw [result_load_mapping, read, if_neg (mt (check_isEmpty_iff entries).mp h)]

end Config

end SpatialDiagram
