import SpatialDiagram.Config.Load
import SpatialDiagram.Proofs.Endings
import SpatialDiagram.Proofs.Scene.Amounts

/-!
# Documents without complaints

A check without complaints says of each field that its schema knows that the
value of the field has no complaints either. In this way it reaches the opacity
of the material, which is zero, one or a floating-point number.
-/

namespace SpatialDiagram

namespace Schema

theorem findingsOf_eq_nil_iff (found : List (Value × List Complaint)) :
    findingsOf found = [] ↔ ∀ f ∈ found, f.2 = [] := by
  simp only [findingsOf, List.flatMap_eq_nil_iff, List.map_eq_nil_iff]

/-- A mapping is complained of exactly if one of its entries is. -/
theorem nested_eq_nil_iff (rule : Rule) (found : List (Value × List Complaint)) :
    nested rule found = [] ↔ ∀ f ∈ found, f.2 = [] := by
  simp only [nested, List.isEmpty_iff, ← findingsOf_eq_nil_iff]
  by_cases h : findingsOf found = [] <;> simp [h]

/-- An entry under a text is checked by the schema of that name. -/
theorem fieldComplaints_str (fields : List (String × Schema)) (name : String) (v : Value) :
    fieldComplaints fields (.str name, v) =
      match fields.lookup name with
      | some s => complaints s v
      | none => [unknownField] := by
  induction fields with
  | nil => rw [fieldComplaints, List.lookup_nil]
  | cons f fields ih =>
      obtain ⟨key, s⟩ := f
      rw [fieldComplaints, List.lookup_cons, ih]
      by_cases hkey : name = key
      · simp [hkey]
      · rw [if_neg fun he => hkey (Value.str.inj he), beq_false_of_ne hkey]

/-- A record without complaints has none in its fields. -/
theorem complaints_of_field {fields : List (String × Schema)} {v w : Value} {name : String}
    {s : Schema} (h : complaints (.record fields) v = []) (hs : fields.lookup name = some s)
    (hw : v.field? name = some w) : complaints s w = [] := by
  cases v with
  | mapping entries =>
      rw [complaints, nested_eq_nil_iff] at h
      obtain ⟨before, after, rfl, -⟩ := List.lookup_eq_some_iff.mp hw
      have hmem : (Value.str name, w) ∈ before ++ (Value.str name, w) :: after := by simp
      have hfield := h _ (List.mem_map_of_mem hmem)
      simpa only [fieldComplaints_str, hs] using hfield
  | _ => cases hw

end Schema

namespace Config

open Schema

/-- A number that passes as a fraction has an exact float: the only integers there are 0 and 1. -/
theorem isExact_of_complaints {v : Value} {n : Number}
    (h : complaints (.number .unitInterval) v = []) (hn : Number.ofValue? v = some n) :
    n.IsExact := by
  have hrule : NumberRule.complaints n .unitInterval = [] := by
    cases v with
    | int k => simpa [complaints, hn] using h
    | float x => simpa [complaints, hn] using h
    | _ => cases hn
  rw [NumberRule.complaints, List.append_eq_nil_iff] at hrule
  cases n with
  | int k =>
      have hlow : 0 ≤ k := by simpa [NumberRule.isBelowZero] using hrule.1
      have hhigh : k ≤ 1 := by simpa [NumberRule.isAboveOne] using hrule.2
      obtain rfl | rfl : k = 0 ∨ k = 1 := by omega
      · exact Number.isExact_zero
      · exact Number.isExact_one
  | float x => exact Number.isExact_float x

theorem complaints_of_read {raw : Value} {source : Option String} {c : Config}
    (h : read raw source = .ok c) :
    complaints (.record schema) raw = [] ∧ ofDocument raw = .ok c := by
  cases raw with
  | mapping entries =>
      rw [read] at h
      split at h
      · rename_i hchecked
        refine ⟨?_, h⟩
        rw [complaints, nested_eq_nil_iff, ← findingsOf_eq_nil_iff]
        exact List.isEmpty_iff.mp hchecked
      · cases h
  | _ => cases h

/-- The opacity of a configuration is the one that its document gives, or the default. -/
theorem opacity_of_document {doc : Value} {c : Config} (h : ofDocument doc = .ok c) :
    c.material.opacity = (((section? (section? (doc.field? "visual") "material") "opacity").bind
      Number.ofValue?).getD (.float 0.9)) := by
  simp only [ofDocument] at h
  split at h
  · cases h
  · obtain rfl := Except.ok.inj h
    rfl

/-- A material that was loaded has an opacity that a floating-point number can hold. -/
theorem isExact_of_load {raw : Value} {source : Option String} {c : Config}
    (h : (load raw source).result = .ok c) : c.material.opacity.IsExact := by
  rw [load] at h
  split at h
  · obtain ⟨c', hread, hc⟩ := Trace.exists_of_result_bind h
    obtain rfl : c' = c := Except.ok.inj hc
    obtain ⟨hclean, hdocument⟩ := complaints_of_read hread
    rw [opacity_of_document hdocument]
    cases hn : (section? (section? (raw.field? "visual") "material") "opacity").bind
        Number.ofValue? with
    | none => exact Number.isExact_float _
    | some n =>
        obtain ⟨opacity, hopacity, hn⟩ := Option.bind_eq_some_iff.mp hn
        obtain ⟨material, hmaterial, hopacity⟩ := Option.bind_eq_some_iff.mp hopacity
        obtain ⟨visual, hvisual, hmaterial⟩ := Option.bind_eq_some_iff.mp hmaterial
        have hclean := complaints_of_field hclean rfl hvisual
        have hclean := complaints_of_field hclean rfl hmaterial
        have hclean := complaints_of_field hclean rfl hopacity
        exact isExact_of_complaints hclean hn
  · obtain rfl : ({} : Config) = c := Except.ok.inj h
    exact Number.isExact_float _

end Config

end SpatialDiagram
