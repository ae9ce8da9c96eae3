import SpatialDiagram.Proofs.Notation.Reference
import SpatialDiagram.Proofs.Notices

/-!
# Values of properties

Every property of a parsed node holds a value that was read from a raw text. It
is a number, a text or a list, since a bracketed text is an array if it is JSON
at all.
-/

namespace SpatialDiagram

namespace Notation

/-! ## What raw texts are read as -/

/-- A number, a text or a list. -/
inductive IsRead : Value → Prop where
  | int (k : Int) : IsRead (.int k)
  | float (x : Float) : IsRead (.float x)
  | str (s : String) : IsRead (.str s)
  | list (items : List Value) : IsRead (.list items)

theorem exists_list_of_value {fuel : Nat} {rest left : List Char} {v : Value}
    (h : Json.value fuel ('[' :: rest) = .ok (v, left)) : ∃ items, v = .list items := by
  cases fuel with
  | zero => cases h
  | succ fuel =>
      rw [Json.value.eq_def] at h
      simp only at h
      split at h
      · obtain ⟨rfl, -⟩ := Prod.mk.inj (Except.ok.inj h)
        exact ⟨[], rfl⟩
      · cases hitems : Json.items fuel (Json.skipSpace rest) with
        | error e => rw [hitems] at h; cases h
        | ok r =>
            rw [hitems] at h
            obtain ⟨rfl, -⟩ := Prod.mk.inj (Except.ok.inj h)
            exact ⟨r.1, rfl⟩

/-- What begins with a bracket is read as a list. -/
theorem exists_list_of_read {rest : List Char} {v : Value} (h : Json.read ('[' :: rest) = .ok v) :
    ∃ items, v = .list items := by
  have hspace : Json.skipSpace ('[' :: rest) = '[' :: rest := rfl
  rw [Json.read, if_neg (by simp), hspace] at h
  cases hvalue : Json.value (2 * ('[' :: rest).length + 1) ('[' :: rest) with
  | error e => rw [hvalue] at h; cases h
  | ok r =>
      obtain ⟨v', left⟩ := r
      simp only [hvalue, bind, Except.bind] at h
      split at h
      · obtain rfl := Except.ok.inj h
        exact exists_list_of_value hvalue
      · cases h

/-- A property value is read as a value that a property can have. -/
theorem isRead_of_coerce {raw : List Char} {v : Value} (h : (coerce raw).result = .ok v) :
    IsRead v := by
  rw [coerce] at h
  split at h
  · split at h
    · cases h
    · obtain rfl := Except.ok.inj h
      exact .int _
  · obtain rfl := Except.ok.inj h
    cases Decimal.readFloat? (unquote raw) with
    | none => exact .str _
    | some x => exact .float x
  · split at h
    · rename_i hbracketed
      split at h
      · rename_i v' hread
        obtain rfl := Except.ok.inj h
        rw [isBracketed, Bool.and_eq_true, decide_eq_true_eq] at hbracketed
        obtain ⟨rest, hrest⟩ := List.head?_eq_some_iff.mp hbracketed.1
        rw [hrest] at hread
        obtain ⟨items, rfl⟩ := exists_list_of_read hread
        exact .list items
      · cases h
      · obtain rfl := Except.ok.inj h
        exact .str _
    · obtain rfl := Except.ok.inj h
      exact .str _

/-! ## Properties of nodes -/

/-- Every property has a value that the reading of a property can give. -/
def AllRead (ps : Properties) : Prop := ∀ name v, ps.get? name = some v → IsRead v

theorem allRead_empty : AllRead .empty := fun _ _ h => by cases h

theorem allRead_addProperty {ps ps' : Properties} (hps : AllRead ps) {p : RawPair}
    (h : (addProperty ps p).result = .ok ps') : AllRead ps' := by
  obtain ⟨v, hv, hput⟩ := Trace.exists_of_result_bind h
  obtain rfl := Except.ok.inj hput
  intro name v' hv'
  rw [Table.get_put] at hv'
  split at hv'
  · obtain rfl := Option.some.inj hv'
    exact isRead_of_coerce hv
  · exact hps name v' hv'

theorem allRead_addProperties {pairs : List RawPair} {ps : Properties}
    (h : (addProperties .empty pairs).result = .ok ps) : AllRead ps :=
  Trace.foldlM_induction (fun _ ps => AllRead ps) allRead_empty
    (fun _ _ _ _ _ _ hps hp => allRead_addProperty hps hp) h

/-- The properties of a node all have values that a property can have. -/
theorem allRead_nodeProperties {h : NodeHeader} {block : Option Block} {ps : Properties}
    (hps : (nodeProperties h block).result = .ok ps) : AllRead ps := by
  rw [nodeProperties.eq_def] at hps
  split at hps
  · obtain ⟨pairs, -, hadd⟩ := Trace.exists_of_result_bind hps
    exact allRead_addProperties hadd
  · rw [result_blockProperties] at hps
    exact allRead_addProperties hps
  · obtain rfl := Except.ok.inj hps
    exact allRead_empty

namespace Diagram

/-- A statement keeps all properties of the diagram such values. -/
theorem allRead_declare {d d' : Diagram} {s : Statement} (h : (d.declare s).result = .ok d')
    (hd : ∀ n ∈ d.nodes, AllRead n.properties) : ∀ n ∈ d'.nodes, AllRead n.properties := by
  cases declares_of_ok h with
  | silent _ => exact hd
  | @field field _ _ => cases field <;> exact hd
  | node _ hproperties =>
      intro n hn
      rcases List.mem_append.mp hn with hn | hn
      · exact hd n hn
      · obtain rfl := List.mem_singleton.mp hn
        exact allRead_nodeProperties hproperties
  | connection _ => exact hd
  | metadata _ => exact hd

/-- All properties of the nodes of a parsed diagram hold numbers, texts and lists. -/
theorem allRead_of_parse {source : Value} {d : Diagram} (h : (parse source).result = .ok d) :
    ∀ n ∈ d.nodes, AllRead n.properties := by
  cases source with
  | str text =>
      rw [result_parse] at h
      exact Trace.foldlM_induction (fun _ d => ∀ n ∈ d.nodes, AllRead n.properties)
        (fun n hn => absurd hn List.not_mem_nil)
        (fun _ _ _ _ _ _ hd hs => allRead_declare hs hd) h
  | _ => cases h

end Diagram

end Notation

end SpatialDiagram
