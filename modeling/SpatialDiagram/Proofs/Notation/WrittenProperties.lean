import SpatialDiagram.Proofs.Notation.InlineBlocks

/-!
# Properties as they are written

A node has its properties in braces behind it or on the lines of a block below
it. Either way they hold under a key what the last pair of that key spells, if
all pairs can be read.
-/

namespace SpatialDiagram

namespace Notation

/-! ## Adding properties -/

/-- Pairs with other keys leave a property as it is. -/
theorem get_addProperties_of_not_mem {key : List Char} {pairs : List RawPair}
    (hkey : key ∉ pairs.map Prod.fst) {ps ps' : Properties}
    (h : (addProperties ps pairs).result = .ok ps') :
    ps'.get? (String.ofList key) = ps.get? (String.ofList key) := by
  induction pairs generalizing ps with
  | nil =>
      obtain rfl := Except.ok.inj h
      rfl
  | cons p pairs ih =>
      rw [List.map_cons, List.mem_cons, not_or] at hkey
      obtain ⟨ps₁, hput, hrest⟩ := Trace.exists_of_result_bind h
      obtain ⟨v, -, hput⟩ := Trace.exists_of_result_bind hput
      obtain rfl := Except.ok.inj hput
      rw [ih hkey.2 hrest, Table.get_put, if_neg]
      exact fun heq => hkey.1 (String.ofList_injective heq).symm

/-- The last pair of a key decides what the properties hold under it. -/
theorem get_addProperties {before behind : List RawPair} {key value : List Char}
    (hkey : key ∉ behind.map Prod.fst) {v : Value} (hv : (coerce value).result = .ok v)
    {ps : Properties}
    (hps : (addProperties .empty (before ++ (key, value) :: behind)).result = .ok ps) :
    ps.get? (String.ofList key) = some v := by
  rw [addProperties, Trace.result_foldlM_append] at hps
  obtain ⟨ps₁, -, hps⟩ := bind_eq_ok_iff.mp hps
  obtain ⟨ps₂, hput, hps⟩ := Trace.exists_of_result_bind hps
  obtain ⟨v', hv', hput⟩ := Trace.exists_of_result_bind hput
  obtain rfl := Except.ok.inj (hv'.symm.trans hv)
  obtain rfl := Except.ok.inj hput
  rw [get_addProperties_of_not_mem hkey hps, Table.get_put, if_pos rfl]

/-! ## Properties of a node -/

/-- The properties of a node stand in braces behind it or on the lines of a block below it. -/
inductive Writes (ps : List RawPair) : NodeHeader → Option Block → Prop
  | inline {h : NodeHeader} {block : Option Block}
      (hbody : inlineBlock? h.remainder = some ([',', ' '].intercalate (ps.map pairText))) :
      Writes ps h block
  | block {h : NodeHeader} {b : Block} (hnone : inlineBlock? h.remainder = none)
      (hlines : b.lines.map SourceLine.text = ps.map pairText) : Writes ps h (some b)

/-- The properties of a node are those that its plain pairs write. -/
theorem result_nodeProperties_of_writes {ps : List PiecedPair} (hps : ∀ p ∈ ps, p.IsPlain)
    {h : NodeHeader} {block : Option Block} (hwrites : Writes (ps.map PiecedPair.pair) h block) :
    (nodeProperties h block).result = (addProperties .empty (ps.map PiecedPair.pair)).result := by
  cases hwrites with
  | inline hbody =>
      rw [nodeProperties.eq_def, hbody]
      simp only [List.map_map]
      exact inlineProperties_of_pieces hps
  | block hnone hlines =>
      have hpairs : ∀ p ∈ ps.map PiecedPair.pair, IsPair p := by
        intro p hp
        obtain ⟨q, hq, rfl⟩ := List.mem_map.mp hp
        exact (hps q hq).isPair
      rw [nodeProperties.eq_def, hnone]
      exact blockProperties_of_pairs hpairs hlines

/-- A pair among others that can be read, of which those behind it have other keys. -/
theorem exists_properties {before behind : List RawPair}
    (hothers : ∀ p ∈ before ++ behind, IsPlainPair p ∧ ∃ v, (coerce p.2).result = .ok v)
    {p : PiecedPair} (hp : p.IsPlain) (hkey : p.key ∉ behind.map Prod.fst) {v : Value}
    (hv : (coerce p.pair.2).result = .ok v) {h : NodeHeader} {block : Option Block}
    (hwrites : Writes (before ++ p.pair :: behind) h block) :
    ∃ ps, (nodeProperties h block).result = .ok ps ∧ ps.get? (String.ofList p.key) = some v := by
  let pieced := before.map PiecedPair.ofPair ++ p :: behind.map PiecedPair.ofPair
  have hplain : ∀ q ∈ pieced, q.IsPlain := by
    intro q hq
    simp only [pieced, List.mem_append, List.mem_cons, List.mem_map] at hq
    obtain ⟨r, hr, rfl⟩ | rfl | ⟨r, hr, rfl⟩ := hq
    · exact PiecedPair.isPlain_ofPair (hothers r (List.mem_append_left behind hr)).1
    · exact hp
    · exact PiecedPair.isPlain_ofPair (hothers r (List.mem_append_right before hr)).1
  have hpairs : pieced.map PiecedPair.pair = before ++ p.pair :: behind := by
    simp [pieced, Function.comp_def, PiecedPair.pair_ofPair]
  have hresult := result_nodeProperties_of_writes hplain (hpairs ▸ hwrites)
  rw [hpairs] at hresult
  have hread : (addProperties .empty (before ++ p.pair :: behind)).failure? = none := by
    rw [failure_addProperties, List.findSome?_eq_none_iff]
    intro q hq
    apply (Trace.failure_eq_none_iff _).mpr
    rw [List.mem_append, List.mem_cons] at hq
    obtain hq | rfl | hq := hq
    · exact (hothers q (List.mem_append_left behind hq)).2
    · exact ⟨v, hv⟩
    · exact (hothers q (List.mem_append_right before hq)).2
  obtain ⟨ps, hps⟩ := (Trace.failure_eq_none_iff _).mp hread
  exact ⟨ps, hresult.trans hps, get_addProperties hkey hv hps⟩

end Notation

end SpatialDiagram
