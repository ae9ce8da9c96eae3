import SpatialDiagram.Proofs.Decimal.WrittenIntegers
import SpatialDiagram.Proofs.Notation.InlineArrays

/-!
# Lists of integers as property values

Integers may be written as an array or with commas alone. The array is read as
the list of them. Without brackets the value is no numeral, because of the
first comma, and stays the text that it is. In an inline block the array is one
piece, and the text is one piece for each integer.
-/

namespace SpatialDiagram

namespace Notation

/-- Integers with commas between them. -/
def listText (ns : List IntegerText) : List Char :=
  [',', ' '].intercalate (ns.map IntegerText.text)

def arrayText (ns : List IntegerText) : List Char := '[' :: (listText ns ++ [']'])

theorem listText_cons_cons (n m : IntegerText) (ns : List IntegerText) :
    listText (n :: m :: ns) = n.text ++ ',' :: ' ' :: listText (m :: ns) := by
  simp [listText, List.intercalate_cons_cons]

/-! ## Arrays -/

section

variable {ns : List IntegerText} (hne : ns ≠ []) (hns : ∀ n ∈ ns, n.IsProper)

include hne hns

theorem spellsItems_listText :
    Json.SpellsItems (listText ns) (ns.map fun n => .int n.value) := by
  have hnone : ∀ c ∈ ([] : List Char), Json.isSpace c = true := List.forall_mem_nil _
  have hspace : ∀ c ∈ [' '], Json.isSpace c = true := Text.forall_mem_of_all (by decide)
  induction ns with
  | nil => exact absurd rfl hne
  | cons n ns ih =>
      have hn := (hns n List.mem_cons_self).spells
      cases ns with
      | nil => simpa [listText] using Json.SpellsItems.last hn hnone
      | cons m ns =>
          have hmore := ih (List.cons_ne_nil m ns) fun k hk => hns k (List.mem_cons_of_mem n hk)
          rw [listText_cons_cons]
          exact .cons hn hnone hspace hmore

theorem spells_arrayText : Json.Spells (arrayText ns) (.list (ns.map fun n => .int n.value)) :=
  .array (List.forall_mem_nil _) (spellsItems_listText hne hns)

theorem result_coerce_arrayText :
    (coerce (arrayText ns)).result = .ok (.list (ns.map fun n => .int n.value)) := by
  have hwithin : ∀ v ∈ ns.map fun n => Value.int n.value, Json.WithinLimit v := by
    intro v hv
    obtain ⟨n, hn, rfl⟩ := List.mem_map.mp hv
    exact (hns n hn).withinLimit
  exact (result_coerce_array (spells_arrayText hne hns)).1
    ((Json.forall_leaves_list_iff .int _ _).mpr hwithin)

theorem isPlainPair_arrayText {key : List Char} (hkey : IsName key) :
    IsPlainPair (key, arrayText ns) := by
  have hspells := spells_arrayText hne hns
  have hfree : ∀ v ∈ ns.map fun n => Value.int n.value, QuoteFree v := by
    intro v hv s hs
    obtain ⟨n, -, rfl⟩ := List.mem_map.mp hv
    simp [Json.leaves] at hs
  exact ⟨isPair_array hkey hspells, hkey.plain,
    unbroken_of_spells hspells ((Json.forall_leaves_list_iff .str _ _).mpr hfree) 0⟩

end

/-! ## Texts -/

theorem isPiece_text {n : IntegerText} (hn : n.IsProper) : IsPiece n.text ∧ ':' ∉ n.text := by
  have hplain : ∀ c ∈ "-0123456789".toList, isPlain c = true ∧ c ≠ ',' :=
    Text.forall_mem_of_all (by decide)
  refine ⟨⟨hn.text_ne_nil, hn.trim_text, ?_⟩, ?_⟩
  · exact unbroken_of_plain (fun c hc => hplain c (hn.mem_text hc)) 0
  · exact fun hc => absurd (hn.mem_text hc) (by decide)

theorem mem_listText {ns : List IntegerText} (hns : ∀ n ∈ ns, n.IsProper) {c : Char}
    (hc : c ∈ listText ns) : c ∈ "-0123456789, ".toList := by
  have hchars : ∀ c ∈ "-0123456789".toList, c ∈ "-0123456789, ".toList :=
    Text.forall_mem_of_all (by decide)
  induction ns with
  | nil => exact absurd hc List.not_mem_nil
  | cons n ns ih =>
      have hn := hns n List.mem_cons_self
      have ih := ih fun m hm => hns m (List.mem_cons_of_mem n hm)
      cases ns with
      | nil =>
          have hc : c ∈ n.text := by simpa [listText] using hc
          exact hchars c (hn.mem_text hc)
      | cons m ns =>
          rw [listText_cons_cons, List.mem_append, List.mem_cons, List.mem_cons] at hc
          obtain hc | rfl | rfl | hc := hc
          · exact hchars c (hn.mem_text hc)
          · decide
          · decide
          · exact ih hc

/-- The comma behind the first digits is no part of a numeral. -/
theorem numeral_text_comma {n : IntegerText} (hn : n.IsProper) (cs : List Char) :
    numeral? (n.text ++ ',' :: cs) = none := by
  have hsign : (Decimal.sign? (n.text ++ ',' :: cs)).2 = n.digits ++ ',' :: cs :=
    congrArg Prod.snd (hn.sign_text_append (',' :: cs))
  have hrun : Text.IsRun Text.isDecimal n.digits (',' :: cs) := by
    have hdecimal : ∀ c ∈ "0123456789".toList, Text.isDecimal c = true :=
      Text.forall_mem_of_all (by decide)
    constructor
    · intro c hc
      exact hdecimal c (Decimal.mem_of_isPlainDigit (hn.digits.2 c hc))
    · intro c hc
      obtain rfl := Option.some.inj hc
      decide
  rw [numeral?, hsign]
  simp [Text.run, hrun.takeWhile, hrun.dropWhile, endsNumeral]

section

variable {n m : IntegerText} {ns : List IntegerText} (hns : ∀ k ∈ n :: m :: ns, k.IsProper)

include hns

theorem unquote_listText : unquote (listText (n :: m :: ns)) = listText (n :: m :: ns) := by
  have htexts : ∀ cs ∈ (n :: m :: ns).map IntegerText.text, cs ≠ [] ∧ Text.trim cs = cs := by
    intro cs hcs
    obtain ⟨k, hk, rfl⟩ := List.mem_map.mp hcs
    exact ⟨(hns k hk).text_ne_nil, (hns k hk).trim_text⟩
  have htrim : Text.trim (listText (n :: m :: ns)) = listText (n :: m :: ns) :=
    (trim_intercalate htexts).2
  have hquote : ∀ c ∈ "-0123456789, ".toList, isQuote c = false :=
    Text.forall_mem_of_all (by decide)
  rw [unquote, htrim]
  apply Text.stripWhile_of_ends
  · intro c hc
    exact hquote c (mem_listText hns (List.mem_of_mem_head? hc))
  · intro c hc
    exact hquote c (mem_listText hns (List.mem_of_getLast? hc))

theorem coerce_listText : coerce (listText (n :: m :: ns)) =
    .done (.str (String.ofList (listText (n :: m :: ns)))) := by
  have hnumeral : numeral? (listText (n :: m :: ns)) = none := by
    rw [listText_cons_cons]
    exact numeral_text_comma (hns n List.mem_cons_self) _
  have hbracketed : isBracketed (listText (n :: m :: ns)) = false := by
    rw [isBracketed, Bool.and_eq_false_iff, decide_eq_false_iff_not]
    refine .inl fun hhead => ?_
    exact absurd (mem_listText hns (List.mem_of_mem_head? hhead)) (by decide)
  rw [coerce, unquote_listText hns, hnumeral]
  simp only [hbracketed, Bool.false_eq_true, if_false]

end

/-- A property whose value is written with commas. -/
def listedPair (key : List Char) (n : IntegerText) (ns : List IntegerText) : PiecedPair :=
  { key, first := n.text, more := ns.map IntegerText.text }

theorem pair_listedPair (key : List Char) (n : IntegerText) (ns : List IntegerText) :
    (listedPair key n ns).pair = (key, listText (n :: ns)) := rfl

theorem isPlain_listedPair {key : List Char} (hkey : IsName key) {n : IntegerText}
    {ns : List IntegerText} (hns : ∀ k ∈ n :: ns, k.IsProper) : (listedPair key n ns).IsPlain := by
  obtain ⟨hn, hns⟩ := List.forall_mem_cons.mp hns
  constructor
  · exact ⟨hkey.isPair hn.text_ne_nil hn.trim_text, hkey.plain, (isPiece_text hn).1.unbroken⟩
  · intro cs hcs
    obtain ⟨k, hk, rfl⟩ := List.mem_map.mp hcs
    exact isPiece_text (hns k hk)

end Notation

end SpatialDiagram
