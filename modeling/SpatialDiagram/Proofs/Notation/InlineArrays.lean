import SpatialDiagram.Proofs.Json.Spelling
import SpatialDiagram.Proofs.Notation.InlineBlocks

/-!
# Arrays in inline blocks

An array is read in either form of a block. Inside an inline block the scan for
commas does not know escapes: a quotation goes up to the next quote, and so an
escaped quote ends it. An array without double quotes in its strings stays in
one piece, and then both forms agree.
-/

namespace SpatialDiagram

namespace Notation

open Json (SpellsItems SpellsText NumberText leaves WithinLimit)

/-! ## Arrays in one piece -/

/-- No string in a value has a double quote. -/
def QuoteFree (v : Value) : Prop := ∀ s : String, .str s ∈ leaves v → '"' ∉ s.toList

/-- A text between two characters of which the second undoes what the first did. -/
theorem unbroken_enclosed {pos inner : Position} {opener closer : Char} {cs : List Char}
    (hopener : opener ≠ ',' ∧ pos.advance opener = inner) (h : Unbroken inner cs)
    (hcloser : closer ≠ ',' ∧ inner.advance closer = pos) :
    Unbroken pos (opener :: (cs ++ [closer])) := by
  constructor
  · refine ⟨fun heq => absurd heq hopener.1, ?_⟩
    rw [hopener.2, encloses_append_iff]
    exact ⟨h.encloses, fun heq => absurd heq hcloser.1, trivial⟩
  · rw [Position.after_cons, hopener.2, Position.after_append, h.settles]
    exact hcloser.2

theorem unbroken_quoted {raw : List Char} (h : '"' ∉ raw) (depth : Nat) :
    Unbroken { depth } ('"' :: (raw ++ ['"'])) := by
  have hraw : Unbroken { quote := some '"', depth } raw := by
    apply unbroken_of_advance
    intro c hc
    have hne : c ≠ '"' := ne_of_mem_of_not_mem hc h
    simp [Position.advance, hne]
  exact unbroken_enclosed ⟨by decide, rfl⟩ hraw ⟨by decide, rfl⟩

theorem unbroken_bracketed {cs : List Char} {depth : Nat}
    (h : Unbroken { depth := depth + 1 } cs) : Unbroken { depth } ('[' :: (cs ++ [']'])) :=
  unbroken_enclosed ⟨by decide, rfl⟩ h ⟨by decide, rfl⟩

theorem not_mem_of_codeUnit {x y z w : Char} {n : Nat} (h : Json.codeUnit? x y z w = some n) :
    '"' ∉ [x, y, z, w] := by
  have hquote : Json.hexValue? '"' = none := by decide
  simp only [List.mem_cons, List.not_mem_nil, or_false, not_or]
  refine ⟨?_, ?_, ?_, ?_⟩ <;> rintro rfl <;>
    simp [Json.codeUnit?, hquote] at h

/-- A double quote stands in the spelling of a string only for one in the string. -/
theorem not_mem_of_spellsText {raw cs : List Char} (h : SpellsText raw cs) (hcs : '"' ∉ cs) :
    '"' ∉ raw := by
  induction h with
  | nil => exact hcs
  | plain hc h ih =>
      rw [List.mem_cons, not_or] at hcs ⊢
      exact ⟨Ne.symm hc.2.1, ih hcs.2⟩
  | @short e c raw cs he h ih =>
      rw [List.mem_cons, not_or] at hcs
      have hne : '"' ≠ e := by
        rintro rfl
        exact hcs.1 (Option.some.inj he)
      simp [hne, ih hcs.2]
  | unit hc h ih =>
      have hdigits := not_mem_of_codeUnit hc
      rw [List.mem_cons, not_or] at hcs
      simp only [List.mem_cons, List.not_mem_nil, or_false, not_or] at hdigits
      simp [hdigits, ih hcs.2]
  | pair hhigh hlow hpair hc h ih =>
      have hdigits := not_mem_of_codeUnit hhigh
      have hdigits' := not_mem_of_codeUnit hlow
      rw [List.mem_cons, not_or] at hcs
      simp only [List.mem_cons, List.not_mem_nil, or_false, not_or] at hdigits hdigits'
      simp [hdigits, hdigits', ih hcs.2]

theorem isPlain_of_mem_number {n : NumberText} (hn : n.IsProper) :
    ∀ c ∈ n.text, isPlain c = true ∧ c ≠ ',' := by
  intro c hc
  rcases hn.mem_text hc with hdigit | hmark
  · have hothers : ∀ d ∈ ['"', '\'', '[', ']', '(', ')', ','], c ≠ d :=
      Text.ne_of_any_eq_false hdigit (by decide)
    simp only [List.forall_mem_cons, List.not_mem_nil, false_implies, implies_true] at hothers
    simp [isPlain, isQuote, hothers]
  · have hmarks : ∀ c ∈ NumberText.marks, isPlain c = true ∧ c ≠ ',' :=
      Text.forall_mem_of_all (by decide)
    exact hmarks c hmark

theorem unbroken_gap {gap : List Char} (h : ∀ c ∈ gap, Json.isSpace c = true) (depth : Nat) :
    Unbroken { depth } gap := by
  apply unbroken_of_plain _ depth
  intro c hc
  have hspace := h c hc
  simp only [Json.isSpace, Bool.or_eq_true, decide_eq_true_eq] at hspace
  rcases hspace with ((rfl | rfl) | rfl) | rfl <;> decide

mutual

theorem unbroken_of_spells {t : List Char} {v : Value} (h : Json.Spells t v) (hv : QuoteFree v)
    (depth : Nat) : Unbroken { depth } t := by
  cases h with
  | null => exact unbroken_of_plain (Text.forall_mem_of_all (by decide)) depth
  | bool b => cases b <;> exact unbroken_of_plain (Text.forall_mem_of_all (by decide)) depth
  | number n hn => exact unbroken_of_plain (isPlain_of_mem_number hn) depth
  | @str raw cs h =>
      have hcs : '"' ∉ cs := by simpa [leaves] using hv (String.ofList cs)
      exact unbroken_quoted (not_mem_of_spellsText h hcs) depth
  | empty hgap => exact unbroken_bracketed (unbroken_gap hgap (depth + 1))
  | @array gap ts vs hgap h =>
      have hvs : ∀ v ∈ vs, QuoteFree v := (Json.forall_leaves_list_iff .str _ vs).mp hv
      have hinside := (unbroken_gap hgap (depth + 1)).append (unbroken_of_spellsItems h hvs depth)
      rw [← List.append_assoc]
      exact unbroken_bracketed hinside

/-- Between items stand commas, which count only where no bracket is open. -/
theorem unbroken_of_spellsItems {ts : List Char} {vs : List Value} (h : SpellsItems ts vs)
    (hvs : ∀ v ∈ vs, QuoteFree v) (depth : Nat) : Unbroken { depth := depth + 1 } ts := by
  cases h with
  | last h hgap =>
      exact (unbroken_of_spells h (hvs _ List.mem_cons_self) (depth + 1)).append
        (unbroken_gap hgap (depth + 1))
  | cons h hgap hgap' hitems =>
      have hfirst := unbroken_of_spells h (hvs _ List.mem_cons_self) (depth + 1)
      have hmore := unbroken_of_spellsItems hitems (fun v hv => hvs v (List.mem_cons_of_mem _ hv))
        depth
      have hcomma : Unbroken { depth := depth + 1 } [','] :=
        ⟨⟨fun _ => by simp, trivial⟩, rfl⟩
      exact hfirst.append ((unbroken_gap hgap (depth + 1)).append
        (hcomma.append ((unbroken_gap hgap' (depth + 1)).append hmore)))

end

/-! ## Reading arrays -/

section

variable {last : Char} (hlast : Text.isBlank last = false ∧ isQuote last = false) (cs : List Char)

include hlast

theorem trim_bracket : Text.trim ('[' :: (cs ++ [last])) = '[' :: (cs ++ [last]) := by
  apply (Text.trim_eq_self_iff _).mpr
  constructor
  · intro c hc
    obtain rfl := Option.some.inj hc
    decide
  · intro c hc
    rw [← List.cons_append, List.getLast?_concat] at hc
    obtain rfl := Option.some.inj hc
    exact hlast.1

theorem unquote_bracket : unquote ('[' :: (cs ++ [last])) = '[' :: (cs ++ [last]) := by
  rw [unquote, trim_bracket hlast]
  apply Text.stripWhile_of_ends
  · intro c hc
    obtain rfl := Option.some.inj hc
    decide
  · intro c hc
    rw [← List.cons_append, List.getLast?_concat] at hc
    obtain rfl := Option.some.inj hc
    exact hlast.2

end

theorem numeral_bracket (cs : List Char) : numeral? ('[' :: cs) = none := by
  have hbracket : Text.isDecimal '[' = false := by decide
  simp [numeral?, Decimal.sign?, Text.run, hbracket]

/-- A text that begins like an array and ends otherwise stays a text. -/
theorem coerce_unfinished {last : Char} (hlast : Text.isBlank last = false ∧ isQuote last = false)
    (hopen : last ≠ ']') (cs : List Char) : coerce ('[' :: (cs ++ [last])) =
      .done (.str (String.ofList ('[' :: (cs ++ [last])))) := by
  have hbracketed : isBracketed ('[' :: (cs ++ [last])) = false := by
    rw [isBracketed, ← List.cons_append, List.getLast?_concat]
    simp [hopen]
  rw [coerce, unquote_bracket hlast, numeral_bracket]
  simp only [hbracketed, Bool.false_eq_true, if_false]

section

variable {t : List Char} {vs : List Value} (ht : Json.Spells t (.list vs))

include ht

theorem result_coerce_array :
    (WithinLimit (.list vs) → (coerce t).result = .ok (.list vs)) ∧
      (¬ WithinLimit (.list vs) → ∃ f, (coerce t).result = .error f) := by
  obtain ⟨cs, rfl⟩ := ht.exists_inside
  obtain ⟨hread, hrefused⟩ := ht.read
  have hbracketed : isBracketed ('[' :: (cs ++ [']'])) = true := by
    rw [isBracketed, ← List.cons_append, List.getLast?_concat]
    simp
  rw [coerce, unquote_bracket (by decide), numeral_bracket]
  simp only [hbracketed, if_true]
  constructor
  · intro hwithin
    rw [hread hwithin]
    rfl
  · intro hwithin
    obtain ⟨n, hn⟩ := hrefused hwithin
    rw [hn]
    exact ⟨_, rfl⟩

/-- What an array and an integer behind it state. -/
theorem result_addProperties_array {key : List Char} (hkey : key ≠ ['z']) :
    (addProperties .empty [(key, t), (['z'], ['1'])]).result =
        .ok ⟨[(String.ofList key, .list vs), ("z", .int 1)]⟩ ↔ WithinLimit (.list vs) := by
  have hinteger : coerce ['1'] = .done (.int 1) := by rfl
  have hname : String.ofList key ≠ "z" := by
    intro heq
    exact hkey (String.ofList_injective heq)
  obtain ⟨hread, hrefused⟩ := result_coerce_array ht
  have hresult : (addProperties .empty [(key, t), (['z'], ['1'])]).result =
      (coerce t).result.map fun v => ⟨[(String.ofList key, v), ("z", .int 1)]⟩ := by
    have hput (v : Value) : (Table.empty.put (String.ofList key) v).put "z" (.int 1) =
        ⟨[(String.ofList key, v), ("z", .int 1)]⟩ := by
      simp [Table.put, Table.empty, Keyed.put, hname]
    simp only [addProperties, List.foldlM_cons, List.foldlM_nil, addProperty, Trace.result_bind,
      hinteger]
    cases (coerce t).result with
    | error f => rfl
    | ok v => exact congrArg Except.ok (hput v)
  rw [hresult]
  constructor
  · intro hok
    by_contra hwithin
    obtain ⟨f, hf⟩ := hrefused hwithin
    rw [hf] at hok
    cases hok
  · intro hwithin
    rw [hread hwithin]
    rfl

end

/-! ## Both forms -/

/-- A name in a block: neither blank nor cut nor quoted. Every identifier is one. -/
structure IsName (key : List Char) : Prop where
  ne_nil : key ≠ []
  chars : ∀ c ∈ key, Text.isBlank c = false ∧ isPlain c = true ∧ c ∉ [',', ':']

theorem isName_of_identifier {key : List Char} (hne : key ≠ [])
    (h : ∀ c ∈ key, isIdentifier c = true) : IsName key := by
  refine ⟨hne, ?_⟩
  intro c hc
  have hothers : ∀ d ∈ ['"', '\'', '[', ']', '(', ')', ',', ':'], c ≠ d :=
    Text.ne_of_any_eq_false (h c hc) (by decide)
  simp only [List.forall_mem_cons, List.not_mem_nil, false_implies, implies_true] at hothers
  refine ⟨isBlank_of_isIdentifier (h c hc), ?_, ?_⟩ <;> simp [isPlain, isQuote, hothers]

namespace IsName

variable {key : List Char} (hkey : IsName key)

include hkey

theorem isPair {value : List Char} (hne : value ≠ []) (htrim : Text.trim value = value) :
    IsPair (key, value) := by
  refine ⟨hkey.ne_nil, ?_, ?_, hne, htrim⟩
  · apply (Text.trim_eq_self_iff key).mpr
    exact ⟨fun c hc => (hkey.chars c (List.mem_of_mem_head? hc)).1,
      fun c hc => (hkey.chars c (List.mem_of_getLast? hc)).1⟩
  · intro hc
    exact absurd (hkey.chars ':' hc).2.2 (by decide)

theorem plain : ∀ c ∈ key, isPlain c = true ∧ c ≠ ',' := by
  intro c hc
  obtain ⟨-, hplain, hcut⟩ := hkey.chars c hc
  exact ⟨hplain, fun heq => hcut (heq ▸ List.mem_cons_self)⟩

end IsName

/-- Behind an open quotation or bracket no plain text is cut. -/
theorem encloses_behind {pos : Position} (hpos : pos ≠ {}) (hsound : pos.IsSound) {cs : List Char}
    (hcs : ∀ c ∈ cs, isPlain c = true) : Encloses pos cs := by
  apply Unbroken.encloses
  apply unbroken_of_advance
  intro c hc
  exact ⟨hsound.advance_plain (hcs c hc), fun _ => hpos⟩

theorem inlineProperties_of_encloses {p : RawPair} (hp : IsPair p) (h : Encloses {} (pairText p)) :
    (inlineProperties (pairText p)).result = (addProperties .empty [p]).result := by
  have hpieces : splitTopLevel (· = ',') (pairText p) = [pairText p] := by
    rw [splitTopLevel_eq, cutFrom_of_encloses h, List.map_singleton, hp.trimmed,
      List.filter_cons_of_pos (by simpa using pairText_ne_nil p), List.filter_nil]
  have hpairs : inlinePairs [] [pairText p] = .done [p] := by
    rw [inlinePairs.eq_def]
    simp only [hp.splitColon]
    rfl
  have hkept : ([p].filter fun p => !p.1.isEmpty && !p.2.isEmpty) = [p] := by
    simp [hp.key_ne_nil, hp.value_ne_nil]
  rw [inlineProperties, hpieces, hpairs]
  change (addProperties .empty ([p].filter _)).result = _
  rw [hkept]

section

variable {key t : List Char} {vs : List Value} (hkey : IsName key)
  (ht : Json.Spells t (.list vs))

include hkey ht

theorem isPair_array : IsPair (key, t) := by
  obtain ⟨cs, rfl⟩ := ht.exists_inside
  exact hkey.isPair (List.cons_ne_nil _ _) (trim_bracket (by decide) cs)

theorem inline_of_unbroken (hscan : Unbroken {} t) :
    (inlineProperties (pairText (key, t) ++ ", z: 1".toList)).result =
      (addProperties .empty [(key, t), (['z'], ['1'])]).result := by
  have hpairs : ∀ p ∈ [(key, t), (['z'], ['1'])], IsPlainPair p := by
    intro p hp
    simp only [List.mem_cons, List.not_mem_nil, or_false] at hp
    rcases hp with rfl | rfl
    · exact ⟨isPair_array hkey ht, hkey.plain, hscan⟩
    · decide
  have hbody : pairText (key, t) ++ ", z: 1".toList =
      [',', ' '].intercalate ([(key, t), (['z'], ['1'])].map pairText) := by
    simp [pairText, List.intercalate]
  rw [hbody, inlineProperties_of_plain hpairs]

theorem inline_of_unsettled (hscan : Encloses {} t) (hopen : Position.after {} t ≠ {}) :
    (inlineProperties (pairText (key, t) ++ ", z: 1".toList)).result =
      .ok ⟨[(String.ofList key, .str (String.ofList (t ++ ", z: 1".toList)))]⟩ := by
  obtain ⟨cs, hcs⟩ := ht.exists_inside
  have hends : t ++ ", z: 1".toList = '[' :: (cs ++ "], z: ".toList ++ ['1']) := by
    rw [hcs]
    simp
  have hpair : IsPair (key, t ++ ", z: 1".toList) := by
    rw [hends]
    exact hkey.isPair (List.cons_ne_nil _ _) (trim_bracket (by decide) _)
  have hencloses : Encloses {} (pairText (key, t ++ ", z: 1".toList)) := by
    have hname := unbroken_key hkey.plain
    have hplain : ∀ c ∈ ", z: 1".toList, isPlain c = true := Text.forall_mem_of_all (by decide)
    have hbehind := encloses_behind hopen ((Position.isSound_unquoted 0).after t) hplain
    have hsplit : pairText (key, t ++ ", z: 1".toList) =
        (key ++ [':', ' ']) ++ (t ++ ", z: 1".toList) := by
      simp [pairText]
    have hvalue := (encloses_append_iff {} t ", z: 1".toList).mpr ⟨hscan, hbehind⟩
    rw [hsplit]
    exact (encloses_append_iff {} _ _).mpr ⟨hname.encloses, by rwa [hname.settles]⟩
  have hbody : pairText (key, t) ++ ", z: 1".toList = pairText (key, t ++ ", z: 1".toList) := by
    simp [pairText]
  rw [hbody, inlineProperties_of_encloses hpair hencloses, addProperties, List.foldlM_cons,
    Trace.result_bind, addProperty, hends, coerce_unfinished (by decide) (by decide)]
  rfl

end

/-- An array with an integer behind it. On lines of their own the two are read unless an integer in
the array has too many digits. In an inline block they are read likewise if no string in the array
has a double quote, and in general only if the scan is not left within a quotation or a bracket. -/
theorem inlineProperties_of_array {key t : List Char} {vs : List Value} {b : Block}
    (hkey : IsName key) (hz : key ≠ ['z']) (ht : Json.Spells t (.list vs))
    (hlines : b.lines.map SourceLine.text = [pairText (key, t), "z: 1".toList]) :
    let expected : Properties := ⟨[(String.ofList key, .list vs), ("z", .int 1)]⟩
    let inline := (inlineProperties (pairText (key, t) ++ ", z: 1".toList)).result
    ((blockProperties b).result = .ok expected ↔ WithinLimit (.list vs)) ∧
      (QuoteFree (.list vs) → inline = (blockProperties b).result) ∧
      (Encloses {} t →
        (inline = .ok expected ↔ Position.after {} t = {} ∧ WithinLimit (.list vs))) ∧
      (Encloses {} t → Position.after {} t ≠ {} →
        inline = .ok ⟨[(String.ofList key, .str (String.ofList (t ++ ", z: 1".toList)))]⟩) := by
  intro expected inline
  have hpairs : ∀ p ∈ [(key, t), (['z'], ['1'])], IsPair p := by
    intro p hp
    simp only [List.mem_cons, List.not_mem_nil, or_false] at hp
    rcases hp with rfl | rfl
    · exact isPair_array hkey ht
    · decide
  have hblock : (blockProperties b).result =
      (addProperties .empty [(key, t), (['z'], ['1'])]).result :=
    blockProperties_of_pairs hpairs hlines
  have hread : (addProperties .empty [(key, t), (['z'], ['1'])]).result = .ok expected ↔
      WithinLimit (.list vs) := result_addProperties_array ht hz
  have hunsettled : Encloses {} t → Position.after {} t ≠ {} → inline = .ok _ :=
    inline_of_unsettled hkey ht
  refine ⟨by rw [hblock]; exact hread, ?_, ?_, hunsettled⟩
  · intro hfree
    rw [hblock]
    exact inline_of_unbroken hkey ht (unbroken_of_spells ht hfree 0)
  · intro hencloses
    by_cases hsettled : Position.after {} t = {}
    · have hinline := inline_of_unbroken hkey ht ⟨hencloses, hsettled⟩
      rw [← hread, ← hinline]
      exact (and_iff_right hsettled).symm
    · -- One property is there where two are expected.
      rw [hunsettled hencloses hsettled]
      constructor
      · intro hok
        have hlength := congrArg (fun ps : Properties => ps.entries.length) (Except.ok.inj hok)
        cases hlength
      · exact fun h => absurd h.1 hsettled

/-- An array between two other pairs. -/
theorem inlineProperties_of_array_comma :
    let t := "[\"x, y\", 1]".toList
    let vs : List Value := [.str "x, y", .int 1]
    let b : Block := ⟨[⟨1, pairText (['k'], t)⟩, ⟨2, "z: 1".toList⟩], true⟩
    (IsName ['k'] ∧ ['k'] ≠ ['z'] ∧ Json.Spells t (.list vs) ∧
        b.lines.map SourceLine.text = [pairText (['k'], t), "z: 1".toList]) ∧
      (inlineProperties (pairText (['k'], t) ++ ", z: 1".toList)).result =
        .ok ⟨[("k", .list vs), ("z", .int 1)]⟩ := by
  intro t vs b
  have hname : IsName ['k'] :=
    isName_of_identifier (by decide) (Text.forall_mem_of_all (by decide))
  have hstring : Json.Spells "\"x, y\"".toList (.str "x, y") :=
    .str (.plain (by decide) (.plain (by decide) (.plain (by decide) (.plain (by decide) .nil))))
  have hnone : ∀ c ∈ ([] : List Char), Json.isSpace c = true := List.forall_mem_nil _
  have hblank : ∀ c ∈ [' '], Json.isSpace c = true := Text.forall_mem_of_all (by decide)
  have hproper : (⟨false, ['1'], none, none⟩ : NumberText).IsProper :=
    ⟨⟨by decide, Text.forall_mem_of_all (by decide)⟩, by decide, nofun, nofun, nofun, nofun⟩
  have hitems : SpellsItems "\"x, y\", 1".toList vs :=
    .cons hstring hnone hblank (.last (.number _ hproper) hnone)
  have ht : Json.Spells t (.list vs) := .array hnone hitems
  have hwithin : WithinLimit (.list vs) := by
    intro n hn
    obtain rfl : n = 1 := by simpa [vs, leaves, Json.leavesOf] using hn
    exact Nat.one_lt_pow (by decide) (by decide)
  have hboth := (inlineProperties_of_array (b := b) hname (by decide) ht rfl).2.2.1 (by decide)
  exact ⟨⟨hname, by decide, ht, rfl⟩, hboth.mpr ⟨by decide, hwithin⟩⟩

/-- An escaped quote in an array makes what stands behind the array a part of it. -/
theorem escaped_quote_keeps_text :
    let t := "[\"a\\\"b\"]".toList
    Json.Spells t (.list [.str "a\"b"]) ∧
      (inlineProperties (pairText (['k'], t) ++ ", z: 1".toList)).result =
        .ok ⟨[("k", .str "[\"a\\\"b\"], z: 1")]⟩ ∧
      (inlineProperties (pairText (['k'], t) ++ ", z: 1".toList)).result ≠
        .ok ⟨[("k", .list [.str "a\"b"]), ("z", .int 1)]⟩ := by
  intro t
  have hstring : Json.Spells "\"a\\\"b\"".toList (.str "a\"b") :=
    .str (.plain (by decide) (.short rfl (.plain (by decide) .nil)))
  have hnone : ∀ c ∈ ([] : List Char), Json.isSpace c = true := List.forall_mem_nil _
  have hitems : SpellsItems "\"a\\\"b\"".toList [.str "a\"b"] := .last hstring hnone
  have ht : Json.Spells t (.list [.str "a\"b"]) := .array hnone hitems
  have hname : IsName ['k'] :=
    isName_of_identifier (by decide) (Text.forall_mem_of_all (by decide))
  have hresult := inline_of_unsettled hname ht (by decide) (by decide)
  refine ⟨ht, hresult, ?_⟩
  rw [hresult]
  intro hok
  have hlength := congrArg (fun ps : Properties => ps.entries.length) (Except.ok.inj hok)
  cases hlength

end Notation

end SpatialDiagram
