import SpatialDiagram.Proofs.Notation.Comments
import SpatialDiagram.Proofs.Notation.ConnectionGrammar
import SpatialDiagram.Proofs.Notation.NodeGrammar

/-!
# Lines that begin with an identifier

What a line is shows in the identifier in front of it and in the character behind
that. An identifier begins no comment, and only a colon right behind it can make
it the name of a field. What is left to be asked before nodes and connections is
whether the identifier is a graph keyword with a title behind it.
-/

namespace SpatialDiagram

namespace Text

theorem isWord_of_isIdentifier {c : Char} (h : Notation.isIdentifier c = true) :
    isWord c = true := by
  obtain ⟨r, hr, hc⟩ := Notation.exists_range_of_isIdentifier h
  simp only [isWord, Bool.or_eq_true, decide_eq_true_eq, inRanges_iff]
  have htable : ∀ r ∈ [(0x30, 0x39), (0x41, 0x5a), (0x61, 0x7a)], r ∈ letterAndNumberRanges := by
    decide
  by_cases hunderscore : r = (0x5f, 0x5f)
  · obtain rfl := hunderscore
    have hcode : '_'.toNat = 0x5f := rfl
    exact Or.inl (Char.toNat_inj.mp (by omega))
  · refine Or.inr ⟨r, htable r ?_, hc⟩
    simpa [hunderscore] using hr

theorem isWord_of_isBlank {c : Char} (h : isBlank c = true) : isWord c = false := by
  obtain ⟨r, hr, hc⟩ := (inRanges_iff _ _).mp h
  have hapart : ∀ r ∈ blankRanges, ∀ s ∈ letterAndNumberRanges, s.2 < r.1 ∨ r.2 < s.1 := by
    decide +kernel
  cases hword : isWord c with
  | false => rfl
  | true =>
      simp only [isWord, Bool.or_eq_true, decide_eq_true_eq, inRanges_iff] at hword
      rcases hword with rfl | ⟨s, hs, hc'⟩
      · revert h
        decide
      · have hrs := hapart r hr s hs
        omega

end Text

namespace Notation

theorem isIdentifier_of_isWord {c : Char} (h : Text.isWord c = false) : isIdentifier c = false := by
  cases hidentifier : isIdentifier c with
  | false => rfl
  | true => simp [Text.isWord_of_isIdentifier hidentifier] at h

theorem isWord_of_opens {c : Char} (h : NodeHeader.opens c = true) : Text.isWord c = false := by
  simp only [NodeHeader.opens, Bool.or_eq_true, decide_eq_true_eq] at h
  rcases h with ((rfl | rfl) | rfl) | rfl <;> decide +kernel

theorem isIdentifier_of_mem_graphKeywords :
    ∀ k ∈ graphKeywords, ∀ c ∈ k, isIdentifier c = true := by
  have hkeywords : ∀ k ∈ graphKeywords, k.all isIdentifier = true := by decide
  intro k hk
  exact List.all_eq_true.mp (hkeywords k hk)

/-- Behind a graph keyword stands a title: leaving out the blanks in front of it, it has a line
feed at most at its end. -/
def IsTitle (rest : List Char) : Prop := '\n' ∉ (Text.skipBlanks rest).dropLast

instance (rest : List Char) : Decidable (IsTitle rest) := inferInstanceAs (Decidable (¬ _))

/-- At most one graph keyword stands at the front of a text. -/
theorem findSome_graphKeywords {k : List Char} (hk : k ∈ graphKeywords) (rest : List Char) :
    (graphKeywords.findSome? fun k' => Text.after? k' (k ++ rest)) = some rest := by
  have hfree : ∀ k ∈ graphKeywords, ∀ l ∈ graphKeywords, k <+: l → k = l := by decide
  have hsome : (graphKeywords.findSome? fun k' => Text.after? k' (k ++ rest)).isSome = true := by
    rw [List.findSome?_isSome_iff]
    exact ⟨k, hk, Option.isSome_iff_exists.mpr ⟨rest, (Text.after_eq_some_iff _ _ _).mpr rfl⟩⟩
  obtain ⟨rest', hfound⟩ := Option.isSome_iff_exists.mp hsome
  obtain ⟨l, hl, hafter⟩ := List.exists_of_findSome?_eq_some hfound
  have hline := (Text.after_eq_some_iff _ _ _).mp hafter
  have hkl : k = l := by
    have hprefix : l <+: k ++ rest := ⟨rest', hline.symm⟩
    rcases List.prefix_or_prefix_of_prefix (List.prefix_append k rest) hprefix with hkl | hlk
    · exact hfree k hk l hl hkl
    · exact (hfree l hl k hk hlk).symm
  rw [← hkl] at hline
  rw [hfound, List.append_cancel_left hline]

theorem graphTitle_of_keyword {k rest : List Char} (hk : k ∈ graphKeywords)
    (hrest : ∀ c, rest.head? = some c → Text.isWord c = false) :
    (IsTitle rest → ∃ title, graphTitle? (k ++ rest) = some title ∧ label? title = label? rest) ∧
      (¬ IsTitle rest → graphTitle? (k ++ rest) = none) := by
  have hword : ¬ (rest.head?.map Text.isWord).getD false = true := by
    cases hhead : rest.head? with
    | none => simp
    | some c => simp [hrest c hhead]
  rw [graphTitle?, findSome_graphKeywords hk, Option.bind_eq_bind, Option.bind_some, if_neg hword,
    IsTitle, ← ConnectionHeader.label_skipBlanks rest]
  simp only
  by_cases hfeed : '\n' ∈ Text.skipBlanks rest
  · obtain ⟨title, more, htext, htitle⟩ := List.eq_append_cons_of_mem hfeed
    rw [htext, (Text.isRun_until htitle more).dropWhile]
    simp only
    cases more with
    | nil =>
        have htrim : Text.trim (title ++ ['\n']) = Text.trim title :=
          Text.trim_append_right title (Text.forall_mem_of_all (by decide))
        rw [List.isEmpty_nil, if_pos rfl, List.dropLast_concat]
        exact ⟨fun _ => ⟨title, rfl, (ConnectionHeader.label_of_trim_eq htrim).symm⟩,
          fun h => absurd htitle h⟩
    | cons c more =>
        rw [List.isEmpty_cons, if_neg (by decide), List.dropLast_append_cons]
        simp
  · have hall : (Text.skipBlanks rest).dropWhile (fun c => decide (c ≠ '\n')) = [] := by
      apply (Text.dropWhile_eq_nil_iff _ _).mpr
      intro c hc
      exact decide_eq_true (ne_of_mem_of_not_mem hc hfeed)
    rw [hall]
    exact ⟨fun _ => ⟨_, rfl, rfl⟩, fun h => absurd (fun hc => hfeed (List.dropLast_subset _ hc)) h⟩

section

variable {id rest : List Char} (hrun : Text.IsRun isIdentifier id rest)

include hrun

theorem isComment_of_identifier (hne : id ≠ []) : isComment (id ++ rest) = false := by
  obtain ⟨c, cs, rfl⟩ := List.exists_cons_of_ne_nil hne
  have hc := hrun.all c List.mem_cons_self
  cases hcomment : isComment (c :: cs ++ rest) with
  | false => rfl
  | true =>
      rcases (isComment_iff _).mp hcomment with hmarker | hmarker
      · obtain rfl := (List.cons_prefix_cons.mp hmarker).1
        revert hc
        decide
      · obtain rfl := (List.cons_prefix_cons.mp hmarker).1
        revert hc
        decide

/-- A field name would be the identifier. -/
theorem after_field_of_identifier (hcolon : rest.head? ≠ some ':') {field : List Char}
    (hfield : ∀ c ∈ field, isIdentifier c = true) :
    Text.after? (field ++ [':']) (id ++ rest) = none := by
  cases hafter : Text.after? (field ++ [':']) (id ++ rest) with
  | none => rfl
  | some value =>
      have hline := (Text.after_eq_some_iff _ _ value).mp hafter
      rw [List.append_assoc] at hline
      have hrun' : Text.IsRun isIdentifier field ([':'] ++ value) := by
        refine ⟨hfield, ?_⟩
        intro c hc
        obtain rfl := Option.some.inj hc
        decide
      obtain ⟨-, hrest⟩ := Text.isRun_unique hrun hrun' hline
      exact absurd (by rw [hrest]; rfl) hcolon

/-- A keyword that no word character follows would be the identifier. -/
theorem graphTitle_of_identifier (hid : id ∉ graphKeywords) : graphTitle? (id ++ rest) = none := by
  rw [graphTitle?]
  cases hkeyword : graphKeywords.findSome? fun k => Text.after? k (id ++ rest) with
  | none => rfl
  | some rest' =>
      obtain ⟨k, hk, hafter⟩ := List.exists_of_findSome?_eq_some hkeyword
      have hline := (Text.after_eq_some_iff k _ rest').mp hafter
      have hword : (rest'.head?.map Text.isWord).getD false = true := by
        cases hword : (rest'.head?.map Text.isWord).getD false with
        | true => rfl
        | false =>
            have hrun' : Text.IsRun isIdentifier k rest' := by
              refine ⟨isIdentifier_of_mem_graphKeywords k hk, ?_⟩
              intro c hc
              exact isIdentifier_of_isWord (by simpa [hc] using hword)
            obtain ⟨rfl, -⟩ := Text.isRun_unique hrun hrun' hline
            exact absurd hk hid
      rw [Option.bind_eq_bind, Option.bind_some, if_pos hword]

end

/-! ## The order of the checks -/

section

variable {id rest : List Char} (hid : ∀ c ∈ id, isIdentifier c = true)
  (hrest : ∀ c, rest.head? = some c → Text.isWord c = false ∧ c ≠ ':')

include hid hrest

theorem isRun_of_word : Text.IsRun isIdentifier id rest :=
  ⟨hid, fun c hc => isIdentifier_of_isWord (hrest c hc).1⟩

theorem declaration_of_identifier : declaration? (id ++ rest) =
    if id ∈ graphKeywords ∧ IsTitle rest then some ⟨.title, label? rest⟩ else none := by
  have hrun := isRun_of_word hid hrest
  have hcolon : rest.head? ≠ some ':' := fun hc => (hrest _ hc).2 rfl
  have hwords : (∀ c ∈ "title".toList, isIdentifier c = true) ∧
      ∀ c ∈ "description".toList, isIdentifier c = true :=
    ⟨Text.forall_mem_of_all (by decide), Text.forall_mem_of_all (by decide)⟩
  have htitle : Text.after? "title:".toList (id ++ rest) = none :=
    after_field_of_identifier hrun hcolon hwords.1
  have hdescription : Text.after? "description:".toList (id ++ rest) = none :=
    after_field_of_identifier hrun hcolon hwords.2
  rw [declaration?, htitle, hdescription]
  by_cases hkeyword : id ∈ graphKeywords
  · obtain ⟨hyes, hno⟩ := graphTitle_of_keyword hkeyword fun c hc => (hrest c hc).1
    by_cases htitled : IsTitle rest
    · obtain ⟨title, hgraph, hlabel⟩ := hyes htitled
      rw [hgraph, if_pos ⟨hkeyword, htitled⟩]
      simp only [hlabel]
    · rw [hno htitled, if_neg fun h => htitled h.2]
      rfl
  · rw [graphTitle_of_identifier hrun hkeyword, if_neg fun h => hkeyword h.1]
    rfl

/-- Before nodes and connections only titles are taken out. -/
theorem classify_of_identifier (hne : id ≠ []) : classify (id ++ rest) =
    if id ∈ graphKeywords ∧ IsTitle rest then .declaration ⟨.title, label? rest⟩
    else if NodeHeader.looksLike (id ++ rest) then .node (NodeHeader.ofLine? (id ++ rest))
    else if containsArrow (id ++ rest) then .connection (ConnectionHeader.ofLine? (id ++ rest))
    else ((metadata? (id ++ rest)).map Judgment.metadata).getD .unrecognized := by
  rw [classify, isComment_of_identifier (isRun_of_word hid hrest) hne, if_neg (by decide),
    declaration_of_identifier hid hrest]
  by_cases htitled : id ∈ graphKeywords ∧ IsTitle rest
  · rw [if_pos htitled, if_pos htitled]
  · rw [if_neg htitled, if_neg htitled]
    cases metadata? (id ++ rest) <;> rfl

end

/-! ## Lines of node shape -/

namespace NodeParts

theorem tail_eq_cons (p : NodeParts) : ∃ c cs, p.tail = c :: cs ∧ NodeHeader.opens c = true := by
  obtain ⟨c, cs, hopener, hc⟩ := NodeHeader.opener_eq_cons p.delimiter
  exact ⟨c, _, by rw [tail, hopener, List.cons_append], hc⟩

theorem isWord_tail (p : NodeParts) :
    ∀ c, p.tail.head? = some c → Text.isWord c = false ∧ c ≠ ':' := by
  intro c hc
  obtain ⟨x, xs, htail, hx⟩ := p.tail_eq_cons
  rw [htail] at hc
  obtain rfl := Option.some.inj hc
  refine ⟨isWord_of_opens hx, ?_⟩
  rintro rfl
  exact absurd hx (by decide)

/-- An identifier with an opener right behind it makes a node, unless it declares a title. -/
theorem classify_of_opener {p : NodeParts} (hne : p.id ≠ [])
    (hid : ∀ c ∈ p.id, isIdentifier c = true) : classify p.line =
      if p.id ∈ graphKeywords ∧ IsTitle p.tail then .declaration ⟨.title, label? p.tail⟩
      else .node (NodeHeader.ofLine? p.line) := by
  have hrun := isRun_of_word hid p.isWord_tail
  have hshape : NodeHeader.looksLike (p.id ++ p.tail) = true := by
    obtain ⟨c, cs, htail, hc⟩ := p.tail_eq_cons
    rw [NodeHeader.looksLike, hrun.takeWhile, hrun.dropWhile, htail]
    simp [hne, hc]
  rw [line, classify_of_identifier hid p.isWord_tail hne, if_pos hshape]

end NodeParts

end Notation

end SpatialDiagram
