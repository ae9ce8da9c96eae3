import SpatialDiagram.Proofs.Notation.Comments
import SpatialDiagram.Proofs.Notation.WrittenOpacity

/-!
# Which sources can be read

Lines that are no statements are skipped, and so are parts of a block that are
no properties. What a source must not have is a property with an integer of more
digits than are read: the first one ends the reading. A source without so many
digits in a row states a diagram.
-/

namespace SpatialDiagram

namespace Notation

/-! ## The raw pairs of a statement -/

/-- The raw pairs of an inline block. -/
def inlineRawPairs (body : List Char) : List RawPair :=
  match (inlinePairs [] (splitTopLevel (· = ',') body)).result with
  | .ok pairs => pairs.filter fun p => !p.1.isEmpty && !p.2.isEmpty
  | .error _ => []

/-- The raw pairs that the properties of a node are read from. -/
def NodeHeader.rawPairs (h : NodeHeader) (block : Option Block) : List RawPair :=
  match inlineBlock? h.remainder, block with
  | some body, _ => inlineRawPairs body
  | none, some b => b.lines.filterMap fun l => rawPair? l.text
  | none, none => []

/-- The raw pairs that a statement gives its node. -/
def Statement.rawPairs (s : Statement) : List RawPair :=
  match s.judgment with
  | .node (some h) => h.rawPairs s.block
  | _ => []

/-- All raw pairs of a source. -/
def rawPairs (text : String) : List RawPair :=
  (statements (SourceLine.ofText text.toList)).flatMap Statement.rawPairs

/-- The failure that a raw pair ends the reading of a source with. -/
def pairFailure? (p : RawPair) : Option Failure := (coerce p.2).failure?

theorem result_inlinePairs (acc : List RawPair) (pieces : List (List Char)) :
    ∃ pairs, (inlinePairs acc pieces).result = .ok pairs := by
  fun_induction inlinePairs acc pieces with
  | case1 acc => exact ⟨acc.reverse, rfl⟩
  | case2 _ _ _ _ _ ih => exact ih
  | case3 _ _ _ _ _ _ ih => exact ih
  | case4 _ _ _ ih => exact ih

/-- Properties fail at the first pair that fails. -/
theorem failure_addProperties (ps : Properties) (pairs : List RawPair) :
    (addProperties ps pairs).failure? = pairs.findSome? pairFailure? := by
  refine Trace.failure_foldlM pairFailure? (fun ps p _ => ?_) ps
  rw [addProperty, Trace.failure_bind_of_forall (e := none) _ fun _ => rfl, Option.or_none]
  rfl

theorem failure_inlineProperties (body : List Char) :
    (inlineProperties body).failure? = (inlineRawPairs body).findSome? pairFailure? := by
  obtain ⟨pairs, hpairs⟩ := result_inlinePairs [] (splitTopLevel (· = ',') body)
  rw [inlineProperties, Trace.failure_bind_of_ok hpairs, failure_addProperties, inlineRawPairs,
    hpairs]

theorem failure_blockProperties (b : Block) :
    (blockProperties b).failure? =
      (b.lines.filterMap fun l => rawPair? l.text).findSome? pairFailure? := by
  rw [blockProperties, Trace.failure_bind_of_forall (e := none), failure_addProperties,
    Option.or_none]
  intro ps
  cases b.closed <;> rfl

namespace Diagram

theorem failure_categoryOf (label : String) : (categoryOf label).failure? = none :=
  Trace.failure_eq_none_of_result (result_categoryOf label)

/-- The properties of a node fail at the first of its pairs that fails, whichever block they are in.
-/
theorem failure_nodeProperties (h : NodeHeader) (block : Option Block) :
    (nodeProperties h block).failure? = (h.rawPairs block).findSome? pairFailure? := by
  rw [nodeProperties.eq_def, NodeHeader.rawPairs.eq_def]
  cases inlineBlock? h.remainder with
  | some body => exact failure_inlineProperties body
  | none =>
      cases block with
      | some b => exact failure_blockProperties b
      | none => rfl

/-- A statement fails on the first raw pair that cannot be read, and on nothing else. -/
theorem failure_declare (d : Diagram) (s : Statement) :
    (d.declare s).failure? = s.rawPairs.findSome? pairFailure? := by
  rw [Statement.rawPairs]
  cases hj : s.judgment with
  | node header =>
      cases header with
      | none => simp [declare, hj]
      | some h =>
          simp only [declare, hj]
          rw [declareNode, Trace.failure_bind_of_forall (e := none), failure_nodeProperties,
            Option.or_none]
          intro properties
          rw [Trace.failure_bind_of_forall (e := none) _ fun _ => rfl, failure_categoryOf]
          rfl
  | declaration dec => obtain ⟨field, _ | value⟩ := dec <;> simp [declare, hj]
  | connection header => cases header <;> simp [declare, hj]
  | _ => simp [declare, hj]

/-- A source fails on the first of its raw pairs that cannot be read. -/
theorem failure_parse (text : String) :
    (parse (.str text)).failure? = (rawPairs text).findSome? pairFailure? := by
  have hfold : ((statements (SourceLine.ofText text.toList)).foldlM declare {}).failure? =
      (statements (SourceLine.ofText text.toList)).findSome? fun s =>
        s.rawPairs.findSome? pairFailure? :=
    Trace.failure_foldlM _ (fun d s _ => failure_declare d s) {}
  rw [rawPairs, findSome_flatMap, ← hfold, Trace.failure?, result_parse]
  rfl

end Diagram

/-! ## Where a raw pair stands -/

theorem infix_of_cut (isSeparator : Char → Bool) (quote : Option Char) (depth : Nat)
    (cs : List Char) : ∃ p ps, cut isSeparator quote depth cs = p :: ps ∧ p <+: cs ∧
      ∀ q ∈ ps, q <:+: cs := by
  have hpush {c : Char} {cs : List Char} {pieces : List (List Char)}
      (h : ∃ p ps, pieces = p :: ps ∧ p <+: cs ∧ ∀ q ∈ ps, q <:+: cs) :
      ∃ p ps, push c pieces = p :: ps ∧ p <+: c :: cs ∧ ∀ q ∈ ps, q <:+: c :: cs := by
    obtain ⟨p, ps, rfl, hp, hps⟩ := h
    exact ⟨c :: p, ps, rfl, (List.prefix_cons_inj c).mpr hp, fun q hq =>
      (hps q hq).trans (List.suffix_cons c cs).isInfix⟩
  fun_induction cut isSeparator quote depth cs with
  | case1 => exact ⟨[], [], rfl, List.prefix_rfl, by simp⟩
  | case2 _ _ _ _ ih => exact hpush ih
  | case3 _ _ _ _ ih => exact hpush ih
  | case4 _ _ _ _ _ ih => exact hpush ih
  | case5 _ _ _ _ _ _ ih => exact hpush ih
  | case6 _ c cs _ _ _ _ ih =>
      obtain ⟨p, ps, hcut, hp, hps⟩ := ih
      refine ⟨[], _, rfl, List.nil_prefix, fun q hq => ?_⟩
      rw [hcut, List.mem_cons] at hq
      have hq : q <:+: cs := hq.elim (fun h => h ▸ hp.isInfix) (hps q)
      exact hq.trans (List.suffix_cons c cs).isInfix
  | case7 _ _ _ _ _ _ _ ih => exact hpush ih

/-- Every piece of a split stands in the text that was split. -/
theorem infix_of_splitTopLevel {isSeparator : Char → Bool} {cs piece : List Char}
    (h : piece ∈ splitTopLevel isSeparator cs) : piece <:+: cs := by
  obtain ⟨q, hq, rfl⟩ := List.mem_map.mp (List.mem_of_mem_filter h)
  obtain ⟨p, ps, hcut, hp, hps⟩ := infix_of_cut isSeparator none 0 cs
  rw [hcut, List.mem_cons] at hq
  have hq : q <:+: cs := hq.elim (fun h => h ▸ hp.isInfix) (hps q)
  exact (Text.infix_stripWhile Text.isBlank q).trans hq

theorem infix_of_splitColon {cs : List Char} {p : RawPair} (h : splitColon? cs = some p) :
    p.2 <:+: cs := by
  rw [splitColon?] at h
  split at h
  · rename_i value hvalue
    obtain rfl := Option.some.inj h
    have hsuffix : value <:+ cs := (List.suffix_cons _ value).trans
      (hvalue ▸ List.dropWhile_suffix _)
    exact (Text.infix_stripWhile Text.isBlank value).trans hsuffix.isInfix
  · cases h

theorem infix_of_rawPair {cs : List Char} {p : RawPair} (h : rawPair? cs = some p) : p.2 <:+: cs :=
  infix_of_splitColon (Option.filter_eq_some_iff.mp h).1

/-- A run of digits in a value of an inline block stands in one of the pieces that were put
together, since a comma and a blank stand between any two of them. -/
theorem hasRun_of_inlinePairs {n : Nat} {acc : List RawPair} {pieces : List (List Char)}
    {pairs : List RawPair} (h : (inlinePairs acc pieces).result = .ok pairs) {p : RawPair}
    (hp : p ∈ pairs) (hrun : Text.HasRun n p.2) :
    (∃ q ∈ acc, Text.HasRun n q.2) ∨ ∃ piece ∈ pieces, Text.HasRun n piece := by
  fun_induction inlinePairs acc pieces with
  | case1 acc =>
      obtain rfl := Except.ok.inj h
      exact .inl ⟨p, List.mem_reverse.mp hp, hrun⟩
  | case2 acc piece pieces q hq ih =>
      rcases ih h with ⟨q', hq', hrun⟩ | ⟨piece', hpiece, hrun⟩
      · rcases List.mem_cons.mp hq' with rfl | hq'
        · exact .inr ⟨piece, List.mem_cons_self, hrun.mono (infix_of_splitColon hq)⟩
        · exact .inl ⟨q', hq', hrun⟩
      · exact .inr ⟨piece', List.mem_cons_of_mem _ hpiece, hrun⟩
  | case3 piece pieces k v rest hq ih =>
      rcases ih h with ⟨q', hq', hrun⟩ | ⟨piece', hpiece, hrun⟩
      · rcases List.mem_cons.mp hq' with rfl | hq'
        · have hjoined : v ++ ", ".toList ++ piece = v ++ ',' :: ([] ++ ' ' :: piece) := by simp
          simp only [hjoined] at hrun
          rcases Text.hasRun_append_cons (by decide) hrun with hrun | hrun
          · exact .inl ⟨(k, v), List.mem_cons_self, hrun⟩
          · rcases Text.hasRun_append_cons (by decide) hrun with hrun | hrun
            · exact .inl ⟨(k, v), List.mem_cons_self, hrun.mono List.nil_infix⟩
            · exact .inr ⟨piece, List.mem_cons_self, hrun⟩
        · exact .inl ⟨q', List.mem_cons_of_mem _ hq', hrun⟩
      · exact .inr ⟨piece', List.mem_cons_of_mem _ hpiece, hrun⟩
  | case4 piece pieces hq ih =>
      rcases ih h with ⟨q', hq', -⟩ | ⟨piece', hpiece, hrun⟩
      · exact absurd hq' List.not_mem_nil
      · exact .inr ⟨piece', List.mem_cons_of_mem _ hpiece, hrun⟩

/-- A run of digits in the value of an inline pair stands in the body. -/
theorem hasRun_of_inlineRawPairs {n : Nat} {body : List Char} {p : RawPair}
    (hp : p ∈ inlineRawPairs body) (hrun : Text.HasRun n p.2) : Text.HasRun n body := by
  obtain ⟨pairs, hpairs⟩ := result_inlinePairs [] (splitTopLevel (· = ',') body)
  rw [inlineRawPairs, hpairs] at hp
  rcases hasRun_of_inlinePairs hpairs (List.mem_of_mem_filter hp) hrun with
    ⟨q, hq, -⟩ | ⟨piece, hpiece, hrun⟩
  · exact absurd hq List.not_mem_nil
  · exact hrun.mono (infix_of_splitTopLevel hpiece)

theorem infix_remainder {line : List Char} {h : NodeHeader}
    (hl : NodeHeader.ofLine? line = some h) : h.remainder <:+: line := by
  rw [NodeHeader.ofLine?] at hl
  split at hl
  · cases hl
  · obtain ⟨d, -, hbody⟩ := Option.bind_eq_some_iff.mp hl
    rw [NodeHeader.body?] at hbody
    simp only at hbody
    split at hbody
    · rename_i rest hrest
      split at hbody
      · cases hbody
      · obtain rfl := Option.some.inj hbody
        have hsuffix : rest <:+ line := (List.suffix_cons _ rest).trans
          (hrest ▸ (List.dropWhile_suffix _).trans
            ((List.drop_suffix _ _).trans (List.dropWhile_suffix _)))
        have hbehind := (List.drop_suffix d.closer.length _).trans
          ((List.dropWhile_suffix fun c => !d.forbids c).trans hsuffix)
        exact (Text.infix_stripWhile Text.isBlank _).trans hbehind.isInfix
    · cases hbody

theorem ofLine_of_classify {cs : List Char} {h : Option NodeHeader} (hj : classify cs = .node h) :
    NodeHeader.ofLine? cs = h := by
  rw [classify] at hj
  repeat' split at hj
  all_goals first | exact Judgment.node.inj hj | cases hj

/-- What a statement gives its node stands in its line or in the lines of its block. -/
theorem hasRun_of_statement {ls : List SourceLine} {s : Statement} (hs : s ∈ statements ls)
    {n : Nat} {p : RawPair} (hp : p ∈ s.rawPairs) (hrun : Text.HasRun n p.2) :
    ∃ l ∈ ls, Text.HasRun n l.text := by
  obtain ⟨i, -, hi⟩ := exists_position hs
  rw [Statement.rawPairs] at hp
  split at hp
  · rename_i h hj
    rw [NodeHeader.rawPairs.eq_def] at hp
    split at hp
    · rename_i body hbody
      have hline : Text.HasRun n h.remainder := by
        rw [(inlineBlock_eq_some_iff h.remainder body).mp hbody]
        exact (hasRun_of_inlineRawPairs hp hrun).mono
          ⟨['\x7b'], ['\x7d'], by simp⟩
      refine ⟨s.line, List.mem_of_getElem? hi.line, hline.mono (infix_remainder ?_)⟩
      exact ofLine_of_classify (hi.judgment.symm.trans hj)
    · rename_i b _ hblock
      obtain ⟨l, hl, hpair⟩ := List.mem_filterMap.mp hp
      have hopen : OpensBlock ls i := by
        by_contra hopen
        rw [hi.no_block hopen] at hblock
        cases hblock
      obtain ⟨b', hb', hlines⟩ := hi.block hopen
      obtain rfl := Option.some.inj (hblock.symm.trans hb')
      rw [hlines] at hl
      exact ⟨l, List.mem_of_mem_drop ((List.takeWhile_sublist _).subset hl),
        hrun.mono (infix_of_rawPair hpair)⟩
    · exact absurd hp List.not_mem_nil
  · exact absurd hp List.not_mem_nil

/-- A run of digits in the value of a pair stands in a line of the source. -/
theorem hasRun_of_rawPairs {text : String} {n : Nat} {p : RawPair} (hp : p ∈ rawPairs text)
    (hrun : Text.HasRun n p.2) : ∃ line ∈ Text.lines text.toList, Text.HasRun n line := by
  obtain ⟨s, hs, hp⟩ := List.mem_flatMap.mp hp
  obtain ⟨l, hl, hrun⟩ := hasRun_of_statement hs hp hrun
  have htext : l.text ∈ (SourceLine.ofText text.toList).map SourceLine.text :=
    List.mem_map_of_mem hl
  rw [SourceLine.texts_ofText] at htext
  obtain ⟨line, hline, htrim⟩ := List.mem_map.mp (List.mem_of_mem_filter htext)
  rw [← htrim] at hrun
  exact ⟨line, hline, hrun.mono (Text.infix_stripWhile Text.isBlank line)⟩

namespace Diagram

/-- A source can be read exactly if it is a text no property of which has an integer of more digits
than are read. Of texts only those with so many digits in a row can fail, and only in this way. -/
theorem parse_ok_iff (source : Value) :
    ((∃ d, (parse source).result = .ok d) ↔
      ∃ text, source = .str text ∧ ∀ p ∈ rawPairs text, ∀ n, ¬ IsOverlong n (unquote p.2)) ∧
    ∀ f, (parse source).result = .error f →
      (∃ text n, source = .str text ∧ f = .digitLimit n ∧ Json.digitLimit < n ∧
        ∃ line ∈ Text.lines text.toList, Text.HasRun n line) ∨
      (∀ text, source ≠ .str text) ∧
        f = .diagnosed (.parsing
          ("Diagram source must be a string, got " ++ source.typeName ++ ".")) := by
  by_cases hsource : ∃ text, source = .str text
  · obtain ⟨text, rfl⟩ := hsource
    constructor
    · rw [← Trace.failure_eq_none_iff, failure_parse, List.findSome?_eq_none_iff]
      simp only [Value.str.injEq, exists_eq_left', pairFailure?, failure_coerce_eq_none_iff]
    · intro f hf
      rw [← Trace.failure_eq_some_iff, failure_parse] at hf
      obtain ⟨p, hp, hfailure⟩ := List.exists_of_findSome?_eq_some hf
      rw [pairFailure?, Trace.failure_eq_some_iff, result_coerce_eq_error_iff] at hfailure
      obtain ⟨n, hlong, rfl⟩ := hfailure
      exact .inl ⟨text, n, rfl, rfl, hlong.1, hasRun_of_rawPairs hp (hasRun_of_isOverlong hlong)⟩
  · have hnone := not_exists.mp hsource
    have hparse : (parse source).result = .error (.diagnosed (.parsing
        ("Diagram source must be a string, got " ++ source.typeName ++ "."))) := by
      cases source with
      | str text => exact absurd rfl (hnone text)
      | _ => rfl
    rw [hparse]
    constructor
    · simp [hnone]
    · intro f hf
      exact .inr ⟨hnone, (Except.error.inj hf).symm⟩

/-- What ends the reading of an integer that is one digit too long is a line with all its digits. -/
theorem parse_ok_iff_nines :
    let text := opacitySource (nines 4301)
    (parse (.str text)).result = .error (.digitLimit 4301) ∧
      ∃ line ∈ Text.lines text.toList, Text.HasRun 4301 line := by
  intro text
  have hfail : (parse (.str text)).result = .error (.digitLimit 4301) :=
    (result_parse_nines (by decide)).trans (if_pos (by decide))
  refine ⟨hfail, ?_⟩
  rcases (parse_ok_iff (.str text)).2 _ hfail with ⟨text', n, htext, hf, -, hrun⟩ | ⟨hnone, -⟩
  · obtain rfl := Value.str.inj htext
    obtain rfl := Failure.digitLimit.inj hf
    exact hrun
  · exact absurd rfl (hnone text)

/-- A text is rejected if it has an integer of one digit more than the last one that is read. -/
theorem text_with_long_integer_is_rejected :
    (parse (.str (opacitySource (nines 4300)))).result =
        .ok { nodes := [opacityNode (.int ((10 ^ 4300 - 1 : Nat) : Int))] } ∧
      (parse (.str (opacitySource (nines 4301)))).result = .error (.digitLimit 4301) :=
  ⟨(result_parse_nines (by decide)).trans (if_neg (by decide)),
    (result_parse_nines (by decide)).trans (if_pos (by decide))⟩

end Diagram

end Notation

end SpatialDiagram
