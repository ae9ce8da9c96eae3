import SpatialDiagram.Proofs.Notation.ContinuedValues
import SpatialDiagram.Proofs.Notation.LeadingIdentifiers
import SpatialDiagram.Proofs.Notation.Readability

/-!
# Blocks on one line

The properties of a node may stand in braces behind it or in a block below it.
What stands behind a node has no part in how the node is read, and cutting an
inline block at its commas gives back the pairs that a block has on lines of
their own. So both forms state the same diagram.
-/

namespace SpatialDiagram

namespace Notation

/-! ## What stands behind a node -/

namespace NodeParts

def withRest (p : NodeParts) (rest : List Char) : NodeParts := { p with rest }

theorem tail_withRest (p : NodeParts) (rest : List Char) :
    (p.withRest rest).tail = (p.withRest []).tail ++ rest := by
  simp [tail, withRest]

theorem line_withRest (p : NodeParts) (rest : List Char) :
    (p.withRest rest).line = (p.withRest []).line ++ rest := by
  rw [line, tail_withRest, line, List.append_assoc]
  rfl

/-- A line that begins with a graph keyword declares a title, unless a line feed is in it. -/
theorem id_not_mem_graphKeywords {p : NodeParts} (hline : '\n' ∉ p.line)
    (h : declaration? p.line = none) : p.id ∉ graphKeywords := by
  intro hid
  have htitle : IsTitle p.tail := by
    intro hc
    apply hline
    apply List.mem_append_right p.id
    exact (List.dropWhile_suffix Text.isBlank).subset (List.dropLast_subset _ hc)
  rw [line, declaration_of_identifier (isIdentifier_of_mem_graphKeywords p.id hid) p.isWord_tail,
    if_pos ⟨hid, htitle⟩] at h
  cases h

variable {p : NodeParts} (hp : p.IsProper)

include hp

/-- The text behind a node does not change its parts. -/
theorem IsProper.withRest (rest : List Char) : (p.withRest rest).IsProper := by
  have hlong : 2 ≤ (p.withRest []).tail.length := by
    obtain ⟨c, cs, hopener, -⟩ := NodeHeader.opener_eq_cons p.delimiter
    simp [tail, NodeParts.withRest, hopener]
    omega
  have hfind : Delimiter.find? (p.withRest rest).tail = some p.delimiter := by
    rw [tail_withRest, Delimiter.find_append hlong, ← Delimiter.find_append hlong p.rest,
      ← tail_withRest]
    exact hp.first_opener
  have hid : Text.IsRun isIdentifier p.id (p.withRest rest).tail := by
    refine ⟨hp.isShaped.isRun_id.all, ?_⟩
    intro c hc
    obtain ⟨x, cs, htail, hx⟩ := tail_eq_cons (p.withRest rest)
    rw [htail] at hc
    obtain rfl := Option.some.inj hc
    exact isIdentifier_of_opens hx
  constructor
  · exact hp.id_ne_nil
  · exact hid.takeWhile
  · exact hfind
  · exact hp.category_ne_nil
  · exact hp.category_plain
  · exact hp.name_ne_nil
  · exact hp.name_plain

theorem IsProper.classify_line (hid : p.id ∉ graphKeywords) :
    classify p.line = .node (some p.header) := by
  rw [classify_of_opener hp.id_ne_nil hp.isShaped.isRun_id.all, if_neg fun h => hid h.1, hp.ofLine]

end NodeParts

theorem declaration_of_classify {cs : List Char} {h : Option NodeHeader}
    (hj : classify cs = .node h) : declaration? cs = none := by
  rw [classify] at hj
  split at hj
  · cases hj
  · split at hj
    · cases hj
    · assumption

/-! ## Nodes with nothing behind them -/

namespace NodeParts

variable {p : NodeParts} (hp : p.IsProper)

include hp

theorem IsProper.isBlank_head {c : Char} (hc : p.line.head? = some c) : Text.isBlank c = false := by
  obtain ⟨x, xs, hid⟩ := List.exists_cons_of_ne_nil hp.id_ne_nil
  rw [line, hid] at hc
  obtain rfl := Option.some.inj hc
  exact isBlank_of_isIdentifier (hp.isShaped.isRun_id.all x (by simp [hid]))

theorem IsProper.trim_line {last : Char} (hlast : p.line.getLast? = some last)
    (hblank : Text.isBlank last = false) : Text.trim p.line = p.line := by
  apply (Text.trim_eq_self_iff p.line).mpr
  refine ⟨fun c hc => hp.isBlank_head hc, ?_⟩
  intro c hc
  obtain rfl := Option.some.inj (hlast.symm.trans hc)
  exact hblank

/-- Without blanks behind it a node ends with its closing bracket. -/
theorem IsProper.trim_withRest_nil :
    Text.trim (p.withRest []).line = (p.withRest []).line := by
  obtain ⟨c, cs, hcloser, -⟩ := p.delimiter.closer_eq_cons
  have hne : p.delimiter.closer ≠ [] := by
    rw [hcloser]
    exact List.cons_ne_nil c cs
  have hlast := List.getLast?_eq_some_getLast hne
  have hblank : Text.isBlank (p.delimiter.closer.getLast hne) = false := by
    cases hblank : Text.isBlank (p.delimiter.closer.getLast hne) with
    | false => rfl
    | true =>
        have hforbids := p.delimiter.forbids_of_isBlank hblank
        exact absurd (List.getLast_mem hne) ((p.delimiter.forbids_eq_false_iff _).mp hforbids).2
  apply (hp.withRest []).trim_line _ hblank
  have hends : (p.withRest []).line = (p.id ++ (p.delimiter.opener ++ (p.category ++ ':' ::
      p.name))) ++ p.delimiter.closer := by
    simp [line, tail, NodeParts.withRest]
  rw [hends, List.getLast?_append, hlast, Option.some_or]

end NodeParts

/-! ## The two forms of a block -/

theorem SourceLine.numberedFrom_cons {l : List Char} (h : Text.trim l ≠ []) (k : Nat)
    (ls : List (List Char)) :
    numberedFrom k (l :: ls) = ⟨k, Text.trim l⟩ :: numberedFrom (k + 1) ls := by
  rw [numberedFrom, List.zipIdx_cons, List.map_cons, List.filter_cons_of_pos (by simpa using h)]
  rfl

/-- The declaration of a node with given properties. -/
def NodeHeader.declared (h : NodeHeader) (properties : Properties) (line : Nat) : NodeDeclaration :=
  { id := h.id, category := NodeCategory.ofLabel h.category, name := h.name
    delimiter := h.delimiter, properties, line }

theorem Diagram.result_declareNode (d : Diagram) (h : NodeHeader) (block : Option Block)
    (line : Nat) : (d.declareNode h block line).result =
      (nodeProperties h block).result.map fun properties =>
        { d with nodes := d.nodes ++ [h.declared properties line] } := by
  rw [Diagram.declareNode, Trace.result_bind]
  cases (nodeProperties h block).result with
  | error e => rfl
  | ok properties =>
      change ((categoryOf h.category >>= _) : Trace Diagram).result = _
      rw [Trace.result_bind, result_categoryOf]
      rfl

theorem Diagram.result_foldlM_node (h : NodeHeader) (block : Option Block) (line : SourceLine) :
    ([⟨line, .node (some h), block⟩].foldlM Diagram.declare {}).result =
      (nodeProperties h block).result.map fun properties =>
        { nodes := [h.declared properties line.number] } := by
  rw [List.foldlM_cons, Trace.result_bind, Diagram.declare]
  simp only [Diagram.result_declareNode]
  cases (nodeProperties h block).result <;> rfl

/-- A node with its properties in braces on the same line. -/
def inlineSource (header : List Char) (ps : List RawPair) : List Char :=
  header ++ ' ' :: '\x7b' :: ([',', ' '].intercalate (ps.map pairText) ++ ['\x7d'])

/-- A node with its properties on lines of their own between two braces. -/
def blockSource (header : List Char) (ps : List RawPair) : List Char :=
  header ++ '\n' :: (blockOpener ++ '\n' ::
    (ps.flatMap (fun p => pairText p ++ ['\n']) ++ blockCloser))

section

variable {ps : List RawPair} (hlines : ∀ p ∈ ps, (pairText p).any Text.isBreak = false)

include hlines

theorem lines_pairs : Text.lines (ps.flatMap (fun p => pairText p ++ ['\n']) ++ blockCloser) =
    ps.map pairText ++ [blockCloser] := by
  induction ps with
  | nil => decide
  | cons p ps ih =>
      have hp := hlines p List.mem_cons_self
      have ih := ih fun q hq => hlines q (List.mem_cons_of_mem p hq)
      rw [List.flatMap_cons, List.append_assoc, List.append_assoc, List.singleton_append,
        Text.lines_append_of_no_break hp, ih, List.map_cons, List.cons_append]

theorem lines_blockSource {header : List Char} (hheader : header.any Text.isBreak = false) :
    Text.lines (blockSource header ps) =
      header :: blockOpener :: (ps.map pairText ++ [blockCloser]) := by
  have hopener : blockOpener.any Text.isBreak = false := by decide
  rw [blockSource, Text.lines_append_of_no_break hheader, Text.lines_append_of_no_break hopener,
    lines_pairs hlines]

theorem isBreak_inlineSource {header : List Char} (hheader : header.any Text.isBreak = false) :
    ∀ c ∈ inlineSource header ps, Text.isBreak c = false := by
  have hbody : ∀ c ∈ [',', ' '].intercalate (ps.map pairText), Text.isBreak c = false := by
    clear hheader
    have hgap : ∀ c ∈ [',', ' '], Text.isBreak c = false := Text.forall_mem_of_all (by decide)
    induction ps with
    | nil => exact List.forall_mem_nil _
    | cons p ps ih =>
        have hp : ∀ c ∈ pairText p, Text.isBreak c = false := by
          intro c hc
          exact Bool.eq_false_iff.mpr (List.any_eq_false.mp (hlines p List.mem_cons_self) c hc)
        have ih := ih fun q hq => hlines q (List.mem_cons_of_mem p hq)
        cases ps with
        | nil => simpa using hp
        | cons q ps =>
            rw [List.map_cons, List.map_cons, List.intercalate_cons_cons]
            intro c hc
            rcases List.mem_append.mp hc with hc | hc
            · rcases List.mem_append.mp hc with hc | hc
              · exact hp c hc
              · exact hgap c hc
            · exact ih c hc
  intro c hc
  simp only [inlineSource, List.mem_append, List.mem_cons, List.not_mem_nil, or_false] at hc
  rcases hc with hc | rfl | rfl | hc | rfl
  · exact Bool.eq_false_iff.mpr (List.any_eq_false.mp hheader c hc)
  · decide
  · decide
  · exact hbody c hc
  · decide

end

theorem SourceLine.numberedFrom_pair {p : RawPair} (hp : IsPair p) (k : Nat)
    (ls : List (List Char)) :
    numberedFrom k (pairText p :: ls) = ⟨k, pairText p⟩ :: numberedFrom (k + 1) ls := by
  have hne : Text.trim (pairText p) ≠ [] := by
    rw [hp.trimmed]
    exact pairText_ne_nil p
  rw [numberedFrom_cons hne, hp.trimmed]

section

variable {ps : List RawPair} (hps : ∀ p ∈ ps, IsPair p)

include hps

theorem split_pairs (k : Nat) :
    Block.split (SourceLine.numberedFrom k (ps.map pairText ++ [blockCloser])) =
      (⟨SourceLine.numberedFrom k (ps.map pairText), true⟩, []) := by
  induction ps generalizing k with
  | nil =>
      have htrim : Text.trim blockCloser = blockCloser := by decide
      rw [List.map_nil, List.nil_append, SourceLine.numberedFrom_cons (by decide), htrim,
        Block.split_closer rfl]
      rfl
  | cons p ps ih =>
      have hp := hps p List.mem_cons_self
      have ih := ih (fun q hq => hps q (List.mem_cons_of_mem p hq)) (k + 1)
      have hcloser : pairText p ≠ blockCloser := by
        intro hcloser
        have hcolon : ':' ∈ blockCloser := by
          rw [← hcloser]
          simp [pairText]
        exact absurd hcolon (by decide)
      rw [List.map_cons, List.cons_append, SourceLine.numberedFrom_pair hp,
        Block.split_cons hcloser, ih, SourceLine.numberedFrom_pair hp]

theorem texts_pairs (k : Nat) :
    (SourceLine.numberedFrom k (ps.map pairText)).map SourceLine.text = ps.map pairText := by
  induction ps generalizing k with
  | nil => rfl
  | cons p ps ih =>
      have ih := ih (fun q hq => hps q (List.mem_cons_of_mem p hq)) (k + 1)
      rw [List.map_cons, SourceLine.numberedFrom_pair (hps p List.mem_cons_self), List.map_cons, ih]

/-- The properties of a block are those of the pairs on its lines. -/
theorem blockProperties_of_pairs {b : Block}
    (hlines : b.lines.map SourceLine.text = ps.map pairText) :
    (blockProperties b).result = (addProperties .empty ps).result := by
  have hpairs : (b.lines.filterMap fun l => rawPair? l.text) = ps := by
    calc
      _ = (b.lines.map SourceLine.text).filterMap rawPair? := by
        rw [List.filterMap_map]
        rfl
      _ = (ps.map pairText).filterMap rawPair? := by rw [hlines]
      _ = ps.filterMap some := by
        rw [List.filterMap_map]
        apply List.filterMap_congr
        intro p hp
        exact (hps p hp).rawPair
      _ = ps := List.filterMap_some
  rw [result_blockProperties, hpairs]

end

/-! ## Both forms read -/

section

variable {p : NodeParts} {ps : List RawPair}

/-- What both forms of a block state. -/
def stated (p : NodeParts) (ps : List RawPair) : Except Failure Diagram :=
  (addProperties .empty ps).result.map fun properties =>
    { nodes := [p.header.declared properties 1] }

variable (hp : p.IsProper) (hid : p.id ∉ graphKeywords)
  (hrest : ∀ c ∈ p.rest, Text.isBlank c = true) (hheader : p.line.any Text.isBreak = false)
  (hps : ∀ q ∈ ps, IsPlainPair q) (hlines : ∀ q ∈ ps, (pairText q).any Text.isBreak = false)

include hp hid hrest hheader hps hlines

theorem result_parse_blockSource :
    (Diagram.parse (.str (String.ofList (blockSource p.line ps)))).result = stated p ps := by
  have htrim : Text.trim p.line = (p.withRest []).line := by
    calc
      Text.trim p.line = Text.trim ((p.withRest []).line ++ p.rest) := by
        rw [← NodeParts.line_withRest]
        rfl
      _ = (p.withRest []).line := by
        rw [Text.trim_append_right _ hrest, hp.trim_withRest_nil]
  have hne : Text.trim p.line ≠ [] := by
    obtain ⟨c, cs, hcons⟩ := List.exists_cons_of_ne_nil hp.id_ne_nil
    rw [htrim, NodeParts.line, NodeParts.withRest, hcons]
    exact List.cons_ne_nil _ _
  have hopener : Text.trim blockOpener = blockOpener := by decide
  have hsource : SourceLine.ofText (blockSource p.line ps) =
      ⟨1, (p.withRest []).line⟩ :: ⟨2, blockOpener⟩ ::
        SourceLine.numberedFrom 3 (ps.map pairText ++ [blockCloser]) := by
    change SourceLine.numberedFrom 1 (Text.lines (blockSource p.line ps)) = _
    rw [lines_blockSource hlines hheader, SourceLine.numberedFrom_cons hne,
      SourceLine.numberedFrom_cons (by decide), htrim, hopener]
  have hjudgment := (hp.withRest []).classify_line hid
  have hopening : Opening ⟨1, (p.withRest []).line⟩ (⟨2, blockOpener⟩ ::
      SourceLine.numberedFrom 3 (ps.map pairText ++ [blockCloser])) := by
    refine ⟨?_, _, rfl, rfl⟩
    simp only
    rw [hjudgment]
    rfl
  have hpairs : ∀ q ∈ ps, IsPair q := fun q hq => (hps q hq).toIsPair
  have hproperties : (nodeProperties (p.withRest []).header
      (some ⟨SourceLine.numberedFrom 3 (ps.map pairText), true⟩)).result =
        (addProperties .empty ps).result := by
    exact blockProperties_of_pairs hpairs (texts_pairs hpairs 3)
  rw [Diagram.result_parse, String.toList_ofList, hsource, statements_of_opening hopening,
    split_pairs hpairs, statements, hjudgment, Diagram.result_foldlM_node, hproperties]
  rfl

theorem result_parse_inlineSource :
    (Diagram.parse (.str (String.ofList (inlineSource p.line ps)))).result = stated p ps := by
  let body := [',', ' '].intercalate (ps.map pairText)
  let behind := p.rest ++ ' ' :: '\x7b' :: (body ++ ['\x7d'])
  have hline : inlineSource p.line ps = (p.withRest behind).line := by
    rw [NodeParts.line_withRest, ← List.append_assoc, ← NodeParts.line_withRest]
    rfl
  have hlast : (p.withRest behind).line.getLast? = some '\x7d' := by
    rw [← hline, inlineSource, List.append_cons, List.append_cons, ← List.append_assoc,
      List.getLast?_concat]
  have htrim : Text.trim (p.withRest behind).line = (p.withRest behind).line :=
    (hp.withRest behind).trim_line hlast (by decide)
  have hne : (p.withRest behind).line ≠ [] := by
    intro hnil
    rw [hnil] at hlast
    cases hlast
  have hsource : SourceLine.ofText (inlineSource p.line ps) = [⟨1, (p.withRest behind).line⟩] := by
    change SourceLine.numberedFrom 1 (Text.lines (inlineSource p.line ps)) = _
    rw [Text.lines_of_no_break (isBreak_inlineSource hlines hheader), hline, if_neg hne,
      SourceLine.numberedFrom_cons (by rwa [htrim]), htrim]
    rfl
  have hjudgment := (hp.withRest behind).classify_line hid
  have hremainder : (p.withRest behind).header.remainder = '\x7b' :: (body ++ ['\x7d']) := by
    have hopener : ['\x7b'] ≠ [] ∧ Text.trim ['\x7b'] = ['\x7b'] := by decide
    have hcloser : ['\x7d'] ≠ [] ∧ Text.trim ['\x7d'] = ['\x7d'] := by decide
    have hbraces : Text.trim ('\x7b' :: (body ++ ['\x7d'])) = '\x7b' :: (body ++ ['\x7d']) :=
      Text.trim_append_append hopener hcloser body
    calc
      Text.trim behind = Text.trim ([' '] ++ '\x7b' :: (body ++ ['\x7d'])) :=
        Text.trim_append_left hrest _
      _ = _ := by rw [Text.trim_append_left (Text.forall_mem_of_all (by decide)), hbraces]
  have hproperties : (nodeProperties (p.withRest behind).header none).result =
      (addProperties .empty ps).result := by
    rw [nodeProperties.eq_def, hremainder, (inlineBlock_eq_some_iff _ body).mpr rfl]
    exact inlineProperties_of_plain hps
  rw [Diagram.result_parse, String.toList_ofList, hsource, statements_of_line (not_opening_nil _),
    statements, hjudgment, Diagram.result_foldlM_node, hproperties]
  rfl

end

namespace Diagram

/-- Both forms state a node with the properties that the pairs spell, or fail on the same pair. -/
theorem parse_inline_eq_block {line : List Char} {h : NodeHeader} {ps : List RawPair}
    (hline : line.any Text.isBreak = false) (hjudgment : classify line = .node (some h))
    (hbehind : h.remainder = [])
    (hps : ∀ p ∈ ps, IsPlainPair p ∧ (pairText p).any Text.isBreak = false) :
    (parse (.str (String.ofList (inlineSource line ps)))).result =
        (parse (.str (String.ofList (blockSource line ps)))).result ∧
      (parse (.str (String.ofList (inlineSource line ps)))).result =
        (addProperties .empty ps).result.map fun properties =>
          { nodes := [h.declared properties 1] } := by
  have hdeclaration := declaration_of_classify hjudgment
  obtain ⟨p, hp, rfl, rfl⟩ := NodeHeader.exists_parts (ofLine_of_classify hjudgment)
  have hfeed : '\n' ∉ p.line := by
    intro hc
    exact absurd (List.any_eq_false.mp hline '\n' hc) (by decide)
  have hid := NodeParts.id_not_mem_graphKeywords hfeed hdeclaration
  have hrest := (Text.trim_eq_nil_iff p.rest).mp hbehind
  have hplain : ∀ q ∈ ps, IsPlainPair q := fun q hq => (hps q hq).1
  have hbreaks : ∀ q ∈ ps, (pairText q).any Text.isBreak = false := fun q hq => (hps q hq).2
  have hinline := result_parse_inlineSource hp hid hrest hline hplain hbreaks
  have hblock := result_parse_blockSource hp hid hrest hline hplain hbreaks
  exact ⟨hinline.trans hblock.symm, hinline⟩

/-- Two pairs of one key, inline and in a block. -/
theorem parse_inline_eq_block_repeated :
    let line := "A[Function: f] ".toList
    let ps : List RawPair :=
      [("color".toList, "red".toList), ("position".toList, "[10, 0, 5]".toList),
        ("color".toList, "\"#ff0000\"".toList)]
    classify line = .node (some ⟨"A", "Function", "f", .square, []⟩) ∧
      (∀ p ∈ ps, IsPlainPair p ∧ (pairText p).any Text.isBreak = false) ∧
      (parse (.str (String.ofList (inlineSource line ps)))).result =
        (parse (.str (String.ofList (blockSource line ps)))).result := by
  intro line ps
  have hjudgment : classify line = .node (some ⟨"A", "Function", "f", .square, []⟩) := by decide
  have hps : ∀ p ∈ ps, IsPlainPair p ∧ (pairText p).any Text.isBreak = false := by decide
  exact ⟨hjudgment, hps, (parse_inline_eq_block (by decide) hjudgment rfl hps).1⟩

end Diagram

end Notation

end SpatialDiagram
