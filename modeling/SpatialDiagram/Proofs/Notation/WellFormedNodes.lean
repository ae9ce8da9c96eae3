import SpatialDiagram.Proofs.Notation.LeadingIdentifiers
import SpatialDiagram.Proofs.Notation.Readability

/-!
# The nodes of a diagram

Every node of a diagram comes from a line of node shape. Its id is an identifier,
and its name has no blanks at its ends and none of the brackets around it. A line
of node shape is skipped if there is nothing in the place of its category or of
its name. Blanks there are something: they make a node, and trimming leaves
nothing of them.
-/

namespace SpatialDiagram

namespace Notation

/-! ## Lines of node shape -/

namespace NodeParts

variable {p : NodeParts}

theorem IsShaped.ofLine (hp : p.IsShaped) : NodeHeader.ofLine? p.line =
    if p.category = [] ∨ p.name = [] then none else some p.header := by
  by_cases hempty : p.category = [] ∨ p.name = []
  · rw [if_pos hempty]
    cases hread : NodeHeader.ofLine? p.line with
    | none => rfl
    | some h =>
        obtain ⟨q, hq, hline, -⟩ := NodeHeader.exists_parts hread
        obtain rfl := NodeParts.eq_of_line hq.isShaped hp hline
        exact absurd hempty (not_or.mpr ⟨hq.category_ne_nil, hq.name_ne_nil⟩)
  · rw [if_neg hempty]
    exact (isProper_iff.mpr ⟨hp, not_or.mp hempty⟩).ofLine

theorem IsShaped.classify_line (hp : p.IsShaped) (hid : ¬ (p.id ∈ graphKeywords ∧ IsTitle p.tail)) :
    classify p.line = .node (if p.category = [] ∨ p.name = [] then none else some p.header) := by
  rw [classify_of_opener hp.id_ne_nil hp.isRun_id.all, if_neg hid, hp.ofLine]

end NodeParts

/-- What is true of every node under its id and name. -/
structure NodeDeclaration.IsWellFormed (n : NodeDeclaration) : Prop where
  id_ne_empty : n.id ≠ ""
  id_plain : ∀ c ∈ n.id.toList, isIdentifier c = true
  name_trimmed : Text.trim n.name.toList = n.name.toList
  name_plain : ∀ c ∈ n.name.toList, c ∉ n.delimiter.opener ∧ c ∉ n.delimiter.closer

/-- A node comes from a statement, which consists of given parts. -/
structure ComesFrom (ls : List SourceLine) (i : Nat) (p : NodeParts) (n : NodeDeclaration) :
    Prop where
  statement : StatementAt ls i
  proper : p.IsProper
  text : (ls[i]?).map SourceLine.text = some p.line
  declared : DeclaredBy ls i p.header n

namespace ComesFrom

variable {ls : List SourceLine} {i : Nat} {p : NodeParts} {n : NodeDeclaration}
  (h : ComesFrom ls i p n)

include h

/-- A node that comes from a line is well formed. -/
theorem isWellFormed : n.IsWellFormed := by
  have hid : n.id.toList = p.id := by rw [h.declared.id, NodeParts.header, String.toList_ofList]
  have hname : n.name.toList = Text.trim p.name := by
    rw [h.declared.name, NodeParts.header, String.toList_ofList]
  constructor
  · intro hempty
    rw [hempty] at hid
    exact h.proper.id_ne_nil hid.symm
  · rw [hid]
    exact h.proper.isShaped.isRun_id.all
  · rw [hname]
    exact (Text.trim_eq_self_iff _).mpr (Text.trim_ends p.name)
  · rw [hname, h.declared.delimiter]
    intro c hc
    exact h.proper.name_plain c ((Text.infix_stripWhile Text.isBlank p.name).subset hc)

/-- The name is empty exactly where nothing but blanks is written for it. -/
theorem name_eq_empty_iff : n.name = "" ↔ ∀ c ∈ p.name, Text.isBlank c = true := by
  rw [h.declared.name, ← Text.trim_eq_nil_iff, NodeParts.header]
  simp

end ComesFrom

/-! ## The lines of the nodes -/

theorem position_of_number {source : List Char} {i j : Nat}
    (hi : i < (SourceLine.ofText source).length) (hj : j < (SourceLine.ofText source).length)
    (h : numberAt (SourceLine.ofText source) i = numberAt (SourceLine.ofText source) j) :
    i = j := by
  rcases Nat.lt_trichotomy i j with hij | hij | hji
  · exact absurd h (Nat.ne_of_lt (Diagram.numberAt_lt_of_lt source hij hj))
  · exact hij
  · exact absurd h (Nat.ne_of_gt (Diagram.numberAt_lt_of_lt source hji hi))

theorem judgmentAt_of_text {ls : List SourceLine} {i : Nat} {cs : List Char}
    (h : (ls[i]?).map SourceLine.text = some cs) : judgmentAt ls i = classify cs := by
  obtain ⟨l, hl, rfl⟩ := Option.map_eq_some_iff.mp h
  rw [judgmentAt, hl]
  rfl

theorem comesFrom_of_declaredBy {ls : List SourceLine} {i : Nat} {h : NodeHeader}
    {n : NodeDeclaration} (hi : StatementAt ls i) (hn : DeclaredBy ls i h n) :
    ∃ p, ComesFrom ls i p n := by
  have hlt : i < ls.length := hi.1
  have htext : (ls[i]?).map SourceLine.text = some ls[i].text := by
    rw [List.getElem?_eq_getElem hlt, Option.map_some]
  have hj := (judgmentAt_of_text htext).symm.trans hn.judgment
  obtain ⟨p, hp, hline, rfl⟩ := NodeHeader.exists_parts (ofLine_of_classify hj)
  exact ⟨p, hi, hp, hline ▸ htext, hn⟩

namespace Diagram

section

variable {text : String} {d : Diagram} (h : (parse (.str text)).result = .ok d)

include h

theorem exists_reads : ∃ ps, (∀ i, i ∈ ps ↔ StatementAt (SourceLine.ofText text.toList) i) ∧
    Reads (SourceLine.ofText text.toList) ps d := by
  obtain ⟨ps, -, hmem, hall⟩ := exists_positions (SourceLine.ofText text.toList) 0
  exact ⟨ps, hmem, reads_foldlM hall (reads_nil _) (result_parse text ▸ h)⟩

/-- Every node of a diagram comes from a line of its source. -/
theorem exists_comesFrom {n : NodeDeclaration} (hn : n ∈ d.nodes) :
    ∃ i p, ComesFrom (SourceLine.ofText text.toList) i p n := by
  obtain ⟨ps, hmem, hreads⟩ := exists_reads h
  obtain ⟨i, hi, header, hdeclared⟩ := exists_of_forall₂
    (R := fun n i => ∃ header, DeclaredBy _ i header n) hreads.nodes.flip hn
  exact ⟨i, comesFrom_of_declaredBy ((hmem i).mp (List.mem_of_mem_filter hi)) hdeclared⟩

/-- A statement declares a node exactly if its line is read as one. -/
theorem exists_node_iff {i : Nat} (hi : StatementAt (SourceLine.ofText text.toList) i) :
    (∃ n ∈ d.nodes, n.line = numberAt (SourceLine.ofText text.toList) i) ↔
      ∃ header, judgmentAt (SourceLine.ofText text.toList) i = .node (some header) := by
  constructor
  · rintro ⟨n, hn, hline⟩
    obtain ⟨j, p, hfrom⟩ := exists_comesFrom h hn
    have hij := position_of_number hi.1 hfrom.statement.1 (hline.symm.trans hfrom.declared.line)
    exact ⟨p.header, hij ▸ hfrom.declared.judgment⟩
  · rintro ⟨header, hj⟩
    obtain ⟨ps, hmem, hreads⟩ := exists_reads h
    obtain ⟨n, hn, _, hdeclared⟩ := exists_of_forall₂ hreads.nodes
      (List.mem_filter.mpr ⟨(hmem i).mpr hi, by rw [hj]; rfl⟩)
    exact ⟨n, hn, hdeclared.line⟩

end

/-- The nodes of a diagram are well formed, and the name of one is empty if and only if there are
only blanks in its place. Of the statements of node shape those are skipped that have nothing in
the place of the category or of the name, and all others give nodes. -/
theorem nodes_of_parse {text : String} {d : Diagram} (h : (parse (.str text)).result = .ok d) :
    let ls := SourceLine.ofText text.toList
    (∀ n ∈ d.nodes, n.IsWellFormed ∧ ∃ i p, ComesFrom ls i p n ∧
      (n.name = "" ↔ ∀ c ∈ p.name, Text.isBlank c = true)) ∧
    ∀ i, ∀ p : NodeParts, StatementAt ls i → (ls[i]?).map SourceLine.text = some p.line →
      p.IsShaped → ¬ (p.id ∈ graphKeywords ∧ IsTitle p.tail) →
      if p.category = [] ∨ p.name = [] then
        judgmentAt ls i = .node none ∧ ∀ n ∈ d.nodes, n.line ≠ numberAt ls i
      else ∃ n ∈ d.nodes, ComesFrom ls i p n := by
  intro ls
  constructor
  · intro n hn
    obtain ⟨i, p, hfrom⟩ := exists_comesFrom h hn
    exact ⟨hfrom.isWellFormed, i, p, hfrom, hfrom.name_eq_empty_iff⟩
  · intro i p hi htext hp hid
    have hj := (judgmentAt_of_text htext).trans (hp.classify_line hid)
    have hnode := exists_node_iff h hi
    by_cases hempty : p.category = [] ∨ p.name = []
    · rw [if_pos hempty] at hj ⊢
      refine ⟨hj, ?_⟩
      intro n hn hline
      obtain ⟨header, hj'⟩ := hnode.mp ⟨n, hn, hline⟩
      rw [hj] at hj'
      cases hj'
    · rw [if_neg hempty] at hj ⊢
      obtain ⟨n, hn, hline⟩ := hnode.mpr ⟨p.header, hj⟩
      obtain ⟨j, q, hfrom⟩ := exists_comesFrom h hn
      obtain rfl := position_of_number hi.1 hfrom.statement.1
        (hline.symm.trans hfrom.declared.line)
      have hlines := Option.some.inj (hfrom.text.symm.trans htext)
      obtain rfl := NodeParts.eq_of_line hfrom.proper.isShaped hp hlines
      exact ⟨n, hn, hfrom⟩

/-- A source whose first line says too little to be a node. -/
theorem nodes_of_parse_nothing :
    let text := "B[[Module:]]\nA[Function:  f ]"
    let n : NodeDeclaration :=
      { id := "A", category := .function, name := "f", delimiter := .square, properties := .empty
        line := 2 }
    (parse (.str text)).result = .ok { nodes := [n] } ∧ n.IsWellFormed ∧
      judgmentAt (SourceLine.ofText text.toList) 0 = .node none := by
  intro text n
  have hparse : (parse (.str text)).result = .ok { nodes := [n] } := by
    have hlines : SourceLine.ofText text.toList =
        [⟨1, "B[[Module:]]".toList⟩, ⟨2, "A[Function:  f ]".toList⟩] := by decide
    rw [parse_of_no_block hlines (by decide), List.map_cons, List.foldlM_cons, Trace.result_bind,
      declare_of_silent _ (by decide)]
    rfl
  have hnodes := nodes_of_parse hparse
  let p : NodeParts :=
    { id := "B".toList, delimiter := .squares, category := "Module".toList, name := [], rest := [] }
  have hp : p.IsShaped := ⟨by decide, by decide, by decide, Text.forall_mem_of_all (by decide),
    Text.forall_mem_of_all (by decide)⟩
  have hskipped := hnodes.2 0 p ⟨by decide, .refl⟩ (by decide) hp (by decide)
  rw [if_pos (.inr rfl)] at hskipped
  exact ⟨hparse, (hnodes.1 n List.mem_cons_self).1, hskipped.1⟩

/-- Blanks in the place of a name or of a category make nodes. -/
theorem blanks_make_nodes :
    (parse (.str "A[Function: ]\nB[ : f]")).result = .ok { nodes := [
      { id := "A", category := .function, name := "", delimiter := .square, properties := .empty
        line := 1 },
      { id := "B", category := .component, name := "f", delimiter := .square, properties := .empty
        line := 2 }] } :=
  (parse_of_no_block rfl (by decide)).trans rfl

end Diagram

end Notation

end SpatialDiagram
