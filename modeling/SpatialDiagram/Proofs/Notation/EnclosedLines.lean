import SpatialDiagram.Proofs.Notation.Reference
import SpatialDiagram.Proofs.Notation.StatementRecursion

/-!
# Lines between braces

Braces below a line of node shape enclose lines that are meant as properties.
They are no statements if the node takes the block. A line that is no usable
node and a node with an inline block take none: then the enclosed lines are
statements like all others, up to one that opens a block of its own, and those
with a colon become title, description or metadata of the diagram.
-/

namespace SpatialDiagram

namespace Notation

/-! ## Which statement follows -/

/-- Each statement has at most one next one. -/
theorem follows_rightUnique (ls : List SourceLine) : Relator.RightUnique (Follows ls) := by
  intro i k k' h h'
  cases h with
  | line hopen =>
      cases h' with
      | line _ => rfl
      | block hopen' _ => exact absurd hopen' hopen
  | block hopen hclose =>
      cases h' with
      | line hopen' => exact absurd hopen hopen'
      | block _ hclose' =>
          rw [((closesAt_iff ls i _).mp hclose).1, ((closesAt_iff ls i _).mp hclose').1]

section

variable {ls : List SourceLine} {i k : Nat} (hi : StatementAt ls i)

include hi

/-- A statement that stands further down is reached from every one above it. -/
theorem reaches_of_le (hk : StatementAt ls k) (hik : i ≤ k) :
    Relation.ReflTransGen (Follows ls) i k := by
  rcases Relation.ReflTransGen.total_of_right_unique (follows_rightUnique ls) hi.2 hk.2
    with hreach | hback
  · exact hreach
  · obtain rfl := Nat.le_antisymm hik (le_of_reflTransGen hback)
    exact .refl

/-- Where no line opens a block the statements go on line by line. -/
theorem statementAt_of_no_block (hik : i ≤ k) (hk : k < ls.length)
    (h : ∀ m, i ≤ m → m < k → ¬ OpensBlock ls m) : StatementAt ls k := by
  induction hik with
  | refl => exact hi
  | @step k hik ih =>
      have hbefore := ih (Nat.lt_of_succ_lt hk) fun m him hmk => h m him (Nat.lt_succ_of_lt hmk)
      exact ⟨hk, hbefore.2.tail (.line (h k hik (Nat.lt_succ_self k)))⟩

/-- No line of a block, its braces included, is a statement. -/
theorem not_statementAt_of_opensBlock (hopen : OpensBlock ls i) (hik : i < k)
    (h : ∀ j l, i + 1 < j → j < k → ls[j]? = some l → l.text ≠ blockCloser) :
    ¬ StatementAt ls k := by
  intro hk
  rcases (reaches_of_le hi hk (by omega)).cases_head with rfl | ⟨m, hstep, hreach⟩
  · omega
  · cases hstep with
    | line hline => exact hline hopen
    | block _ hclose =>
        obtain ⟨hij, ⟨l, hl, htext⟩, -⟩ := hclose
        have hjk := le_of_reflTransGen hreach
        exact h _ l hij (by omega) hl htext

end

/-! ## Lines between braces -/

/-- A line below the brace that follows a position, and above the next closing brace alone. -/
def Enclosed (ls : List SourceLine) (i k : Nat) : Prop :=
  i + 1 < k ∧ k < ls.length ∧
    ∀ j l, i + 1 < j → j ≤ k → ls[j]? = some l → l.text ≠ blockCloser

/-- A line of node shape that is neither a comment nor a declaration. -/
def HasNodeShape (cs : List Char) : Prop :=
  isComment cs = false ∧ declaration? cs = none ∧ NodeHeader.looksLike cs = true

/-- What a line says is a title, a description or an entry of the metadata. -/
def Judgment.setsHeader : Judgment → Bool
  | declaration d => d.value.isSome
  | metadata _ => true
  | _ => false

/-- The line at a position is a statement that sets title, description or metadata. -/
def SetsHeader (ls : List SourceLine) (k : Nat) : Prop :=
  StatementAt ls k ∧ (judgmentAt ls k).setsHeader = true

theorem classify_of_hasNodeShape {cs : List Char} (h : HasNodeShape cs) :
    classify cs = .node (NodeHeader.ofLine? cs) := by
  obtain ⟨hcomment, hdeclaration, hlooks⟩ := h
  rw [classify, hcomment, if_neg Bool.false_ne_true, hdeclaration]
  exact if_pos hlooks

/-- A line of node shape above an opening brace takes no block if it is no usable node or has an
inline block. -/
theorem not_opensBlock_iff {ls : List SourceLine} {i : Nat} {l next : SourceLine}
    (hl : ls[i]? = some l) (hshape : HasNodeShape l.text) (hnext : ls[i + 1]? = some next)
    (htext : next.text = blockOpener) :
    ¬ OpensBlock ls i ↔ NodeHeader.ofLine? l.text = none ∨
      ∃ header body, NodeHeader.ofLine? l.text = some header ∧
        header.remainder = '\x7b' :: (body ++ ['\x7d']) := by
  rw [opensBlock_iff hl, classify_of_hasNodeShape hshape, not_and]
  have hopener : ∃ next, ls[i + 1]? = some next ∧ next.text = blockOpener := ⟨next, hnext, htext⟩
  simp only [hopener, not_true_eq_false, imp_false, takesBlock_iff, Judgment.node.injEq]
  cases NodeHeader.ofLine? l.text with
  | none => simp
  | some header => simp

theorem not_opensBlock_of_opener {ls : List SourceLine} {i : Nat} {l : SourceLine}
    (hl : ls[i]? = some l) (htext : l.text = blockOpener) : ¬ OpensBlock ls i := by
  rw [opensBlock_iff hl, htext]
  rintro ⟨htakes, -⟩
  exact absurd htakes (by decide)

/-- An enclosed line is a statement exactly if neither the line above the braces nor an enclosed
line above it opens a block. -/
theorem statementAt_iff_of_enclosed {ls : List SourceLine} {i k : Nat} (hi : StatementAt ls i)
    (hbrace : ¬ OpensBlock ls (i + 1)) (hk : Enclosed ls i k) :
    StatementAt ls k ↔ ¬ OpensBlock ls i ∧ ∀ m, i + 1 < m → m < k → ¬ OpensBlock ls m := by
  obtain ⟨hik, hlength, hinside⟩ := hk
  have hstatement (hopen : ¬ OpensBlock ls i) (m : Nat) (him : i < m) (hm : m < ls.length)
      (hbefore : ∀ j, i + 1 < j → j < m → ¬ OpensBlock ls j) : StatementAt ls m := by
    refine statementAt_of_no_block hi (by omega) hm fun j hij hjm => ?_
    rcases Nat.lt_trichotomy j (i + 1) with hlt | rfl | hgt
    · obtain rfl : i = j := by omega
      exact hopen
    · exact hbrace
    · exact hbefore j hgt hjm
  constructor
  · intro hstate
    have hopen : ¬ OpensBlock ls i := fun hopen =>
      not_statementAt_of_opensBlock hi hopen (by omega)
        (fun j l hij hjk => hinside j l hij (by omega)) hstate
    refine ⟨hopen, fun m => ?_⟩
    -- The first enclosed line that opens a block would take the line itself into it.
    induction m using Nat.strongRecOn with
    | ind m ih =>
        intro him hmk hblock
        have hm := hstatement hopen m (by omega) (by omega) fun j hij hjm =>
          ih j hjm hij (by omega)
        exact not_statementAt_of_opensBlock hm hblock hmk
          (fun j l hmj hjk => hinside j l (by omega) (by omega)) hstate
  · rintro ⟨hopen, hbefore⟩
    exact hstatement hopen k (by omega) hlength hbefore

/-! ## Title, description and metadata -/

/-- A line that sets no header gives no field a value. -/
theorem Judgment.value_of_not_setsHeader {j : Judgment} (h : j.setsHeader = false) (field : Field) :
    j.value? field = none := by
  cases j <;> simp_all [setsHeader, value?]

theorem Judgment.pair_of_not_setsHeader {j : Judgment} (h : j.setsHeader = false) :
    j.pair? = none := by
  cases j <;> simp_all [setsHeader, pair?]

theorem filterMap_filter_of {α β : Type} {p : α → Bool} {f : α → Option β}
    (h : ∀ a, p a = false → f a = none) (as : List α) :
    (as.filter p).filterMap f = as.filterMap f := by
  rw [List.filterMap_filter]
  refine List.filterMap_congr fun a _ => ?_
  cases hp : p a with
  | true => rfl
  | false => exact (h a hp).symm

namespace Diagram

/-- The title, the description and the metadata of a diagram come from the statements that set them.
A line between braces below a line of node shape is among these exactly if the line of node shape is
no usable node or has an inline block, and no enclosed line above opens a block. -/
theorem header_of_parse {text : String} {d : Diagram}
    (h : (Diagram.parse (.str text)).result = .ok d) :
    let ls := SourceLine.ofText text.toList
    (∃ ps : List Nat, ps.Pairwise (· < ·) ∧ (∀ k, k ∈ ps ↔ SetsHeader ls k) ∧
      d.title = (ps.filterMap fun k => (judgmentAt ls k).value? .title).getLast? ∧
      d.description = (ps.filterMap fun k => (judgmentAt ls k).value? .description).getLast? ∧
      d.metadata = Table.ofList (ps.filterMap fun k => (judgmentAt ls k).pair?)) ∧
    ∀ i l next k, StatementAt ls i → ls[i]? = some l → HasNodeShape l.text →
      ls[i + 1]? = some next → next.text = blockOpener → Enclosed ls i k →
      (SetsHeader ls k ↔
        (NodeHeader.ofLine? l.text = none ∨
          ∃ header body, NodeHeader.ofLine? l.text = some header ∧
            header.remainder = '\x7b' :: (body ++ ['\x7d'])) ∧
        (∀ m, i + 1 < m → m < k → ¬ OpensBlock ls m) ∧
        (judgmentAt ls k).setsHeader = true) := by
  intro ls
  refine ⟨?_, ?_⟩
  · obtain ⟨ps, hsorted, hmem, hall⟩ := exists_positions ls 0
    have hreads : Reads ls ps d := reads_foldlM hall (reads_nil ls) (result_parse text ▸ h)
    refine ⟨ps.filter fun k => (judgmentAt ls k).setsHeader, hsorted.filter _, fun k => ?_,
      ?_, ?_, ?_⟩
    · rw [List.mem_filter, hmem]
      exact Iff.rfl
    · rw [filterMap_filter_of fun k hk => Judgment.value_of_not_setsHeader hk .title]
      exact hreads.title
    · rw [filterMap_filter_of fun k hk => Judgment.value_of_not_setsHeader hk .description]
      exact hreads.description
    · rw [filterMap_filter_of fun k hk => Judgment.pair_of_not_setsHeader hk]
      exact hreads.metadata
  · intro i l next k hi hl hshape hnext htext hk
    rw [SetsHeader, statementAt_iff_of_enclosed hi (not_opensBlock_of_opener hnext htext) hk,
      not_opensBlock_iff hl hshape hnext htext, and_assoc]

/-- A title inside the block of a node is a property and sets no title. -/
theorem header_of_parse_block :
    let text := "A[Function: f]\n\x7b\ntitle: t\n\x7d"
    let ls := SourceLine.ofText text.toList
    let n : NodeDeclaration :=
      { id := "A", category := .function, name := "f", delimiter := .square
        properties := ⟨[("title", .str "t")]⟩, line := 1 }
    (parse (.str text)).result = .ok { nodes := [n] } ∧ StatementAt ls 0 ∧
      HasNodeShape "A[Function: f]".toList ∧ Enclosed ls 0 2 ∧
      (judgmentAt ls 2).setsHeader = true ∧ ¬ SetsHeader ls 2 := by
  intro text ls n
  have hlines : ls = [⟨1, "A[Function: f]".toList⟩, ⟨2, blockOpener⟩, ⟨3, "title: t".toList⟩,
      ⟨4, blockCloser⟩] := by decide
  have hsplit : Block.split [⟨3, "title: t".toList⟩, ⟨4, blockCloser⟩] =
      (⟨[⟨3, "title: t".toList⟩], true⟩, []) := by decide
  have hparse : (parse (.str text)).result = .ok { nodes := [n] } := by
    rw [result_parse]
    change ((statements ls).foldlM declare {}).result = _
    rw [hlines, statements_of_opening ⟨by decide, _, rfl, rfl⟩, hsplit, statements]
    rfl
  have hzero : StatementAt ls 0 := ⟨by rw [hlines]; decide, .refl⟩
  have hshape : HasNodeShape "A[Function: f]".toList := by unfold HasNodeShape; decide
  have henclosed : Enclosed ls 0 2 := by
    rw [hlines]
    refine ⟨by decide, by decide, fun j l hj hj' hl => ?_⟩
    obtain rfl : j = 2 := by omega
    obtain rfl := Option.some.inj hl
    decide
  have hjudgment : (judgmentAt ls 2).setsHeader = true := by rw [hlines]; decide
  have hfirst : ls[0]? = some ⟨1, "A[Function: f]".toList⟩ := by rw [hlines]; rfl
  have hbrace : ls[0 + 1]? = some ⟨2, blockOpener⟩ := by rw [hlines]; rfl
  refine ⟨hparse, hzero, hshape, henclosed, hjudgment, fun hsets => ?_⟩
  have huntaken := (((header_of_parse hparse).2 0 _ _ 2 hzero hfirst hshape hbrace rfl
    henclosed).mp hsets).1
  rcases huntaken with hnone | ⟨header, body, hheader, hbody⟩
  · exact absurd hnone (by decide)
  · have hremainder : (NodeHeader.ofLine? "A[Function: f]".toList).map NodeHeader.remainder =
        some [] := by decide
    rw [hheader, Option.map_some, hbody] at hremainder
    cases hremainder

/-- The lines below a node that is skipped, and the block below a node that has an inline block
already, become metadata. -/
theorem skipped_node_sets_header :
    let skipped := "A[NoColon]\n\x7b\nk: v\n\x7d"
    let inline := "A[Function: f] \x7ba: b\x7d\n\x7b\nk: v\n\x7d"
    let n : NodeDeclaration :=
      { id := "A", category := .function, name := "f", delimiter := .square
        properties := ⟨[("a", .str "b")]⟩, line := 1 }
    HasNodeShape "A[NoColon]".toList ∧
      SourceLine.ofText skipped.toList = [⟨1, "A[NoColon]".toList⟩, ⟨2, blockOpener⟩,
        ⟨3, "k: v".toList⟩, ⟨4, blockCloser⟩] ∧
      StatementAt (SourceLine.ofText skipped.toList) 0 ∧
      Enclosed (SourceLine.ofText skipped.toList) 0 2 ∧
      SetsHeader (SourceLine.ofText skipped.toList) 2 ∧
      (parse (.str skipped)).result = .ok { metadata := ⟨[("k", "v")]⟩ } ∧
      (parse (.str inline)).result = .ok { nodes := [n], metadata := ⟨[("k", "v")]⟩ } := by
  intro skipped inline n
  have hlines : SourceLine.ofText skipped.toList = [⟨1, "A[NoColon]".toList⟩, ⟨2, blockOpener⟩,
      ⟨3, "k: v".toList⟩, ⟨4, blockCloser⟩] := by decide
  have hno (m : Nat) (hm : m < 2) : ¬ OpensBlock (SourceLine.ofText skipped.toList) m := by
    rw [hlines]
    rintro ⟨l, header, next, hl, hj, -⟩
    have htakes : (classify l.text).nodeHeader?.isSome = true := by rw [hj]; rfl
    rcases m with _ | _ | m
    · obtain rfl := Option.some.inj hl
      exact absurd htakes (by decide)
    · obtain rfl := Option.some.inj hl
      exact absurd htakes (by decide)
    · omega
  have hzero : StatementAt (SourceLine.ofText skipped.toList) 0 :=
    ⟨by rw [hlines]; decide, .refl⟩
  refine ⟨by unfold HasNodeShape; decide, hlines, hzero, ?_, ⟨?_, ?_⟩, ?_, ?_⟩
  · rw [hlines]
    refine ⟨by decide, by decide, fun j l hj hj' hl => ?_⟩
    obtain rfl : j = 2 := by omega
    obtain rfl := Option.some.inj hl
    decide
  · exact statementAt_of_no_block hzero (by decide) (by rw [hlines]; decide) fun m _ hm => hno m hm
  · rw [hlines]
    decide
  · rw [result_parse, hlines, statements_of_line (by rw [opening_cons_iff]; decide),
      statements_of_line (by rw [opening_cons_iff]; decide), statements_of_no_block (by decide)]
    rfl
  · have hinline : SourceLine.ofText inline.toList =
        [⟨1, "A[Function: f] \x7ba: b\x7d".toList⟩, ⟨2, blockOpener⟩, ⟨3, "k: v".toList⟩,
          ⟨4, blockCloser⟩] := by decide
    rw [result_parse, hinline, statements_of_line (by rw [opening_cons_iff]; decide),
      statements_of_line (by rw [opening_cons_iff]; decide), statements_of_no_block (by decide)]
    rfl

end Diagram

end Notation

end SpatialDiagram
