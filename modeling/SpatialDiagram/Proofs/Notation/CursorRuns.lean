import Mathlib.Data.List.TakeWhile
import SpatialDiagram.Notation.Cursor
import SpatialDiagram.Proofs.Notation.Readability
import SpatialDiagram.Proofs.Notation.Renumbering

/-!
# Going through a source with a cursor

A cursor that reads the block below a line moves to the end of this block, which
is where the recursion over the lines goes on. Going through a source line by
line therefore states the same diagram as its statements in turn, with the same
trace; where a property cannot be read the cursor stops, and so does the diagram.
-/

namespace SpatialDiagram

namespace Notation

/-- The properties in a block can be read if the node that it belongs to is taken up. -/
theorem isOk_property_of_declare {d d' : Diagram} {l : SourceLine} {b : Block}
    (htakes : (classify l.text).takesBlock = true)
    (h : (d.declare ⟨l, classify l.text, some b⟩).result = .ok d') :
    ∀ l ∈ b.lines, (property? l.text).result.isOk = true := by
  obtain ⟨header, hj, hbody⟩ := (takesBlock_iff _).mp htakes
  have hnone := Trace.failure_eq_none_of_result h
  rw [Diagram.failure_declare, Statement.rawPairs, hj] at hnone
  simp only [NodeHeader.rawPairs, (inlineBlock_eq_none_iff _).mpr hbody,
    List.findSome?_eq_none_iff] at hnone
  intro l hl
  rw [property?]
  cases hpair : rawPair? l.text with
  | none => rfl
  | some p =>
      obtain ⟨v, hv⟩ := (Trace.failure_eq_none_iff _).mp
        (hnone p (List.mem_filterMap.mpr ⟨l, hl, hpair⟩))
      simp only [Trace.result_bind, hv]
      rfl

namespace Cursor

/-- The cursor that stands on a line of a source. -/
def onLine (ls : List SourceLine) (i : Nat) : Cursor :=
  { lines := ls.map SourceLine.text, numbers := ls.map SourceLine.number, index := i }

variable {ls : List SourceLine} {i : Nat}

/-! ## The line under a cursor -/

theorem hasCurrent_onLine (ls : List SourceLine) (i : Nat) :
    (onLine ls i).hasCurrent = decide (i < ls.length) := by
  simp [hasCurrent, onLine]

theorem itemAt_natCast {α : Type} (items : List α) (i : Nat) : itemAt? items i = items[i]? := by
  have hneg : ¬ (i : Int) < 0 := by omega
  simp [itemAt?, hneg]

theorem current_onLine {l : SourceLine} (h : ls[i]? = some l) :
    (onLine ls i).current = .ok l.text := by
  simp [current, onLine, itemAt_natCast, h]

theorem lineNumber_onLine {l : SourceLine} (h : ls[i]? = some l) :
    (onLine ls i).lineNumber = .ok (l.number : Int) := by
  obtain ⟨hi, rfl⟩ := List.getElem?_eq_some_iff.mp h
  have hne : ls ≠ [] := List.ne_nil_of_length_pos (by omega)
  simp [lineNumber, onLine, itemAt_natCast, hi, hne]

/-! ## The block below a cursor -/

/-- An opening brace on the next line begins a block, of which the numbers are left out. -/
theorem block_onLine (ls : List SourceLine) (i : Nat) :
    (onLine ls i).block? =
      if ∃ next, ls[i + 1]? = some next ∧ next.text = blockOpener then
        some ((Block.split (ls.drop (i + 2))).1.renumber fun _ => 0)
      else none := by
  have hpeek : (onLine ls i).peek 1 = (ls[i + 1]?).map SourceLine.text := by
    have hnat : ((i : Int) + 1).toNat = i + 1 := by omega
    have hneg : ¬ ((i : Int) + 1 < 0) := by omega
    simp [peek, onLine, hnat, hneg]
  have hlines : ((onLine ls i).lines.drop ((onLine ls i).index + 2).toNat).map (SourceLine.mk 0) =
      (ls.drop (i + 2)).map (SourceLine.renumber fun _ => 0) := by
    have hnat : ((i : Int) + 2).toNat = i + 2 := by omega
    simp only [onLine, hnat, List.map_drop, List.map_map]
    rfl
  rw [block?, hpeek, hlines, Block.split_renumber]
  simp only [Option.map_eq_some_iff]

/-- Reading a block gives the properties on its lines and moves over those that can be read: to the
closing brace, or behind the last line, unless a property cannot. -/
theorem readBlock_of_opener
    (h : ∃ next, ls[i + 1]? = some next ∧ next.text = blockOpener) :
    (onLine ls i).readBlock = (blockProperties (Block.split (ls.drop (i + 2))).1,
      onLine ls (i + 2 + ((blockLines ls i).takeWhile fun l =>
        (property? l.text).result.isOk).length)) := by
  have hread : (((Block.split (ls.drop (i + 2))).1.renumber fun _ => 0).lines.takeWhile fun l =>
      (property? l.text).result.isOk).length =
        ((blockLines ls i).takeWhile fun l => (property? l.text).result.isOk).length := by
    rw [Block.renumber, (split_drop ls i).1, List.takeWhile_map, List.length_map]
    rfl
  rw [readBlock, block_onLine, if_pos h]
  simp only [hread, blockProperties_renumber, onLine, Int.natCast_add]
  rfl

/-- Without an opener on the next line no block is read. -/
theorem readBlock_of_no_opener
    (h : ¬ ∃ next, ls[i + 1]? = some next ∧ next.text = blockOpener) :
    (onLine ls i).readBlock = (.done .empty, onLine ls i) := by
  rw [readBlock, block_onLine, if_neg h]

/-! ## Statement by statement -/

/-- A statement has the block that begins below it, if it takes one. -/
theorem statement_onLine {l : SourceLine} (h : ls[i]? = some l) {block : Option Block}
    (hopen : OpensBlock ls i → block = some (Block.split (ls.drop (i + 2))).1)
    (hline : ¬ OpensBlock ls i → block = none) :
    (onLine ls i).statement =
      .ok ⟨l, classify l.text, block.map (Block.renumber fun _ => 0)⟩ := by
  have hblock : (if (classify l.text).takesBlock then (onLine ls i).block? else none) =
      block.map (Block.renumber fun _ => 0) := by
    rw [block_onLine]
    by_cases ho : OpensBlock ls i
    · obtain ⟨htakes, hnext⟩ := (opensBlock_iff h).mp ho
      rw [if_pos htakes, if_pos hnext, hopen ho, Option.map_some]
    · rw [hline ho, Option.map_none]
      by_cases htakes : (classify l.text).takesBlock = true
      · rw [if_pos htakes, if_neg fun hnext => ho ((opensBlock_iff h).mpr ⟨htakes, hnext⟩)]
      · rw [if_neg htakes]
  rw [statement, current_onLine h, lineNumber_onLine h]
  simp only [bind, Except.bind, hblock]
  rfl

theorem advance_onLine (ls : List SourceLine) (i : Nat) :
    (onLine ls i).advance 1 = onLine ls (i + 1) := rfl

/-- Behind a statement of one line stands the next line. -/
theorem behind_of_line {l : SourceLine} (h : ls[i]? = some l) (hline : ¬ OpensBlock ls i)
    (block : Option Block) :
    (onLine ls i).behind ⟨l, classify l.text, block⟩ = onLine ls (i + 1) := by
  rw [behind]
  split
  · rename_i htakes
    rw [readBlock_of_no_opener fun hnext => hline ((opensBlock_iff h).mpr ⟨htakes, hnext⟩),
      advance_onLine]
  · rw [advance_onLine]

/-- Behind a block whose properties can be read the cursor stands where the next statement does. -/
theorem behind_of_opening {l : SourceLine} (h : ls[i]? = some l) (hopen : OpensBlock ls i)
    (hread : ∀ l ∈ blockLines ls i, (property? l.text).result.isOk = true)
    (block : Option Block) :
    (onLine ls i).behind ⟨l, classify l.text, block⟩ =
      onLine ls (i + 3 + (blockLines ls i).length) := by
  obtain ⟨htakes, hnext⟩ := (opensBlock_iff h).mp hopen
  rw [behind, if_pos htakes, readBlock_of_opener hnext, List.takeWhile_eq_self_iff.mpr hread,
    advance_onLine]
  congr 1
  omega

/-- From any line the cursor takes up the same statements as the recursion over the lines. -/
theorem declareFrom_onLine (ls : List SourceLine) (i : Nat) (d : Diagram) :
    (onLine ls i).declareFrom d = (statements (ls.drop i)).foldlM Diagram.declare d := by
  -- The induction is on the number of lines left, since a block takes several at once.
  induction hn : ls.length - i using Nat.strongRecOn generalizing i d with
  | ind n ih =>
      rw [declareFrom]
      by_cases hi : i < ls.length
      · have hl : ls[i]? = some ls[i] := List.getElem?_eq_getElem hi
        have hcurrent : (onLine ls i).hasCurrent = true := by simpa [hasCurrent_onLine] using hi
        rw [dif_pos hcurrent]
        by_cases hopen : OpensBlock ls i
        · have hdeclare := Diagram.declare_renumber_block (fun _ => 0) d
            ⟨ls[i], classify ls[i].text, some (Block.split (ls.drop (i + 2))).1⟩
          rw [statement_onLine hl (fun _ => rfl) (absurd hopen), Trace.ofResult_ok_bind, hdeclare,
            statements_drop_of_opening hl hopen, List.foldlM_cons]
          refine Trace.bind_congr_of_ok fun d' hd' => ?_
          have hread := isOk_property_of_declare ((opensBlock_iff hl).mp hopen).1 hd'
          rw [behind_of_opening hl hopen hread, ih _ (by omega) _ _ rfl]
        · rw [statement_onLine hl (fun ho => absurd ho hopen) fun _ => rfl,
            Trace.ofResult_ok_bind, statements_drop_of_line hl hopen, List.foldlM_cons]
          refine Trace.bind_congr_of_ok fun d' _ => ?_
          rw [behind_of_line hl hopen, ih _ (by omega) _ _ rfl]
      · have hcurrent : ¬ (onLine ls i).hasCurrent = true := by simpa [hasCurrent_onLine] using hi
        rw [dif_neg hcurrent, List.drop_eq_nil_of_le (Nat.le_of_not_lt hi), statements,
          List.foldlM_nil]
        rfl

/-- Going through a source from its first line takes up its statements in turn. -/
theorem declareFrom_ofText (source : List Char) (d : Diagram) :
    (ofText source).declareFrom d =
      (statements (SourceLine.ofText source)).foldlM Diagram.declare d :=
  declareFrom_onLine (SourceLine.ofText source) 0 d

end Cursor

/-- A source states the diagram that a cursor finds in it, or fails like the cursor. -/
theorem Diagram.result_parse_eq_declareFrom (s : String) :
    (parse (.str s)).result = ((Cursor.ofText s.toList).declareFrom {}).result := by
  rw [Cursor.declareFrom_ofText]
  exact result_parse s

end Notation

end SpatialDiagram
