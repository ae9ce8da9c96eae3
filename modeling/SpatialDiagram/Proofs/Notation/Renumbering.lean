import SpatialDiagram.Proofs.Notation.Reference
import SpatialDiagram.Proofs.Notation.StatementRecursion
import SpatialDiagram.Proofs.Notices

/-!
# Numbers of lines

What a line says does not depend on its number. With other numbers the same
lines are the same statements, and they state the same diagram with other
numbers, or fail alike.
-/

namespace SpatialDiagram

namespace Notation

/-! ## Other numbers -/

def SourceLine.renumber (f : Nat → Nat) (l : SourceLine) : SourceLine :=
  { l with number := f l.number }

def Block.renumber (f : Nat → Nat) (b : Block) : Block :=
  { b with lines := b.lines.map (SourceLine.renumber f) }

def Statement.renumber (f : Nat → Nat) (s : Statement) : Statement :=
  { s with line := s.line.renumber f, block := s.block.map (Block.renumber f) }

/-- A diagram with the line numbers of its declarations changed. -/
def Diagram.renumber (f : Nat → Nat) (d : Diagram) : Diagram :=
  { d with
    nodes := d.nodes.map fun n => { n with line := f n.line }
    connections := d.connections.map fun c => { c with line := f c.line } }

/-! ## The same statements -/

theorem Block.split_renumber (f : Nat → Nat) (ls : List SourceLine) :
    Block.split (ls.map (SourceLine.renumber f)) =
      ((Block.split ls).1.renumber f, (Block.split ls).2.map (SourceLine.renumber f)) := by
  have hinside : (fun l : SourceLine => decide (l.text ≠ blockCloser)) ∘ SourceLine.renumber f =
      fun l => decide (l.text ≠ blockCloser) := rfl
  simp only [Block.split, Block.renumber, List.takeWhile_map, List.dropWhile_map, hinside,
    List.isEmpty_map, List.map_tail]

theorem opening_renumber_iff (f : Nat → Nat) (l : SourceLine) (rest : List SourceLine) :
    Opening (l.renumber f) (rest.map (SourceLine.renumber f)) ↔ Opening l rest := by
  cases rest with
  | nil => exact iff_of_false (not_opening_nil _) (not_opening_nil _)
  | cons next more => simp only [List.map_cons, opening_cons_iff, SourceLine.renumber]

/-- The statements do not look at the line numbers. -/
theorem statements_renumber (f : Nat → Nat) (ls : List SourceLine) :
    statements (ls.map (SourceLine.renumber f)) = (statements ls).map (Statement.renumber f) := by
  refine statements_induction (P := fun _ _ => True)
    (motive := fun ls => statements (ls.map (SourceLine.renumber f)) =
      (statements ls).map (Statement.renumber f))
    (fun _ _ _ _ => trivial) ?_ ?_ ?_
  · rw [List.map_nil, statements, List.map_nil]
  · intro l next more h _ ih
    have h' : Opening (l.renumber f) (next.renumber f :: more.map (SourceLine.renumber f)) :=
      (opening_renumber_iff f l (next :: more)).mpr h
    rw [List.map_cons, List.map_cons, statements_of_opening h', statements_of_opening h,
      Block.split_renumber, ih]
    rfl
  · intro l rest h _ ih
    have h' : ¬ Opening (l.renumber f) (rest.map (SourceLine.renumber f)) := fun ho =>
      h ((opening_renumber_iff f l rest).mp ho)
    rw [List.map_cons, statements_of_line h', statements_of_line h, ih]
    rfl

/-! ## The same diagram -/

/-- Of a block a node takes nothing but the pairs on its lines. -/
theorem result_nodeProperties_map (h : NodeHeader) {f : Block → Block} {block : Option Block}
    (hf : ∀ b, block = some b → ((f b).lines.filterMap fun l => rawPair? l.text) =
      b.lines.filterMap fun l => rawPair? l.text) :
    (nodeProperties h (block.map f)).result = (nodeProperties h block).result := by
  cases hinline : inlineBlock? h.remainder with
  | some body => simp only [nodeProperties, hinline]
  | none =>
      cases block with
      | none => rfl
      | some b =>
          simp only [nodeProperties, hinline, Option.map_some]
          rw [result_blockProperties, result_blockProperties, hf b rfl]

theorem Block.filterMap_renumber (f : Nat → Nat) (b : Block) :
    ((b.renumber f).lines.filterMap fun l => rawPair? l.text) =
      b.lines.filterMap fun l => rawPair? l.text := List.filterMap_map

theorem blockProperties_renumber (f : Nat → Nat) (b : Block) :
    blockProperties (b.renumber f) = blockProperties b := by
  rw [blockProperties, Block.filterMap_renumber]
  rfl

namespace Diagram

/-- The numbers of the lines in its block do not matter to a statement. -/
theorem declare_renumber_block (f : Nat → Nat) (d : Diagram) (s : Statement) :
    d.declare { s with block := s.block.map (Block.renumber f) } = d.declare s := by
  obtain ⟨l, j, block⟩ := s
  have hproperties (h : NodeHeader) :
      nodeProperties h (block.map (Block.renumber f)) = nodeProperties h block := by
    rw [nodeProperties.eq_def, nodeProperties.eq_def]
    cases inlineBlock? h.remainder with
    | some body => rfl
    | none =>
        cases block with
        | none => rfl
        | some b => exact blockProperties_renumber f b
  cases j with
  | node header =>
      cases header with
      | none => rfl
      | some h => simp only [declare, declareNode, hproperties]
  | declaration dec =>
      obtain ⟨field, _ | value⟩ := dec <;> rfl
  | connection header => cases header <;> rfl
  | _ => rfl

/-- A change of diagrams goes past a statement if it goes past each kind of update that a statement
can make. -/
theorem result_declare_of (k : Diagram → Diagram) {d : Diagram} {s s' : Statement}
    (hjudgment : s'.judgment = s.judgment)
    (hproperties : ∀ h, (nodeProperties h s'.block).result = (nodeProperties h s.block).result)
    (hfield : ∀ field value, (k d).declareField field value = k (d.declareField field value))
    (hnode : ∀ n : NodeDeclaration, n.line = s.line.number →
      { k d with nodes := (k d).nodes ++ [{ n with line := s'.line.number }] } =
        k { d with nodes := d.nodes ++ [n] })
    (hconnection : ∀ h, (k d).declareConnection h s'.line.number =
      k (d.declareConnection h s.line.number))
    (hmetadata : ∀ m : Metadata, { k d with metadata := (k d).metadata.put m.key m.value } =
      k { d with metadata := d.metadata.put m.key m.value }) :
    ((k d).declare s').result = (d.declare s).result.map k := by
  by_cases hsilent : s.judgment.contributes = false
  · rw [declare_of_silent d hsilent, declare_of_silent _ (hjudgment ▸ hsilent)]
    rfl
  · cases hj : s.judgment with
    | comment => exact absurd (hj ▸ rfl) hsilent
    | unrecognized => exact absurd (hj ▸ rfl) hsilent
    | declaration dec =>
        obtain ⟨field, _ | value⟩ := dec
        · exact absurd (hj ▸ rfl) hsilent
        · simp only [declare, hjudgment, hj]
          exact congrArg Except.ok (hfield field value)
    | node header =>
        obtain _ | header := header
        · exact absurd (hj ▸ rfl) hsilent
        · simp only [declare, hjudgment, hj, declareNode]
          refine Trace.result_bind_map_of_eq (hproperties header) fun properties =>
            Trace.result_bind_map_right (categoryOf header.category) fun category => ?_
          exact congrArg Except.ok (hnode
            { id := header.id, category, name := header.name, delimiter := header.delimiter,
              properties, line := s.line.number } rfl)
    | connection header =>
        obtain _ | header := header
        · exact absurd (hj ▸ rfl) hsilent
        · simp only [declare, hjudgment, hj]
          exact congrArg Except.ok (hconnection header)
    | metadata m =>
        simp only [declare, hjudgment, hj]
        exact congrArg Except.ok (hmetadata m)

/-- What a statement declares differs by the line numbers only. -/
theorem result_declare_renumber (f : Nat → Nat) (d : Diagram) (s : Statement) :
    ((d.renumber f).declare (s.renumber f)).result = (d.declare s).result.map (renumber f) := by
  refine result_declare_of (renumber f) rfl
    (fun h => result_nodeProperties_map h fun b _ => b.filterMap_renumber f) ?_ ?_ ?_ ?_
  · intro field value
    cases field <;> rfl
  · intro n hn
    simp [renumber, hn, Statement.renumber, SourceLine.renumber]
  · intro h
    simp [declareConnection, renumber, Statement.renumber, SourceLine.renumber]
  · exact fun _ => rfl

/-- A source with other line numbers states the same diagram with these numbers, or fails alike. -/
theorem result_foldlM_renumber (f : Nat → Nat) (ss : List Statement) (d : Diagram) :
    ((ss.map (Statement.renumber f)).foldlM declare (d.renumber f)).result =
      (ss.foldlM declare d).result.map (renumber f) :=
  Trace.result_foldlM_map_of (renumber f) (Statement.renumber f) (fun _ => True) ss
    (fun _ _ _ _ _ => trivial) (fun d s _ _ => result_declare_renumber f d s) trivial

/-- A diagram without its line numbers. -/
def unnumbered (d : Diagram) : Diagram := d.renumber fun _ => 0

/-- But for the line numbers, what is stated depends on the texts of the lines alone. -/
theorem result_foldlM_of_texts {ls ls' : List SourceLine}
    (h : ls'.map SourceLine.text = ls.map SourceLine.text) :
    ((statements ls').foldlM declare {}).result.map unnumbered =
      ((statements ls).foldlM declare {}).result.map unnumbered := by
  have hunnumbered (ls : List SourceLine) :
      ls.map (SourceLine.renumber fun _ => 0) = (ls.map SourceLine.text).map (SourceLine.mk 0) :=
    List.map_map.symm
  have hresult (ls : List SourceLine) :
      ((statements ls).foldlM declare {}).result.map unnumbered =
        ((statements ((ls.map SourceLine.text).map (SourceLine.mk 0))).foldlM
          declare {}).result := by
    rw [← hunnumbered, statements_renumber]
    exact (result_foldlM_renumber (fun _ => 0) (statements ls) {}).symm
  rw [hresult, hresult, h]

end Diagram

end Notation

end SpatialDiagram
