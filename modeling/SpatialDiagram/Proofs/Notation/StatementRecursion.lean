import SpatialDiagram.Proofs.Notation.StatementPositions

/-!
# The recursion over the lines of a source

`statements` goes on behind a block where a line opens one and at the next line
otherwise. A proof that follows it has these two steps, and at each of them it
knows what holds at every statement position.
-/

namespace SpatialDiagram

namespace Notation

/-- A line takes a block that begins right below it. -/
def Opening (l : SourceLine) (rest : List SourceLine) : Prop :=
  (classify l.text).takesBlock = true ∧ ∃ next, rest[0]? = some next ∧ next.text = blockOpener

theorem not_opening_nil (l : SourceLine) : ¬ Opening l [] := by
  rintro ⟨-, next, hnext, -⟩
  cases hnext

theorem opening_cons_iff (l next : SourceLine) (more : List SourceLine) :
    Opening l (next :: more) ↔
      (classify l.text).takesBlock = true ∧ next.text = blockOpener := by
  simp [Opening]

theorem statements_of_opening {l next : SourceLine} {more : List SourceLine}
    (h : Opening l (next :: more)) :
    statements (l :: next :: more) =
      ⟨l, classify l.text, some (Block.split more).1⟩ :: statements (Block.split more).2 :=
  (statements_cons l (next :: more)).trans (if_pos h)

theorem statements_of_line {l : SourceLine} {rest : List SourceLine} (h : ¬ Opening l rest) :
    statements (l :: rest) = ⟨l, classify l.text, none⟩ :: statements rest :=
  (statements_cons l rest).trans (if_neg h)

theorem opening_drop_iff {ls : List SourceLine} {i : Nat} {l : SourceLine} (hl : ls[i]? = some l) :
    Opening l (ls.drop (i + 1)) ↔ OpensBlock ls i := by
  rw [opensBlock_iff hl, Opening, List.getElem?_drop, Nat.add_zero]

/-- A block that is opened is closed exactly if a closing brace follows it. -/
theorem closed_split_iff (ls : List SourceLine) (i : Nat) :
    (Block.split (ls.drop (i + 2))).1.closed = true ↔ ∃ j, ClosesAt ls i j := by
  have hrest : (ls.drop (i + 2)).dropWhile (fun l => l.text ≠ blockCloser) =
      ls.drop (i + 2 + (blockLines ls i).length) := by
    rw [List.dropWhile_eq_drop_findIdx_not, length_blockLines, List.drop_drop]
    simp
  simp only [Block.split, hrest, closesAt_iff, exists_eq_left, Bool.not_eq_true',
    List.isEmpty_eq_false_iff, ne_eq, List.drop_eq_nil_iff, Nat.not_le]

/-- What is known of every statement position holds at each step. -/
theorem statements_induction {motive : List SourceLine → Prop}
    {P : SourceLine → List SourceLine → Prop} {ls : List SourceLine}
    (hP : ∀ i l, StatementAt ls i → ls[i]? = some l → P l (ls.drop (i + 1)))
    (nil : motive [])
    (opening : ∀ l next more, Opening l (next :: more) → P l (next :: more) →
      motive (Block.split more).2 → motive (l :: next :: more))
    (line : ∀ l rest, ¬ Opening l rest → P l rest → motive rest → motive (l :: rest)) :
    motive ls := by
  suffices hall : ∀ i, (∀ k l, k < ls.length → Relation.ReflTransGen (Follows ls) i k →
      ls[k]? = some l → P l (ls.drop (k + 1))) → motive (ls.drop i) from
    hall 0 fun k l hk hreach hl => hP k l ⟨hk, hreach⟩ hl
  intro i
  -- A block takes several lines at once, so the induction is on the number of lines left.
  induction hn : ls.length - i using Nat.strongRecOn generalizing i with
  | ind n ih =>
      intro h
      by_cases hi : i < ls.length
      · have hl : ls[i]? = some ls[i] := List.getElem?_eq_getElem hi
        have hPi := h i _ hi .refl hl
        rw [List.drop_eq_getElem_cons hi]
        by_cases hopen : OpensBlock ls i
        · have hopening := (opening_drop_iff hl).mpr hopen
          have hnext : i + 1 < ls.length := by
            obtain ⟨-, -, _, -, -, -, hnext, -⟩ := hopen
            exact (List.getElem?_eq_some_iff.mp hnext).1
          rw [List.drop_eq_getElem_cons hnext] at hopening hPi ⊢
          refine opening _ _ _ hopening hPi ?_
          rw [(split_drop ls i).2]
          refine ih _ (by omega) _ rfl fun k l hk hreach hl => h k l hk ?_ hl
          have hbehind := le_of_reflTransGen hreach
          have hclose := (closesAt_iff ls i (i + 2 + (blockLines ls i).length)).mpr
            ⟨rfl, by omega⟩
          refine .head (.block hopen hclose) ?_
          have hend : i + 2 + (blockLines ls i).length + 1 = i + 3 + (blockLines ls i).length := by
            omega
          rwa [hend]
        · refine line _ _ (fun ho => hopen ((opening_drop_iff hl).mp ho)) hPi ?_
          refine ih _ (by omega) _ rfl fun k l hk hreach hl => h k l hk ?_ hl
          exact .head (.line hopen) hreach
      · rw [List.drop_eq_nil_of_le (Nat.le_of_not_lt hi)]
        exact nil

/-! ## Statements and their positions -/

theorem exists_of_forall₂ {α β : Type} {R : α → β → Prop} {xs : List α} {ys : List β}
    (h : List.Forall₂ R xs ys) {x : α} (hx : x ∈ xs) : ∃ y ∈ ys, R x y := by
  obtain ⟨k, hk, rfl⟩ := List.mem_iff_getElem.mp hx
  have hk' : k < ys.length := h.length_eq ▸ hk
  exact ⟨ys[k], List.getElem_mem hk', h.get hk hk'⟩

/-- Every position of a statement has its statement. -/
theorem exists_statement {ls : List SourceLine} {i : Nat} (h : StatementAt ls i) :
    ∃ s ∈ statements ls, IsStatement ls i s := by
  obtain ⟨ps, -, hmem, hall⟩ := exists_positions ls 0
  exact exists_of_forall₂ hall ((hmem i).mpr h)

/-- Every statement has its position. -/
theorem exists_position {ls : List SourceLine} {s : Statement} (h : s ∈ statements ls) :
    ∃ i, StatementAt ls i ∧ IsStatement ls i s := by
  obtain ⟨ps, -, hmem, hall⟩ := exists_positions ls 0
  obtain ⟨i, hi, hs⟩ := exists_of_forall₂ (R := fun s i => IsStatement ls i s) hall.flip h
  exact ⟨i, (hmem i).mp hi, hs⟩

end Notation

end SpatialDiagram
