import Mathlib.Data.List.Forall2
import Mathlib.Logic.Relation
import SpatialDiagram.Notation.Statement

/-!
# Where statements stand

The first line of a source is a statement, and every statement is followed by
the next line, except that a node with a block is followed by the line behind
the block. These positions, in order, are the lines at which the recursion over
the rest of the source finds its statements.
-/

namespace SpatialDiagram

namespace Notation

/-! ## Positions -/

/-- A usable node without an inline block stands at a position, and an opening brace alone on the
line below it. -/
def OpensBlock (ls : List SourceLine) (i : Nat) : Prop :=
  ∃ l h next, ls[i]? = some l ∧ classify l.text = .node (some h) ∧
    (∀ body, h.remainder ≠ '\x7b' :: (body ++ ['\x7d'])) ∧
    ls[i + 1]? = some next ∧ next.text = blockOpener

/-- The first line below the brace that opens a block at which a closing brace stands alone. -/
def ClosesAt (ls : List SourceLine) (i j : Nat) : Prop :=
  i + 1 < j ∧ (∃ l, ls[j]? = some l ∧ l.text = blockCloser) ∧
    ∀ k l, i + 1 < k → k < j → ls[k]? = some l → l.text ≠ blockCloser

/-- Where the next statement stands; nothing follows a block that is never closed. -/
inductive Follows (ls : List SourceLine) : Nat → Nat → Prop where
  | line {i : Nat} : ¬ OpensBlock ls i → Follows ls i (i + 1)
  | block {i j : Nat} : OpensBlock ls i → ClosesAt ls i j → Follows ls i (j + 1)

/-- A statement begins at the position: it is reached from the first line by steps over whole
statements. -/
def StatementAt (ls : List SourceLine) (k : Nat) : Prop :=
  k < ls.length ∧ Relation.ReflTransGen (Follows ls) 0 k

/-- The lines of the block that is opened below a position. -/
def blockLines (ls : List SourceLine) (i : Nat) : List SourceLine :=
  (ls.drop (i + 2)).takeWhile fun l => l.text ≠ blockCloser

/-! ## Opening and closing a block -/

theorem inlineBlock_eq_some_iff (cs body : List Char) :
    inlineBlock? cs = some body ↔ cs = '\x7b' :: (body ++ ['\x7d']) := by
  constructor
  · intro h
    simp only [inlineBlock?] at h
    split at h
    · split at h
      · rename_i rest hlast
        obtain ⟨ys, rfl⟩ := List.getLast?_eq_some_iff.mp hlast
        rw [← Option.some.inj h, List.dropLast_concat]
      · cases h
    · cases h
  · rintro rfl
    simp [inlineBlock?]

theorem inlineBlock_eq_none_iff (cs : List Char) :
    inlineBlock? cs = none ↔ ∀ body, cs ≠ '\x7b' :: (body ++ ['\x7d']) := by
  simp only [Option.eq_none_iff_forall_ne_some, ne_eq, inlineBlock_eq_some_iff]

/-- A line takes a block exactly if it is a usable node line without an inline block. -/
theorem takesBlock_iff (j : Judgment) :
    j.takesBlock = true ↔
      ∃ h, j = .node (some h) ∧ ∀ body, h.remainder ≠ '\x7b' :: (body ++ ['\x7d']) := by
  constructor
  · intro hj
    rw [Judgment.takesBlock.eq_def] at hj
    split at hj
    · rename_i h
      exact ⟨h, rfl, (inlineBlock_eq_none_iff h.remainder).mp (Option.isNone_iff_eq_none.mp hj)⟩
    · cases hj
  · rintro ⟨h, rfl, hbody⟩
    exact Option.isNone_iff_eq_none.mpr ((inlineBlock_eq_none_iff h.remainder).mpr hbody)

/-- A block opens behind a line that takes one, where the next line is the opener. -/
theorem opensBlock_iff {ls : List SourceLine} {i : Nat} {l : SourceLine} (hl : ls[i]? = some l) :
    OpensBlock ls i ↔
      (classify l.text).takesBlock = true ∧
        ∃ next, ls[i + 1]? = some next ∧ next.text = blockOpener := by
  rw [takesBlock_iff]
  constructor
  · rintro ⟨l', h, next, hl', hj, hbody, hnext⟩
    obtain rfl := Option.some.inj (hl.symm.trans hl')
    exact ⟨⟨h, hj, hbody⟩, next, hnext⟩
  · rintro ⟨⟨h, hj, hbody⟩, next, hnext⟩
    exact ⟨l, h, next, hl, hj, hbody, hnext⟩

theorem length_blockLines (ls : List SourceLine) (i : Nat) :
    (blockLines ls i).length = (ls.drop (i + 2)).findIdx fun l => l.text = blockCloser := by
  rw [blockLines, List.takeWhile_eq_take_findIdx_not, List.length_take,
    Nat.min_eq_left List.findIdx_le_length]
  simp

/-- A block is closed behind its last line, if there is a line left. -/
theorem closesAt_iff (ls : List SourceLine) (i j : Nat) :
    ClosesAt ls i j ↔ j = i + 2 + (blockLines ls i).length ∧ j < ls.length := by
  rw [length_blockLines]
  constructor
  · rintro ⟨hij, ⟨l, hl, hc⟩, hbefore⟩
    obtain ⟨m, rfl⟩ : ∃ m, j = i + 2 + m := ⟨j - (i + 2), by omega⟩
    obtain ⟨hlen, hget⟩ := List.getElem?_eq_some_iff.mp hl
    have hm : m < (ls.drop (i + 2)).length := by
      rw [List.length_drop]
      omega
    refine ⟨?_, hlen⟩
    rw [(List.findIdx_eq hm).mpr]
    refine ⟨by simpa [hget] using hc, fun k hk => ?_⟩
    have hne := hbefore (i + 2 + k) ls[i + 2 + k] (by omega) (by omega) (by simp)
    simpa using hne
  · rintro ⟨rfl, hj⟩
    have hm : (ls.drop (i + 2)).findIdx (fun l => l.text = blockCloser) <
        (ls.drop (i + 2)).length := by
      rw [List.length_drop]
      omega
    obtain ⟨hc, hbefore⟩ := (List.findIdx_eq hm).mp rfl
    refine ⟨by omega, ⟨_, List.getElem?_eq_getElem hj, by simpa using hc⟩, ?_⟩
    intro k l hik hkj hl
    obtain ⟨m, rfl⟩ : ∃ m, k = i + 2 + m := ⟨k - (i + 2), by omega⟩
    obtain ⟨hlen, rfl⟩ := List.getElem?_eq_some_iff.mp hl
    simpa using hbefore m (by omega)

/-! ## The recursion over the lines -/

/-- The first statement takes in its block, where one opens behind it. -/
theorem statements_cons (l : SourceLine) (rest : List SourceLine) :
    statements (l :: rest) =
      if (classify l.text).takesBlock = true ∧
          ∃ next, rest[0]? = some next ∧ next.text = blockOpener
      then ⟨l, classify l.text, some (Block.split rest.tail).1⟩ ::
        statements (Block.split rest.tail).2
      else ⟨l, classify l.text, none⟩ :: statements rest := by
  cases rest with
  | nil => simp [statements]
  | cons next more =>
      rw [statements]
      simp

/-- Where no line opens a block, every line is a statement of its own. -/
theorem statements_of_no_block {ls : List SourceLine} (h : ∀ l ∈ ls, l.text ≠ blockOpener) :
    statements ls = ls.map fun l => ⟨l, classify l.text, none⟩ := by
  induction ls with
  | nil => rw [statements, List.map_nil]
  | cons l rest ih =>
      have hnone : ¬ ∃ next, rest[0]? = some next ∧ next.text = blockOpener := by
        rintro ⟨next, hnext, htext⟩
        exact h next (List.mem_cons_of_mem _ (List.mem_of_getElem? hnext)) htext
      rw [statements_cons, if_neg fun hopen => hnone hopen.2, List.map_cons,
        ih fun l' hl' => h l' (List.mem_cons_of_mem _ hl')]

/-- A block goes to the first closing line. -/
theorem split_drop (ls : List SourceLine) (i : Nat) :
    (Block.split (ls.drop (i + 2))).1.lines = blockLines ls i ∧
      (Block.split (ls.drop (i + 2))).2 = ls.drop (i + 3 + (blockLines ls i).length) := by
  refine ⟨rfl, ?_⟩
  have hrest : (ls.drop (i + 2)).dropWhile (fun l => l.text ≠ blockCloser) =
      (ls.drop (i + 2)).drop (blockLines ls i).length := by
    rw [List.dropWhile_eq_drop_findIdx_not, length_blockLines]
    simp
  simp only [Block.split, hrest, List.tail_drop, List.drop_drop]
  congr 1
  omega

/-- What the recursion finds at a position: the line there and the block that it opens. -/
structure IsStatement (ls : List SourceLine) (i : Nat) (s : Statement) : Prop where
  line : ls[i]? = some s.line
  judgment : s.judgment = classify s.line.text
  block : OpensBlock ls i → ∃ b, s.block = some b ∧ b.lines = blockLines ls i
  no_block : ¬ OpensBlock ls i → s.block = none

/-- A line that opens a block is a statement with this block, and the next one is behind it. -/
theorem statements_drop_of_opening {ls : List SourceLine} {i : Nat} {l : SourceLine}
    (h : ls[i]? = some l) (hopen : OpensBlock ls i) :
    statements (ls.drop i) = ⟨l, classify l.text, some (Block.split (ls.drop (i + 2))).1⟩ ::
      statements (ls.drop (i + 3 + (blockLines ls i).length)) := by
  obtain ⟨hi, rfl⟩ := List.getElem?_eq_some_iff.mp h
  have hopen := (opensBlock_iff h).mp hopen
  rw [← Nat.add_zero (i + 1), ← List.getElem?_drop] at hopen
  rw [List.drop_eq_getElem_cons hi, statements_cons, if_pos hopen, List.tail_drop,
    (split_drop ls i).2]

theorem statements_drop_of_line {ls : List SourceLine} {i : Nat} {l : SourceLine}
    (h : ls[i]? = some l) (hline : ¬ OpensBlock ls i) :
    statements (ls.drop i) = ⟨l, classify l.text, none⟩ :: statements (ls.drop (i + 1)) := by
  obtain ⟨hi, rfl⟩ := List.getElem?_eq_some_iff.mp h
  have hline := mt (opensBlock_iff h).mpr hline
  rw [← Nat.add_zero (i + 1), ← List.getElem?_drop] at hline
  rw [List.drop_eq_getElem_cons hi, statements_cons, if_neg hline]

/-- At each position the recursion finds a statement and goes on at the one that follows it, or
behind the last line. -/
theorem exists_next {ls : List SourceLine} {i : Nat} (hi : i < ls.length) :
    ∃ s m, IsStatement ls i s ∧ statements (ls.drop i) = s :: statements (ls.drop m) ∧ i < m ∧
      ∀ k ≤ ls.length, Follows ls i k ↔ k = m := by
  have hl : ls[i]? = some ls[i] := List.getElem?_eq_getElem hi
  by_cases hopen : OpensBlock ls i
  · refine ⟨_, _, ⟨hl, rfl, fun _ => ⟨_, rfl, (split_drop ls i).1⟩, absurd hopen⟩,
      statements_drop_of_opening hl hopen, by omega, fun k hk => ⟨?_, ?_⟩⟩
    · rintro (hline | ⟨-, hclose⟩)
      · exact absurd hopen hline
      · obtain ⟨rfl, -⟩ := (closesAt_iff ls i _).mp hclose
        omega
    · rintro rfl
      have hclose : ClosesAt ls i (i + 2 + (blockLines ls i).length) :=
        (closesAt_iff ls i _).mpr ⟨rfl, by omega⟩
      have hfollows := Follows.block hopen hclose
      rwa [show i + 2 + (blockLines ls i).length + 1 = i + 3 + (blockLines ls i).length by omega]
        at hfollows
  · refine ⟨_, _, ⟨hl, rfl, fun h => absurd h hopen, fun _ => rfl⟩,
      statements_drop_of_line hl hopen, by omega, fun k _ => ⟨?_, ?_⟩⟩
    · rintro (- | ⟨h, -⟩)
      · rfl
      · exact absurd h hopen
    · rintro rfl
      exact .line hopen

theorem lt_of_follows {ls : List SourceLine} {i k : Nat} (h : Follows ls i k) : i < k := by
  cases h with
  | line _ => omega
  | block _ hclose =>
      have hlt := hclose.1
      omega

theorem le_of_reflTransGen {ls : List SourceLine} {i k : Nat}
    (h : Relation.ReflTransGen (Follows ls) i k) : i ≤ k := by
  induction h with
  | refl => exact Nat.le_refl i
  | tail _ hstep ih => exact Nat.le_of_lt (Nat.lt_of_le_of_lt ih (lt_of_follows hstep))

/-- The statements from a position on stand, in order, at the positions that can be reached. -/
theorem exists_positions (ls : List SourceLine) (i : Nat) :
    ∃ ps : List Nat, ps.Pairwise (· < ·) ∧
      (∀ k, k ∈ ps ↔ k < ls.length ∧ Relation.ReflTransGen (Follows ls) i k) ∧
      List.Forall₂ (IsStatement ls) ps (statements (ls.drop i)) := by
  -- The induction is on the number of lines that are left: a block takes several at once.
  induction hn : ls.length - i using Nat.strongRecOn generalizing i with
  | ind n ih =>
      by_cases hi : i < ls.length
      · obtain ⟨s, m, hs, hrest, him, hfollows⟩ := exists_next hi
        obtain ⟨ps, hsorted, hmem, hall⟩ := ih (ls.length - m) (by omega) m rfl
        have hbound {m k : Nat} (hreach : Relation.ReflTransGen (Follows ls) m k)
            (hk : k < ls.length) : m ≤ ls.length :=
          Nat.le_of_lt (Nat.lt_of_le_of_lt (le_of_reflTransGen hreach) hk)
        refine ⟨i :: ps, List.pairwise_cons.mpr ⟨fun k hk => ?_, hsorted⟩, fun k => ?_, ?_⟩
        · exact Nat.lt_of_lt_of_le him (le_of_reflTransGen ((hmem k).mp hk).2)
        · rw [List.mem_cons, hmem]
          constructor
          · rintro (rfl | ⟨hk, hreach⟩)
            · exact ⟨hi, .refl⟩
            · exact ⟨hk, .head ((hfollows m (hbound hreach hk)).mpr rfl) hreach⟩
          · rintro ⟨hk, hreach⟩
            rcases hreach.cases_head with rfl | ⟨m', hstep, hreach⟩
            · exact Or.inl rfl
            · obtain rfl := (hfollows m' (hbound hreach hk)).mp hstep
              exact Or.inr ⟨hk, hreach⟩
        · rw [hrest]
          exact .cons hs hall
      · have hnil : ls.drop i = [] := List.drop_eq_nil_of_le (by omega)
        refine ⟨[], List.Pairwise.nil, fun k => ?_, ?_⟩
        · simp only [List.not_mem_nil, false_iff, not_and]
          intro hk hreach
          have hik := le_of_reflTransGen hreach
          omega
        · rw [hnil, statements]
          exact .nil

end Notation

end SpatialDiagram
