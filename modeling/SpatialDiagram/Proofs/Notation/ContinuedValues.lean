import SpatialDiagram.Proofs.Notation.InlineScan

/-!
# Values that continue behind a comma

On a line of its own a value goes up to the end of the line. Inside an inline
block it is cut at its commas, and a piece without a colon continues the value
before it. So a value whose further pieces have no colon is put together again
as it was.
-/

namespace SpatialDiagram

namespace Notation

/-! ## Putting pieces together -/

/-- Every piece but the first has a separator in front of it. -/
theorem intercalate_cons (sep cs : List Char) (css : List (List Char)) :
    sep.intercalate (cs :: css) = cs ++ css.flatMap (sep ++ ·) := by
  induction css generalizing cs with
  | nil => simp
  | cons ds css ih =>
      rw [List.intercalate_cons_cons, ih, List.flatMap_cons, List.append_assoc, List.append_assoc]

theorem intercalate_append_cons (sep front cs : List Char) (css : List (List Char)) :
    sep.intercalate ((front ++ cs) :: css) = front ++ sep.intercalate (cs :: css) := by
  rw [intercalate_cons, intercalate_cons, List.append_assoc]

/-- Groups are put together like their members. -/
theorem intercalate_flatMap {α : Type} (sep : List Char) (first : α → List Char)
    (more : α → List (List Char)) (as : List α) :
    sep.intercalate (as.flatMap fun a => first a :: more a) =
      sep.intercalate (as.map fun a => sep.intercalate (first a :: more a)) := by
  cases as with
  | nil => rfl
  | cons a as =>
      simp [intercalate_cons, List.flatMap_assoc, List.flatMap_map]

/-! ## Texts without blanks around them -/

/-- What is joined of trimmed texts is trimmed. -/
theorem trim_intercalate {cs : List Char} {css : List (List Char)}
    (h : ∀ x ∈ cs :: css, x ≠ [] ∧ Text.trim x = x) :
    [',', ' '].intercalate (cs :: css) ≠ [] ∧
      Text.trim ([',', ' '].intercalate (cs :: css)) = [',', ' '].intercalate (cs :: css) := by
  induction css generalizing cs with
  | nil => simpa using h cs List.mem_cons_self
  | cons ds css ih =>
      have hcs := h cs List.mem_cons_self
      have ih := ih fun x hx => h x (List.mem_cons_of_mem cs hx)
      rw [List.intercalate_cons_cons, List.append_assoc]
      exact ⟨by simp [hcs.1], Text.trim_append_append hcs ih [',', ' ']⟩

/-! ## Pairs over several pieces -/

/-- A key, and the pieces of its value. -/
structure PiecedPair where
  key : List Char
  first : List Char
  more : List (List Char) := []

namespace PiecedPair

/-- The pair that is meant, its value with every comma put back. -/
def pair (p : PiecedPair) : RawPair := (p.key, [',', ' '].intercalate (p.first :: p.more))

/-- The fragments that a split at the commas leaves of the pair. -/
def pieces (p : PiecedPair) : List (List Char) := pairText (p.key, p.first) :: p.more

/-- No piece is cut again, and only the first has a colon. -/
structure IsPlain (p : PiecedPair) : Prop where
  first : IsPlainPair (p.key, p.first)
  more : ∀ cs ∈ p.more, IsPiece cs ∧ ':' ∉ cs

/-- The pieces of a pair, joined again, are the pair. -/
theorem intercalate_pieces (p : PiecedPair) :
    [',', ' '].intercalate p.pieces = pairText p.pair := by
  have hfront : pairText (p.key, p.first) = (p.key ++ [':', ' ']) ++ p.first := by simp [pairText]
  rw [pieces, hfront, intercalate_append_cons]
  simp [pairText, pair]

variable {p : PiecedPair} (hp : p.IsPlain)

include hp

theorem IsPlain.isPair : IsPair p.pair := by
  have hpieces : ∀ cs ∈ p.first :: p.more, cs ≠ [] ∧ Text.trim cs = cs := by
    intro cs hcs
    rcases List.mem_cons.mp hcs with rfl | hcs
    · exact ⟨hp.first.value_ne_nil, hp.first.value_trimmed⟩
    · exact ⟨(hp.more cs hcs).1.ne_nil, (hp.more cs hcs).1.trimmed⟩
  obtain ⟨hne, htrim⟩ := trim_intercalate hpieces
  exact ⟨hp.first.key_ne_nil, hp.first.key_trimmed, hp.first.key_uncut, hne, htrim⟩

theorem IsPlain.isPiece : ∀ cs ∈ p.pieces, IsPiece cs := by
  intro cs hcs
  rcases List.mem_cons.mp hcs with rfl | hcs
  · exact hp.first.isPiece
  · exact (hp.more cs hcs).1

end PiecedPair

theorem splitColon_eq_none {cs : List Char} (h : ':' ∉ cs) : splitColon? cs = none := by
  have hnone : cs.dropWhile (· ≠ ':') = [] := by
    apply (Text.dropWhile_eq_nil_iff _ cs).mpr
    intro c hc
    exact decide_eq_true (ne_of_mem_of_not_mem hc h)
  rw [splitColon?, hnone]

/-- Pieces without a colon continue the last value. -/
theorem inlinePairs_append {more : List (List Char)} (hmore : ∀ cs ∈ more, ':' ∉ cs)
    (key value : List Char) (acc : List RawPair) (rest : List (List Char)) :
    inlinePairs ((key, value) :: acc) (more ++ rest) =
      inlinePairs ((key, [',', ' '].intercalate (value :: more)) :: acc) rest := by
  induction more generalizing value with
  | nil => simp
  | cons cs more ih =>
      have hcs := splitColon_eq_none (hmore cs List.mem_cons_self)
      have ih := ih (fun ds hds => hmore ds (List.mem_cons_of_mem cs hds))
        (value ++ ", ".toList ++ cs)
      have hjoin : [',', ' '].intercalate ((value ++ ", ".toList ++ cs) :: more) =
          [',', ' '].intercalate (value :: cs :: more) := by
        rw [intercalate_append_cons, List.intercalate_cons_cons]
        rfl
      rw [List.cons_append, inlinePairs.eq_def]
      simp only [hcs]
      rw [ih, hjoin]

section

variable {ps : List PiecedPair} (h : ∀ p ∈ ps, p.IsPlain)

include h

/-- The pieces are put together to the pairs that were meant. -/
theorem inlinePairs_pieces (acc : List RawPair) :
    inlinePairs acc (ps.flatMap PiecedPair.pieces) =
      .done (acc.reverse ++ ps.map PiecedPair.pair) := by
  induction ps generalizing acc with
  | nil => simp [inlinePairs]
  | cons p ps ih =>
      have hp := h p List.mem_cons_self
      have ih := ih (fun q hq => h q (List.mem_cons_of_mem p hq)) (p.pair :: acc)
      have hfirst := hp.first.splitColon
      have hmore : ∀ cs ∈ p.more, ':' ∉ cs := fun cs hcs => (hp.more cs hcs).2
      rw [List.flatMap_cons, PiecedPair.pieces, List.cons_append, inlinePairs.eq_def]
      simp only [hfirst]
      rw [inlinePairs_append hmore, ← PiecedPair.pair, ih, List.reverse_cons, List.append_assoc]
      rfl

/-- The properties of a block on one line are those of its pairs. -/
theorem inlineProperties_of_pieces :
    (inlineProperties ([',', ' '].intercalate (ps.map fun p => pairText p.pair))).result =
      (addProperties .empty (ps.map PiecedPair.pair)).result := by
  have hpieces : ∀ cs ∈ ps.flatMap PiecedPair.pieces, IsPiece cs := by
    intro cs hcs
    obtain ⟨p, hp, hcs⟩ := List.mem_flatMap.mp hcs
    exact (h p hp).isPiece cs hcs
  have htext : [',', ' '].intercalate (ps.map fun p => pairText p.pair) =
      [',', ' '].intercalate (ps.flatMap PiecedPair.pieces) := by
    have hgroups : [',', ' '].intercalate (ps.flatMap PiecedPair.pieces) =
        [',', ' '].intercalate (ps.map fun p => [',', ' '].intercalate p.pieces) :=
      intercalate_flatMap _ (fun p => pairText (p.key, p.first)) PiecedPair.more ps
    simp only [hgroups, PiecedPair.intercalate_pieces]
  have hkept : ((ps.map PiecedPair.pair).filter fun p => !p.1.isEmpty && !p.2.isEmpty) =
      ps.map PiecedPair.pair := by
    apply List.filter_eq_self.mpr
    intro q hq
    obtain ⟨p, hp, rfl⟩ := List.mem_map.mp hq
    simp [(h p hp).isPair.key_ne_nil, (h p hp).isPair.value_ne_nil]
  rw [htext, inlineProperties, splitTopLevel_intercalate hpieces, inlinePairs_pieces h]
  change (addProperties .empty ((ps.map PiecedPair.pair).filter _)).result = _
  rw [hkept]

end

/-- A pair in one piece. -/
def PiecedPair.ofPair (p : RawPair) : PiecedPair := { key := p.1, first := p.2 }

theorem PiecedPair.pair_ofPair (p : RawPair) : (ofPair p).pair = p := by
  simp [ofPair, pair]

theorem PiecedPair.isPlain_ofPair {p : RawPair} (hp : IsPlainPair p) : (ofPair p).IsPlain :=
  ⟨hp, List.forall_mem_nil _⟩

/-- Plain pairs are read as the properties that they are. -/
theorem inlineProperties_of_plain {ps : List RawPair} (h : ∀ p ∈ ps, IsPlainPair p) :
    (inlineProperties ([',', ' '].intercalate (ps.map pairText))).result =
      (addProperties .empty ps).result := by
  have hplain : ∀ p ∈ ps.map PiecedPair.ofPair, p.IsPlain := by
    intro p hp
    obtain ⟨q, hq, rfl⟩ := List.mem_map.mp hp
    exact PiecedPair.isPlain_ofPair (h q hq)
  have hproperties := inlineProperties_of_pieces hplain
  simpa only [List.map_map, Function.comp_def, PiecedPair.pair_ofPair, List.map_id'] using
    hproperties

end Notation

end SpatialDiagram
