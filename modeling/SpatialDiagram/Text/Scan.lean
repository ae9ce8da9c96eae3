import SpatialDiagram.Text.Blank

/-!
# Scanning from the front

Small steps of a scanner: taking a fixed text off the front, passing blanks,
and splitting off a run of characters.
-/

namespace SpatialDiagram

namespace Text

/-- What follows a text that the characters begin with. -/
def after? (start cs : List Char) : Option (List Char) :=
  if start.isPrefixOf cs then some (cs.drop start.length) else none

/-- What stands behind a start is the rest of the text that begins with it. -/
theorem after_eq_some_iff (start cs rest : List Char) :
    after? start cs = some rest ↔ cs = start ++ rest := by
  simp only [after?, List.isPrefixOf_iff_prefix]
  constructor
  · intro h
    split at h
    · rename_i hp
      obtain ⟨t, rfl⟩ := hp
      simpa using h
    · simp at h
  · rintro rfl
    simp

theorem after_singleton (c : Char) (more : List Char) : after? [c] (c :: more) = some more :=
  (after_eq_some_iff [c] (c :: more) more).mpr rfl

theorem after_singleton_eq_none {c : Char} {cs : List Char} (h : ∀ more, cs ≠ c :: more) :
    after? [c] cs = none := by
  cases hafter : after? [c] cs with
  | none => rfl
  | some more => exact absurd ((after_eq_some_iff [c] cs more).mp hafter) (h more)

/-- What follows the blanks at the front. -/
def skipBlanks (cs : List Char) : List Char := cs.dropWhile isBlank

/-- Splits off the longest run of characters that satisfy `p`. -/
def run (p : Char → Bool) (cs : List Char) : List Char × List Char :=
  (cs.takeWhile p, cs.dropWhile p)

/-- A run and what stands behind it make up the text. -/
theorem run_append (p : Char → Bool) (cs : List Char) : (run p cs).1 ++ (run p cs).2 = cs :=
  List.takeWhile_append_dropWhile

/-- What follows a run of at least one character that satisfies `p`. -/
def afterRun? (p : Char → Bool) (cs : List Char) : Option (List Char) :=
  let (taken, rest) := run p cs
  if taken.isEmpty then none else some rest

end Text

end SpatialDiagram
