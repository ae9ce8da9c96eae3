import SpatialDiagram.Text.Ranges

/-!
# Blank characters

The blanks are the white-space characters of Unicode together with the four
separators U+001C to U+001F. Trimming removes a whole run of blanks from each
end; `trim_eq_nil_iff` says when nothing is left. Around a number the separators
do not count as blanks.
-/

namespace SpatialDiagram

namespace Text

/-- The code points of all blanks. -/
def blankRanges : List (Nat × Nat) :=
  [(0x9, 0xd), (0x1c, 0x20), (0x85, 0x85), (0xa0, 0xa0), (0x1680, 0x1680), (0x2000, 0x200a),
   (0x2028, 0x2029), (0x202f, 0x202f), (0x205f, 0x205f), (0x3000, 0x3000)]

/-- A white-space character or a separator. -/
def isBlank (c : Char) : Bool := inRanges blankRanges c

/-- The blanks that may stand around a number. -/
def isPadding (c : Char) : Bool := isBlank c && !(0x1c ≤ c.toNat && c.toNat ≤ 0x1f)

/-- Removes from both ends the longest runs of characters that satisfy `p`. -/
def stripWhile (p : Char → Bool) (cs : List Char) : List Char :=
  ((cs.dropWhile p).reverse.dropWhile p).reverse

/-- A text without the blanks at its ends. -/
def trim (cs : List Char) : List Char := stripWhile isBlank cs

theorem dropWhile_eq_nil_iff (p : Char → Bool) (cs : List Char) :
    cs.dropWhile p = [] ↔ ∀ c ∈ cs, p c = true := by
  induction cs with
  | nil => simp
  | cons c cs ih =>
      by_cases h : p c = true <;> simp [h, ih]

/-- Stripping leaves nothing exactly when every character is stripped. -/
theorem stripWhile_eq_nil_iff (p : Char → Bool) (cs : List Char) :
    stripWhile p cs = [] ↔ ∀ c ∈ cs, p c = true := by
  constructor
  · intro h c hc
    have hr : ∀ c ∈ cs.dropWhile p, p c = true := by
      have := (dropWhile_eq_nil_iff p (cs.dropWhile p).reverse).mp (by simpa [stripWhile] using h)
      intro c hc
      exact this c (by simpa using hc)
    by_cases hp : cs.dropWhile p = []
    · exact (dropWhile_eq_nil_iff p cs).mp hp c hc
    · obtain ⟨d, ds, hd⟩ := List.exists_cons_of_ne_nil hp
      have hpd : p d = true := hr d (by simp [hd])
      have hnot := List.head_dropWhile_not p hp
      simp [hd, hpd] at hnot
  · intro h
    have : cs.dropWhile p = [] := (dropWhile_eq_nil_iff p cs).mpr h
    simp [stripWhile, this]

/-- Trimming leaves nothing exactly of blanks. -/
theorem trim_eq_nil_iff (cs : List Char) : trim cs = [] ↔ ∀ c ∈ cs, isBlank c = true :=
  stripWhile_eq_nil_iff isBlank cs

end Text

end SpatialDiagram
