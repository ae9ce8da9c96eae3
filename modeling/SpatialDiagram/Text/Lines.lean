/-!
# Splitting text into lines

A line ends at a line feed, a carriage return, the pair of both, a vertical
tab, a form feed, one of the separators U+001C to U+001E, U+0085, U+2028 or
U+2029. The end of the text ends the last line; a text that ends with a break
has no empty line after it.
-/

namespace SpatialDiagram

namespace Text

/-- A character that ends a line. -/
def isBreak (c : Char) : Bool :=
  c ∈ ['\n', '\r', '\x0b', '\x0c', '\x1c', '\x1d', '\x1e', '\u0085', '\u2028', '\u2029']

/-- The lines of a text without their breaks. -/
def lines : List Char → List (List Char)
  | [] => []
  | '\r' :: '\n' :: cs => [] :: lines cs
  | c :: cs =>
      if isBreak c then [] :: lines cs
      else match lines cs with
        | [] => [[c]]
        | l :: ls => (c :: l) :: ls

/-- A character that ends no line goes to the front of the first line. -/
theorem lines_cons_of_not_break {c : Char} (h : isBreak c = false) (cs : List Char) :
    lines (c :: cs) = match lines cs with
      | [] => [[c]]
      | l :: ls => (c :: l) :: ls := by
  have hr : c ≠ '\r' := by rintro rfl; simp [isBreak] at h
  rw [lines]
  · simp [h]
  · intro cs' hc
    simp_all

/-- A text without breaks is one line, or none when it is empty. -/
theorem lines_of_no_break {cs : List Char} (h : ∀ c ∈ cs, isBreak c = false) :
    lines cs = if cs = [] then [] else [cs] := by
  induction cs with
  | nil => rfl
  | cons c cs ih =>
      have ih := ih fun d hd => h d (List.mem_cons_of_mem _ hd)
      rw [lines_cons_of_not_break (h c List.mem_cons_self), ih]
      by_cases hn : cs = [] <;> simp [hn]

end Text

end SpatialDiagram
