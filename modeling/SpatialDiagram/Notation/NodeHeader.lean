import SpatialDiagram.Geometry.Face
import SpatialDiagram.Text.Blank

/-!
# Node headers

A node is declared by an identifier, an opening delimiter, a category, a colon,
a name and the closing delimiter. The delimiter selects the shape. Of two
openers with the same first character the longer one counts, and neither the
category nor the name may hold a character of the delimiters.
-/

namespace SpatialDiagram

namespace Notation

/-- Letters and digits of ASCII and the underscore make identifiers. -/
def isIdentifier (c : Char) : Bool := c.isAlphanum || c = '_'

/-- Where digits, letters and the underscore stand. -/
theorem exists_range_of_isIdentifier {c : Char} (h : isIdentifier c = true) :
    ∃ r ∈ [(0x30, 0x39), (0x41, 0x5a), (0x5f, 0x5f), (0x61, 0x7a)],
      r.1 ≤ c.toNat ∧ c.toNat ≤ r.2 := by
  rcases Bool.or_eq_true_iff.mp h with hc | hc
  · change ((decide (c.val ≥ 'A'.val ∧ c.val ≤ 'Z'.val) ||
      (decide (c.val ≥ 'a'.val) && decide (c.val ≤ 'z'.val))) ||
        (decide (c.val ≥ '0'.val) && decide (c.val ≤ '9'.val))) = true at hc
    simp only [Bool.or_eq_true, Bool.and_eq_true, decide_eq_true_eq, UInt32.le_iff_toNat_le,
      ge_iff_le, Char.toNat_val] at hc
    simp at hc ⊢
    omega
  · obtain rfl := of_decide_eq_true hc
    decide

/-- No blank stands in an identifier. -/
theorem isBlank_of_isIdentifier {c : Char} (h : isIdentifier c = true) :
    Text.isBlank c = false := by
  obtain ⟨r, hr, hc⟩ := exists_range_of_isIdentifier h
  cases hblank : Text.isBlank c with
  | false => rfl
  | true =>
      obtain ⟨s, hs, hc'⟩ := (Text.inRanges_iff _ _).mp hblank
      have hapart : ∀ r ∈ [(0x30, 0x39), (0x41, 0x5a), (0x5f, 0x5f), (0x61, 0x7a)],
          ∀ s ∈ Text.blankRanges, s.2 < r.1 ∨ r.2 < s.1 := by decide
      have hrs := hapart r hr s hs
      omega

theorem isIdentifier_of_isBlank {c : Char} (h : Text.isBlank c = true) :
    isIdentifier c = false := by
  cases hidentifier : isIdentifier c with
  | false => rfl
  | true => simp [isBlank_of_isIdentifier hidentifier] at h

/-- A pair of brackets around category and name. -/
inductive Delimiter where
  | squares
  | parens
  | square
  | brace
  | angle
deriving DecidableEq, Repr

namespace Delimiter

/-- In the order in which they are tried. -/
def all : List Delimiter := [squares, parens, square, brace, angle]

/-- The opening delimiter. -/
def opener : Delimiter → List Char
  | squares => ['[', '[']
  | parens => ['(', '(']
  | square => ['[']
  | brace => ['\x7b']
  | angle => ['<']

/-- The closing delimiter. -/
def closer : Delimiter → List Char
  | squares => [']', ']']
  | parens => [')', ')']
  | square => [']']
  | brace => ['\x7d']
  | angle => ['>']

/-- The shape that delimiters stand for. -/
def shape : Delimiter → Shape
  | squares => .box
  | parens => .manyFaced
  | square => .box
  | brace => .manyFaced
  | angle => .plate

/-- The characters that category and name must not hold. -/
def forbids (d : Delimiter) (c : Char) : Bool := d.opener.contains c || d.closer.contains c

/-- The delimiter whose opener a text begins with. -/
def find? (cs : List Char) : Option Delimiter := all.find? fun d => d.opener.isPrefixOf cs

/-- A delimiter is found where its opening brackets stand. -/
theorem opener_isPrefixOf {cs : List Char} {d : Delimiter} (h : find? cs = some d) :
    d.opener.isPrefixOf cs = true := by
  have hp := List.find?_some (p := fun d : Delimiter => d.opener.isPrefixOf cs) h
  exact hp

end Delimiter

/-- The parts of a node line. -/
structure NodeHeader where
  id : String
  category : String
  name : String
  delimiter : Delimiter
  remainder : List Char
deriving DecidableEq, Repr

namespace NodeHeader

/-- Reads category, name and closer after the opener. -/
def body? (id : List Char) (d : Delimiter) (cs : List Char) : Option NodeHeader :=
  let inCategory (c : Char) := c ≠ ':' && !d.forbids c
  let category := cs.takeWhile inCategory
  match cs.dropWhile inCategory with
  | ':' :: rest =>
      let name := rest.takeWhile fun c => !d.forbids c
      let rest := rest.dropWhile fun c => !d.forbids c
      if category.isEmpty || name.isEmpty || !d.closer.isPrefixOf rest then none
      else some
        { id := String.ofList id
          category := String.ofList (Text.trim category)
          name := String.ofList (Text.trim name)
          delimiter := d
          remainder := Text.trim (rest.drop d.closer.length) }
  | _ => none

/-- The node that a line declares. -/
def ofLine? (line : List Char) : Option NodeHeader :=
  let id := line.takeWhile isIdentifier
  let rest := line.dropWhile isIdentifier
  if id.isEmpty then none
  else (Delimiter.find? rest).bind fun d => body? id d (rest.drop d.opener.length)

/-- The shape that the delimiters of a node stand for. -/
def shape (h : NodeHeader) : Shape := h.delimiter.shape

/-- The first characters of the openers. -/
def opens (c : Char) : Bool := c = '[' || c = '\x7b' || c = '(' || c = '<'

theorem opener_eq_cons (d : Delimiter) : ∃ c r, d.opener = c :: r ∧ opens c = true := by
  cases d <;> exact ⟨_, _, rfl, by decide⟩

/-- An identifier with an opening bracket right behind it has the shape of a node. -/
def looksLike (line : List Char) : Bool :=
  !(line.takeWhile isIdentifier).isEmpty &&
    ((line.dropWhile isIdentifier).head?.map opens).getD false

end NodeHeader

end Notation

end SpatialDiagram
