import SpatialDiagram.Notation.Judgment
import SpatialDiagram.Text.Lines

/-!
# Statements

Source text is cut into trimmed lines, of which the blank ones are left out.
Every line is a statement, except that a node may take a block: when the line
after it is an opening brace alone, all lines up to a closing brace alone
belong to the node. A node with an inline block takes no other one.
-/

namespace SpatialDiagram

namespace Notation

/-- A line without surrounding blanks and its number in the source, counted from one. -/
structure SourceLine where
  number : Nat
  text : List Char
deriving DecidableEq, Repr

namespace SourceLine

/-- The lines of a source text that are not blank. -/
def ofText (source : List Char) : List SourceLine :=
  (((Text.lines source).zipIdx 1).map fun l => ⟨l.2, Text.trim l.1⟩).filter fun l =>
    !l.text.isEmpty

end SourceLine

/-- The line that opens a block. -/
def blockOpener : List Char := ['\x7b']

/-- The line that closes a block. -/
def blockCloser : List Char := ['\x7d']

/-- The lines between two braces that stand alone; the second brace may be missing. -/
structure Block where
  lines : List SourceLine
  closed : Bool
deriving DecidableEq, Repr

namespace Block

/-- The block that begins with the given lines, and the lines behind it. -/
def split (ls : List SourceLine) : Block × List SourceLine :=
  let inside (l : SourceLine) : Bool := l.text ≠ blockCloser
  let rest := ls.dropWhile inside
  ({ lines := ls.takeWhile inside, closed := !rest.isEmpty }, rest.tail)

/-- What stands behind a block is no longer than the lines it was split from. -/
theorem split_length_le (ls : List SourceLine) : (split ls).2.length ≤ ls.length := by
  have h := (List.dropWhile_sublist (l := ls) fun l => decide (l.text ≠ blockCloser)).length_le
  simp only [split, List.length_tail]
  omega

end Block

/-- A line, what it is, and the block that belongs to it. -/
structure Statement where
  line : SourceLine
  judgment : Judgment
  block : Option Block
deriving DecidableEq, Repr

/-- Only a usable node without an inline block takes the block that follows it. -/
def Judgment.takesBlock : Judgment → Bool
  | .node (some h) => (inlineBlock? h.remainder).isNone
  | _ => false

/-- The statements of a source. -/
def statements : List SourceLine → List Statement
  | [] => []
  | l :: rest =>
      let judgment := classify l.text
      match rest with
      | [] => [⟨l, judgment, none⟩]
      | next :: more =>
          if judgment.takesBlock && next.text = blockOpener then
            ⟨l, judgment, some (Block.split more).1⟩ :: statements (Block.split more).2
          else ⟨l, judgment, none⟩ :: statements (next :: more)
termination_by ls => ls.length
decreasing_by
  · have := Block.split_length_le more
    simp only [List.length_cons]
    omega
  · simp only [List.length_cons]
    omega

end Notation

end SpatialDiagram
