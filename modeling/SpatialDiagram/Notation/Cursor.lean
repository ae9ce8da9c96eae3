import SpatialDiagram.Notation.Diagram

/-!
# Cursors

A cursor stands on a line of a source and moves by any number of lines. A
negative position counts from the end when a line is read there, but nothing is
found before the first line when looking ahead.
-/

namespace SpatialDiagram

namespace Notation

/-- A position among lines. -/
structure Cursor where
  lines : List (List Char)
  /-- The numbers of the lines in their source, if they come from one. -/
  numbers : List Nat := []
  index : Int := 0
deriving DecidableEq, Repr

namespace Cursor

/-- The cursor on the first line of a source. -/
def ofText (source : List Char) : Cursor :=
  let ls := SourceLine.ofText source
  { lines := ls.map SourceLine.text, numbers := ls.map SourceLine.number }

/-- Whether the cursor has not moved behind the last line. -/
def hasCurrent (c : Cursor) : Bool := c.index < c.lines.length

/-- The item at a position; a negative position counts from the end. -/
def itemAt? {α : Type} (items : List α) (index : Int) : Option α :=
  let position := if index < 0 then index + items.length else index
  if position < 0 then none else items[position.toNat]?

/-- The line that the cursor stands on. -/
def current (c : Cursor) : Except Failure (List Char) :=
  match itemAt? c.lines c.index with
  | some l => .ok l
  | none => .error .outOfRange

/-- The number of the line in the source, or the position counted from one. -/
def lineNumber (c : Cursor) : Except Failure Int :=
  if !c.numbers.isEmpty && c.index < c.numbers.length then
    match itemAt? c.numbers c.index with
    | some n => .ok n
    | none => .error .outOfRange
  else .ok (c.index + 1)

/-- The line at a distance from the cursor, if there is one. -/
def peek (c : Cursor) (offset : Int) : Option (List Char) :=
  let position := c.index + offset
  if position < 0 then none else c.lines[position.toNat]?

/-- Moves the cursor by a number of lines. -/
def advance (c : Cursor) (steps : Int) : Cursor := { c with index := c.index + steps }

/-- The block below the current line, if there is one. The numbers of its lines do not matter. -/
def block? (c : Cursor) : Option Block :=
  if c.peek 1 = some blockOpener then
    some (Block.split ((c.lines.drop (c.index + 2).toNat).map (SourceLine.mk 0))).1
  else none

/-- Reads the block below the current line, if there is one, and moves to its end, or to the
line whose property cannot be read. -/
def readBlock (c : Cursor) : Trace Properties × Cursor :=
  match c.block? with
  | some block =>
      let read := block.lines.takeWhile fun l => (property? l.text).result.isOk
      (blockProperties block, { c with index := c.index + 2 + read.length })
  | none => (.done .empty, c)

/-! ## Going through a source -/

/-- The statement on the current line, with the block that belongs to it. -/
def statement (c : Cursor) : Except Failure Statement := do
  let text ← c.current
  let number ← c.lineNumber
  let judgment := classify text
  return {
    line := ⟨number.toNat, text⟩
    judgment
    block := if judgment.takesBlock then c.block? else none }

/-- The cursor on the line behind a statement and its block. -/
def behind (c : Cursor) (s : Statement) : Cursor :=
  (if s.judgment.takesBlock then c.readBlock.2 else c).advance 1

/-- A step of the cursor leaves the lines as they are. -/
theorem lines_behind (c : Cursor) (s : Statement) : (c.behind s).lines = c.lines := by
  simp only [behind, advance, readBlock]
  split
  · split <;> rfl
  · rfl

/-- A step of the cursor goes forward. -/
theorem index_lt_behind (c : Cursor) (s : Statement) : c.index < (c.behind s).index := by
  simp only [behind, advance, readBlock]
  split
  · split <;> simp only [] <;> omega
  · omega

/-- Takes up the statements from the current line on. -/
def declareFrom (c : Cursor) (d : Diagram) : Trace Diagram :=
  if _h : c.hasCurrent then do
    let s ← .ofResult c.statement
    let d ← d.declare s
    (c.behind s).declareFrom d
  else .done d
termination_by (c.lines.length - c.index).toNat
decreasing_by
  have hbehind := index_lt_behind c s
  simp only [hasCurrent, decide_eq_true_eq] at _h
  rw [lines_behind]
  omega

end Cursor

end Notation

end SpatialDiagram
