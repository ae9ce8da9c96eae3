import SpatialDiagram.Text.Scan

/-!
# Positions in a document

The structure of a document depends on columns, so the reader keeps the column
beside the text that is left, and whether a line began since the last token.
-/

namespace SpatialDiagram

namespace Yaml

/-- What is left of a document, and the column where it begins. -/
structure Cursor where
  rest : List Char
  column : Nat := 0
  /-- Only blanks and comments lie between the start of the line and this place. -/
  fresh : Bool := true

/-- A character that ends a line. -/
def isLineEnd (c : Char) : Bool := c = '\n' || c = '\u0085' || c = '\u2028' || c = '\u2029'

/-- A blank, the end of a line, or the end of the text. -/
def isGap (c : Option Char) : Bool :=
  match c with
  | none => true
  | some c => c = ' ' || c = '\t' || isLineEnd c

namespace Cursor

/-- The next character. -/
def peek (c : Cursor) : Option Char := c.rest.head?

/-- The character behind the next one. -/
def second (c : Cursor) : Option Char := c.rest.tail.head?

/-- Whether nothing is left. -/
def atEnd (c : Cursor) : Bool := c.rest.isEmpty

/-- Passes over characters of one line that belong to a token. -/
def past (c : Cursor) (count : Nat) : Cursor :=
  { rest := c.rest.drop count, column := c.column + count, fresh := false }

/-- Passes over blanks, comments and ends of lines. -/
def skip (c : Cursor) : Cursor := go c.rest c.column c.fresh
where
  go : List Char → Nat → Bool → Cursor
    | [], column, fresh => ⟨[], column, fresh⟩
    | ' ' :: cs, column, fresh => go cs (column + 1) fresh
    | '#' :: cs, column, fresh => comment cs column fresh
    | d :: cs, column, fresh =>
        if isLineEnd d then go cs 0 true else ⟨d :: cs, column, fresh⟩
  comment : List Char → Nat → Bool → Cursor
    | [], column, fresh => ⟨[], column, fresh⟩
    | d :: cs, column, fresh => if isLineEnd d then go cs 0 true else comment cs (column + 1) fresh

/-- Whether a marker of three characters stands alone at the start of a line. -/
def atMarker (c : Cursor) (marker : String) : Bool :=
  c.column = 0 && marker.toList.isPrefixOf c.rest && isGap (c.rest.drop 3).head?

/-- Whether the document ends here. -/
def atDocumentEnd (c : Cursor) : Bool := c.atEnd || c.atMarker "---" || c.atMarker "..."

/-- A sign that is followed by a gap. -/
def atIndicator (c : Cursor) (sign : Char) : Bool := c.peek = some sign && isGap c.second

/-- Passes over the blanks of a line. -/
def skipSpaces (c : Cursor) : Cursor :=
  let spaces := (c.rest.takeWhile (· = ' ')).length
  { c with rest := c.rest.drop spaces, column := c.column + spaces }

end Cursor

end Yaml

end SpatialDiagram
