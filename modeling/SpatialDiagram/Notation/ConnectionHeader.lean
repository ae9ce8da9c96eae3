import SpatialDiagram.Category
import SpatialDiagram.Notation.NodeHeader
import SpatialDiagram.Notation.Property

/-!
# Connection headers

A connection names its source, an arrow and its target; each end may name a
face after an `@`. A label stands between bars right after the arrow or after a
colon behind the target. All further text is ignored.
-/

namespace SpatialDiagram

namespace Notation

/-- A node and, if one is named, a face of it. -/
structure Endpoint where
  node : String
  face : Option String := none
deriving DecidableEq, Repr

/-- The parts of a connection line. -/
structure ConnectionHeader where
  source : Endpoint
  arrow : String
  target : Endpoint
  label : Option String
deriving DecidableEq, Repr

/-- Reads an identifier. -/
def identifier? (cs : List Char) : Option (String × List Char) :=
  let id := cs.takeWhile isIdentifier
  if id.isEmpty then none else some (String.ofList id, cs.dropWhile isIdentifier)

namespace Endpoint

/-- Reads a node with the face that follows an `@` right behind it. -/
def read? (cs : List Char) : Option (Endpoint × List Char) := do
  let (node, rest) ← identifier? cs
  match rest with
  | '@' :: more =>
      match identifier? more with
      | some (face, rest) => some ({ node, face := some face }, rest)
      | none => some ({ node }, rest)
  | _ => some ({ node }, rest)

end Endpoint

/-- Reads the arrow that a text begins with. -/
def arrow? (cs : List Char) : Option (String × List Char) :=
  ConnectionCategory.arrows.findSome? fun a =>
    if a.1.toList.isPrefixOf cs then some (a.1, cs.drop a.1.length) else none

/-- An unquoted label; an empty one is none. -/
def label? (cs : List Char) : Option String :=
  let label := unquote cs
  if label.isEmpty then none else some (String.ofList label)

namespace ConnectionHeader

/-- A label between bars, and the target behind it. -/
def barLabel? (cs : List Char) : Option (Option String × Endpoint) :=
  match cs with
  | '|' :: rest =>
      match rest.dropWhile (· ≠ '|') with
      | _ :: more => do
          let (target, _) ← Endpoint.read? (Text.skipBlanks more)
          some (label? (rest.takeWhile (· ≠ '|')), target)
      | [] => none
  | _ => none

/-- The target, and the label after a colon that follows it. -/
def colonLabel? (cs : List Char) : Option (Option String × Endpoint) := do
  let (target, rest) ← Endpoint.read? cs
  match Text.skipBlanks rest with
  | ':' :: label => some (label? ((Text.skipBlanks label).takeWhile (· ≠ '\n')), target)
  | _ => some (none, target)

/-- The connection that a line states. -/
def ofLine? (line : List Char) : Option ConnectionHeader := do
  let (source, rest) ← Endpoint.read? line
  let (arrow, rest) ← arrow? (Text.skipBlanks rest)
  let rest := Text.skipBlanks rest
  let (label, target) ← barLabel? rest <|> colonLabel? rest
  some { source, arrow, target, label }

end ConnectionHeader

/-- Whether a text occurs somewhere in a line. -/
def occursIn (part : List Char) : List Char → Bool
  | [] => part.isEmpty
  | c :: cs => part.isPrefixOf (c :: cs) || occursIn part cs

/-- Whether one of the arrows occurs somewhere in a line. -/
def containsArrow (line : List Char) : Bool :=
  ConnectionCategory.arrows.any fun a => occursIn a.1.toList line

end Notation

end SpatialDiagram
