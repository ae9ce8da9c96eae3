import SpatialDiagram.Notation.ConnectionHeader
import SpatialDiagram.Text.Word

/-!
# What a line is

The kinds of lines overlap, so they are tried in a fixed order: comments,
declarations of title and description, nodes, connections, metadata. A line
that has the shape of a node or holds an arrow is of that kind even when it
fails the full grammar; then it is unusable and never becomes metadata.
-/

namespace SpatialDiagram

namespace Notation

/-- The header fields that declarations set. -/
inductive Field where
  | title
  | description
deriving DecidableEq, Repr

namespace Field

/-- The word that a field is declared with. -/
def name : Field → String
  | title => "title"
  | description => "description"

end Field

/-- A declared field; a bare graph keyword declares a title without a value. -/
structure Declaration where
  field : Field
  value : Option String
deriving DecidableEq, Repr

/-- A line that gives the value of a key. -/
structure Metadata where
  key : String
  value : String
deriving DecidableEq, Repr

/-- What a line is; a node or a connection without its header only looks like one. -/
inductive Judgment where
  | comment
  | declaration (d : Declaration)
  | node (h : Option NodeHeader)
  | connection (h : Option ConnectionHeader)
  | metadata (m : Metadata)
  | unrecognized
deriving DecidableEq, Repr

namespace Judgment

/-- The name of a judgment as notes show it. -/
def kind : Judgment → String
  | comment => "COMMENT"
  | declaration _ => "DECLARATION"
  | node _ => "NODE"
  | connection _ => "CONNECTION"
  | metadata _ => "METADATA"
  | unrecognized => "UNRECOGNIZED"

/-- Whether the line says something that a diagram takes up. -/
def isUsable : Judgment → Bool
  | comment => false
  | declaration _ => true
  | node h => h.isSome
  | connection h => h.isSome
  | metadata _ => true
  | unrecognized => false

end Judgment

/-- The beginnings of comments. -/
def commentMarkers : List (List Char) := ["%%".toList, "//".toList]

/-- Whether a line begins like a comment. -/
def isComment (line : List Char) : Bool := commentMarkers.any fun m => m.isPrefixOf line

/-- The words that open a graph. -/
def graphKeywords : List (List Char) := ["graph3d".toList, "ast3d".toList]

/-- The title behind a graph keyword: the rest of the line, which the keyword must not run into
and which holds no line feed but at its end. -/
def graphTitle? (line : List Char) : Option (List Char) := do
  let rest ← graphKeywords.findSome? fun k => Text.after? k line
  if (rest.head?.map Text.isWord).getD false then none
  else
    let title := Text.skipBlanks rest
    match title.dropWhile (· ≠ '\n') with
    | [] => some title
    | _ :: more => if more.isEmpty then some title.dropLast else none

/-- The title or the description that a line declares. -/
def declaration? (line : List Char) : Option Declaration :=
  match graphTitle? line with
  | some title => some ⟨.title, label? title⟩
  | none =>
      ((Text.after? "title:".toList line).map fun v => ⟨.title, some (unquoted v)⟩) <|>
      ((Text.after? "description:".toList line).map fun v => ⟨.description, some (unquoted v)⟩)

/-- A key that is not blank, a colon and a value. -/
def metadata? (line : List Char) : Option Metadata :=
  match line.dropWhile (· ≠ ':') with
  | _ :: value =>
      let key := Text.trim (line.takeWhile (· ≠ ':'))
      if key.isEmpty then none else some ⟨String.ofList key, unquoted value⟩
  | [] => none

/-- Decides what a line is. -/
def classify (line : List Char) : Judgment :=
  if isComment line then .comment
  else
    match declaration? line with
    | some d => .declaration d
    | none =>
        if NodeHeader.looksLike line then .node (NodeHeader.ofLine? line)
        else if containsArrow line then .connection (ConnectionHeader.ofLine? line)
        else
          match metadata? line with
          | some m => .metadata m
          | none => .unrecognized

end Notation

end SpatialDiagram
