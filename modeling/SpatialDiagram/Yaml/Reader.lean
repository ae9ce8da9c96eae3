import SpatialDiagram.Keyed
import SpatialDiagram.Yaml.Lines
import SpatialDiagram.Yaml.Scalar

/-!
# Reading YAML documents

Reads one document of block and flow collections, quoted and plain scalars,
blocks of text, anchors and merged mappings. Explicit keys and tags are not
supported. Of repeated keys the last value counts, in the place of the first.
The only answer to malformed text is that it is malformed.
-/

namespace SpatialDiagram

namespace Yaml

/-- The values that anchors name so far. -/
abbrev Anchors := List (String × Value)

/-- A value read, the place behind it, and the anchors known there. -/
structure Read where
  value : Value
  after : Cursor
  anchors : Anchors

/-- A key, the place behind its colon, and whether it merges its value in. -/
structure Key where
  value : Value
  merges : Bool
  after : Cursor

/-- Entries of a mapping in two parts: those merged in, and its own. -/
structure Entries where
  merged : List (Value × Value) := []
  own : List (Value × Value) := []

namespace Entries

/-- The entries of a value that is a mapping. -/
def entries? : Value → Option (List (Value × Value))
  | .mapping es => some es
  | _ => none

/-- The mappings that a value merges in; of several the first one wins. -/
def mergeable? : Value → Option (List (Value × Value))
  | .list vs => (vs.reverse.mapM entries?).map List.flatten
  | v => entries? v

/-- Adds an entry, or the entries of mappings that are merged in. -/
def add (es : Entries) (key : Key) (v : Value) : Option Entries :=
  if key.merges then
    (mergeable? v).map fun more => { es with merged := es.merged ++ more }
  else if key.value.isScalar then some { es with own := es.own ++ [(key.value, v)] }
  else none

/-- The mapping with the entries of its own over those that were merged in. -/
def toValue (es : Entries) : Value := .mapping (Table.ofList (es.merged ++ es.own)).entries

end Entries

/-- A scalar where no mapping can be merged in. -/
def ofScalar : Scalar → Option Value
  | .value v => some v
  | .merge => some (.str "<<")
  | .default => none

/-- The name behind an anchor or alias sign. -/
def anchorName (c : Cursor) : Option (String × Cursor) :=
  let isName (d : Char) : Bool := d.isAlphanum || d = '-' || d = '_'
  let name := c.rest.tail.takeWhile isName
  let after := c.past (name.length + 1)
  let ends := isGap after.peek || [',', ']', '\x7d', ':', '?'].contains (after.peek.getD ' ')
  if name.isEmpty || !ends then none
  else some (String.ofList name, after)

/-- A double or a single quote. -/
def isQuoteSign (c : Option Char) : Bool := c = some '"' || c = some '\''

/-- A scalar on one line with a colon behind it. -/
def key? (c : Cursor) : Option Key := do
  let (scanned, value, merges) ←
    if isQuoteSign c.peek then (quoted c).map fun s => (s, Value.str (String.ofList s.text), false)
    else if startsWord false c then do
      let s := words false 0 (c.rest.length + 1) c
      let scalar := resolve s.text
      let v ← ofScalar scalar
      pure (s, v, match scalar with | .merge => true | _ => false)
    else none
  let behind := scanned.after.skipSpaces
  if !scanned.spans && behind.atIndicator ':' then some { value, merges, after := behind.past 1 }
  else none

mutual

/-- A node of the block structure. It lies behind the column `parent`, and only where `keys` holds
may a mapping or a sequence begin. -/
def blockNode : (fuel : Nat) → (parent : Int) → (keys : Bool) → Anchors → Cursor → Option Read
  | 0, _, _, _, _ => none
  | fuel + 1, parent, keys, anchors, c =>
      match c.peek with
      | none => some ⟨.null, c, anchors⟩
      | some sign =>
          if c.atIndicator '-' then
            if keys then sequence fuel c.column anchors c else none
          else if sign = '&' then do
            let (name, after) ← anchorName c
            if (anchors.lookup name).isSome then none
            else
              let r ← anchored fuel parent after.skip.fresh anchors after.skip
              some { r with anchors := (name, r.value) :: r.anchors }
          else if sign = '*' then do
            let (name, after) ← anchorName c
            let v ← anchors.lookup name
            some ⟨v, after, anchors⟩
          else if sign = '|' || sign = '>' then do
            let s ← block parent c
            some ⟨.str (String.ofList s.text), s.after, anchors⟩
          else if sign = '[' || sign = '\x7b' then do
            let r ← flowNode fuel anchors c
            if r.after.skipSpaces.atIndicator ':' then none else some r
          else
            match key? c with
            | some key =>
                if keys then mapping fuel c.column {} anchors key else none
            | none =>
                if isQuoteSign (some sign) then do
                  let s ← quoted c
                  some ⟨.str (String.ofList s.text), s.after, anchors⟩
                else if startsWord false c then do
                  let s := words false (parent + 1).toNat (c.rest.length + 1) c
                  let v ← ofScalar (resolve s.text)
                  some ⟨v, s.after, anchors⟩
                else none

/-- The node behind an anchor; there may be none. -/
def anchored : (fuel : Nat) → (parent : Int) → (keys : Bool) → Anchors → Cursor → Option Read
  | 0, _, _, _, _ => none
  | fuel + 1, parent, keys, anchors, c =>
      if c.atDocumentEnd || (c.fresh && (c.column : Int) ≤ parent) then some ⟨.null, c, anchors⟩
      else blockNode fuel parent keys anchors c

/-- The value behind a colon. A sequence may stand right below its key. -/
def mappingValue : (fuel : Nat) → (column : Nat) → Anchors → Cursor → Option Read
  | 0, _, _, _ => none
  | fuel + 1, column, anchors, c =>
      let next := c.skip
      if next.atDocumentEnd then some ⟨.null, next, anchors⟩
      else if !next.fresh then blockNode fuel column false anchors next
      else if column < next.column then blockNode fuel column true anchors next
      else if next.column = column && next.atIndicator '-' then sequence fuel column anchors next
      else some ⟨.null, next, anchors⟩

/-- The entries of a mapping whose keys stand in one column, from behind the colon of a key on. -/
def mapping : (fuel : Nat) → (column : Nat) → Entries → Anchors → Key → Option Read
  | 0, _, _, _, _ => none
  | fuel + 1, column, entries, anchors, key => do
      let r ← mappingValue fuel column anchors key.after
      let entries ← entries.add key r.value
      let next := r.after.skip
      if next.atDocumentEnd then some ⟨entries.toValue, next, r.anchors⟩
      else if !next.fresh || column < next.column then none
      else if next.column < column then some ⟨entries.toValue, next, r.anchors⟩
      else
        match key? next with
        | some key => mapping fuel column entries r.anchors key
        | none => none

/-- The items of a sequence whose dashes stand in one column. -/
def sequence : (fuel : Nat) → (column : Nat) → Anchors → Cursor → Option Read
  | 0, _, _, _ => none
  | fuel + 1, column, anchors, c => do
      let next := (c.past 1).skip
      let r ←
        if next.atDocumentEnd || (next.fresh && next.column ≤ column) then
          some ⟨.null, next, anchors⟩
        else blockNode fuel column true anchors next
      let next := r.after.skip
      if next.atDocumentEnd then some ⟨.list [r.value], next, r.anchors⟩
      else if !next.fresh || column < next.column then none
      else if next.column = column && next.atIndicator '-' then do
        let more ← sequence fuel column r.anchors next
        match more.value with
        | .list vs => some { more with value := .list (r.value :: vs) }
        | _ => none
      else some ⟨.list [r.value], next, r.anchors⟩

/-- A node inside brackets. -/
def flowNode : (fuel : Nat) → Anchors → Cursor → Option Read
  | 0, _, _ => none
  | fuel + 1, anchors, c =>
      let c := c.skip
      match c.peek with
      | some '[' => (flowItems fuel [] anchors (c.past 1).skip)
      | some '\x7b' => (flowEntries fuel {} anchors (c.past 1).skip)
      | some '&' => do
          let (name, after) ← anchorName c
          if (anchors.lookup name).isSome then none
          else
            let r ← flowNode fuel anchors after
            some { r with anchors := (name, r.value) :: r.anchors }
      | some '*' => do
          let (name, after) ← anchorName c
          let v ← anchors.lookup name
          some ⟨v, after, anchors⟩
      | sign =>
          if isQuoteSign sign then do
            let s ← quoted c
            some ⟨.str (String.ofList s.text), s.after, anchors⟩
          else if startsWord true c then do
            let s := words true 0 (c.rest.length + 1) c
            let v ← ofScalar (resolve s.text)
            some ⟨v, s.after, anchors⟩
          else none

/-- The value behind a colon inside brackets; there may be none. -/
def flowValue : (fuel : Nat) → Anchors → Cursor → Option Read
  | 0, _, _ => none
  | fuel + 1, anchors, c =>
      let next := (c.past 1).skip
      match next.peek with
      | some ',' => some ⟨.null, next, anchors⟩
      | some ']' => some ⟨.null, next, anchors⟩
      | some '\x7d' => some ⟨.null, next, anchors⟩
      | _ => flowNode fuel anchors next

/-- The items up to a closing bracket, the last one first. An item with a colon behind it is a
mapping of one entry. -/
def flowItems : (fuel : Nat) → (acc : List Value) → Anchors → Cursor → Option Read
  | 0, _, _, _ => none
  | fuel + 1, acc, anchors, c =>
      if c.peek = some ']' then some ⟨.list acc.reverse, c.past 1, anchors⟩
      else do
        let r ← flowNode fuel anchors c
        let behind := r.after.skip
        let r ←
          if behind.peek = some ':' then do
            let v ← flowValue fuel r.anchors behind
            if r.value.isScalar then some { v with value := .mapping [(r.value, v.value)] }
            else none
          else some { r with after := behind }
        let next := r.after.skip
        if next.peek = some ',' then
          flowItems fuel (r.value :: acc) r.anchors (next.past 1).skip
        else if next.peek = some ']' then
          some ⟨.list (r.value :: acc).reverse, next.past 1, r.anchors⟩
        else none

/-- The entries up to a closing brace. A key without a colon has no value. -/
def flowEntries : (fuel : Nat) → Entries → Anchors → Cursor → Option Read
  | 0, _, _, _ => none
  | fuel + 1, entries, anchors, c =>
      if c.peek = some '\x7d' then some ⟨entries.toValue, c.past 1, anchors⟩
      else do
        let merges := startsWord true c &&
          (words true 0 (c.rest.length + 1) c).text = "<<".toList
        let k ← flowNode fuel anchors c
        let behind := k.after.skip
        let r ←
          if behind.peek = some ':' then flowValue fuel k.anchors behind
          else some ⟨.null, behind, k.anchors⟩
        let entries ← entries.add { value := k.value, merges, after := behind } r.value
        let next := r.after.skip
        if next.peek = some ',' then
          flowEntries fuel entries r.anchors (next.past 1).skip
        else if next.peek = some '\x7d' then some ⟨entries.toValue, next.past 1, r.anchors⟩
        else none

end

/-- The characters that a document may hold. -/
def isAllowed (c : Char) : Bool :=
  c = '\t' || c = '\n' || c = '\r' || c = '\u0085' || ('\x20' ≤ c && c ≤ '\x7e') ||
    ('\u00a0' ≤ c && c ≤ '\ufffd') || 0x10000 ≤ c.toNat

/-- The text with every line end written as one line feed. -/
def plainLines : List Char → List Char
  | '\r' :: '\n' :: cs => '\n' :: plainLines cs
  | '\r' :: cs => '\n' :: plainLines cs
  | c :: cs => c :: plainLines cs
  | [] => []

/-- Passes over directives and the marker behind them. -/
def afterHeader : (fuel : Nat) → (directives : Bool) → Cursor → Option Cursor
  | 0, _, _ => none
  | fuel + 1, directives, c =>
      if c.peek = some '%' && c.column = 0 then
        let next : Cursor := { c with rest := c.rest.dropWhile fun d => !isLineEnd d }
        afterHeader fuel true next.skip
      else if c.atMarker "---" then some ((c.past 3).skip)
      else if directives then none
      else some c

/-- The value of a document; nothing when the text is malformed. -/
def read (text : List Char) : Option Value := do
  let text := plainLines text
  if !(text.all isAllowed) then none
  else
    let text := if text.head? = some '\ufeff' then text.tail else text
    let fuel := 8 * text.length + 16
    let start : Cursor := { rest := text }
    let c ← afterHeader fuel false start.skip
    let r ←
      if c.atDocumentEnd then some ⟨.null, c, []⟩ else blockNode fuel (-1) c.fresh [] c
    let next := r.after.skip
    if next.atEnd then some r.value
    else if next.atMarker "..." then
      if (next.past 3).skip.atEnd then some r.value else none
    else none

end Yaml

end SpatialDiagram
