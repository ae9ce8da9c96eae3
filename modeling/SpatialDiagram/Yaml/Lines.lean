import SpatialDiagram.Yaml.Cursor

/-!
# Scalars that span lines

Words without quotes, quoted texts and blocks of text may go on over several
lines. Lines of the first two are folded: one line end becomes a blank, and of
several all but the first are kept. A block keeps its line ends or folds them,
and its last line end is cut or kept as its header says.
-/

namespace SpatialDiagram

namespace Yaml

/-- A scalar, whether it went over more than one line, and the place behind it. -/
structure Scanned where
  text : List Char
  spans : Bool := false
  after : Cursor

/-- The end of a line as text. -/
def lineEnd (c : Char) : Char := if c = '\u2028' || c = '\u2029' then c else '\n'

/-- Blank lines in front of a text: the ends of lines passed, and the text with its column. -/
def breaks : List Char → (column : Nat) → (ends : List Char) → List Char × Cursor
  | [], column, ends => (ends.reverse, ⟨[], column, true⟩)
  | c :: cs, column, ends =>
      if c = ' ' then breaks cs (column + 1) ends
      else if isLineEnd c then breaks cs 0 (lineEnd c :: ends)
      else (ends.reverse, ⟨c :: cs, column, true⟩)

/-- What folding makes of the ends of lines between two pieces of text. -/
def folded (ends : List Char) : List Char :=
  match ends with
  | [] => []
  | [e] => if e = '\n' then [' '] else [e]
  | e :: more => if e = '\n' then more else e :: more

/-! ## Words without quotes -/

/-- The signs with a meaning inside brackets. -/
def flowSigns : List Char := [',', '?', '[', ']', '\x7b', '\x7d']

/-- The signs that end a plain scalar inside brackets. -/
def flowEnds : List Char := [',', '[', ']', '\x7b', '\x7d']

/-- Whether a word ends in front of a character. -/
def endsWord (flow : Bool) (c : Char) (next : Option Char) : Bool :=
  isGap (some c) ||
    (c = ':' && (isGap next || (flow && (next.map flowEnds.contains).getD false))) ||
    (flow && flowSigns.contains c)

/-- The characters of a word up to the next gap. -/
def wordPiece (flow : Bool) : List Char → List Char × List Char
  | [] => ([], [])
  | c :: cs =>
      if endsWord flow c cs.head? then ([], c :: cs)
      else
        let (piece, rest) := wordPiece flow cs
        (c :: piece, rest)

/-- Whether a word without quotes can begin here. -/
def startsWord (flow : Bool) (c : Cursor) : Bool :=
  match c.peek with
  | none => false
  | some d =>
      let special := ['-', '?', ':', ',', '[', ']', '\x7b', '\x7d', '#', '&', '*', '!', '|', '>',
        '\'', '"', '%', '@', '\x60']
      (!isGap (some d) && !special.contains d) ||
        (!isGap c.second && (d = '-' || (!flow && (d = '?' || d = ':'))))

/-- Reads words; lines that go on are indented by at least `indent` outside brackets. -/
def words (flow : Bool) (indent : Nat) : (fuel : Nat) → Cursor → Scanned
  | 0, c => { text := [], after := c }
  | fuel + 1, c =>
      let (piece, rest) := wordPiece flow c.rest
      let here := { c.past piece.length with rest }
      let spaces := here.rest.takeWhile (· = ' ')
      let (ends, next) := breaks here.rest here.column []
      let goesOn := !piece.isEmpty && !next.atEnd && next.peek ≠ some '#' &&
        (if ends.isEmpty then !spaces.isEmpty
         else (flow || indent ≤ next.column) && !next.atDocumentEnd)
      if goesOn && !endsWord flow (next.peek.getD ' ') next.second then
        let more := words flow indent fuel next
        { text := piece ++ (if ends.isEmpty then spaces else folded ends) ++ more.text
          spans := !ends.isEmpty || more.spans
          after := more.after }
      else { text := piece, after := here }

/-! ## Quoted texts -/

/-- The characters that a backslash with one character stands for. -/
def shortEscapes : List (Char × Char) :=
  [('0', '\x00'), ('a', '\x07'), ('b', '\x08'), ('t', '\t'), ('\t', '\t'), ('n', '\n'),
   ('v', '\x0b'), ('f', '\x0c'), ('r', '\r'), ('e', '\x1b'), (' ', ' '), ('"', '"'),
   ('\\', '\\'), ('/', '/'), ('N', '\u0085'), ('_', '\u00a0'), ('L', '\u2028'), ('P', '\u2029')]

/-- The number of hexadecimal digits behind an escape. -/
def codeLength? : Char → Option Nat
  | 'x' => some 2
  | 'u' => some 4
  | 'U' => some 8
  | _ => none

/-- The number that hexadecimal digits spell. -/
def hexNumber? (cs : List Char) : Option Nat :=
  cs.foldlM (fun n c =>
    let d := if c.isDigit then some (c.toNat - 48)
      else if 'a' ≤ c ∧ c ≤ 'f' then some (c.toNat - 87)
      else if 'A' ≤ c ∧ c ≤ 'F' then some (c.toNat - 55)
      else none
    d.map fun d => n * 16 + d) 0

/-- What an escape stands for, and the text behind it. -/
def escape? (cs : List Char) : Option (List Char × List Char) :=
  match cs with
  | [] => none
  | c :: rest =>
      match shortEscapes.lookup c with
      | some d => some ([d], rest)
      | none => do
          let n ← codeLength? c
          if rest.length < n then none
          else
            let code ← hexNumber? (rest.take n)
            some ([Char.ofNat code], rest.drop n)

/-- The text between two quotes. Inside single quotes a quote is written twice; inside double
quotes a backslash escapes. -/
def quotedText (quote : Char) : (fuel : Nat) → Cursor → Option Scanned
  | 0, _ => none
  | fuel + 1, c =>
      let more (text : List Char) (spans : Bool) (after : Cursor) : Option Scanned :=
        (quotedText quote fuel after).map fun s =>
          { s with text := text ++ s.text, spans := spans || s.spans }
      match c.rest with
      | [] => none
      | d :: rest =>
          if d = quote then
            if quote = '\'' && rest.head? = some '\'' then more ['\''] false (c.past 2)
            else some { text := [], after := c.past 1 }
          else if d = '\\' && quote = '"' then
            match rest with
            | e :: tail =>
                if isLineEnd e then
                  let (ends, next) := breaks tail 0 []
                  if next.atDocumentEnd then none else more ends true next
                else do
                  let (text, behind) ← escape? rest
                  more text false { c.past (c.rest.length - behind.length) with rest := behind }
            | [] => none
          else if d = ' ' || d = '\t' || isLineEnd d then
            let blanks := c.rest.takeWhile fun b => b = ' ' || b = '\t'
            let here := c.past blanks.length
            if (here.peek.map isLineEnd).getD false then
              let (ends, next) := breaks here.rest here.column []
              if next.atDocumentEnd then none else more (folded ends) true next
            else more blanks false here
          else more [d] false (c.past 1)

/-- A quoted text from its opening quote on. -/
def quoted (c : Cursor) : Option Scanned :=
  match c.peek with
  | some q => quotedText q (c.rest.length + 1) (c.past 1)
  | none => none

/-! ## Blocks of text -/

/-- What becomes of the line ends behind a block. -/
inductive Chomping where
  | clip
  | strip
  | keep
deriving DecidableEq

/-- What stands behind the sign that begins a block of text. -/
structure BlockHeader where
  chomping : Chomping := .clip
  increment : Option Nat := none

/-- Reads the signs behind the opening one: how to end, and how far the block is moved in. -/
def blockHeader? (cs : List Char) : Option (BlockHeader × List Char) :=
  let sign? (c : Option Char) : Option Chomping :=
    if c = some '+' then some .keep else if c = some '-' then some .strip else none
  let step? (c : Option Char) : Option Nat :=
    c.bind fun c => if c.isDigit && c ≠ '0' then some (c.toNat - 48) else none
  match sign? cs.head?, step? cs.head? with
  | some chomping, _ =>
      match step? cs.tail.head? with
      | some n => some ({ chomping, increment := some n }, cs.drop 2)
      | none => some ({ chomping }, cs.drop 1)
  | none, some n =>
      match sign? cs.tail.head? with
      | some chomping => some ({ chomping, increment := some n }, cs.drop 2)
      | none => some ({ increment := some n }, cs.drop 1)
  | none, none => if cs.head? = some '0' then none else some ({}, cs)

/-- Blank lines in front of a line of the block; at most `indent` blanks are passed on each. -/
def blockBreaks (indent : Nat) : List Char → (column : Nat) → (ends : List Char) →
    List Char × Cursor
  | [], column, ends => (ends.reverse, ⟨[], column, true⟩)
  | c :: cs, column, ends =>
      if c = ' ' && column < indent then blockBreaks indent cs (column + 1) ends
      else if isLineEnd c then blockBreaks indent cs 0 (lineEnd c :: ends)
      else (ends.reverse, ⟨c :: cs, column, true⟩)

/-- The column of the first line that is not blank, or of the widest blank line before it. -/
def blockIndent : List Char → (column widest : Nat) → Nat
  | [], column, widest => max column widest
  | c :: cs, column, widest =>
      if c = ' ' then blockIndent cs (column + 1) (max widest (column + 1))
      else if isLineEnd c then blockIndent cs 0 widest
      else max column widest

/-- The lines of a block, its last line end, and the blank lines behind it. -/
structure BlockText where
  text : List Char
  lastEnd : List Char
  trailing : List Char
  after : Cursor

/-- The lines of a block of text, joined by spaces where they are folded. -/
def blockLines (fold : Bool) (indent : Nat) : (fuel : Nat) → (ends : List Char) → Cursor →
    (lastEnd : List Char) → BlockText
  | 0, ends, c, lastEnd => ⟨[], lastEnd, ends, c⟩
  | fuel + 1, ends, c, lastEnd =>
      if c.column = indent && !c.atEnd then
        let line := c.rest.takeWhile fun d => !isLineEnd d
        let rest := c.rest.drop line.length
        let lineBreak := (rest.head?.map fun e => [lineEnd e]).getD []
        let (nextEnds, next) := blockBreaks indent rest.tail 0 []
        let isPlain (d : Option Char) : Bool := d ≠ some ' ' && d ≠ some '\t'
        let joint :=
          if next.column = indent && !next.atEnd then
            if fold && lineBreak = ['\n'] && isPlain c.peek && isPlain next.peek then
              (if nextEnds.isEmpty then [' '] else [])
            else lineBreak
          else []
        let more := blockLines fold indent fuel nextEnds next lineBreak
        { more with text := ends ++ line ++ joint ++ more.text }
      else ⟨[], lastEnd, ends, c⟩

/-- A block of text from its sign on; `parent` is the column its lines must lie behind. -/
def block (parent : Int) (c : Cursor) : Option Scanned := do
  let fold := c.peek = some '>'
  let (header, rest) ← blockHeader? c.rest.tail
  let spaces := rest.takeWhile (· = ' ')
  let rest := rest.drop spaces.length
  let rest := if rest.head? = some '#' then rest.dropWhile fun d => !isLineEnd d else rest
  if !((rest.head?.map isLineEnd).getD true) then none
  else
    let body := rest.tail
    let least := (max (parent + 1) 1).toNat
    let indent := match header.increment with
      | some n => least + n - 1
      | none => max least (blockIndent body 0 0)
    let (ends, start) := blockBreaks indent body 0 []
    let read := blockLines fold indent (body.length + 1) ends start []
    let tail := match header.chomping with
      | .strip => []
      | .clip => read.lastEnd
      | .keep => read.lastEnd ++ read.trailing
    some { text := read.text ++ tail, spans := true, after := read.after }

end Yaml

end SpatialDiagram
