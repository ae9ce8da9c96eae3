import SpatialDiagram.Decimal.Reading
import SpatialDiagram.Keyed
import SpatialDiagram.Value.Basic

/-!
# Reading JSON text

The reader accepts standard JSON and the words `NaN`, `Infinity` and
`-Infinity`. A number without point and exponent is an exact integer, of which
only so many digits are read. Of repeated keys the last value counts, in the
place of the first. A fault names what was expected and how much text was left
there, from which `Fault.message` derives line, column and offset.
-/

namespace SpatialDiagram

namespace Json

/-- What a reader was looking for when it failed. -/
inductive Expectation where
  | value
  | propertyName
  | colon
  | comma
  | stringEnd
  | printable
  | escape
  | codeUnit
  | endOfText
  | noMark
deriving DecidableEq, Repr

/-- Why a text is not read. -/
inductive Fault where
  /-- The expectation failed where `left` characters of the text were left. -/
  | malformed (expected : Expectation) (left : Nat)
  /-- An integer has more digits than are read. -/
  | digits (count : Nat)
deriving DecidableEq, Repr

namespace Expectation

/-- How an expectation that failed is named. -/
def message : Expectation → String
  | value => "Expecting value"
  | propertyName => "Expecting property name enclosed in double quotes"
  | colon => "Expecting ':' delimiter"
  | comma => "Expecting ',' delimiter"
  | stringEnd => "Unterminated string starting at"
  | printable => "Invalid control character at"
  | escape => "Invalid \\escape"
  | codeUnit => "Invalid \\uXXXX escape"
  | endOfText => "Extra data"
  | noMark => "Unexpected UTF-8 BOM (decode using utf-8-sig)"

end Expectation

/-- An expectation with the line, the column and the offset at which it failed. -/
def located (text : List Char) (e : Expectation) (left : Nat) : String :=
  let before := text.take (text.length - left)
  let line := before.count '\n' + 1
  let column := (before.reverse.takeWhile (· ≠ '\n')).length + 1
  e.message ++ ": line " ++ toString line ++ " column " ++ toString column ++
    " (char " ++ toString before.length ++ ")"

/-- The greatest number of digits an integer may have. -/
def digitLimit : Nat := 4300

/-- What is said of an integer with more digits than are read. -/
def digitLimitMessage (count : Nat) : String :=
  "Exceeds the limit (4300 digits) for integer string conversion: value has " ++
    toString count ++ " digits; use sys.set_int_max_str_digits() to increase the limit"

/-- One of the four blanks of the format. -/
def isSpace (c : Char) : Bool := c = ' ' || c = '\t' || c = '\n' || c = '\r'

/-- What follows the blanks at the front. -/
def skipSpace (cs : List Char) : List Char := cs.dropWhile isSpace

/-- The value of a hexadecimal digit. -/
def hexValue? (c : Char) : Option Nat :=
  if c.isDigit then some (c.toNat - 48)
  else if 'a' ≤ c ∧ c ≤ 'f' then some (c.toNat - 87)
  else if 'A' ≤ c ∧ c ≤ 'F' then some (c.toNat - 55)
  else none

/-- The number that four hexadecimal digits spell. -/
def codeUnit? (a b c d : Char) : Option Nat := do
  let a ← hexValue? a
  let b ← hexValue? b
  let c ← hexValue? c
  let d ← hexValue? d
  some (((a * 16 + b) * 16 + c) * 16 + d)

/-- The first half of a pair of code units. -/
def isHighSurrogate (n : Nat) : Bool := 0xd800 ≤ n && n < 0xdc00

/-- The second half of a pair of code units. -/
def isLowSurrogate (n : Nat) : Bool := 0xdc00 ≤ n && n < 0xe000

/-- The characters of a sequence of code units. Two halves of a surrogate pair make one
character; half a pair alone becomes the replacement character. -/
def ofUnits : List Nat → List Char
  | [] => []
  | [n] => [if isHighSurrogate n || isLowSurrogate n then '\ufffd' else Char.ofNat n]
  | n :: m :: rest =>
      if isHighSurrogate n && isLowSurrogate m then
        Char.ofNat (0x10000 + (n - 0xd800) * 0x400 + (m - 0xdc00)) :: ofUnits rest
      else if isHighSurrogate n || isLowSurrogate n then '\ufffd' :: ofUnits (m :: rest)
      else Char.ofNat n :: ofUnits (m :: rest)

/-- The character that a backslash with one letter stands for. -/
def shortEscape? : Char → Option Char
  | '"' => some '"'
  | '\\' => some '\\'
  | '/' => some '/'
  | 'b' => some '\x08'
  | 'f' => some '\x0c'
  | 'n' => some '\n'
  | 'r' => some '\r'
  | 't' => some '\t'
  | _ => none

/-- Reads the code units of a string up to its closing quote. `start` is the length of the
text from the opening quote on. -/
def stringUnits (start : Nat) (cs : List Char) : Except Fault (List Nat × List Char) :=
  match cs with
  | [] => .error (.malformed .stringEnd start)
  | '"' :: rest => .ok ([], rest)
  | '\\' :: rest =>
      match rest with
      | [] => .error (.malformed .stringEnd start)
      | 'u' :: a :: b :: c :: d :: next :: more =>
          match codeUnit? a b c d with
          | none => .error (.malformed .codeUnit rest.length)
          | some n => (stringUnits start (next :: more)).map fun r => (n :: r.1, r.2)
      | 'u' :: _ => .error (.malformed .codeUnit rest.length)
      | e :: more =>
          match shortEscape? e with
          | none => .error (.malformed .escape (more.length + 2))
          | some c => (stringUnits start more).map fun r => (c.toNat :: r.1, r.2)
  | c :: rest =>
      if c < ' ' then .error (.malformed .printable (rest.length + 1))
      else (stringUnits start rest).map fun r => (c.toNat :: r.1, r.2)

/-- Reads a string up to its closing quote. -/
def stringBody (start : Nat) (cs : List Char) : Except Fault (String × List Char) :=
  (stringUnits start cs).map fun r => (String.ofList (ofUnits r.1), r.2)

/-- The fraction of a number: a point with at least one digit behind it. -/
def fraction (cs : List Char) : Option (List Char) × List Char :=
  match cs with
  | '.' :: rest =>
      let (ds, more) := Text.run Decimal.isPlainDigit rest
      if ds.isEmpty then (none, cs) else (some ds, more)
  | _ => (none, cs)

/-- The exponent of a number: `e`, an optional sign and at least one digit. -/
def exponent (cs : List Char) : Option Int × List Char :=
  match cs with
  | c :: rest =>
      if c = 'e' || c = 'E' then
        let (negative, body) := Decimal.sign? rest
        let (ds, more) := Text.run Decimal.isPlainDigit body
        if ds.isEmpty then (none, cs)
        else (some (if negative then -(Decimal.ofDigits ds : Int) else Decimal.ofDigits ds), more)
      else (none, cs)
  | [] => (none, cs)

/-- The digits before the point: a zero alone, or digits that start with another one. -/
def wholeDigits? (cs : List Char) : Option (List Char × List Char) :=
  match cs with
  | '0' :: rest => some (['0'], rest)
  | c :: _ => if c.isDigit then some (Text.run Decimal.isPlainDigit cs) else none
  | [] => none

/-- Reads a number without its sign. -/
def number (negative : Bool) (cs : List Char) : Option (Except Fault Value × List Char) := do
  let (whole, rest) ← wholeDigits? cs
  let (frac, rest) := fraction rest
  let (exp, rest) := exponent rest
  if frac.isNone && exp.isNone then
    let n := Decimal.ofDigits whole
    if digitLimit < whole.length then some (.error (.digits whole.length), rest)
    else some (.ok (.int (if negative then -(n : Int) else n)), rest)
  else
    let places := frac.getD []
    some (.ok (.float (Decimal.ofDecimal negative (Decimal.ofDigits (whole ++ places))
      (exp.getD 0 - places.length))), rest)

/-- The floating-point infinity. -/
def infinity : Float := 1.0 / 0.0

/-- A floating-point number that is none. -/
def notANumber : Float := 0.0 / 0.0

/-- The words that stand for a value. -/
def words : List (String × Value) :=
  [("null", .null), ("true", .bool true), ("false", .bool false), ("NaN", .float notANumber),
   ("Infinity", .float infinity), ("-Infinity", .float (-infinity))]

/-- The value whose word the text begins with. -/
def word? (cs : List Char) : Option (Value × List Char) :=
  words.findSome? fun w =>
    if w.1.toList.isPrefixOf cs then some (w.2, cs.drop w.1.length) else none

/-- A word or a number, and what follows it. -/
def scalar (cs : List Char) : Except Fault (Value × List Char) :=
  match word? cs with
  | some r => .ok r
  | none =>
      let read := match cs with
        | '-' :: rest => number true rest
        | _ => number false cs
      match read with
      | some (.ok v, rest) => .ok (v, rest)
      | some (.error e, _) => .error e
      | none => .error (.malformed .value cs.length)

mutual

/-- Reads one value. The fuel bounds the number of steps and is the length of the text. -/
def value : (fuel : Nat) → List Char → Except Fault (Value × List Char)
  | 0, cs => .error (.malformed .value cs.length)
  | fuel + 1, cs =>
      match cs with
      | '"' :: rest => (stringBody cs.length rest).map fun r => (.str r.1, r.2)
      | '[' :: rest =>
          match skipSpace rest with
          | ']' :: more => .ok (.list [], more)
          | rest => (items fuel rest).map fun r => (.list r.1, r.2)
      | '\x7b' :: rest =>
          match skipSpace rest with
          | '\x7d' :: more => .ok (.mapping [], more)
          | rest => (members fuel rest).map fun r =>
              (.mapping (Table.ofList r.1).entries, r.2)
      | _ => scalar cs

/-- Reads the items of an array that has one at least, up to its end. -/
def items : (fuel : Nat) → List Char → Except Fault (List Value × List Char)
  | 0, cs => .error (.malformed .value cs.length)
  | fuel + 1, cs => do
      let (v, rest) ← value fuel cs
      match skipSpace rest with
      | ']' :: more => .ok ([v], more)
      | ',' :: more => (items fuel (skipSpace more)).map fun r => (v :: r.1, r.2)
      | rest => .error (.malformed .comma rest.length)

/-- Reads the members of an object that has one at least, up to its end. -/
def members : (fuel : Nat) → List Char → Except Fault (List (Value × Value) × List Char)
  | 0, cs => .error (.malformed .value cs.length)
  | fuel + 1, cs =>
      match cs with
      | '"' :: body => do
          let (key, rest) ← stringBody cs.length body
          match skipSpace rest with
          | ':' :: rest => do
              let (v, rest) ← value fuel (skipSpace rest)
              let entry := (Value.str key, v)
              match skipSpace rest with
              | '\x7d' :: more => .ok ([entry], more)
              | ',' :: more => (members fuel (skipSpace more)).map fun r => (entry :: r.1, r.2)
              | rest => .error (.malformed .comma rest.length)
          | rest => .error (.malformed .colon rest.length)
      | _ => .error (.malformed .propertyName cs.length)

end

/-- The value that a whole text spells. -/
def read (text : List Char) : Except Fault Value :=
  if text.head? = some '\ufeff' then .error (.malformed .noMark text.length)
  else do
    let (v, rest) ← value (2 * text.length + 1) (skipSpace text)
    let rest := skipSpace rest
    if rest.isEmpty then .ok v else .error (.malformed .endOfText rest.length)

end Json

end SpatialDiagram
