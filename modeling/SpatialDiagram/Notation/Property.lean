import SpatialDiagram.Trace

/-!
# Property values

A property is a key, a colon and a raw value. A raw value loses its quotes;
then a numeral is a number, a JSON array is a list, and anything else is text.
Inside an inline block commas separate properties, except within quotes or
brackets, and a piece without a colon continues the value before it.
-/

namespace SpatialDiagram

namespace Notation

/-- A double or a single quote. -/
def isQuote (c : Char) : Bool := c = '"' || c = '\''

/-- Removes blanks and then quotes from both ends. -/
def unquote (cs : List Char) : List Char := Text.stripWhile isQuote (Text.trim cs)

/-- A text without blanks and quotes around it. -/
def unquoted (cs : List Char) : String := String.ofList (unquote cs)

/-- How a numeral is read; of an integer the number of digits matters. -/
inductive Numeral where
  | integer (digits : Nat)
  | decimal
deriving DecidableEq, Repr

/-- What stands behind the digits of a numeral: nothing or a power of ten. A line feed may
follow. -/
def endsNumeral (cs : List Char) : Bool :=
  let done (cs : List Char) : Bool := cs.isEmpty || cs = ['\n']
  match cs with
  | c :: rest =>
      if c = 'e' || c = 'E' then
        let (ds, more) := Text.run Text.isDecimal (Decimal.sign? rest).2
        !ds.isEmpty && done more
      else done cs
  | [] => true

/-- Whether a text is a numeral, and of which kind. -/
def numeral? (cs : List Char) : Option Numeral :=
  let body := (Decimal.sign? cs).2
  let (whole, rest) := Text.run Text.isDecimal body
  match rest with
  | '.' :: more =>
      let (places, more) := Text.run Text.isDecimal more
      if (whole.isEmpty && places.isEmpty) || !endsNumeral more then none else some .decimal
  | _ =>
      if whole.isEmpty || !endsNumeral rest then none
      else if rest.isEmpty || rest = ['\n'] then some (.integer whole.length)
      else some .decimal

/-- The logger that the reading of properties writes to. -/
def propertyLogger : String := "ast3d_core.parser.properties"

/-- Whether a text stands between square brackets. -/
def isBracketed (cs : List Char) : Bool := cs.head? = some '[' && cs.getLast? = some ']'

/-- The value that a raw text stands for. -/
def coerce (raw : List Char) : Trace Value :=
  let cs := unquote raw
  let asText := Value.str (String.ofList cs)
  match numeral? cs with
  | some (.integer n) =>
      if Json.digitLimit < n then .fail (.digitLimit n) else .done (.int (Decimal.readInt cs))
  | some .decimal => .done (((Decimal.readFloat? cs).map Value.float).getD asText)
  | none =>
      if isBracketed cs then
        match Json.read cs with
        | .ok v => .done v
        | .error (.digits n) => .fail (.digitLimit n)
        | .error (.malformed _ _) => do
            Trace.log .debug propertyLogger
              ("Bracketed value '" ++ String.ofList cs ++
                "' is not a JSON array; keeping it as text.")
            return asText
      else .done asText

/-- Puts a character in front of the first of some pieces. -/
def push (c : Char) : List (List Char) → List (List Char)
  | [] => [[c]]
  | p :: ps => (c :: p) :: ps

/-- Cuts a text at the separators outside quotes and brackets. Within a quotation only its own
quote counts; a closing bracket without an opening one is ignored. -/
def cut (isSeparator : Char → Bool) : (quote : Option Char) → (depth : Nat) → List Char →
    List (List Char)
  | _, _, [] => [[]]
  | some q, depth, c :: cs => push c (cut isSeparator (if c = q then none else some q) depth cs)
  | none, depth, c :: cs =>
      if isQuote c then push c (cut isSeparator (some c) depth cs)
      else if c = '[' || c = '(' then push c (cut isSeparator none (depth + 1) cs)
      else if c = ']' || c = ')' then push c (cut isSeparator none (depth - 1) cs)
      else if isSeparator c && depth = 0 then [] :: cut isSeparator none depth cs
      else push c (cut isSeparator none depth cs)

/-- The trimmed pieces of a text that are not blank. -/
def splitTopLevel (isSeparator : Char → Bool) (cs : List Char) : List (List Char) :=
  ((cut isSeparator none 0 cs).map Text.trim).filter fun p => !p.isEmpty

/-- The trimmed texts before and after the first colon. -/
def splitColon? (cs : List Char) : Option (List Char × List Char) :=
  match cs.dropWhile (· ≠ ':') with
  | _ :: value => some (Text.trim (cs.takeWhile (· ≠ ':')), Text.trim value)
  | [] => none

/-- A key with its raw value, neither of them empty. -/
abbrev RawPair := List Char × List Char

/-- The key and the raw value on a line, neither of which is empty. -/
def rawPair? (cs : List Char) : Option RawPair :=
  (splitColon? cs).filter fun p => !p.1.isEmpty && !p.2.isEmpty

/-- Properties in the order in which their keys first appeared. -/
abbrev Properties := Table String Value

/-- Adds a property, whose value replaces an earlier one of its key. -/
def addProperty (ps : Properties) (p : RawPair) : Trace Properties := do
  let v ← coerce p.2
  return ps.put (String.ofList p.1) v

/-- Adds properties one after another. -/
def addProperties (ps : Properties) (pairs : List RawPair) : Trace Properties :=
  pairs.foldlM addProperty ps

/-- The property on a line of its own. -/
def property? (cs : List Char) : Trace (Option (String × Value)) :=
  match rawPair? cs with
  | none => .done none
  | some p => do
      let v ← coerce p.2
      return some (String.ofList p.1, v)

/-- The pieces of an inline block as pairs, the last one first. A piece without a colon continues
the value of the pair before it; without such a pair it is left out. -/
def inlinePairs : (reversed : List RawPair) → List (List Char) → Trace (List RawPair)
  | acc, [] => .done acc.reverse
  | acc, piece :: pieces =>
      match splitColon? piece, acc with
      | some p, _ => inlinePairs (p :: acc) pieces
      | none, (k, v) :: rest => inlinePairs ((k, v ++ ", ".toList ++ piece) :: rest) pieces
      | none, [] => do
          Trace.log .debug propertyLogger
            ("Ignoring inline property fragment without a key: " ++
              Text.quoted (String.ofList piece))
          inlinePairs [] pieces

/-- The properties inside an inline block. -/
def inlineProperties (body : List Char) : Trace Properties := do
  let pairs ← inlinePairs [] (splitTopLevel (· = ',') body)
  addProperties .empty (pairs.filter fun p => !p.1.isEmpty && !p.2.isEmpty)

/-- The inside of braces that enclose the whole text. -/
def inlineBlock? (cs : List Char) : Option (List Char) :=
  match cs with
  | '\x7b' :: rest => if rest.getLast? = some '\x7d' then some rest.dropLast else none
  | _ => none

end Notation

end SpatialDiagram
