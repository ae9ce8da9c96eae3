/-!
# Letter case of words

Fixed words are recognised in any case. Besides the ASCII letters only three
characters have an ASCII letter as their other case: the Kelvin sign becomes
`k`, the dotless i becomes `I` and the long s becomes `S`. A text with any
other character beyond ASCII folds to no ASCII word, so those stay as they are.
-/

namespace SpatialDiagram

namespace Text

/-- A character in lower case as far as it matters for words of ASCII letters. -/
def lowerChar (c : Char) : Char := if c = '\u212a' then 'k' else c.toLower

/-- A character in upper case as far as it matters for words of ASCII letters. -/
def upperChar (c : Char) : Char :=
  if c = '\u0131' then 'I' else if c = '\u017f' then 'S' else c.toUpper

/-- The lower-case form of a text, as far as it can be an ASCII word. -/
def lower (cs : List Char) : List Char := cs.map lowerChar

/-- The upper-case form of a text, as far as it can be an ASCII word. -/
def upper (cs : List Char) : List Char := cs.map upperChar

end Text

end SpatialDiagram
