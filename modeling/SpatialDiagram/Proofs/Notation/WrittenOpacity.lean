import Mathlib.Algebra.Group.Nat.Defs
import SpatialDiagram.Proofs.Notation.Numerals
import SpatialDiagram.Proofs.Notation.Reference
import SpatialDiagram.Proofs.Notation.StatementRecursion

/-!
# An opacity of any length

A source may give a node an opacity of as many characters as one likes. The
diagram of such a source is known from the value of the written text, which for
a run of nines is the integer below a power of ten as long as it is read.
-/

namespace SpatialDiagram

namespace Text

theorem isBreak_of_not_isBlank {c : Char} (h : isBlank c = false) : isBreak c = false := by
  have hbreaks : ['\n', '\r', '\x0b', '\x0c', '\x1c', '\x1d', '\x1e', '\u0085', '\u2028',
      '\u2029'].all isBlank = true := by decide
  refine decide_eq_false fun hc => ?_
  rw [List.all_eq_true.mp hbreaks c hc] at h
  cases h

/-- A line feed ends a line without breaks, also an empty one. -/
theorem lines_append_of_no_break {a : List Char} (h : a.any isBreak = false) (b : List Char) :
    lines (a ++ '\n' :: b) = a :: lines b := by
  induction a with
  | nil =>
      rw [List.nil_append, lines, if_pos (by decide)]
      exact fun _ hc => absurd hc (by decide)
  | cons c a ih =>
      rw [List.any_cons, Bool.or_eq_false_iff] at h
      rw [List.cons_append, lines_cons_of_not_break h.1, ih h.2]

end Text

namespace Notation

/-! ## The source of a node with an opacity -/

/-- A node line that opens a block, for sources that write an opacity. -/
def nodeLine : List Char := "A[Function: f]".toList

def opacityLine (value : List Char) : List Char := "opacity: ".toList ++ value

/-- A node in the block of which an opacity is written. -/
def opacitySource (value : List Char) : String :=
  String.ofList (nodeLine ++ '\n' :: (blockOpener ++
    '\n' :: (opacityLine value ++ '\n' :: blockCloser)))

/-- The node that is read from there. -/
def opacityNode (v : Value) : NodeDeclaration :=
  { id := "A", category := .function, name := "f", delimiter := .square
    properties := ⟨[("opacity", v)]⟩, line := 1 }

section

variable {value : List Char} (hne : value ≠ []) (hplain : ∀ c ∈ value, Text.isBlank c = false)

include hplain

theorem isBreak_opacityLine : (opacityLine value).any Text.isBreak = false := by
  have hkey : "opacity: ".toList.any Text.isBreak = false := by decide
  unfold opacityLine
  rw [List.any_append, Bool.or_eq_false_iff]
  refine ⟨hkey, List.any_eq_false.mpr fun c hc => ?_⟩
  exact Bool.eq_false_iff.mp (Text.isBreak_of_not_isBlank (hplain c hc))

theorem lines_opacitySource : Text.lines (opacitySource value).toList =
    [nodeLine, blockOpener, opacityLine value, blockCloser] := by
  have hnode : nodeLine.any Text.isBreak = false := by decide
  have hopener : blockOpener.any Text.isBreak = false := by decide
  have hcloser : Text.lines blockCloser = [blockCloser] := by decide
  rw [opacitySource, String.toList_ofList, Text.lines_append_of_no_break hnode,
    Text.lines_append_of_no_break hopener,
    Text.lines_append_of_no_break (isBreak_opacityLine hplain), hcloser]

include hne

theorem trim_append_plain (before : List Char)
    (hfirst : ∀ c, (before ++ value).head? = some c → Text.isBlank c = false) :
    Text.trim (before ++ value) = before ++ value := by
  refine Text.stripWhile_of_ends hfirst fun c hc => hplain c ?_
  rw [List.getLast?_append_of_ne_nil _ hne] at hc
  exact List.mem_of_getLast? hc

theorem trim_opacityLine : Text.trim (opacityLine value) = opacityLine value := by
  refine trim_append_plain hne hplain _ fun c hc => ?_
  obtain rfl := Option.some.inj hc
  decide

/-- The source has four lines: the node, the opener, the property and the closer. -/
theorem ofText_opacitySource : SourceLine.ofText (opacitySource value).toList =
    [⟨1, nodeLine⟩, ⟨2, blockOpener⟩, ⟨3, opacityLine value⟩, ⟨4, blockCloser⟩] := by
  have hnode : Text.trim nodeLine = nodeLine := by decide
  have hopener : Text.trim blockOpener = blockOpener := by decide
  have hcloser : Text.trim blockCloser = blockCloser := by decide
  rw [SourceLine.ofText, lines_opacitySource hplain]
  simp only [List.zipIdx_cons, List.zipIdx_nil, List.map_cons, List.map_nil, hnode, hopener,
    hcloser, trim_opacityLine hne hplain]
  rfl

theorem rawPair_opacityLine : rawPair? (opacityLine value) = some ("opacity".toList, value) := by
  have htrim : Text.trim (' ' :: value) = value := by
    have hfirst : (' ' :: value).dropWhile Text.isBlank = value.dropWhile Text.isBlank :=
      List.dropWhile_cons_of_pos (by decide)
    rw [Text.trim, Text.stripWhile, hfirst]
    exact trim_append_plain hne hplain [] fun c hc => hplain c (List.mem_of_head? hc)
  have hsplit : splitColon? (opacityLine value) = some ("opacity".toList, value) :=
    congrArg (fun cs => some ("opacity".toList, cs)) htrim
  rw [rawPair?, hsplit, Option.filter_some, if_pos]
  simpa using hne

/-- The node gets the value of the written text, and a text that cannot be read ends the reading. -/
theorem result_parse_opacitySource :
    (Diagram.parse (.str (opacitySource value))).result =
      (coerce value).result.map fun v => { nodes := [opacityNode v] } := by
  have hline : opacityLine value ≠ blockCloser := fun h => by cases h
  have hblock : Block.split [⟨3, opacityLine value⟩, ⟨4, blockCloser⟩] =
      (⟨[⟨3, opacityLine value⟩], true⟩, []) := by
    simp [Block.split, List.takeWhile, List.dropWhile, hline]
  have hproperties : (blockProperties ⟨[⟨3, opacityLine value⟩], true⟩).result =
      (coerce value).result.map fun v => ⟨[("opacity", v)]⟩ := by
    rw [result_blockProperties, List.filterMap_cons, rawPair_opacityLine hne hplain]
    change ((addProperty _ _ >>= _) : Trace _).result = _
    rw [addProperty, Trace.result_bind, Trace.result_bind]
    cases (coerce value).result <;> rfl
  have hclassify : classify nodeLine = .node (some ⟨"A", "Function", "f", .square, []⟩) := by decide
  have hdeclare (b : Block) :
      (Diagram.declare {} ⟨⟨1, nodeLine⟩, classify nodeLine, some b⟩).result =
        (blockProperties b).result.map fun ps =>
          { nodes := [{ opacityNode .null with properties := ps }] } := by
    rw [hclassify]
    change (blockProperties b >>= _).result = _
    rw [Trace.result_bind]
    cases (blockProperties b).result <;> rfl
  rw [Diagram.result_parse, ofText_opacitySource hne hplain,
    statements_of_opening ⟨by decide, _, rfl, rfl⟩, hblock, statements, List.foldlM_cons,
    Trace.result_bind, hdeclare, hproperties]
  cases (coerce value).result <;> rfl

end

/-! ## Runs of nines -/

def nines (n : Nat) : List Char := List.replicate n '9'

theorem of_mem_nines {p : Char → Bool} {b : Bool} (h : p '9' = b) {n : Nat} :
    ∀ c ∈ nines n, p c = b :=
  fun _ hc => (List.eq_of_mem_replicate hc).symm ▸ h

theorem stripWhile_nines {p : Char → Bool} (h : p '9' = false) (n : Nat) :
    Text.stripWhile p (nines n) = nines n :=
  Text.stripWhile_of_ends (fun c hc => of_mem_nines h c (List.mem_of_head? hc))
    fun c hc => of_mem_nines h c (List.mem_of_getLast? hc)

theorem unquote_nines (n : Nat) : unquote (nines n) = nines n := by
  rw [unquote, Text.trim, stripWhile_nines (by decide), stripWhile_nines (by decide)]

/-- Nines make the number just below a power of ten. -/
theorem ofDigits_nines (n : Nat) : Decimal.ofDigits (nines n) = 10 ^ n - 1 := by
  induction n with
  | zero => rfl
  | succ n ih =>
      have hpos : 0 < 10 ^ n := Nat.pow_pos (by decide)
      have hlast : nines (n + 1) = nines n ++ ['9'] := List.replicate_succ'
      have hdigit : '9'.toNat - 48 = 9 := by decide
      rw [hlast, Decimal.ofDigits, List.foldl_append, List.foldl_cons, List.foldl_nil, hdigit,
        ← Decimal.ofDigits, ih, Nat.pow_succ]
      omega

theorem readInt_nines (n : Nat) : Decimal.readInt (nines n) = ((10 ^ n - 1 : Nat) : Int) := by
  have hplain : (Text.stripWhile Text.isPadding (nines n)).map Text.toPlainDigit = nines n := by
    rw [stripWhile_nines (by decide), nines, List.map_replicate]
    exact congrArg (List.replicate n) (by decide)
  have hsign : Decimal.sign? (nines n) = (false, nines n) := by
    cases n <;> rfl
  rw [Decimal.readInt, hplain, hsign]
  exact congrArg Nat.cast (ofDigits_nines n)

/-- A run of nines is the integer below a power of ten, unless it is too long to be read. -/
theorem result_coerce_nines {n : Nat} (hpos : 0 < n) :
    (coerce (nines n)).result =
      if Json.digitLimit < n then .error (.digitLimit n)
      else .ok (.int ((10 ^ n - 1 : Nat) : Int)) := by
  have hnumeral : numeral? (nines n) = some (.integer n) :=
    (numeral_eq_integer_iff _ n).mpr ⟨[], nines n, [], by simp, by decide, by decide,
      List.length_replicate, hpos, of_mem_nines (by decide)⟩
  rw [coerce, unquote_nines, hnumeral, readInt_nines]
  exact apply_ite Trace.result _ _ _

/-- An opacity of nines is read as its number, up to the limit of digits. -/
theorem result_parse_nines {n : Nat} (hpos : 0 < n) :
    (Diagram.parse (.str (opacitySource (nines n)))).result =
      if Json.digitLimit < n then .error (.digitLimit n)
      else .ok { nodes := [opacityNode (.int ((10 ^ n - 1 : Nat) : Int))] } := by
  have hne : nines n ≠ [] := fun h => by
    rw [nines, List.replicate_eq_nil_iff] at h
    omega
  rw [result_parse_opacitySource hne (of_mem_nines (by decide)), result_coerce_nines hpos]
  split <;> rfl

end Notation

end SpatialDiagram
