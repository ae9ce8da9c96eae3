import Mathlib.Algebra.Group.Nat.Defs
import SpatialDiagram.Json.Reader
import SpatialDiagram.Proofs.Text.Trimming

/-!
# The texts of JSON values

Standard JSON spells a value in many ways: with spaces or without, with any
escape of a character, and with a number written as one likes. The reader reads
the value that is spelled, whatever follows it, unless it meets an integer of
more digits than are read.
-/

namespace SpatialDiagram

namespace Json

/-! ## Numbers -/

/-- What a number is put together from. The power of ten has a mark, a sign and digits. -/
structure NumberText where
  negative : Bool
  whole : List Char
  places : Option (List Char) := none
  power : Option (Char × List Char × List Char) := none

namespace NumberText

def fractionText (n : NumberText) : List Char :=
  match n.places with
  | none => []
  | some ds => '.' :: ds

def powerText (n : NumberText) : List Char :=
  match n.power with
  | none => []
  | some (mark, sign, ds) => mark :: (sign ++ ds)

/-- A number text without its sign. -/
def unsigned (n : NumberText) : List Char := n.whole ++ (n.fractionText ++ n.powerText)

/-- A number as it is written. -/
def text (n : NumberText) : List Char := if n.negative then '-' :: n.unsigned else n.unsigned

def exponent? (n : NumberText) : Option Int :=
  n.power.map fun p =>
    if p.2.1 = ['-'] then -(Decimal.ofDigits p.2.2 : Int) else Decimal.ofDigits p.2.2

/-- A number without point and power of ten is an integer. -/
def value (n : NumberText) : Value :=
  if n.places.isNone && n.power.isNone then
    .int (if n.negative then -(Decimal.ofDigits n.whole : Int) else Decimal.ofDigits n.whole)
  else
    .float (Decimal.ofDecimal n.negative (Decimal.ofDigits (n.whole ++ n.places.getD []))
      (n.exponent?.getD 0 - (n.places.getD []).length))

/-- What may stand in a number besides digits. -/
def marks : List Char := ['-', '+', '.', 'e', 'E']

/-- A run of at least one plain digit. -/
def IsDigits (ds : List Char) : Prop := ds ≠ [] ∧ ∀ c ∈ ds, Decimal.isPlainDigit c = true

/-- A zero stands in front of other digits only after the point. -/
structure IsProper (n : NumberText) : Prop where
  whole_digits : IsDigits n.whole
  whole_first : n.whole = ['0'] ∨ n.whole.head? ≠ some '0'
  places_digits : ∀ ds ∈ n.places, IsDigits ds
  power_mark : ∀ p ∈ n.power, p.1 = 'e' ∨ p.1 = 'E'
  power_sign : ∀ p ∈ n.power, p.2.1 ∈ [[], ['+'], ['-']]
  power_digits : ∀ p ∈ n.power, IsDigits p.2.2

end NumberText

/-! ## Strings -/

/-- The characters between the quotes of a string, with the text that they spell. -/
inductive SpellsText : List Char → List Char → Prop
  | nil : SpellsText [] []
  | plain {c : Char} {raw cs : List Char} (hc : ¬ c < ' ' ∧ c ≠ '"' ∧ c ≠ '\\')
      (h : SpellsText raw cs) : SpellsText (c :: raw) (c :: cs)
  | short {e c : Char} {raw cs : List Char} (he : shortEscape? e = some c)
      (h : SpellsText raw cs) : SpellsText ('\\' :: e :: raw) (c :: cs)
  | unit {x y z w c : Char} {raw cs : List Char} (hc : codeUnit? x y z w = some c.toNat)
      (h : SpellsText raw cs) : SpellsText ('\\' :: 'u' :: x :: y :: z :: w :: raw) (c :: cs)
  | pair {x y z w x' y' z' w' c : Char} {high low : Nat} {raw cs : List Char}
      (hhigh : codeUnit? x y z w = some high) (hlow : codeUnit? x' y' z' w' = some low)
      (hpair : isHighSurrogate high = true ∧ isLowSurrogate low = true)
      (hc : c.toNat = 0x10000 + (high - 0xd800) * 0x400 + (low - 0xdc00))
      (h : SpellsText raw cs) :
      SpellsText ('\\' :: 'u' :: x :: y :: z :: w :: '\\' :: 'u' :: x' :: y' :: z' :: w' :: raw)
        (c :: cs)

/-! ## Values -/

mutual

/-- The texts of nulls, booleans, numbers, strings and arrays of such values. -/
inductive Spells : List Char → Value → Prop
  | null : Spells "null".toList .null
  | bool (b : Bool) : Spells (if b then "true" else "false").toList (.bool b)
  | number (n : NumberText) (hn : n.IsProper) : Spells n.text n.value
  | str {raw cs : List Char} (h : SpellsText raw cs) :
      Spells ('"' :: (raw ++ ['"'])) (.str (String.ofList cs))
  | empty {gap : List Char} (hgap : ∀ c ∈ gap, isSpace c = true) :
      Spells ('[' :: (gap ++ [']'])) (.list [])
  | array {gap ts : List Char} {vs : List Value} (hgap : ∀ c ∈ gap, isSpace c = true)
      (h : SpellsItems ts vs) : Spells ('[' :: (gap ++ (ts ++ [']']))) (.list vs)

/-- The texts of items with commas between them, and with spaces behind them. -/
inductive SpellsItems : List Char → List Value → Prop
  | last {t gap : List Char} {v : Value} (h : Spells t v)
      (hgap : ∀ c ∈ gap, isSpace c = true) : SpellsItems (t ++ gap) [v]
  | cons {t gap gap' ts : List Char} {v : Value} {vs : List Value} (h : Spells t v)
      (hgap : ∀ c ∈ gap, isSpace c = true) (hgap' : ∀ c ∈ gap', isSpace c = true)
      (hitems : SpellsItems ts vs) :
      SpellsItems (t ++ (gap ++ ',' :: (gap' ++ ts))) (v :: vs)

end

/-! ## Reading strings -/

/-- No character is half of a surrogate pair. -/
theorem not_isSurrogate (c : Char) :
    isHighSurrogate c.toNat = false ∧ isLowSurrogate c.toNat = false := by
  have hvalid : c.toNat < 0xd800 ∨ 0xdfff < c.toNat ∧ c.toNat < 0x110000 := c.valid
  simp only [isHighSurrogate, isLowSurrogate, Bool.and_eq_false_iff, decide_eq_false_iff_not]
  omega

/-- A unit that is a character by itself is read as that character. -/
theorem ofUnits_char (c : Char) (units : List Nat) :
    ofUnits (c.toNat :: units) = c :: ofUnits units := by
  obtain ⟨hhigh, hlow⟩ := not_isSurrogate c
  cases units with
  | nil => simp [ofUnits, hhigh, hlow, Char.ofNat_toNat]
  | cons n units => simp [ofUnits, hhigh, hlow, Char.ofNat_toNat]

/-- A surrogate pair is read as the one character that it stands for. -/
theorem ofUnits_pair {high low : Nat} {c : Char}
    (hpair : isHighSurrogate high = true ∧ isLowSurrogate low = true)
    (hc : c.toNat = 0x10000 + (high - 0xd800) * 0x400 + (low - 0xdc00)) (units : List Nat) :
    ofUnits (high :: low :: units) = c :: ofUnits units := by
  rw [ofUnits, if_pos (by simp [hpair]), ← hc, Char.ofNat_toNat]

/-- A closing quote is behind the text of every string, so an escape is never cut off. -/
theorem exists_next (raw rest : List Char) : ∃ c cs, raw ++ '"' :: rest = c :: cs := by
  cases raw with
  | nil => exact ⟨'"', rest, rfl⟩
  | cons c raw => exact ⟨c, _, rfl⟩

/-- An escaped unit is read as its number. -/
theorem stringUnits_unit {x y z w : Char} {n : Nat} (hn : codeUnit? x y z w = some n) (start : Nat)
    (raw rest : List Char) :
    stringUnits start ('\\' :: 'u' :: x :: y :: z :: w :: (raw ++ '"' :: rest)) =
      (stringUnits start (raw ++ '"' :: rest)).map fun r => (n :: r.1, r.2) := by
  obtain ⟨c, cs, hnext⟩ := exists_next raw rest
  rw [hnext, stringUnits]
  simp only [hn]

/-- Every spelling of a text is read as that text, up to its closing quote. -/
theorem stringUnits_of_spells {raw cs : List Char} (h : SpellsText raw cs) (start : Nat)
    (rest : List Char) : ∃ units, stringUnits start (raw ++ '"' :: rest) = .ok (units, rest) ∧
      ofUnits units = cs := by
  induction h with
  | nil => exact ⟨[], rfl, rfl⟩
  | @plain c raw cs hc h ih =>
      obtain ⟨units, hread, hunits⟩ := ih
      refine ⟨c.toNat :: units, ?_, by rw [ofUnits_char, hunits]⟩
      rw [List.cons_append, stringUnits, if_neg hc.1, hread]
      · rfl
      · exact hc.2.1
      · exact hc.2.2
  | @short e c raw cs he h ih =>
      obtain ⟨units, hread, hunits⟩ := ih
      refine ⟨c.toNat :: units, ?_, by rw [ofUnits_char, hunits]⟩
      -- Behind a `u` the reader would look for four digits instead.
      have hne : e ≠ 'u' := by
        rintro rfl
        cases he
      rw [List.cons_append, List.cons_append, stringUnits]
      · simp only [he, hread]
        rfl
      · exact fun _ _ _ _ _ _ heq => absurd heq hne
      · exact hne
  | @unit x y z w c raw cs hc h ih =>
      obtain ⟨units, hread, hunits⟩ := ih
      refine ⟨c.toNat :: units, ?_, by rw [ofUnits_char, hunits]⟩
      simp only [List.cons_append]
      rw [stringUnits_unit hc, hread]
      rfl
  | @pair x y z w x' y' z' w' c high low raw cs hhigh hlow hpair hc h ih =>
      obtain ⟨units, hread, hunits⟩ := ih
      refine ⟨high :: low :: units, ?_, by rw [ofUnits_pair hpair hc, hunits]⟩
      have hsecond := stringUnits_unit hlow start raw rest
      have hfirst := stringUnits_unit hhigh start
        ('\\' :: 'u' :: x' :: y' :: z' :: w' :: raw) rest
      simp only [List.cons_append] at hfirst ⊢
      rw [hfirst, hsecond, hread]
      rfl

/-! ## Reading numbers -/

theorem foldl_digits (ds : List Char) (n : Nat) :
    ds.foldl (fun n c => n * 10 + (c.toNat - 48)) n = n * 10 ^ ds.length + Decimal.ofDigits ds := by
  induction ds generalizing n with
  | nil => simp [Decimal.ofDigits]
  | cons c ds ih =>
      have hdigits : Decimal.ofDigits (c :: ds) =
          (0 * 10 + (c.toNat - 48)) * 10 ^ ds.length + Decimal.ofDigits ds := ih _
      rw [List.foldl_cons, ih, hdigits, List.length_cons, Nat.pow_succ, Nat.zero_mul, Nat.zero_add,
        Nat.add_mul, Nat.mul_assoc, Nat.mul_comm 10, Nat.add_assoc]

/-- The first digit weighs as much as the number of the others says. -/
theorem ofDigits_cons (c : Char) (ds : List Char) :
    Decimal.ofDigits (c :: ds) = (c.toNat - 48) * 10 ^ ds.length + Decimal.ofDigits ds := by
  rw [Decimal.ofDigits, List.foldl_cons, foldl_digits, Nat.zero_mul, Nat.zero_add]

theorem isPlainDigit_iff (c : Char) :
    Decimal.isPlainDigit c = true ↔ 48 ≤ c.toNat ∧ c.toNat ≤ 57 := by
  simp only [Decimal.isPlainDigit, Char.isDigit, Bool.and_eq_true, decide_eq_true_eq, ge_iff_le,
    UInt32.le_iff_toNat_le]
  exact Iff.rfl

/-- A number of so many digits is below that power of ten. -/
theorem ofDigits_lt {ds : List Char} (h : ∀ c ∈ ds, Decimal.isPlainDigit c = true) :
    Decimal.ofDigits ds < 10 ^ ds.length := by
  induction ds with
  | nil => decide
  | cons c ds ih =>
      have ih := ih fun d hd => h d (List.mem_cons_of_mem c hd)
      have hc := (isPlainDigit_iff c).mp (h c List.mem_cons_self)
      have hfirst : (c.toNat - 48) * 10 ^ ds.length ≤ 9 * 10 ^ ds.length :=
        Nat.mul_le_mul_right _ (by omega)
      rw [ofDigits_cons, List.length_cons, Nat.pow_succ]
      omega

theorem NumberText.IsDigits.not_sign {ds : List Char} (h : IsDigits ds) (rest : List Char) :
    ∀ c, (ds ++ rest).head? = some c → c ∉ ['+', '-'] := by
  obtain ⟨hne, hdigits⟩ := h
  obtain ⟨d, ds, rfl⟩ := List.exists_cons_of_ne_nil hne
  intro c hc hmem
  obtain rfl := Option.some.inj hc
  exact Text.ne_of_any_eq_false (hdigits d List.mem_cons_self) (by decide) d hmem rfl

/-- What may stand behind a number. -/
def EndsNumber (rest : List Char) : Prop :=
  ∀ c, rest.head? = some c → Decimal.isPlainDigit c = false ∧ c ∉ ['.', 'e', 'E']

/-- A run of digits ends where something else follows. -/
theorem run_digits {ds rest : List Char} (hds : ∀ c ∈ ds, Decimal.isPlainDigit c = true)
    (hrest : ∀ c, rest.head? = some c → Decimal.isPlainDigit c = false) :
    Text.run Decimal.isPlainDigit (ds ++ rest) = (ds, rest) := by
  have hrun : Text.IsRun Decimal.isPlainDigit ds rest := ⟨hds, hrest⟩
  rw [Text.run, hrun.takeWhile, hrun.dropWhile]

namespace NumberText

variable {n : NumberText} (hn : n.IsProper)

include hn

/-- An integer is as long as it is large. -/
theorem IsProper.ofDigits_lt_iff {k : Nat} (hk : 0 < k) :
    Decimal.ofDigits n.whole < 10 ^ k ↔ n.whole.length ≤ k := by
  obtain ⟨hne, hdigits⟩ := hn.whole_digits
  constructor
  · intro h
    rcases hn.whole_first with hzero | hfirst
    · rw [hzero]
      exact hk
    · -- A first digit other than zero is worth a power of ten.
      obtain ⟨c, ds, hwhole⟩ := List.exists_cons_of_ne_nil hne
      rw [hwhole] at h hfirst hdigits ⊢
      have hrange := (isPlainDigit_iff c).mp (hdigits c List.mem_cons_self)
      have hpos : c.toNat ≠ 48 := by
        intro hc
        apply hfirst
        rw [List.head?_cons, ← Char.ofNat_toNat c, hc]
      have hleading : 1 * 10 ^ ds.length ≤ (c.toNat - 48) * 10 ^ ds.length :=
        Nat.mul_le_mul_right _ (by omega)
      rw [ofDigits_cons] at h
      have hpow : 10 ^ ds.length < 10 ^ k := by omega
      exact (Nat.pow_lt_pow_iff_right (by decide)).mp hpow
  · intro h
    exact Nat.lt_of_lt_of_le (ofDigits_lt hdigits) (Nat.pow_le_pow_right (by decide) h)

section

variable {rest : List Char} (hrest : EndsNumber rest)

include hrest

/-- Behind the places of a number stands neither a digit nor a point. -/
theorem IsProper.head_powerText {c : Char} (hc : (n.powerText ++ rest).head? = some c) :
    Decimal.isPlainDigit c = false ∧ c ≠ '.' := by
  cases hpower : n.power with
  | none =>
      rw [powerText, hpower] at hc
      obtain ⟨hdigit, hmarks⟩ := hrest c hc
      exact ⟨hdigit, fun hpoint => hmarks (hpoint ▸ List.mem_cons_self)⟩
  | some p =>
      rw [powerText, hpower] at hc
      obtain rfl := Option.some.inj hc
      rcases hn.power_mark p hpower with hmark | hmark <;> rw [hmark] <;> decide

/-- Behind the whole part of a number stands no digit. -/
theorem IsProper.head_fractionText {c : Char}
    (hc : (n.fractionText ++ (n.powerText ++ rest)).head? = some c) :
    Decimal.isPlainDigit c = false := by
  cases hplaces : n.places with
  | none =>
      rw [fractionText, hplaces] at hc
      exact (hn.head_powerText hrest hc).1
  | some ds =>
      rw [fractionText, hplaces] at hc
      obtain rfl := Option.some.inj hc
      decide

/-- The whole part of a number is read up to its places. -/
theorem IsProper.wholeDigits_unsigned : wholeDigits? (n.unsigned ++ rest) =
    some (n.whole, n.fractionText ++ (n.powerText ++ rest)) := by
  have hunsigned : n.unsigned ++ rest = n.whole ++ (n.fractionText ++ (n.powerText ++ rest)) := by
    simp only [unsigned, List.append_assoc]
  rw [hunsigned]
  obtain ⟨hne, hdigits⟩ := hn.whole_digits
  rcases hn.whole_first with hzero | hfirst
  · rw [hzero]
    rfl
  · have hrun := run_digits hdigits fun c hc => hn.head_fractionText hrest hc
    obtain ⟨c, ds, hwhole⟩ := List.exists_cons_of_ne_nil hne
    rw [hwhole] at hfirst hdigits hrun ⊢
    have hc : c.isDigit = true := hdigits c List.mem_cons_self
    rw [List.cons_append, wholeDigits?.eq_def]
    split
    · rename_i heq
      exact absurd (congrArg (·.head?) heq) (by simpa using hfirst)
    · rename_i heq
      obtain ⟨rfl, rfl⟩ := List.cons.inj heq
      rw [if_pos hc, ← hrun, List.cons_append]
    · rename_i heq
      cases heq

/-- The places of a number are read up to its power. -/
theorem IsProper.fraction_fractionText :
    fraction (n.fractionText ++ (n.powerText ++ rest)) = (n.places, n.powerText ++ rest) := by
  cases hplaces : n.places with
  | none =>
      rw [fractionText, hplaces, List.nil_append, fraction.eq_def]
      split
      · rename_i heq
        exact absurd rfl (hn.head_powerText hrest (by rw [heq]; rfl)).2
      · rfl
  | some ds =>
      obtain ⟨hne, hdigits⟩ := hn.places_digits ds hplaces
      have hrun := run_digits hdigits fun c hc => (hn.head_powerText hrest hc).1
      simp only [fractionText, hplaces, List.cons_append, fraction, hrun]
      rw [if_neg (by simpa using hne)]

/-- The power of a number is read up to its end. -/
theorem IsProper.exponent_powerText : exponent (n.powerText ++ rest) = (n.exponent?, rest) := by
  cases hpower : n.power with
  | none =>
      simp only [powerText, exponent?, hpower, List.nil_append, Option.map_none]
      cases rest with
      | nil => rfl
      | cons c rest =>
          have hmarks := (hrest c rfl).2
          simp only [List.mem_cons, List.not_mem_nil, or_false, not_or] at hmarks
          simp [exponent, hmarks]
  | some p =>
      obtain ⟨mark, sign, ds⟩ := p
      obtain ⟨hne, hdigits⟩ := hn.power_digits _ hpower
      have hmark : mark = 'e' ∨ mark = 'E' := hn.power_mark _ hpower
      have hsigns : sign ∈ [[], ['+'], ['-']] := hn.power_sign _ hpower
      have hrun := run_digits hdigits fun c hc => (hrest c hc).1
      have hsign := Decimal.sign_append hsigns ((hn.power_digits _ hpower).not_sign rest)
      simp only at hne hdigits hrun
      simp [powerText, exponent?, hpower, exponent, hmark, hsign, hrun, hne]

/-- A number is read as its value, but an integer of too many digits is refused. -/
theorem IsProper.number_unsigned : number n.negative (n.unsigned ++ rest) =
    some (if (n.places.isNone && n.power.isNone) = true ∧ digitLimit < n.whole.length then
        .error (.digits n.whole.length) else .ok n.value, rest) := by
  have hexponent : n.exponent?.isNone = n.power.isNone := by
    rw [exponent?, Option.isNone_map]
  rw [number, hn.wholeDigits_unsigned hrest]
  simp only [Option.bind_eq_bind, Option.bind_some, hn.fraction_fractionText hrest,
    hn.exponent_powerText hrest, hexponent, value]
  split
  · rename_i hinteger
    split
    · rename_i hlimit
      rw [if_pos ⟨hinteger, hlimit⟩]
    · rename_i hlimit
      rw [if_neg (fun h : _ ∧ _ => hlimit h.2)]
  · rename_i hinteger
    rw [if_neg (fun h : _ ∧ _ => hinteger h.1)]

end

end NumberText

/-! ## Reading values -/

mutual

/-- The values of an array, and of the arrays in it, that are no arrays. -/
def leaves : Value → List Value
  | .list vs => leavesOf vs
  | v => [v]

def leavesOf : List Value → List Value
  | [] => []
  | v :: vs => leaves v ++ leavesOf vs

end

/-- No integer in a value has more digits than are read. -/
def WithinLimit (v : Value) : Prop := ∀ n : Int, .int n ∈ leaves v → n.natAbs < 10 ^ digitLimit

theorem mem_leavesOf_iff (u : Value) (vs : List Value) :
    u ∈ leavesOf vs ↔ ∃ v ∈ vs, u ∈ leaves v := by
  induction vs with
  | nil => simp [leavesOf]
  | cons v vs ih => simp [leavesOf, ih]

/-- What all leaves of a kind in an array satisfy, those of its items satisfy. -/
theorem forall_leaves_list_iff {α : Type} (f : α → Value) (P : α → Prop) (vs : List Value) :
    (∀ a, f a ∈ leaves (.list vs) → P a) ↔ ∀ v ∈ vs, ∀ a, f a ∈ leaves v → P a := by
  simp only [leaves, mem_leavesOf_iff]
  constructor
  · intro h v hv a ha
    exact h a ⟨v, hv, ha⟩
  · rintro h a ⟨v, hv, ha⟩
    exact h v hv a ha

/-- A reader reads a value under a condition, and otherwise refuses an integer for its length. -/
structure Reads {α : Type} (within : Prop) (a : α) (rest : List Char)
    (r : Except Fault (α × List Char)) : Prop where
  ok : within → r = .ok (a, rest)
  refused : ¬ within → ∃ n, r = .error (.digits n)

section

variable {α β : Type} {p q : Prop} {a : α} {rest : List Char} {r : Except Fault (α × List Char)}

theorem Reads.map (h : Reads p a rest r) (f : α → β) :
    Reads p (f a) rest (r.map fun x => (f x.1, x.2)) := by
  constructor
  · intro hp
    rw [h.ok hp]
    rfl
  · intro hp
    obtain ⟨n, hn⟩ := h.refused hp
    exact ⟨n, by rw [hn]; rfl⟩

/-- Two readings one after the other succeed under both conditions. -/
theorem Reads.bind (h : Reads p a rest r) {b : β} {rest' : List Char}
    {f : α × List Char → Except Fault (β × List Char)} (hf : Reads q b rest' (f (a, rest))) :
    Reads (p ∧ q) b rest' (r >>= f) := by
  constructor
  · rintro ⟨hp, hq⟩
    rw [h.ok hp]
    exact hf.ok hq
  · intro hpq
    by_cases hp : p
    · obtain ⟨n, hn⟩ := hf.refused fun hq => hpq ⟨hp, hq⟩
      exact ⟨n, by rw [h.ok hp]; exact hn⟩
    · obtain ⟨n, hn⟩ := h.refused hp
      exact ⟨n, by rw [hn]; rfl⟩

theorem Reads.of_iff (h : Reads p a rest r) (hiff : p ↔ q) : Reads q a rest r := by
  rwa [← propext hiff]

end

theorem reads_of_ok {α : Type} {p : Prop} {a : α} {rest : List Char}
    {r : Except Fault (α × List Char)} (hp : p) (hr : r = .ok (a, rest)) : Reads p a rest r :=
  ⟨fun _ => hr, fun h => absurd hp h⟩

/-- Space is skipped up to the next other character. -/
theorem skipSpace_cons {gap : List Char} {c : Char} (hgap : ∀ c ∈ gap, isSpace c = true)
    (hc : isSpace c = false) (rest : List Char) : skipSpace (gap ++ c :: rest) = c :: rest := by
  apply Text.IsRun.dropWhile
  refine ⟨hgap, ?_⟩
  intro d hd
  obtain rfl := Option.some.inj hd
  exact hc

theorem NumberText.IsProper.exists_digit {n : NumberText} (hn : n.IsProper) :
    ∃ c cs, n.unsigned = c :: cs ∧ Decimal.isPlainDigit c = true := by
  obtain ⟨hne, hdigits⟩ := hn.whole_digits
  obtain ⟨c, ds, hwhole⟩ := List.exists_cons_of_ne_nil hne
  refine ⟨c, ds ++ (n.fractionText ++ n.powerText), ?_, hdigits c (hwhole ▸ List.mem_cons_self)⟩
  rw [unsigned, hwhole, List.cons_append]

/-- No word begins with a digit, and none with a sign and a digit. -/
theorem word_digit {c : Char} (hc : Decimal.isPlainDigit c = true) (cs : List Char) :
    word? (c :: cs) = none ∧ word? ('-' :: c :: cs) = none := by
  have hletters : ∀ d ∈ ['n', 't', 'f', 'N', 'I', '-'], d ≠ c := by
    intro d hd
    exact (Text.ne_of_any_eq_false hc (by decide) d hd).symm
  simp only [List.forall_mem_cons, List.not_mem_nil, false_implies, implies_true] at hletters
  simp [word?, words, List.findSome?, hletters]

namespace NumberText

variable {n : NumberText} (hn : n.IsProper)

include hn

theorem IsProper.mem_fractionText {c : Char} (hc : c ∈ n.fractionText) :
    Decimal.isPlainDigit c = true ∨ c ∈ marks := by
  cases hplaces : n.places with
  | none => simp [fractionText, hplaces] at hc
  | some ds =>
      simp only [fractionText, hplaces, List.mem_cons] at hc
      rcases hc with rfl | hc
      · exact .inr (by decide)
      · exact .inl ((hn.places_digits ds hplaces).2 c hc)

theorem IsProper.mem_powerText {c : Char} (hc : c ∈ n.powerText) :
    Decimal.isPlainDigit c = true ∨ c ∈ marks := by
  cases hpower : n.power with
  | none => simp [powerText, hpower] at hc
  | some p =>
      obtain ⟨mark, sign, ds⟩ := p
      have hsigns : ∀ sign ∈ [[], ['+'], ['-']], sign.all marks.contains = true := by decide
      have hsign := hsigns sign (hn.power_sign _ hpower)
      simp only [powerText, hpower, List.mem_cons, List.mem_append] at hc
      rcases hc with rfl | hc | hc
      · rcases hn.power_mark _ hpower with rfl | rfl <;> exact .inr (by decide)
      · exact .inr (List.contains_iff_mem.mp (List.all_eq_true.mp hsign c hc))
      · exact .inl ((hn.power_digits _ hpower).2 c hc)

/-- A written number is made of digits and marks. -/
theorem IsProper.mem_text {c : Char} (hc : c ∈ n.text) :
    Decimal.isPlainDigit c = true ∨ c ∈ marks := by
  have hunsigned (hc : c ∈ n.unsigned) : Decimal.isPlainDigit c = true ∨ c ∈ marks := by
    rw [unsigned, List.mem_append, List.mem_append] at hc
    rcases hc with hc | hc | hc
    · exact .inl (hn.whole_digits.2 c hc)
    · exact hn.mem_fractionText hc
    · exact hn.mem_powerText hc
  rw [text] at hc
  split at hc
  · rcases List.mem_cons.mp hc with rfl | hc
    · exact .inr (by decide)
    · exact hunsigned hc
  · exact hunsigned hc

/-- Only an integer can be too long. -/
theorem IsProper.withinLimit_value_iff : WithinLimit n.value ↔
    ¬ ((n.places.isNone && n.power.isNone) = true ∧ digitLimit < n.whole.length) := by
  rw [value]
  split
  · rename_i hinteger
    have hsize : (if n.negative then -(Decimal.ofDigits n.whole : Int)
        else Decimal.ofDigits n.whole).natAbs = Decimal.ofDigits n.whole := by
      split <;> simp
    have hlength := hn.ofDigits_lt_iff (k := digitLimit) (by decide)
    simp only [WithinLimit, leaves, List.mem_singleton, Value.int.injEq, forall_eq, hsize, hlength,
      hinteger, true_and, Nat.not_lt]
  · rename_i hinteger
    simp [WithinLimit, leaves, hinteger]

/-- A written number is read as a scalar as its number is. -/
theorem IsProper.scalar_text {rest : List Char} {r : Except Fault Value}
    (hnumber : number n.negative (n.unsigned ++ rest) = some (r, rest)) :
    scalar (n.text ++ rest) = r.map fun v => (v, rest) := by
  obtain ⟨c, cs, hunsigned, hc⟩ := hn.exists_digit
  obtain ⟨hword, hsignedWord⟩ := word_digit hc (cs ++ rest)
  rw [hunsigned, List.cons_append] at hnumber
  cases hnegative : n.negative with
  | true =>
      rw [hnegative] at hnumber
      rw [text, hnegative, if_pos rfl, hunsigned, List.cons_append, List.cons_append, scalar,
        hsignedWord]
      simp only [hnumber]
      cases r <;> rfl
  | false =>
      rw [hnegative] at hnumber
      have hsign : c ≠ '-' := by
        rintro rfl
        exact absurd hc (by decide)
      rw [text, hnegative, if_neg Bool.false_ne_true, hunsigned, List.cons_append, scalar, hword]
      · simp only [hnumber]
        cases r <;> rfl
      · exact fun _ heq => hsign (List.cons.inj heq).1

/-- A written number is read as its value, if it is within the limit of digits. -/
theorem IsProper.reads {rest : List Char} (hrest : EndsNumber rest) :
    Reads (WithinLimit n.value) n.value rest (scalar (n.text ++ rest)) := by
  have hread := hn.scalar_text (hn.number_unsigned hrest)
  rw [hread]
  constructor
  · intro hwithin
    rw [if_neg (hn.withinLimit_value_iff.mp hwithin)]
    rfl
  · intro hwithin
    rw [if_pos (Decidable.not_not.mp fun hlimit => hwithin (hn.withinLimit_value_iff.mpr hlimit))]
    exact ⟨n.whole.length, rfl⟩

end NumberText

/-- A value begins with no space, and not with the end of an array. -/
theorem Spells.exists_head {t : List Char} {v : Value} (h : Spells t v) :
    ∃ c cs, t = c :: cs ∧ isSpace c = false ∧ c ∉ [']', '\ufeff'] := by
  have hdigit {c : Char} (hc : Decimal.isPlainDigit c = true) :
      isSpace c = false ∧ c ∉ [']', '\ufeff'] := by
    have hothers : ∀ d ∈ [' ', '\t', '\n', '\r', ']', '\ufeff'], c ≠ d :=
      Text.ne_of_any_eq_false hc (by decide)
    simp only [List.forall_mem_cons, List.not_mem_nil, false_implies, implies_true] at hothers
    simp [isSpace, hothers]
  cases h with
  | null => exact ⟨_, _, rfl, by decide⟩
  | bool b => cases b <;> exact ⟨_, _, rfl, by decide⟩
  | str | empty | array => exact ⟨_, _, rfl, by decide⟩
  | number n hn =>
      obtain ⟨c, cs, hunsigned, hc⟩ := hn.exists_digit
      rw [NumberText.text]
      split
      · exact ⟨_, _, rfl, by decide⟩
      · exact ⟨c, cs, hunsigned, hdigit hc⟩

/-- Every spelling of a list stands in brackets. -/
theorem Spells.exists_inside {t : List Char} {vs : List Value} (h : Spells t (.list vs)) :
    ∃ cs, t = '[' :: (cs ++ [']']) := by
  generalize hv : Value.list vs = v at h
  cases h with
  | null | bool | str => cases hv
  | number n hn =>
      rw [NumberText.value] at hv
      split at hv <;> cases hv
  | @empty gap hgap => exact ⟨gap, rfl⟩
  | @array gap ts vs hgap h => exact ⟨gap ++ ts, by rw [List.append_assoc]⟩

/-- What opens no text, list or record is read as a scalar. -/
theorem value_of_scalar {c : Char} (hc : c ∉ ['"', '[', '\x7b']) (cs : List Char) (fuel : Nat) :
    value (fuel + 1) (c :: cs) = scalar (c :: cs) := by
  simp only [List.mem_cons, List.not_mem_nil, or_false, not_or] at hc
  obtain ⟨hquote, hbracket, hbrace⟩ := hc
  rw [value]
  · exact fun _ heq => hquote (List.cons.inj heq).1
  · exact fun _ heq => hbracket (List.cons.inj heq).1
  · exact fun _ heq => hbrace (List.cons.inj heq).1

theorem NumberText.IsProper.value_text {n : NumberText} (hn : n.IsProper) (rest : List Char)
    (fuel : Nat) : Json.value (fuel + 1) (n.text ++ rest) = scalar (n.text ++ rest) := by
  obtain ⟨c, cs, hunsigned, hc⟩ := hn.exists_digit
  rw [text]
  split
  · exact value_of_scalar (c := '-') (by decide) _ fuel
  · rw [hunsigned]
    apply value_of_scalar
    intro hmem
    have hothers : ∀ d ∈ ['"', '[', '\x7b'], c ≠ d := Text.ne_of_any_eq_false hc (by decide)
    exact hothers c hmem rfl

theorem endsNumber_of_mem {c : Char} (hc : c ∈ [' ', '\t', '\n', '\r', ',', ']'])
    (rest : List Char) : EndsNumber (c :: rest) := by
  intro d hd
  obtain rfl := Option.some.inj hd
  clear hd
  have hends : ∀ c ∈ [' ', '\t', '\n', '\r', ',', ']'], Decimal.isPlainDigit c = false ∧
      c ∉ ['.', 'e', 'E'] :=
    Text.forall_mem_of_all (by decide)
  exact hends c hc

/-- The items of a list begin with something that is not space and does not close it. -/
theorem SpellsItems.exists_head {ts : List Char} {vs : List Value} (h : SpellsItems ts vs) :
    ∃ c cs, ts = c :: cs ∧ isSpace c = false ∧ c ∉ [']', '\ufeff'] := by
  cases h with
  | last h hgap =>
      obtain ⟨c, cs, rfl, hc⟩ := h.exists_head
      exact ⟨c, _, rfl, hc⟩
  | cons h hgap hgap' hitems =>
      obtain ⟨c, cs, rfl, hc⟩ := h.exists_head
      exact ⟨c, _, rfl, hc⟩

section

variable {p q : Prop} {v : Value} {vs : List Value} {gap rest cs : List Char} {fuel : Nat}
  (hgap : ∀ c ∈ gap, isSpace c = true)

include hgap

theorem endsNumber_gap {c : Char} (hc : c = ',' ∨ c = ']') : EndsNumber (gap ++ c :: rest) := by
  cases gap with
  | nil => exact endsNumber_of_mem (by rcases hc with rfl | rfl <;> decide) rest
  | cons d gap =>
      apply endsNumber_of_mem
      have hd := hgap d List.mem_cons_self
      simp only [isSpace, Bool.or_eq_true, decide_eq_true_eq] at hd
      rcases hd with ((rfl | rfl) | rfl) | rfl <;> decide

/-- The last item is followed by the closing bracket. -/
theorem Reads.items_last (h : Reads p v (gap ++ ']' :: rest) (value fuel cs)) :
    Reads p [v] rest (items (fuel + 1) cs) := by
  have hskip : skipSpace (gap ++ ']' :: rest) = ']' :: rest := skipSpace_cons hgap (by decide) _
  rw [items]
  refine (h.bind (q := True) ?_).of_iff (iff_of_eq (and_true p))
  simp only [hskip]
  exact reads_of_ok trivial rfl

/-- An item that a comma follows is followed by the other items. -/
theorem Reads.items_cons {gap' ts : List Char} {c : Char}
    (h : Reads p v (gap ++ ',' :: (gap' ++ c :: ts)) (value fuel cs))
    (hgap' : ∀ c ∈ gap', isSpace c = true) (hc : isSpace c = false)
    (hitems : Reads q vs rest (items fuel (c :: ts))) :
    Reads (p ∧ q) (v :: vs) rest (items (fuel + 1) cs) := by
  have hskip : skipSpace (gap ++ ',' :: (gap' ++ c :: ts)) = ',' :: (gap' ++ c :: ts) :=
    skipSpace_cons hgap (by decide) _
  rw [items]
  apply h.bind
  simp only [hskip, skipSpace_cons hgap' hc]
  exact hitems.map (v :: ·)

/-- A list is read by reading its items. -/
theorem Reads.array {c : Char} (hc : isSpace c = false ∧ c ∉ [']', '\ufeff'])
    (hitems : Reads p vs rest (items fuel (c :: cs))) :
    Reads p (.list vs) rest (value (fuel + 1) ('[' :: (gap ++ c :: cs))) := by
  have hskip : skipSpace (gap ++ c :: cs) = c :: cs := skipSpace_cons hgap hc.1 cs
  rw [value]
  simp only [hskip]
  split
  · rename_i heq
    exact absurd (List.cons.inj heq).1 fun heq => hc.2 (heq ▸ List.mem_cons_self)
  · exact hitems.map Value.list

end

mutual

/-- The fuel is enough if it is as long as the text. -/
theorem Spells.reads {t : List Char} {v : Value} (h : Spells t v) {rest : List Char}
    (hrest : EndsNumber rest) {fuel : Nat} (hfuel : t.length ≤ fuel) :
    Reads (WithinLimit v) v rest (value fuel (t ++ rest)) := by
  obtain ⟨c, cs, hhead, -⟩ := h.exists_head
  have hpos : 0 < fuel := by
    rw [hhead, List.length_cons] at hfuel
    omega
  obtain ⟨fuel, rfl⟩ := Nat.exists_eq_succ_of_ne_zero (Nat.ne_zero_of_lt hpos)
  cases h with
  | null =>
      exact reads_of_ok (by simp [WithinLimit, leaves]) (value_of_scalar (by decide) _ fuel)
  | bool b =>
      have hwithin : WithinLimit (.bool b) := by simp [WithinLimit, leaves]
      cases b <;> exact reads_of_ok hwithin (value_of_scalar (by decide) _ fuel)
  | number n hn =>
      rw [hn.value_text]
      exact hn.reads hrest
  | @str raw cs h =>
      obtain ⟨units, hread, rfl⟩ := stringUnits_of_spells h
        ('"' :: (raw ++ '"' :: rest)).length rest
      refine reads_of_ok (by simp [WithinLimit, leaves]) ?_
      simp only [List.cons_append, List.append_assoc, List.nil_append, value, stringBody, hread]
      rfl
  | @empty gap hgap =>
      have hskip : skipSpace (gap ++ ']' :: rest) = ']' :: rest := skipSpace_cons hgap (by decide) _
      refine reads_of_ok (by simp [WithinLimit, leaves, leavesOf]) ?_
      simp only [List.cons_append, List.append_assoc, List.nil_append, value, hskip]
  | @array gap ts vs hgap h =>
      -- The two brackets pay for the step to the items.
      have hlength : ts.length < fuel := by
        simp only [List.length_cons, List.length_append] at hfuel
        omega
      obtain ⟨c, cs, hts, hc⟩ := h.exists_head
      have hitems := h.reads rest hlength
      rw [hts, List.cons_append] at hitems
      simp only [List.cons_append, List.append_assoc, hts, List.nil_append]
      exact (hitems.array hgap hc).of_iff (forall_leaves_list_iff .int _ vs).symm

/-- Every spelling of items is read as these items, if all their numbers are within the limit. -/
theorem SpellsItems.reads {ts : List Char} {vs : List Value} (h : SpellsItems ts vs)
    (rest : List Char) {fuel : Nat} (hfuel : ts.length < fuel) :
    Reads (∀ v ∈ vs, WithinLimit v) vs rest (items fuel (ts ++ ']' :: rest)) := by
  obtain ⟨fuel, rfl⟩ := Nat.exists_eq_succ_of_ne_zero (Nat.ne_zero_of_lt hfuel)
  cases h with
  | @last t gap v h hgap =>
      have hlength : t.length ≤ fuel := by
        rw [List.length_append] at hfuel
        omega
      have hends : EndsNumber (gap ++ ']' :: rest) := endsNumber_gap hgap (.inr rfl)
      have hread := h.reads hends hlength
      rw [List.append_assoc]
      exact (hread.items_last hgap).of_iff List.forall_mem_singleton.symm
  | @cons t gap gap' ts v vs h hgap hgap' hitems =>
      have hlength : t.length ≤ fuel ∧ ts.length < fuel := by
        simp only [List.length_append, List.length_cons] at hfuel
        omega
      obtain ⟨c, cs, hts, hc, -⟩ := hitems.exists_head
      have hends : EndsNumber (gap ++ ',' :: (gap' ++ (ts ++ ']' :: rest))) :=
        endsNumber_gap hgap (.inl rfl)
      have hread := h.reads hends hlength.1
      have hitems := hitems.reads rest hlength.2
      simp only [hts, List.cons_append] at hread hitems
      simp only [hts, List.append_assoc, List.cons_append]
      exact (hread.items_cons hgap hgap' hc hitems).of_iff List.forall_mem_cons.symm

end

/-- A text that spells a value is read as that value, or refused for an integer in it. -/
theorem Spells.read {t : List Char} {v : Value} (h : Spells t v) :
    (WithinLimit v → Json.read t = .ok v) ∧
      (¬ WithinLimit v → ∃ n, Json.read t = .error (.digits n)) := by
  have hend : EndsNumber [] := fun c hc => nomatch hc
  have hfuel : t.length ≤ 2 * t.length + 1 := by omega
  have hreads := h.reads hend hfuel
  obtain ⟨c, cs, rfl, hspace, hmark⟩ := h.exists_head
  have hskip : skipSpace (c :: cs) = c :: cs := skipSpace_cons (List.forall_mem_nil _) hspace cs
  have hfirst : (c :: cs).head? ≠ some '\ufeff' := by
    intro hc
    exact hmark (Option.some.inj hc ▸ List.mem_cons_of_mem _ List.mem_cons_self)
  rw [List.append_nil] at hreads
  rw [Json.read, if_neg hfirst, hskip]
  constructor
  · intro hwithin
    rw [hreads.ok hwithin]
    rfl
  · intro hwithin
    obtain ⟨n, hn⟩ := hreads.refused hwithin
    exact ⟨n, by rw [hn]; rfl⟩

end Json

end SpatialDiagram
