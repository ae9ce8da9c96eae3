import SpatialDiagram.Proofs.Decimal.IntegerFloats
import SpatialDiagram.Proofs.Json.Spelling

/-!
# Written integers

An integer is written with digits, of which none is a zero in front of others,
and with a minus sign in front of them if it is negative. Read as JSON such a
text is the integer, and read as a decimal it is the number nearest to it.
-/

namespace SpatialDiagram

open Json (NumberText)

/-! ## Texts of integers -/

/-- The sign and the digits of an integer. -/
structure IntegerText where
  negative : Bool
  digits : List Char
deriving DecidableEq, Repr

namespace IntegerText

/-- The integer as it is written, sign first. -/
def text (n : IntegerText) : List Char := if n.negative then '-' :: n.digits else n.digits

def magnitude (n : IntegerText) : Nat := Decimal.ofDigits n.digits

/-- The integer that is written. -/
def value (n : IntegerText) : Int := if n.negative then -(n.magnitude : Int) else n.magnitude

/-- An integer as the number text it is: no places and no power. -/
def toNumberText (n : IntegerText) : NumberText := { negative := n.negative, whole := n.digits }

/-- Without leading zeros, and not longer than what is read. -/
structure IsProper (n : IntegerText) : Prop where
  digits : NumberText.IsDigits n.digits
  first : n.digits = ['0'] ∨ n.digits.head? ≠ some '0'
  short : n.digits.length ≤ Json.digitLimit

instance (n : IntegerText) : Decidable n.IsProper :=
  decidable_of_iff ((n.digits ≠ [] ∧ n.digits.all Decimal.isPlainDigit = true) ∧
      (n.digits = ['0'] ∨ n.digits.head? ≠ some '0') ∧ n.digits.length ≤ Json.digitLimit)
    ⟨fun h => ⟨⟨h.1.1, List.all_eq_true.mp h.1.2⟩, h.2.1, h.2.2⟩,
      fun h => ⟨⟨h.digits.1, List.all_eq_true.mpr h.digits.2⟩, h.first, h.short⟩⟩

/-- The sign apart, the written integer is the number of its digits. -/
theorem natAbs_value (n : IntegerText) : n.value.natAbs = n.magnitude := by
  rw [value]
  split <;> simp

/-- As a number text, an integer is written the same way. -/
theorem text_toNumberText (n : IntegerText) : n.toNumberText.text = n.text := by
  simp [NumberText.text, NumberText.unsigned, NumberText.fractionText, NumberText.powerText,
    toNumberText, text]

theorem value_toNumberText (n : IntegerText) : n.toNumberText.value = .int n.value := rfl

variable {n : IntegerText} (hn : n.IsProper)

include hn

theorem IsProper.toNumberText : n.toNumberText.IsProper :=
  ⟨hn.digits, hn.first, nofun, nofun, nofun, nofun⟩

/-- An integer is spelled as in JSON. -/
theorem IsProper.spells : Json.Spells n.text (.int n.value) := by
  rw [← n.text_toNumberText, ← n.value_toNumberText]
  exact .number n.toNumberText hn.toNumberText

theorem IsProper.withinLimit : Json.WithinLimit (.int n.value) := by
  rw [← n.value_toNumberText, hn.toNumberText.withinLimit_value_iff]
  rintro ⟨-, hlong⟩
  exact Nat.not_lt.mpr hn.short hlong

end IntegerText

/-! ## Characters of an integer -/

theorem Decimal.mem_of_isPlainDigit {c : Char} (h : isPlainDigit c = true) :
    c ∈ "0123456789".toList := by
  have hdigits : ∀ k < 58, 48 ≤ k → Char.ofNat k ∈ "0123456789".toList := by decide
  obtain ⟨hlow, hhigh⟩ := (Json.isPlainDigit_iff c).mp h
  rw [← Char.ofNat_toNat c]
  exact hdigits c.toNat (by omega) hlow

namespace IntegerText

variable {n : IntegerText} (hn : n.IsProper)

include hn

/-- Only digits and the minus sign occur in a written integer. -/
theorem IsProper.mem_text {c : Char} (hc : c ∈ n.text) : c ∈ "-0123456789".toList := by
  have hdigit (hc : c ∈ n.digits) : c ∈ "-0123456789".toList :=
    List.mem_cons_of_mem '-' (Decimal.mem_of_isPlainDigit (hn.digits.2 c hc))
  rw [text] at hc
  split at hc
  · rcases List.mem_cons.mp hc with rfl | hc
    · exact List.mem_cons_self
    · exact hdigit hc
  · exact hdigit hc

theorem IsProper.text_ne_nil : n.text ≠ [] := by
  rw [text]
  split
  · exact List.cons_ne_nil _ _
  · exact hn.digits.1

/-- Nothing is stripped off a written integer that is no digit and no sign. -/
theorem IsProper.stripWhile_text {p : Char → Bool}
    (hp : ∀ c ∈ "-0123456789".toList, p c = false) : Text.stripWhile p n.text = n.text := by
  apply Text.stripWhile_of_ends
  · intro c hc
    exact hp c (hn.mem_text (List.mem_of_mem_head? hc))
  · intro c hc
    exact hp c (hn.mem_text (List.mem_of_getLast? hc))

theorem IsProper.trim_text : Text.trim n.text = n.text :=
  hn.stripWhile_text (Text.forall_mem_of_all (by decide))

/-- The sign of a written integer is read off first. -/
theorem IsProper.sign_text_append (rest : List Char) :
    Decimal.sign? (n.text ++ rest) = (n.negative, n.digits ++ rest) := by
  have hsign := hn.digits.not_sign rest
  have hempty : [] ∈ [[], ['+'], ['-']] := List.mem_cons_self
  obtain ⟨negative, digits⟩ := n
  cases negative with
  | true => rfl
  | false => exact Decimal.sign_append hempty hsign

theorem IsProper.sign_text : Decimal.sign? n.text = (n.negative, n.digits) := by
  simpa using hn.sign_text_append []

end IntegerText

/-! ## Integers read as decimals -/

namespace Decimal

theorem dropUnderscores_of_not_mem {previous : Char} {cs : List Char} (hprevious : previous ≠ '_')
    (h : '_' ∉ cs) : dropUnderscores? previous cs = some cs := by
  induction cs generalizing previous with
  | nil => simp [dropUnderscores?, hprevious]
  | cons c cs ih =>
      rw [List.mem_cons, not_or] at h
      have hc : c ≠ '_' := Ne.symm h.1
      simp [dropUnderscores?, hprevious, hc, ih hc h.2]

/-- Digits alone are read as the number they make. -/
theorem unsigned_of_digits {ds : List Char} (h : Json.NumberText.IsDigits ds) (negative : Bool) :
    unsigned? negative ds = some (ofDecimal negative (ofDigits ds) 0) := by
  obtain ⟨hne, hdigits⟩ := h
  have hnone : ∀ c, [].head? = some c → isPlainDigit c = false := nofun
  have hrun := Json.run_digits hdigits hnone
  rw [List.append_nil] at hrun
  rw [unsigned?, hrun]
  simp [power?, hne]

/-- A run of digits is no word. -/
theorem lower_ne_of_digits {ds : List Char} (h : Json.NumberText.IsDigits ds) {c : Char}
    (hc : c ∈ ['i', 'n']) (cs : List Char) : Text.lower ds ≠ c :: cs := by
  have hletters : ∀ d ∈ "0123456789".toList, Text.lowerChar d ∉ ['i', 'n'] :=
    Text.forall_mem_of_all (by decide)
  obtain ⟨d, ds, rfl⟩ := List.exists_cons_of_ne_nil h.1
  intro heq
  obtain rfl : Text.lowerChar d = c := (List.cons.inj heq).1
  exact hletters d (mem_of_isPlainDigit (h.2 d List.mem_cons_self)) hc

/-- A written integer is read as a decimal, whatever padding stands before it. -/
theorem readFloat_text {n : IntegerText} (hn : n.IsProper) {gap : List Char}
    (hgap : ∀ c ∈ gap, Text.isPadding c = true) :
    readFloat? (gap ++ n.text) = some (ofDecimal n.negative n.magnitude 0) := by
  have hstrip : Text.stripWhile Text.isPadding (gap ++ n.text) = n.text :=
    (Text.stripWhile_append_left hgap n.text).trans
      (hn.stripWhile_text (Text.forall_mem_of_all (by decide)))
  have hplain : n.text.map Text.toPlainDigit = n.text := by
    have hchars : ∀ c ∈ "-0123456789".toList, Text.toPlainDigit c = c :=
      Text.forall_mem_of_all (by decide)
    calc
      n.text.map Text.toPlainDigit = n.text.map id :=
        List.map_congr_left fun c hc => hchars c (hn.mem_text hc)
      _ = n.text := List.map_id _
  have hdrop : dropUnderscores? ' ' n.text = some n.text := by
    apply dropUnderscores_of_not_mem (by decide)
    exact fun hc => absurd (hn.mem_text hc) (by decide)
  have hinf : Text.lower n.digits ≠ "inf".toList := lower_ne_of_digits hn.digits (by decide) _
  have hinfinity : Text.lower n.digits ≠ "infinity".toList :=
    lower_ne_of_digits hn.digits (by decide) _
  have hnan : Text.lower n.digits ≠ "nan".toList := lower_ne_of_digits hn.digits (by decide) _
  rw [readFloat?]
  simp only [hstrip, hplain, hdrop, Option.bind_eq_bind, Option.bind_some, hn.sign_text, hinf,
    hinfinity, hnan, decide_false, Bool.or_self, Bool.false_eq_true, if_false]
  exact unsigned_of_digits hn.digits n.negative

end Decimal

end SpatialDiagram
