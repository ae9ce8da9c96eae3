import SpatialDiagram.Notation.Property
import SpatialDiagram.Proofs.Endings
import SpatialDiagram.Proofs.Json.DigitRuns
import SpatialDiagram.Proofs.Text.Trimming

/-!
# Numerals in raw values

Every raw value can be read but for one reason: it is an integer of more digits
than are read, or a bracketed text in which reading JSON meets such an integer.
Then so many digits stand in a row in it.
-/

namespace SpatialDiagram

namespace Notation

/-! ## Integers -/

/-- A text is an integer of so many digits. A sign may stand in front of them, and a line feed
behind. -/
def IsInteger (n : Nat) (cs : List Char) : Prop :=
  ∃ sign digits ending, cs = sign ++ (digits ++ ending) ∧ sign ∈ [[], ['+'], ['-']] ∧
    ending ∈ [[], ['\n']] ∧ digits.length = n ∧ 0 < n ∧ ∀ c ∈ digits, Text.isDecimal c = true

theorem exists_sign (cs : List Char) :
    ∃ sign ∈ [[], ['+'], ['-']], cs = sign ++ (Decimal.sign? cs).2 := by
  rw [Decimal.sign?.eq_def]
  split
  · exact ⟨['-'], by decide, rfl⟩
  · exact ⟨['+'], by decide, rfl⟩
  · exact ⟨[], by decide, rfl⟩

theorem sign_append {sign cs : List Char} (hsign : sign ∈ [[], ['+'], ['-']])
    (hcs : ∀ c, cs.head? = some c → Text.isDecimal c = true) :
    (Decimal.sign? (sign ++ cs)).2 = cs := by
  have hsigns : ['+', '-'].any Text.isDecimal = false := by decide
  rw [Decimal.sign_append hsign fun c hc hmem => List.any_eq_false.mp hsigns c hmem (hcs c hc)]

theorem numeral_eq_integer_iff (cs : List Char) (n : Nat) :
    numeral? cs = some (.integer n) ↔ IsInteger n cs := by
  constructor
  · intro h
    obtain ⟨sign, hsign, hcs⟩ := exists_sign cs
    rw [numeral?] at h
    simp only at h
    split at h
    · split at h <;> cases h
    · split at h
      · cases h
      · rename_i hsome
        split at h
        · rename_i hending
          obtain rfl := Numeral.integer.inj (Option.some.inj h)
          have hnonempty : ¬ (Text.run Text.isDecimal (Decimal.sign? cs).2).1.isEmpty = true :=
            fun hempty => hsome (by simp [hempty])
          refine ⟨sign, _, (Text.run Text.isDecimal (Decimal.sign? cs).2).2, ?_, hsign, ?_, rfl, ?_,
            fun c hc => List.all_eq_true.mp List.all_takeWhile c hc⟩
          · rw [Text.run_append]
            exact hcs
          · simpa using hending
          · rwa [List.isEmpty_iff, ← ne_eq, ← List.length_pos_iff] at hnonempty
        · cases h
  · rintro ⟨sign, digits, ending, rfl, hsign, hending, rfl, hpos, hdigits⟩
    obtain ⟨d, ds, rfl⟩ := List.exists_cons_of_length_pos hpos
    have hbody : (Decimal.sign? (sign ++ (d :: ds ++ ending))).2 = d :: ds ++ ending :=
      sign_append hsign fun c hc => by
        obtain rfl := Option.some.inj hc
        exact hdigits d List.mem_cons_self
    have hrun : Text.run Text.isDecimal (d :: ds ++ ending) = (d :: ds, ending) := by
      simp only [List.mem_cons, List.not_mem_nil, or_false] at hending
      rw [Text.run, List.takeWhile_append_of_pos hdigits, List.dropWhile_append_of_pos hdigits]
      rcases hending with rfl | rfl
      · simp
      · have hbreak : Text.isDecimal '\n' = false := by decide
        simp [hbreak]
    rw [numeral?, hbody, hrun]
    simp only [List.mem_cons, List.not_mem_nil, or_false] at hending
    rcases hending with rfl | rfl
    · rfl
    · rfl

/-! ## Values that cannot be read -/

/-- A text without surrounding quotes holds an integer of more digits than are read. -/
def IsOverlong (n : Nat) (cs : List Char) : Prop :=
  Json.digitLimit < n ∧
    (IsInteger n cs ∨ isBracketed cs = true ∧ Json.read cs = .error (.digits n))

theorem numeral_of_isBracketed {cs : List Char} (h : isBracketed cs = true) :
    numeral? cs = none := by
  rw [isBracketed, Bool.and_eq_true, decide_eq_true_eq] at h
  obtain ⟨rest, rfl⟩ := List.head?_eq_some_iff.mp h.1
  have hbracket : Text.isDecimal '[' = false := by decide
  simp [numeral?, Decimal.sign?, Text.run, hbracket]

theorem isOverlong_of_numeral {cs : List Char} {k : Numeral} (h : numeral? cs = some k) (n : Nat) :
    IsOverlong n cs ↔ Json.digitLimit < n ∧ k = .integer n := by
  have hbracketed : isBracketed cs ≠ true := fun hbracketed => by
    rw [numeral_of_isBracketed hbracketed] at h
    cases h
  rw [IsOverlong, ← numeral_eq_integer_iff, h, Option.some.injEq]
  exact and_congr_right fun _ => or_iff_left fun hread => hbracketed hread.1

theorem isOverlong_of_no_numeral {cs : List Char} (h : numeral? cs = none) (n : Nat) :
    IsOverlong n cs ↔ isBracketed cs = true ∧ Json.read cs = .error (.digits n) := by
  rw [IsOverlong, ← numeral_eq_integer_iff, h]
  constructor
  · rintro ⟨-, hnumeral | hread⟩
    · cases hnumeral
    · exact hread
  · exact fun hread => ⟨(Json.hasRun_of_read hread.2).1, .inr hread⟩

/-- A raw value ends in a failure exactly if it holds an integer of too many digits. -/
theorem result_coerce_eq_error_iff (raw : List Char) (f : Failure) :
    (coerce raw).result = .error f ↔ ∃ n, IsOverlong n (unquote raw) ∧ f = .digitLimit n := by
  rw [coerce]
  cases hnumeral : numeral? (unquote raw) with
  | some k =>
      simp only [isOverlong_of_numeral hnumeral]
      cases k with
      | decimal => simp [Trace.done]
      | integer n =>
          simp only [Numeral.integer.injEq]
          split
          · rename_i hlimit
            simp only [Trace.result_fail, Except.error.injEq]
            constructor
            · rintro rfl
              exact ⟨n, ⟨hlimit, rfl⟩, rfl⟩
            · rintro ⟨_, ⟨-, rfl⟩, rfl⟩
              rfl
          · rename_i hlimit
            simp only [Trace.done, reduceCtorEq, false_iff]
            rintro ⟨_, ⟨hlarge, rfl⟩, -⟩
            exact hlimit hlarge
  | none =>
      simp only [isOverlong_of_no_numeral hnumeral]
      split
      · rename_i hbracketed
        cases hread : Json.read (unquote raw) with
        | ok v => simp [Trace.done]
        | error fault =>
            cases fault with
            | malformed e left =>
                rw [Trace.result_bind, Trace.result_log]
                simp [Bind.bind, Except.bind]
            | digits n =>
                simp only [hbracketed, Trace.result_fail, Except.error.injEq,
                  Json.Fault.digits.injEq, true_and]
                constructor
                · rintro rfl
                  exact ⟨n, rfl, rfl⟩
                · rintro ⟨_, rfl, rfl⟩
                  rfl
      · rename_i hbracketed
        simp [hbracketed, Trace.done]

theorem failure_coerce_eq_none_iff (raw : List Char) :
    (coerce raw).failure? = none ↔ ∀ n, ¬ IsOverlong n (unquote raw) := by
  simp only [Option.eq_none_iff_forall_ne_some, ne_eq, Trace.failure_eq_some_iff,
    result_coerce_eq_error_iff, not_exists, not_and]
  constructor
  · exact fun h n hn => h _ n hn rfl
  · exact fun h f n hn _ => h n hn

theorem hasRun_of_isOverlong {n : Nat} {raw : List Char} (h : IsOverlong n (unquote raw)) :
    Text.HasRun n raw := by
  have hunquote : unquote raw <:+: raw :=
    (Text.infix_stripWhile isQuote _).trans (Text.infix_stripWhile Text.isBlank raw)
  obtain ⟨-, ⟨sign, digits, ending, hcs, -, -, hlength, -, hdigits⟩ | ⟨-, hread⟩⟩ := h
  · refine ⟨digits, List.IsInfix.trans ?_ hunquote, hlength, hdigits⟩
    exact ⟨sign, ending, by rw [hcs, List.append_assoc]⟩
  · exact (Json.hasRun_of_read hread).2.mono hunquote

end Notation

end SpatialDiagram
