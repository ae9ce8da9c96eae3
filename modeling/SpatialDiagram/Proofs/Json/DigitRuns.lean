import SpatialDiagram.Json.Reader

/-!
# Runs of digits in JSON text

The reader goes through its text from the front, so what it leaves is a suffix,
and an integer that it cannot read for its length stands in the text as a run of
that many digits.
-/

namespace SpatialDiagram

namespace Text

/-- Somewhere in a text so many decimal digits stand in a row. -/
def HasRun (n : Nat) (cs : List Char) : Prop :=
  ∃ ds, ds <:+: cs ∧ ds.length = n ∧ ∀ d ∈ ds, isDecimal d = true

/-- A run of digits in a part of a text is one in the text. -/
theorem HasRun.mono {n : Nat} {cs cs' : List Char} (h : HasRun n cs) (hcs : cs <:+: cs') :
    HasRun n cs' := by
  obtain ⟨ds, hds, hlength, hdigits⟩ := h
  exact ⟨ds, hds.trans hcs, hlength, hdigits⟩

/-- A run of digits does not go across another character. -/
theorem hasRun_append_cons {n : Nat} {c : Char} (hc : isDecimal c = false) {as bs : List Char}
    (h : HasRun n (as ++ c :: bs)) : HasRun n as ∨ HasRun n bs := by
  obtain ⟨ds, hds, hlength, hdigits⟩ := h
  have hnot : c ∉ ds := fun hmem => by simp [hdigits c hmem] at hc
  suffices hside : ds <:+: as ∨ ds <:+: bs from
    hside.imp (fun h => ⟨ds, h, hlength, hdigits⟩) fun h => ⟨ds, h, hlength, hdigits⟩
  clear hdigits hlength
  induction as with
  | nil =>
      rcases List.infix_cons_iff.mp hds with hstart | hrest
      · rcases List.prefix_cons_iff.mp hstart with rfl | ⟨t, rfl, -⟩
        · exact .inl List.nil_infix
        · exact absurd List.mem_cons_self hnot
      · exact .inr hrest
  | cons a as ih =>
      rcases List.infix_cons_iff.mp hds with hstart | hrest
      · have hwhole : (a :: as) ++ [c] <+: (a :: as) ++ c :: bs :=
          (List.prefix_append_right_inj _).mpr ⟨bs, rfl⟩
        rcases List.prefix_or_prefix_of_prefix hstart hwhole with hds | hds
        · rcases List.prefix_concat_iff.mp hds with rfl | hds
          · exact absurd (List.mem_append_right _ List.mem_cons_self) hnot
          · exact .inl hds.isInfix
        · exact absurd (hds.subset (List.mem_append_right _ List.mem_cons_self)) hnot
      · exact (ih hrest).imp_left fun h => h.trans (List.suffix_cons a as).isInfix

theorem isDecimal_of_isDigit {c : Char} (h : c.isDigit = true) : isDecimal c = true := by
  have hrange : 0x30 ≤ c.toNat ∧ c.toNat < 0x30 + 10 := by
    simp only [Char.isDigit, Bool.and_eq_true, decide_eq_true_eq, ge_iff_le,
      UInt32.le_iff_toNat_le] at h
    change 48 ≤ c.val.toNat ∧ c.val.toNat < 58
    have h0 : ('0' : Char).val.toNat = 48 := rfl
    have h9 : ('9' : Char).val.toNat = 57 := rfl
    omega
  simp [isDecimal, digitValue?, zeros, hrange]

end Text

namespace Json

variable {α β : Type}

/-- A reader leaves a suffix of its text, and where it ends at an integer of too many digits the
text has so many in a row. -/
def StaysWithin (cs : List Char) : Except Fault (α × List Char) → Prop
  | .ok r => r.2 <:+ cs
  | .error (.digits n) => digitLimit < n ∧ Text.HasRun n cs
  | .error (.malformed _ _) => True

/-- A reader that stays within what is left stays within the whole. -/
theorem StaysWithin.of_suffix {cs cs' : List Char} {r : Except Fault (α × List Char)}
    (h : StaysWithin cs r) (hcs : cs <:+ cs') : StaysWithin cs' r := by
  cases r with
  | ok r => exact List.IsSuffix.trans h hcs
  | error f =>
      cases f with
      | digits n => exact ⟨h.1, h.2.mono hcs.isInfix⟩
      | malformed e left => trivial

theorem StaysWithin.map {cs : List Char} {r : Except Fault (α × List Char)}
    (h : StaysWithin cs r) (f : α → β) :
    StaysWithin cs (r.map fun p => (f p.1, p.2)) := by
  cases r with
  | ok r => exact h
  | error f => cases f <;> exact h

/-- Two readers that stay within a text do so one after the other. -/
theorem StaysWithin.bind {cs : List Char} {r : Except Fault (α × List Char)}
    {f : α × List Char → Except Fault (β × List Char)} (h : StaysWithin cs r)
    (hf : ∀ p : α × List Char, p.2 <:+ cs → StaysWithin cs (f p)) : StaysWithin cs (r >>= f) := by
  cases r with
  | ok r => exact hf r h
  | error f => cases f <;> exact h

theorem suffix_skipSpace (cs : List Char) : skipSpace cs <:+ cs := List.dropWhile_suffix isSpace

/-! ## Strings and numbers -/

/-- Reading a text literal leaves a rest of the input and never complains of digits. -/
theorem staysWithin_stringUnits (start : Nat) (cs : List Char) :
    StaysWithin cs (stringUnits start cs) := by
  fun_induction stringUnits start cs with
  | case1 | case3 | case4 | case6 | case7 | case9 => trivial
  | case2 rest => exact List.suffix_cons '"' rest
  | case5 a b c d next more n _ ih =>
      exact (ih.map (n :: ·)).of_suffix (List.suffix_append ['\\', 'u', a, b, c, d] (next :: more))
  | case8 e more _ _ c _ ih =>
      exact (ih.map (c.toNat :: ·)).of_suffix (List.suffix_append ['\\', e] more)
  | case10 c rest _ _ _ ih =>
      exact (ih.map (c.toNat :: ·)).of_suffix (List.suffix_cons c rest)

theorem staysWithin_stringBody (start : Nat) (cs : List Char) :
    StaysWithin cs (stringBody start cs) :=
  (staysWithin_stringUnits start cs).map fun units => String.ofList (ofUnits units)

theorem suffix_fraction (cs : List Char) : (fraction cs).2 <:+ cs := by
  rw [fraction.eq_def]
  split
  · rename_i rest
    simp only
    split
    · exact List.suffix_rfl
    · exact (List.dropWhile_suffix _).trans (List.suffix_cons '.' rest)
  · exact List.suffix_rfl

theorem suffix_sign (cs : List Char) : (Decimal.sign? cs).2 <:+ cs := by
  rw [Decimal.sign?.eq_def]
  split
  · exact List.suffix_cons _ _
  · exact List.suffix_cons _ _
  · exact List.suffix_rfl

theorem suffix_exponent (cs : List Char) : (exponent cs).2 <:+ cs := by
  rw [exponent.eq_def]
  split
  · rename_i c rest
    split
    · simp only
      split
      · exact List.suffix_rfl
      · exact (List.dropWhile_suffix _).trans ((suffix_sign rest).trans (List.suffix_cons c rest))
    · exact List.suffix_rfl
  · exact List.suffix_rfl

/-- The whole part is a run of digits at the front. -/
theorem append_of_wholeDigits {cs ds rest : List Char} (h : wholeDigits? cs = some (ds, rest)) :
    ds ++ rest = cs ∧ ∀ d ∈ ds, d.isDigit = true := by
  rw [wholeDigits?.eq_def] at h
  split at h
  · obtain ⟨rfl, rfl⟩ := Prod.mk.inj (Option.some.inj h)
    exact ⟨rfl, List.forall_mem_singleton.mpr (by decide)⟩
  · split at h
    · rename_i c tail _ _
      obtain ⟨rfl, rfl⟩ := Prod.mk.inj (Option.some.inj h)
      exact ⟨List.takeWhile_append_dropWhile,
        fun d hd => List.all_eq_true.mp List.all_takeWhile d hd⟩
    · cases h
  · cases h

/-- A number leaves a suffix, and the only fault in it is an integer of too many digits. -/
theorem within_of_number {negative : Bool} {cs rest : List Char} {r : Except Fault Value}
    (h : number negative cs = some (r, rest)) :
    rest <:+ cs ∧ ∀ f, r = .error f → ∃ n, f = .digits n ∧ digitLimit < n ∧ Text.HasRun n cs := by
  rw [number] at h
  obtain ⟨⟨whole, more⟩, hwhole, h⟩ := Option.bind_eq_some_iff.mp h
  obtain ⟨hcs, hdigits⟩ := append_of_wholeDigits hwhole
  have hmore : (exponent (fraction more).2).2 <:+ cs :=
    (suffix_exponent _).trans ((suffix_fraction more).trans ⟨whole, hcs⟩)
  have hrun : Text.HasRun whole.length cs :=
    ⟨whole, ⟨[], more, hcs⟩, rfl, fun d hd => Text.isDecimal_of_isDigit (hdigits d hd)⟩
  simp only at h
  split at h
  · split at h
    · rename_i hlimit
      obtain ⟨rfl, rfl⟩ := Prod.mk.inj (Option.some.inj h)
      exact ⟨hmore, fun f hf => ⟨whole.length, (Except.error.inj hf).symm, hlimit, hrun⟩⟩
    · obtain ⟨rfl, rfl⟩ := Prod.mk.inj (Option.some.inj h)
      exact ⟨hmore, fun f hf => nomatch hf⟩
  · obtain ⟨rfl, rfl⟩ := Prod.mk.inj (Option.some.inj h)
    exact ⟨hmore, fun f hf => nomatch hf⟩

/-- A number complains of its digits only if there are too many in one run. -/
theorem within_of_signed {cs rest : List Char} {r : Except Fault Value}
    (h : (match cs with
      | '-' :: rest => number true rest
      | _ => number false cs) = some (r, rest)) :
    rest <:+ cs ∧ ∀ f, r = .error f → ∃ n, f = .digits n ∧ digitLimit < n ∧ Text.HasRun n cs := by
  split at h
  · rename_i digits
    obtain ⟨hrest, herror⟩ := within_of_number h
    have hsuffix := List.suffix_cons '-' digits
    refine ⟨hrest.trans hsuffix, fun f hf => ?_⟩
    obtain ⟨n, hfault, hlimit, hrun⟩ := herror f hf
    exact ⟨n, hfault, hlimit, hrun.mono hsuffix.isInfix⟩
  · exact within_of_number h

/-- Reading a scalar leaves a rest of the input or complains of a run in it. -/
theorem staysWithin_scalar (cs : List Char) : StaysWithin cs (scalar cs) := by
  rw [scalar.eq_def]
  split
  · rename_i r hword
    obtain ⟨w, -, hw⟩ := List.exists_of_findSome?_eq_some hword
    split at hw
    · obtain rfl := Option.some.inj hw
      exact List.drop_suffix _ _
    · cases hw
  · simp only
    split
    · rename_i hread
      exact (within_of_signed hread).1
    · rename_i hread
      obtain ⟨n, rfl, hn⟩ := (within_of_signed hread).2 _ rfl
      exact hn
    · trivial

/-! ## Values -/

theorem suffix_of_skipSpace {cs more : List Char} {c : Char} (h : skipSpace cs = c :: more) :
    more <:+ cs := by
  have hsuffix := suffix_skipSpace cs
  rw [h] at hsuffix
  exact (List.suffix_cons c more).trans hsuffix

section

variable {fuel : Nat}

/-- A value stays within its input if its items and members do. -/
theorem staysWithin_value (hitems : ∀ cs, StaysWithin cs (items fuel cs))
    (hmembers : ∀ cs, StaysWithin cs (members fuel cs)) (cs : List Char) :
    StaysWithin cs (value (fuel + 1) cs) := by
  rw [value.eq_def]
  simp only
  split
  · rename_i rest
    exact ((staysWithin_stringBody _ rest).map Value.str).of_suffix (List.suffix_cons '"' rest)
  · rename_i rest
    have hrest := List.suffix_cons '[' rest
    split
    · rename_i more hmore
      exact (suffix_of_skipSpace hmore).trans hrest
    · exact ((hitems _).map Value.list).of_suffix ((suffix_skipSpace rest).trans hrest)
  · rename_i rest
    have hrest := List.suffix_cons '\x7b' rest
    split
    · rename_i more hmore
      exact (suffix_of_skipSpace hmore).trans hrest
    · exact ((hmembers _).map fun entries => Value.mapping (Table.ofList entries).entries).of_suffix
        ((suffix_skipSpace rest).trans hrest)
  · exact staysWithin_scalar cs

/-- Items stay within their input if values and further items do. -/
theorem staysWithin_items (hvalue : ∀ cs, StaysWithin cs (value fuel cs))
    (hitems : ∀ cs, StaysWithin cs (items fuel cs)) (cs : List Char) :
    StaysWithin cs (items (fuel + 1) cs) := by
  rw [items]
  refine (hvalue cs).bind fun p hrest => ?_
  simp only
  split
  · rename_i more hmore
    exact (suffix_of_skipSpace hmore).trans hrest
  · rename_i more hmore
    exact ((hitems _).map (p.1 :: ·)).of_suffix
      ((suffix_skipSpace more).trans ((suffix_of_skipSpace hmore).trans hrest))
  · trivial

/-- Members stay within their input if values and further members do. -/
theorem staysWithin_members (hvalue : ∀ cs, StaysWithin cs (value fuel cs))
    (hmembers : ∀ cs, StaysWithin cs (members fuel cs)) (cs : List Char) :
    StaysWithin cs (members (fuel + 1) cs) := by
  rw [members.eq_def]
  simp only
  split
  · rename_i body
    have hbody := List.suffix_cons '"' body
    refine ((staysWithin_stringBody _ body).of_suffix hbody).bind fun key hkey => ?_
    split
    · rename_i rest hcolon
      have hrest := (suffix_skipSpace rest).trans ((suffix_of_skipSpace hcolon).trans hkey)
      refine ((hvalue _).of_suffix hrest).bind fun p hp => ?_
      split
      · rename_i more hmore
        exact (suffix_of_skipSpace hmore).trans hp
      · rename_i more hmore
        exact ((hmembers _).map ((Value.str key.1, p.1) :: ·)).of_suffix
          ((suffix_skipSpace more).trans ((suffix_of_skipSpace hmore).trans hp))
      · trivial
    · trivial
  · trivial

end

/-- The three readers call each other, always with less fuel. -/
theorem staysWithin_readers (fuel : Nat) :
    (∀ cs, StaysWithin cs (value fuel cs)) ∧ (∀ cs, StaysWithin cs (items fuel cs)) ∧
      ∀ cs, StaysWithin cs (members fuel cs) := by
  induction fuel with
  | zero => exact ⟨fun _ => trivial, fun _ => trivial, fun _ => trivial⟩
  | succ fuel ih =>
      obtain ⟨hvalue, hitems, hmembers⟩ := ih
      exact ⟨staysWithin_value hitems hmembers, staysWithin_items hvalue hitems,
        staysWithin_members hvalue hmembers⟩

/-- An integer that a text cannot be read for is a run of digits in it. -/
theorem hasRun_of_read {cs : List Char} {n : Nat} (h : read cs = .error (.digits n)) :
    digitLimit < n ∧ Text.HasRun n cs := by
  rw [read] at h
  split at h
  · cases h
  · have hvalue := ((staysWithin_readers (2 * cs.length + 1)).1 (skipSpace cs)).of_suffix
      (suffix_skipSpace cs)
    cases hv : value (2 * cs.length + 1) (skipSpace cs) with
    | error f =>
        rw [hv] at h hvalue
        obtain rfl := Except.error.inj h
        exact hvalue
    | ok p =>
        rw [hv] at h
        simp only [bind, Except.bind] at h
        split at h <;> cases h

end Json

end SpatialDiagram
