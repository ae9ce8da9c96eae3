import SpatialDiagram.Text.Scan

/-!
# Runs and trimmed texts

A run of characters ends where another character follows, so a text splits into
a run and its rest in one way. Trimming takes off a run at either end; blanks
that are put around a text are taken off again.
-/

namespace SpatialDiagram

namespace Text

/-- A check of the characters of a text, one after the other. -/
theorem forall_mem_of_all {p : Char → Prop} [DecidablePred p] {cs : List Char}
    (h : cs.all (fun c => decide (p c)) = true) : ∀ c ∈ cs, p c := by
  intro c hc
  exact of_decide_eq_true (List.all_eq_true.mp h c hc)

/-- A character of a kind is none of some characters that are not of that kind. -/
theorem ne_of_any_eq_false {p : Char → Bool} {c : Char} (hc : p c = true) {others : List Char}
    (h : others.any p = false) : ∀ d ∈ others, c ≠ d := by
  rintro d hd rfl
  exact List.any_eq_false.mp h c hd hc

/-! ## Runs -/

/-- Characters of a kind, and what follows them begins with none. -/
structure IsRun (p : Char → Bool) (run rest : List Char) : Prop where
  all : ∀ c ∈ run, p c = true
  ends : ∀ c, rest.head? = some c → p c = false

theorem dropWhile_of_head {p : Char → Bool} {cs : List Char}
    (h : ∀ c, cs.head? = some c → p c = false) : cs.dropWhile p = cs := by
  cases cs with
  | nil => rfl
  | cons c cs => exact List.dropWhile_cons_of_neg (Bool.eq_false_iff.mp (h c rfl))

theorem isRun_takeWhile (p : Char → Bool) (cs : List Char) :
    IsRun p (cs.takeWhile p) (cs.dropWhile p) := by
  constructor
  · intro c hc
    exact List.all_eq_true.mp List.all_takeWhile c hc
  · intro c hc
    have hhead := List.head?_dropWhile_not p cs
    rwa [hc] at hhead

namespace IsRun

variable {p : Char → Bool} {run rest : List Char} (h : IsRun p run rest)

include h

theorem dropWhile : (run ++ rest).dropWhile p = rest := by
  rw [List.dropWhile_append_of_pos h.all, dropWhile_of_head h.ends]

theorem takeWhile : (run ++ rest).takeWhile p = run := by
  have happend := List.takeWhile_append_dropWhile (p := p) (l := run ++ rest)
  rw [h.dropWhile] at happend
  exact List.append_cancel_right happend

end IsRun

/-- The characters before the first one of a kind. -/
theorem isRun_until {c : Char} {cs : List Char} (h : c ∉ cs) (more : List Char) :
    IsRun (fun x => decide (x ≠ c)) cs (c :: more) := by
  constructor
  · intro x hx
    exact decide_eq_true (ne_of_mem_of_not_mem hx h)
  · intro x hx
    obtain rfl := Option.some.inj hx
    simp

/-- A text splits into a run and its rest in one way. -/
theorem isRun_unique {p : Char → Bool} {run rest run' rest' : List Char} (h : IsRun p run rest)
    (h' : IsRun p run' rest') (happend : run ++ rest = run' ++ rest') :
    run = run' ∧ rest = rest' := by
  constructor
  · rw [← h.takeWhile, happend, h'.takeWhile]
  · rw [← h.dropWhile, happend, h'.dropWhile]

/-! ## Trimming -/

theorem stripWhile_isPrefix_dropWhile (p : Char → Bool) (cs : List Char) :
    stripWhile p cs <+: cs.dropWhile p := by
  rw [← List.reverse_suffix, stripWhile, List.reverse_reverse]
  exact List.dropWhile_suffix p

theorem infix_stripWhile (p : Char → Bool) (cs : List Char) : stripWhile p cs <:+: cs :=
  (stripWhile_isPrefix_dropWhile p cs).isInfix.trans (List.dropWhile_suffix p).isInfix

theorem stripWhile_of_ends {p : Char → Bool} {cs : List Char}
    (hfirst : ∀ c, cs.head? = some c → p c = false)
    (hlast : ∀ c, cs.getLast? = some c → p c = false) : stripWhile p cs = cs := by
  have hreverse : cs.reverse.dropWhile p = cs.reverse :=
    dropWhile_of_head fun c hc => hlast c (by rwa [List.head?_reverse] at hc)
  rw [stripWhile, dropWhile_of_head hfirst, hreverse, List.reverse_reverse]

/-- What is stripped in front makes no difference. -/
theorem stripWhile_append_left {p : Char → Bool} {before : List Char}
    (h : ∀ c ∈ before, p c = true) (cs : List Char) :
    stripWhile p (before ++ cs) = stripWhile p cs := by
  rw [stripWhile, List.dropWhile_append_of_pos h, stripWhile]

theorem trim_append_left {before : List Char} (h : ∀ c ∈ before, isBlank c = true)
    (cs : List Char) : trim (before ++ cs) = trim cs :=
  stripWhile_append_left h cs

theorem trim_append_right (cs : List Char) {behind : List Char}
    (h : ∀ c ∈ behind, isBlank c = true) : trim (cs ++ behind) = trim cs := by
  have hreverse : ∀ c ∈ behind.reverse, isBlank c = true := by
    intro c hc
    exact h c (List.mem_reverse.mp hc)
  rw [trim, stripWhile, List.dropWhile_append]
  split
  · rename_i hempty
    have hnone : cs.dropWhile isBlank = [] := List.isEmpty_iff.mp hempty
    rw [(dropWhile_eq_nil_iff isBlank behind).mpr h, trim, stripWhile, hnone]
  · rw [List.reverse_append, List.dropWhile_append_of_pos hreverse, trim, stripWhile]

/-- A trimmed text neither begins nor ends with a blank. -/
theorem trim_ends (cs : List Char) : (∀ c, (trim cs).head? = some c → isBlank c = false) ∧
    ∀ c, (trim cs).getLast? = some c → isBlank c = false := by
  have hlast : ∀ c, (trim cs).getLast? = some c → isBlank c = false := by
    intro c hc
    rw [trim, stripWhile, List.getLast?_reverse] at hc
    exact (isRun_takeWhile isBlank _).ends c hc
  refine ⟨?_, hlast⟩
  intro c hc
  obtain ⟨rest, hrest⟩ := stripWhile_isPrefix_dropWhile isBlank cs
  rw [← trim] at hrest
  apply (isRun_takeWhile isBlank cs).ends c
  rw [← hrest, List.head?_append, hc, Option.some_or]

/-- A text is trimmed exactly if it neither begins nor ends with a blank. -/
theorem trim_eq_self_iff (cs : List Char) : trim cs = cs ↔
    (∀ c, cs.head? = some c → isBlank c = false) ∧
      ∀ c, cs.getLast? = some c → isBlank c = false := by
  constructor
  · intro h
    have hends := trim_ends cs
    rwa [h] at hends
  · rintro ⟨hfirst, hlast⟩
    exact stripWhile_of_ends hfirst hlast

/-- Between texts without blanks around them anything may stand. -/
theorem trim_append_append {cs ds : List Char} (hcs : cs ≠ [] ∧ trim cs = cs)
    (hds : ds ≠ [] ∧ trim ds = ds) (between : List Char) :
    trim (cs ++ (between ++ ds)) = cs ++ (between ++ ds) := by
  obtain ⟨hfirst, -⟩ := (trim_eq_self_iff cs).mp hcs.2
  obtain ⟨-, hlast⟩ := (trim_eq_self_iff ds).mp hds.2
  apply (trim_eq_self_iff _).mpr
  constructor
  · intro c hc
    obtain ⟨x, xs, rfl⟩ := List.exists_cons_of_ne_nil hcs.1
    exact hfirst c hc
  · intro c hc
    have hend := List.getLast?_eq_some_getLast hds.1
    rw [← List.append_assoc, List.getLast?_append, hend, Option.some_or, ← hend] at hc
    exact hlast c hc

end Text

end SpatialDiagram
