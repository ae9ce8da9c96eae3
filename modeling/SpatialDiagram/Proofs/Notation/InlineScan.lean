import SpatialDiagram.Notation.Property
import SpatialDiagram.Proofs.Text.Trimming

/-!
# Scanning the inside of an inline block

The scan that cuts an inline block at its commas knows the quotation it is in
and how many brackets are open. A text whose commas all stand within quotes or
brackets, and behind which neither is open, stays in one piece whatever follows
it. So cutting the pieces of such a block apart undoes putting them together.
-/

namespace SpatialDiagram

namespace Notation

/-! ## Positions of the scan -/

/-- The quotation a scan is in and the number of brackets that are open. -/
structure Position where
  quote : Option Char := none
  depth : Nat := 0
deriving DecidableEq, Repr

namespace Position

/-- Where the scan stands after one more character: inside a quotation only its own mark counts. -/
def advance (pos : Position) (c : Char) : Position :=
  match pos.quote with
  | some q => { pos with quote := if c = q then none else some q }
  | none =>
      if isQuote c then { pos with quote := some c }
      else if c = '[' || c = '(' then { pos with depth := pos.depth + 1 }
      else if c = ']' || c = ')' then { pos with depth := pos.depth - 1 }
      else pos

/-- The position behind a text. -/
def after (pos : Position) (cs : List Char) : Position := cs.foldl advance pos

theorem after_cons (pos : Position) (c : Char) (cs : List Char) :
    pos.after (c :: cs) = (pos.advance c).after cs := rfl

theorem after_append (pos : Position) (cs more : List Char) :
    pos.after (cs ++ more) = (pos.after cs).after more := List.foldl_append

end Position

/-- Neither a quote nor a bracket. -/
def isPlain (c : Char) : Bool := !(isQuote c || ['[', ']', '(', ')'].contains c)

namespace Position

/-- Only a quote opens a quotation. -/
def IsSound (pos : Position) : Prop := ∀ q ∈ pos.quote, isQuote q = true

theorem isSound_unquoted (depth : Nat) : IsSound { depth } := fun _ hq => nomatch hq

theorem IsSound.advance_plain {pos : Position} (h : pos.IsSound) {c : Char}
    (hc : isPlain c = true) : pos.advance c = pos := by
  simp only [isPlain, Bool.not_eq_true', Bool.or_eq_false_iff, List.contains_eq_mem, List.mem_cons,
    List.not_mem_nil, or_false, decide_eq_false_iff_not, not_or] at hc
  obtain ⟨quote, depth⟩ := pos
  cases quote with
  | none => simp [advance, hc]
  | some q =>
      have hne : c ≠ q := by
        rintro rfl
        simp [h c rfl] at hc
      simp [advance, hne]

theorem IsSound.after {pos : Position} (h : pos.IsSound) (cs : List Char) :
    (pos.after cs).IsSound := by
  induction cs generalizing pos with
  | nil => exact h
  | cons c cs ih =>
      apply ih
      obtain ⟨quote, depth⟩ := pos
      cases quote with
      | none =>
          rw [advance]
          simp only
          split
          · rename_i hquote
            intro q hq
            obtain rfl := Option.some.inj hq
            exact hquote
          · split
            · exact isSound_unquoted _
            · split <;> exact isSound_unquoted _
      | some q =>
          rw [advance]
          simp only
          split
          · exact isSound_unquoted depth
          · exact h

end Position

/-- No comma of a text stands outside quotes and brackets. -/
def Encloses : Position → List Char → Prop
  | _, [] => True
  | pos, c :: cs => (c = ',' → pos ≠ {}) ∧ Encloses (pos.advance c) cs

instance decidableEncloses : (pos : Position) → (cs : List Char) → Decidable (Encloses pos cs)
  | _, [] => inferInstanceAs (Decidable True)
  | pos, c :: cs =>
      have := decidableEncloses (pos.advance c) cs
      inferInstanceAs (Decidable ((c = ',' → pos ≠ {}) ∧ Encloses (pos.advance c) cs))

theorem encloses_append_iff (pos : Position) (cs more : List Char) :
    Encloses pos (cs ++ more) ↔ Encloses pos cs ∧ Encloses (pos.after cs) more := by
  induction cs generalizing pos with
  | nil => simp [Encloses, Position.after]
  | cons c cs ih => simp only [List.cons_append, Encloses, ih, Position.after_cons, and_assoc]

/-- A text that a scan leaves as it entered it, and in which it meets no comma to cut at. -/
structure Unbroken (pos : Position) (cs : List Char) : Prop where
  encloses : Encloses pos cs
  settles : pos.after cs = pos

instance (pos : Position) (cs : List Char) : Decidable (Unbroken pos cs) :=
  decidable_of_iff (Encloses pos cs ∧ pos.after cs = pos)
    ⟨fun h => ⟨h.1, h.2⟩, fun h => ⟨h.encloses, h.settles⟩⟩

theorem Unbroken.append {pos : Position} {cs more : List Char} (h : Unbroken pos cs)
    (h' : Unbroken pos more) : Unbroken pos (cs ++ more) := by
  constructor
  · rw [encloses_append_iff, h.settles]
    exact ⟨h.encloses, h'.encloses⟩
  · rw [Position.after_append, h.settles, h'.settles]

/-- Characters that leave a position alone, where no comma among them is one to cut at. -/
theorem unbroken_of_advance {pos : Position} {cs : List Char}
    (h : ∀ c ∈ cs, pos.advance c = pos ∧ (c = ',' → pos ≠ {})) : Unbroken pos cs := by
  induction cs with
  | nil => exact ⟨trivial, rfl⟩
  | cons c cs ih =>
      obtain ⟨hadvance, hcomma⟩ := h c List.mem_cons_self
      have ih := ih fun d hd => h d (List.mem_cons_of_mem c hd)
      constructor
      · refine ⟨hcomma, ?_⟩
        rw [hadvance]
        exact ih.encloses
      · rw [Position.after_cons, hadvance]
        exact ih.settles

theorem unbroken_of_plain {cs : List Char} (h : ∀ c ∈ cs, isPlain c = true ∧ c ≠ ',')
    (depth : Nat) : Unbroken { depth } cs := by
  apply unbroken_of_advance
  intro c hc
  obtain ⟨hplain, hcomma⟩ := h c hc
  exact ⟨(Position.isSound_unquoted depth).advance_plain hplain, fun heq => absurd heq hcomma⟩

/-! ## Cutting at commas -/

/-- The pieces into which a text is cut from a position of the scan on. -/
def cutFrom (pos : Position) (cs : List Char) : List (List Char) :=
  cut (· = ',') pos.quote pos.depth cs

theorem cutFrom_cons (pos : Position) (c : Char) (cs : List Char) :
    cutFrom pos (c :: cs) =
      if c = ',' ∧ pos = {} then [] :: cutFrom {} cs else push c (cutFrom (pos.advance c) cs) := by
  obtain ⟨quote, depth⟩ := pos
  cases quote with
  | some q => simp [cutFrom, cut, Position.advance]
  | none =>
      by_cases hcomma : c = ','
      · subst hcomma
        have hadvance := (Position.isSound_unquoted depth).advance_plain (c := ',') (by decide)
        cases depth with
        | zero => simp [cutFrom, cut, isQuote]
        | succ depth => simp [cutFrom, cut, isQuote, hadvance]
      · simp only [cutFrom, cut, Position.advance, hcomma, false_and, if_false, decide_false,
          Bool.false_and, Bool.false_eq_true]
        split
        · rfl
        · split
          · rfl
          · split <;> rfl

theorem push_eq_modifyHead {c : Char} {pieces : List (List Char)} (h : pieces ≠ []) :
    push c pieces = pieces.modifyHead (c :: ·) := by
  cases pieces with
  | nil => exact absurd rfl h
  | cons p ps => rfl

theorem cutFrom_ne_nil (pos : Position) (cs : List Char) : cutFrom pos cs ≠ [] := by
  cases cs with
  | nil => simp [cutFrom, cut]
  | cons c cs =>
      rw [cutFrom_cons]
      split
      · exact List.cons_ne_nil _ _
      · cases cutFrom (pos.advance c) cs <;> exact List.cons_ne_nil _ _

/-- What stands in front decides where the scan goes on, and its last piece goes on with it. -/
theorem cutFrom_append (pos : Position) (cs : List Char) :
    ∃ front last, cutFrom pos cs = front ++ [last] ∧ ∀ more,
      cutFrom pos (cs ++ more) =
        front ++ (cutFrom (pos.after cs) more).modifyHead (last ++ ·) := by
  induction cs generalizing pos with
  | nil =>
      refine ⟨[], [], rfl, ?_⟩
      intro more
      cases hmore : cutFrom pos more <;> simp [Position.after, hmore]
  | cons c cs ih =>
      simp only [List.cons_append, cutFrom_cons, Position.after_cons]
      split
      · rename_i hcut
        obtain ⟨rfl, rfl⟩ := hcut
        obtain ⟨front, last, hcut, happend⟩ := ih {}
        refine ⟨[] :: front, last, by rw [hcut, List.cons_append], ?_⟩
        intro more
        rw [happend, List.cons_append]
        rfl
      · obtain ⟨front, last, hcut, happend⟩ := ih (pos.advance c)
        cases front with
        | nil =>
            refine ⟨[], c :: last, by rw [hcut]; rfl, ?_⟩
            intro more
            rw [push_eq_modifyHead (cutFrom_ne_nil _ _), happend, List.nil_append, List.nil_append,
              List.modifyHead_modifyHead]
            rfl
        | cons p front =>
            refine ⟨(c :: p) :: front, last, by rw [hcut]; rfl, ?_⟩
            intro more
            rw [happend]
            rfl

theorem cutFrom_of_encloses {pos : Position} {cs : List Char} (h : Encloses pos cs) :
    cutFrom pos cs = [cs] := by
  induction cs generalizing pos with
  | nil => rfl
  | cons c cs ih =>
      rw [cutFrom_cons, if_neg (fun hcut => h.1 hcut.1 hcut.2), ih h.2]
      rfl

/-- Pieces that are put together with commas are the pieces into which the text is cut. -/
theorem cutFrom_append_comma {cs : List Char} (h : Position.after {} cs = {}) (more : List Char) :
    cutFrom {} (cs ++ ',' :: more) = cutFrom {} cs ++ cutFrom {} more := by
  obtain ⟨front, last, hcut, happend⟩ := cutFrom_append {} cs
  rw [happend, h, hcut, cutFrom_cons, if_pos ⟨rfl, rfl⟩]
  simp

/-! ## Pieces of an inline block -/

theorem splitTopLevel_eq (cs : List Char) :
    splitTopLevel (· = ',') cs = ((cutFrom {} cs).map Text.trim).filter fun p => !p.isEmpty := rfl

theorem splitTopLevel_append_comma {cs : List Char} (h : Position.after {} cs = {})
    (more : List Char) : splitTopLevel (· = ',') (cs ++ ',' :: more) =
      splitTopLevel (· = ',') cs ++ splitTopLevel (· = ',') more := by
  rw [splitTopLevel_eq, cutFrom_append_comma h, List.map_append, List.filter_append]
  rfl

theorem unbroken_spaces {gap : List Char} (h : ∀ c ∈ gap, c = ' ') : Unbroken {} gap := by
  apply unbroken_of_plain _ 0
  intro c hc
  rw [h c hc]
  decide

theorem isBlank_spaces {gap : List Char} (h : ∀ c ∈ gap, c = ' ') :
    ∀ c ∈ gap, Text.isBlank c = true := by
  intro c hc
  rw [h c hc]
  decide

/-- A text that stays in one piece, without blanks around it. -/
structure IsPiece (cs : List Char) : Prop where
  ne_nil : cs ≠ []
  trimmed : Text.trim cs = cs
  unbroken : Unbroken {} cs

theorem IsPiece.splitTopLevel {cs gap : List Char} (h : IsPiece cs) (hgap : ∀ c ∈ gap, c = ' ') :
    splitTopLevel (· = ',') (gap ++ cs) = [cs] := by
  have hscan := (unbroken_spaces hgap).append h.unbroken
  rw [splitTopLevel_eq, cutFrom_of_encloses hscan.encloses, List.map_singleton,
    Text.trim_append_left (isBlank_spaces hgap), h.trimmed,
    List.filter_cons_of_pos (by simpa using h.ne_nil), List.filter_nil]

/-- Cutting at commas undoes putting pieces together. -/
theorem splitTopLevel_intercalate {pieces : List (List Char)} (h : ∀ p ∈ pieces, IsPiece p) :
    splitTopLevel (· = ',') ([',', ' '].intercalate pieces) = pieces := by
  suffices hgap : ∀ gap : List Char, (∀ c ∈ gap, c = ' ') →
      splitTopLevel (· = ',') (gap ++ [',', ' '].intercalate pieces) = pieces from
    hgap [] (List.forall_mem_nil _)
  induction pieces with
  | nil =>
      intro gap hgap
      have hblank := (Text.trim_eq_nil_iff gap).mpr (isBlank_spaces hgap)
      rw [List.intercalate_nil, List.append_nil, splitTopLevel_eq,
        cutFrom_of_encloses (unbroken_spaces hgap).encloses, List.map_singleton, hblank]
      rfl
  | cons p pieces ih =>
      intro gap hgap
      have hp := h p List.mem_cons_self
      have ih := ih fun q hq => h q (List.mem_cons_of_mem p hq)
      cases pieces with
      | nil =>
          rw [List.intercalate_singleton]
          exact hp.splitTopLevel hgap
      | cons q pieces =>
          have hscan := (unbroken_spaces hgap).append hp.unbroken
          rw [List.intercalate_cons_cons, List.append_assoc, ← List.append_assoc gap p,
            List.cons_append, splitTopLevel_append_comma hscan.settles, hp.splitTopLevel hgap,
            ih [' '] (by simp)]
          rfl

/-! ## Pairs -/

/-- A pair as it stands in a block. -/
def pairText (p : RawPair) : List Char := p.1 ++ (':' :: ' ' :: p.2)

theorem pairText_ne_nil (p : RawPair) : pairText p ≠ [] := by
  simp [pairText]

/-- A key and a value with neither blanks nor a colon of its own where they meet. -/
structure IsPair (p : RawPair) : Prop where
  key_ne_nil : p.1 ≠ []
  key_trimmed : Text.trim p.1 = p.1
  key_uncut : ':' ∉ p.1
  value_ne_nil : p.2 ≠ []
  value_trimmed : Text.trim p.2 = p.2

/-- A pair that stays in one piece. -/
structure IsPlainPair (p : RawPair) : Prop extends IsPair p where
  key_plain : ∀ c ∈ p.1, isPlain c = true ∧ c ≠ ','
  value_unbroken : Unbroken {} p.2

instance (p : RawPair) : Decidable (IsPair p) :=
  decidable_of_iff (p.1 ≠ [] ∧ Text.trim p.1 = p.1 ∧ ':' ∉ p.1 ∧ p.2 ≠ [] ∧ Text.trim p.2 = p.2)
    ⟨fun ⟨h₁, h₂, h₃, h₄, h₅⟩ => ⟨h₁, h₂, h₃, h₄, h₅⟩,
      fun ⟨h₁, h₂, h₃, h₄, h₅⟩ => ⟨h₁, h₂, h₃, h₄, h₅⟩⟩

instance (p : RawPair) : Decidable (IsPlainPair p) :=
  decidable_of_iff (IsPair p ∧ (p.1.all fun c => isPlain c && c ≠ ',') = true ∧ Unbroken {} p.2)
    ⟨fun ⟨h₁, h₂, h₃⟩ => ⟨h₁, by simpa using h₂, h₃⟩,
      fun ⟨h₁, h₂, h₃⟩ => ⟨h₁, by simpa using h₂, h₃⟩⟩

namespace IsPair

variable {p : RawPair} (hp : IsPair p)

include hp

theorem splitColon : splitColon? (pairText p) = some p := by
  have hrun := Text.isRun_until hp.key_uncut (' ' :: p.2)
  have hblank : ∀ c ∈ [' '], Text.isBlank c = true := Text.forall_mem_of_all (by decide)
  have hvalue : Text.trim (' ' :: p.2) = p.2 :=
    (Text.trim_append_left hblank p.2).trans hp.value_trimmed
  rw [splitColon?, pairText, hrun.dropWhile]
  simp only [hrun.takeWhile, hp.key_trimmed, hvalue]

theorem rawPair : rawPair? (pairText p) = some p := by
  rw [rawPair?, hp.splitColon, Option.filter_some, if_pos]
  simp [hp.key_ne_nil, hp.value_ne_nil]

theorem trimmed : Text.trim (pairText p) = pairText p :=
  Text.trim_append_append ⟨hp.key_ne_nil, hp.key_trimmed⟩ ⟨hp.value_ne_nil, hp.value_trimmed⟩
    [':', ' ']

end IsPair

theorem unbroken_key {key : List Char} (h : ∀ c ∈ key, isPlain c = true ∧ c ≠ ',') :
    Unbroken {} (key ++ [':', ' ']) := by
  have hcolon : Unbroken {} [':', ' '] := by decide
  exact (unbroken_of_plain h 0).append hcolon

theorem IsPlainPair.isPiece {p : RawPair} (hp : IsPlainPair p) : IsPiece (pairText p) := by
  refine ⟨pairText_ne_nil p, hp.trimmed, ?_⟩
  have hscan := (unbroken_key hp.key_plain).append hp.value_unbroken
  rwa [List.append_assoc] at hscan

end Notation

end SpatialDiagram
