import SpatialDiagram.Sorting.Runs

/-!
# Merging two runs

One of the two runs is held, so that its last item comes last. The items that
come next are asked about one by one, or by leaps once one run has given many
items in a row. A merge goes from the end if the second run is the shorter one.
-/

namespace SpatialDiagram

namespace Sorting

variable {α : Type} (before? : α → α → Option Bool)

/-- So many items of one run in a row make leaps worth while. -/
def longRow : Nat := 7

/-- The two runs of a merge. The last item of the one that is held comes last. -/
inductive Pile where
  | held
  | other

/-- The other run of the two. -/
def Pile.opposite : Pile → Pile
  | held => other
  | other => held

/-- Two runs that are being merged, and what is merged of them. -/
structure Merge (α : Type) where
  held : List α
  other : List α
  merged : List α := []
  /-- How many items of each run have come in a row. -/
  heldInRow : Nat := 0
  otherInRow : Nat := 0
  isLeaping : Bool := false
  /-- So many items of one run in a row start leaps. -/
  patience : Nat

namespace Merge

/-- What is left of a run. -/
def items (m : Merge α) : Pile → List α
  | .held => m.held
  | .other => m.other

/-- What is left in its right order, once there is nothing more to ask. -/
def rest? (m : Merge α) : Option (List α) :=
  match m.held, m.other with
  | held, [] => some held
  | [], other => some other
  | [x], other => some (other ++ [x])
  | _, _ => none

/-- Merges items of one run. -/
def give (m : Merge α) : Pile → Nat → Merge α
  | .held, k => { m with merged := m.merged ++ m.held.take k, held := m.held.drop k }
  | .other, k => { m with merged := m.merged ++ m.other.take k, other := m.other.drop k }

/-- Notes how many items of one run have come in a row. -/
def counted (m : Merge α) : Pile → Nat → Merge α
  | .held, k => { m with heldInRow := k }
  | .other, k => { m with otherInRow := k }

/-- Starts or ends the leaps, by what has come in a row. -/
def paced (m : Merge α) : Merge α :=
  if m.isLeaping then
    if longRow ≤ m.heldInRow ∨ longRow ≤ m.otherInRow then
      { m with patience := max 1 (m.patience - 1) }
    else
      { m with isLeaping := false, heldInRow := 0, otherInRow := 0, patience := m.patience + 1 }
  else { m with isLeaping := m.patience ≤ m.heldInRow ∨ m.patience ≤ m.otherInRow }

variable (fromEnd : Bool)

/-- Whether an item of the other run comes before one that is held. From the end, later items come
first, and the run that is held is the second one. -/
def otherFirst? (held other : α) : Option Bool :=
  if fromEnd then before? held other else before? other held

/-- Whether an item of one run comes before one of the opposite run. -/
def comesFirst? (x y : α) : Pile → Option Bool
  | .held => (otherFirst? before? fromEnd x y).map not
  | .other => otherFirst? before? fromEnd y x

/-- Merges one item. -/
def walk (m : Merge α) : Option (Merge α) :=
  match m.held, m.other with
  | h :: _, o :: _ => do
      if ← otherFirst? before? fromEnd h o then
        return ((m.give .other 1).counted .held 0).counted .other (m.otherInRow + 1)
      else return ((m.give .held 1).counted .other 0).counted .held (m.heldInRow + 1)
  | _, _ => some m

/-- Merges the items of one run that come before the next one of the opposite run, and this one. -/
def leapOver (p : Pile) (m : Merge α) : Option (Merge α) :=
  match m.items p.opposite with
  | [] => some m
  | y :: _ => do
      let k ← leap (comesFirst? before? fromEnd · y p) fromEnd (m.items p)
      let m := (m.give p k).counted p k
      return if m.rest?.isSome then m else m.give p.opposite 1

/-- Leaps over both runs, the first run first. -/
def leapBoth (m : Merge α) : Option (Merge α) := do
  let first := if fromEnd then Pile.other else Pile.held
  let m ← m.leapOver before? fromEnd first
  if m.rest?.isSome then return m else m.leapOver before? fromEnd first.opposite

/-- One step of a merge. -/
def step (m : Merge α) : Option (Merge α) :=
  if m.paced.isLeaping then m.paced.leapBoth before? fromEnd else m.paced.walk before? fromEnd

/-! ## The end of a merge -/

/-- The number of items that are not merged yet. -/
def left (m : Merge α) : Nat := m.held.length + m.other.length

/-- There is something to ask as long as two items are held and the other run has one. -/
theorem rest_eq_none_iff (m : Merge α) :
    m.rest? = none ↔ 2 ≤ m.held.length ∧ 1 ≤ m.other.length := by
  rw [rest?]
  rcases m.held with _ | ⟨h, _ | ⟨h', hs⟩⟩ <;> rcases m.other with _ | ⟨o, os⟩ <;> simp

section

variable {before? fromEnd} {m m' : Merge α} (hrest : m.rest? = none)

include hrest

theorem left_walk_lt (h : m.walk before? fromEnd = some m') : m'.left < m.left := by
  obtain ⟨hheld, hother⟩ := (rest_eq_none_iff m).mp hrest
  rw [walk] at h
  split at h
  · obtain ⟨first, -, h⟩ := Option.bind_eq_some_iff.mp h
    cases first <;> obtain rfl := Option.some.inj h <;>
      simp only [left, give, counted, List.length_drop] <;> omega
  · rename_i hnone
    obtain ⟨x, xs, hx⟩ := List.exists_cons_of_length_pos (Nat.zero_lt_of_lt hheld)
    obtain ⟨y, ys, hy⟩ := List.exists_cons_of_length_pos hother
    exact absurd hy (hnone x xs y ys hx)

theorem left_leapOver_lt {p : Pile} (h : m.leapOver before? fromEnd p = some m') :
    m'.left < m.left := by
  obtain ⟨hheld, hother⟩ := (rest_eq_none_iff m).mp hrest
  rw [leapOver] at h
  split at h
  · cases p <;> simp_all [items, Pile.opposite]
  · obtain ⟨k, -, h⟩ := Option.bind_eq_some_iff.mp h
    obtain rfl := Option.some.inj h
    split
    · -- Items have been merged, since there is nothing more to ask.
      rename_i hsome
      have hshort := mt (rest_eq_none_iff _).mpr (Option.ne_none_iff_isSome.mpr hsome)
      cases p <;> simp only [left, give, counted, List.length_drop] at hshort ⊢ <;> omega
    · cases p <;> simp only [left, give, counted, Pile.opposite, List.length_drop] <;> omega

theorem left_leapBoth_lt (h : m.leapBoth before? fromEnd = some m') : m'.left < m.left := by
  rw [leapBoth] at h
  obtain ⟨m₁, hfirst, h⟩ := Option.bind_eq_some_iff.mp h
  have hlt := left_leapOver_lt hrest hfirst
  split at h
  · obtain rfl := Option.some.inj h
    exact hlt
  · rename_i hnone
    exact Nat.lt_trans (left_leapOver_lt (by simpa using hnone) h) hlt

/-- Each step merges an item. -/
theorem left_step_lt (h : m.step before? fromEnd = some m') : m'.left < m.left := by
  have hpaced : m.paced.held = m.held ∧ m.paced.other = m.other := by
    rw [paced]
    split
    · split <;> exact ⟨rfl, rfl⟩
    · exact ⟨rfl, rfl⟩
  have hleft : m.paced.left = m.left := by rw [left, left, hpaced.1, hpaced.2]
  have hrest' : m.paced.rest? = none := by rw [rest?, hpaced.1, hpaced.2]; exact hrest
  rw [step] at h
  rw [← hleft]
  split at h
  · exact left_leapBoth_lt hrest' h
  · exact left_walk_lt hrest' h

end

/-- All items in order, and the patience that is left for further merges. -/
def run (m : Merge α) : Option (List α × Nat) :=
  match _hrest : m.rest? with
  | some rest => some (m.merged ++ rest, m.patience)
  | none =>
      match _hstep : m.step before? fromEnd with
      | some m' => m'.run
      | none => none
termination_by m.left
decreasing_by exact left_step_lt _hrest _hstep

end Merge

/-! ## Two runs -/

/-- Merges two runs that follow each other and overlap. The shorter one is held. -/
def mergeOverlap (patience : Nat) (first second : List α) : Option (List α × Nat) :=
  if first.length ≤ second.length then
    Merge.run before? false (Merge.give { held := first, other := second, patience } .other 1)
  else
    let m : Merge α := { held := second.reverse, other := first.reverse, patience }
    (Merge.run before? true (m.give .other 1)).map fun r => (r.1.reverse, r.2)

/-- Merges two runs that follow each other. Items that keep their places at either end are found
first. -/
def merge (patience : Nat) (first second : List α) : Option (List α × Nat) :=
  match second with
  | [] => some (first, patience)
  | y :: _ => do
      let k ← leap (fun x => (before? y x).map not) false first
      match (first.drop k).getLast? with
      | none => return (first ++ second, patience)
      | some x =>
          let j ← leap (fun z => (before? z x).map not) true second.reverse
          let (items, patience) ←
            mergeOverlap before? patience (first.drop k) (second.take (second.length - j))
          return (first.take k ++ items ++ second.drop (second.length - j), patience)

end Sorting

end SpatialDiagram
