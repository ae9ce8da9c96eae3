/-!
# Runs

Whether one item goes before another is asked of two items at a time, and a
question may have no answer. A list is a row of runs, in each of which every
item or none goes before the one in front of it. A run that is too short is
made longer by the items behind it, each of them put in the place that halving
finds.
-/

namespace SpatialDiagram

namespace Sorting

variable {α : Type}

/-! ## Searching -/

section

variable (passes? : α → Option Bool) (fromEnd : Bool)

/-- The place in the middle. Of two of them it is the later one, counted from the start. -/
def middle (n : Nat) : Nat := if fromEnd then (n - 1) / 2 else n / 2

/-- The number of items in front that pass, found by halving. -/
def passing (xs : List α) : Option Nat :=
  match _h : xs.drop (middle fromEnd xs.length) with
  | [] => some 0
  | x :: behind => do
      if ← passes? x then return middle fromEnd xs.length + 1 + (← passing behind)
      else passing (xs.take (middle fromEnd xs.length))
termination_by xs.length
decreasing_by
  all_goals
    have hlength := congrArg List.length _h
    simp only [List.length_drop, List.length_cons, List.length_take] at hlength ⊢
    omega

/-- The number of items in front that pass, if that at one place does: leaps on, each time twice as
far, and halves what the last leap has gone over. -/
def passingBehind (xs : List α) (place next : Nat) : Option Nat :=
  let between := (xs.drop (place + 1)).take (next - (place + 1))
  match _h : xs[next]? with
  | none => (passing passes? fromEnd between).map (place + 1 + ·)
  | some x => do
      if ← passes? x then passingBehind xs next (2 * next + 1)
      else (passing passes? fromEnd between).map (place + 1 + ·)
termination_by xs.length - next
decreasing_by
  obtain ⟨hlt, -⟩ := List.getElem?_eq_some_iff.mp _h
  omega

/-- The number of items in front that pass, found by leaps. -/
def leap (xs : List α) : Option Nat :=
  match xs with
  | [] => some 0
  | x :: _ => do if ← passes? x then passingBehind passes? fromEnd xs 0 1 else return 0

end

variable (before? : α → α → Option Bool)

/-! ## Runs -/

/-- The number of items behind one that go on falling or rising: each goes before the one in front
of it, or none does. -/
def runBehind (falls : Bool) (x : α) : List α → Option Nat
  | [] => some 0
  | y :: ys => do
      if (← before? y x) = falls then return (← runBehind falls y ys) + 1 else return 0

/-- Whether the run at the start of a list falls, and the number of items behind its first one. -/
def firstRun (x : α) : List α → Option (Bool × Nat)
  | [] => some (false, 0)
  | y :: ys => do
      let falls ← before? y x
      return (falls, (← runBehind before? falls y ys) + 1)

/-- Puts an item among others, behind those that it does not go before. -/
def insert (x : α) (xs : List α) : Option (List α) := do
  let k ← passing (fun y => (before? x y).map not) false xs
  return xs.take k ++ x :: xs.drop k

/-- Puts items among others, one after another. -/
def insertAll (sorted xs : List α) : Option (List α) :=
  xs.foldlM (fun sorted x => insert before? x sorted) sorted

/-- The runs that make up a list, each in its right order and none but the last one too short. -/
def runs (least : Nat) : List α → Option (List (List α))
  | [] => some []
  | x :: xs => do
      let (falls, k) ← firstRun before? x xs
      let run := if falls then (x :: xs.take k).reverse else x :: xs.take k
      let more := least - (k + 1)
      let run ← insertAll before? run ((xs.drop k).take more)
      return run :: (← runs least ((xs.drop k).drop more))
termination_by xs => xs.length
decreasing_by simp only [List.length_drop, List.length_cons]; omega

end Sorting

end SpatialDiagram
