import SpatialDiagram.Sorting.Merges

/-!
# Sorting by a question that may have no answer

A list can be sorted only if each question that is asked has an answer. Its
runs wait to be merged; when two of them are merged depends on their lengths
alone. Which questions are asked matters where the answers contradict each
other.
-/

namespace SpatialDiagram

namespace Sorting

variable {α : Type} (before? : α → α → Option Bool)

/-! ## Runs that wait -/

/-- A run that waits to be merged, and how late it parts from the one behind it. -/
structure Pending (α : Type) where
  items : List α
  power : Nat := 0

/-- The runs that wait, the last one first, and the patience of the next merge. -/
structure Stack (α : Type) where
  runs : List (Pending α) := []
  patience : Nat := longRow

namespace Stack

/-- The first binary place in which two parts of a whole differ. -/
def power (total a b : Nat) : Nat :=
  (List.range (total + 1)).findIdx fun p => (a <<< p) / total ≠ (b <<< p) / total

/-- Merges the last run with those below it as long as they part later from it than it does from the
next one. -/
def settle (power patience : Nat) (last : List α) : List (Pending α) → Option (Stack α)
  | [] => some { runs := [{ items := last, power }], patience }
  | below :: rest =>
      if power < below.power then do
        let (items, patience) ← merge before? patience below.items last
        settle power patience items rest
      else some { runs := { items := last, power } :: below :: rest, patience }

/-- Adds a run to those that wait. The middles of the last run and of the new one, as parts of the
whole list, tell how late the two part. -/
def push (total : Nat) (s : Stack α) (run : List α) : Option (Stack α) :=
  match s.runs with
  | [] => some { s with runs := [{ items := run }] }
  | last :: below => do
      let start := (below.flatMap Pending.items).length
      let middle := 2 * start + last.items.length
      let power := power total middle (middle + last.items.length + run.length)
      let s ← settle before? power s.patience last.items below
      return { s with runs := { items := run } :: s.runs }

/-- Merges all runs that wait: the last two, unless the one below them is shorter than the last. -/
def collapse (patience : Nat) (last : List α) : List (List α) → Option (List α)
  | [] => some last
  | [below] => do return (← merge before? patience below last).1
  | below :: lowest :: rest =>
      if lowest.length < last.length then do
        let (items, patience) ← merge before? patience lowest below
        collapse patience last (items :: rest)
      else do
        let (items, patience) ← merge before? patience below last
        collapse patience items (lowest :: rest)
termination_by rs => rs.length

/-- The items of all runs that wait, in order. -/
def finish (s : Stack α) : Option (List α) :=
  match s.runs with
  | [] => some []
  | last :: below => collapse before? s.patience last.items (below.map Pending.items)

end Stack

/-! ## Lists -/

/-- The least length of a run: a short list is a single one, a long one is cut into a number of runs
that is a power of two, or close below it. -/
def leastRun (n : Nat) : Nat := (n + (1 <<< (n.log2 - 5)) - 1) >>> (n.log2 - 5)

/-- The items in order, if each question that is asked has an answer. -/
def sort (xs : List α) : Option (List α) := do
  let rs ← runs before? (leastRun xs.length) xs
  let s ← rs.foldlM (Stack.push before? xs.length) {}
  s.finish before?

/-- Adds items one after another and sorts after each. -/
def sortInTurn (xs : List α) : Option (List α) :=
  xs.foldlM (fun sorted x => sort before? (sorted ++ [x])) []

end Sorting

end SpatialDiagram
