import Mathlib.Data.List.Basic
import Mathlib.Data.List.Induction
import SpatialDiagram.Keyed

/-!
# First occurrences

`List.eraseDups` keeps the first occurrence of each element. It gives the order
of everything that is filed under a name once: a new name goes to the end, a
known one keeps its place. What is filed under a name is the last entry, the
first one of the reversed list.
-/

namespace SpatialDiagram

theorem nodup_concat_iff {α : Type} (xs : List α) (x : α) :
    (xs ++ [x]).Nodup ↔ x ∉ xs ∧ xs.Nodup := by
  rw [(List.perm_append_singleton x xs).nodup_iff, List.nodup_cons]

section

variable {α : Type} [DecidableEq α]

/-- One more item is kept only if it is not there yet. -/
theorem eraseDups_concat (xs : List α) (x : α) :
    (xs ++ [x]).eraseDups = if x ∈ xs then xs.eraseDups else xs.eraseDups ++ [x] := by
  rw [List.eraseDups_append]
  by_cases hx : x ∈ xs <;> simp [hx, List.removeAll, List.eraseDups_cons]

/-- First occurrences do not repeat. -/
theorem nodup_eraseDups (xs : List α) : xs.eraseDups.Nodup := by
  induction xs using List.reverseRecOn with
  | nil => exact List.nodup_nil
  | append_singleton xs x ih =>
      rw [eraseDups_concat]
      split
      · exact ih
      · rename_i hx
        rw [nodup_concat_iff]
        exact ⟨fun hm => hx (List.mem_eraseDups.mp hm), ih⟩

theorem eraseDups_of_nodup {xs : List α} (h : xs.Nodup) : xs.eraseDups = xs := by
  induction xs using List.reverseRecOn with
  | nil => rfl
  | append_singleton xs x ih =>
      rw [nodup_concat_iff] at h
      rw [eraseDups_concat, if_neg h.1, ih h.2]

theorem length_eraseDups_le (xs : List α) : xs.eraseDups.length ≤ xs.length := by
  induction xs using List.reverseRecOn with
  | nil => exact Nat.le_refl _
  | append_singleton xs x ih =>
      rw [eraseDups_concat, List.length_append]
      split
      · exact Nat.le_add_right_of_le ih
      · simpa using ih

/-- Nothing is left out exactly if nothing occurs twice. -/
theorem length_eraseDups_eq_iff (xs : List α) : xs.eraseDups.length = xs.length ↔ xs.Nodup := by
  constructor
  · intro h
    induction xs using List.reverseRecOn with
    | nil => exact List.nodup_nil
    | append_singleton xs x ih =>
        rw [eraseDups_concat, List.length_append, List.length_singleton] at h
        by_cases hx : x ∈ xs
        · rw [if_pos hx] at h
          have hle := length_eraseDups_le xs
          omega
        · rw [if_neg hx, List.length_append, List.length_singleton, Nat.add_right_cancel_iff] at h
          exact (nodup_concat_iff xs x).mpr ⟨hx, ih h⟩
  · intro h
    rw [eraseDups_of_nodup h]

end

namespace Keyed

variable {κ α : Type} [DecidableEq κ]

/-- An entry under a new key goes to the end. -/
theorem put_of_not_mem {key : α → κ} {x : α} {xs : List α} (h : key x ∉ xs.map key) :
    put key x xs = xs ++ [x] := by
  induction xs with
  | nil => rfl
  | cons y ys ih =>
      rw [List.map_cons, List.mem_cons, not_or] at h
      rw [put, if_neg (Ne.symm h.1), ih h.2, List.cons_append]

/-- The entry filed last under a key. -/
def last? (key : α → κ) (k : κ) (xs : List α) : Option α := find? key k xs.reverse

/-- The last entry under a key is the newest one. -/
theorem last_concat (key : α → κ) (k : κ) (xs : List α) (x : α) :
    last? key k (xs ++ [x]) = if key x = k then some x else last? key k xs := by
  rw [last?, List.reverse_append]
  rfl

/-- Exactly the keys of a list have a last entry. -/
theorem last_isSome_iff (key : α → κ) (k : κ) (xs : List α) :
    (last? key k xs).isSome = true ↔ k ∈ xs.map key := by
  rw [last?, find_isSome_iff, List.map_reverse, List.mem_reverse]

/-- No later entry has the key of the last one. -/
theorem last_eq_some_iff (key : α → κ) (k : κ) (xs : List α) (x : α) :
    last? key k xs = some x ↔
      ∃ before after, xs = before ++ x :: after ∧ key x = k ∧ k ∉ after.map key := by
  induction xs using List.reverseRecOn with
  | nil => simp [last?]
  | append_singleton xs y ih =>
      rw [last_concat]
      by_cases hy : key y = k
      · rw [if_pos hy, Option.some_inj]
        constructor
        · rintro rfl
          exact ⟨xs, [], rfl, hy, by simp⟩
        · rintro ⟨before, after, he, hx, hafter⟩
          -- An entry behind the last one would have its key.
          rcases List.eq_nil_or_concat after with rfl | ⟨after, z, rfl⟩
          · exact (List.cons.inj (List.append_inj' he rfl).2).1
          · rw [List.concat_eq_append, ← List.cons_append, ← List.append_assoc] at he
            obtain ⟨-, hz⟩ := List.append_inj' he rfl
            obtain rfl := List.singleton_inj.mp hz
            simp [hy] at hafter
      · rw [if_neg hy, ih]
        constructor
        · rintro ⟨before, after, rfl, hx, hafter⟩
          exact ⟨before, after ++ [y], by simp, hx, by simp [hafter, Ne.symm hy]⟩
        · rintro ⟨before, after, he, hx, hafter⟩
          rcases List.eq_nil_or_concat after with rfl | ⟨after, z, rfl⟩
          · obtain ⟨rfl, hz⟩ := List.append_inj' he rfl
            obtain rfl := List.singleton_inj.mp hz
            exact absurd hx hy
          · rw [List.concat_eq_append, ← List.cons_append, ← List.append_assoc] at he
            obtain ⟨rfl, -⟩ := List.append_inj' he rfl
            refine ⟨before, after, rfl, hx, fun hm => hafter ?_⟩
            rw [List.concat_eq_append, List.map_append]
            exact List.mem_append_left _ hm

end Keyed

end SpatialDiagram
