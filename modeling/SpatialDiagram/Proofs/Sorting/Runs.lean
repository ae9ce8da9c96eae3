import Mathlib.Data.List.Pairwise
import Mathlib.Data.List.Perm.Basic
import SpatialDiagram.Sorting.Runs

/-!
# What runs keep and when they are found

Taking a list apart into runs reorders its items, and succeeds if any two of
them can be compared. The converse holds where only related items can be
compared: each item of a run is compared with another one, so what is related
to one is related to all.
-/

namespace SpatialDiagram

namespace Sorting

variable {α : Type}

/-- A sequence of questions has an answer if its first part has one and the second part goes on. -/
theorem isSome_bind {β γ : Type} {o : Option β} {f : β → Option γ} (ho : o.isSome = true)
    (hf : ∀ b, o = some b → (f b).isSome = true) : (o.bind f).isSome = true := by
  obtain ⟨b, rfl⟩ := Option.isSome_iff_exists.mp ho
  exact hf b rfl

/-! ## Searching -/

section

variable {passes? : α → Option Bool} {fromEnd : Bool}

theorem passing_of_drop {xs behind : List α} {x : α}
    (h : xs.drop (middle fromEnd xs.length) = x :: behind) :
    passing passes? fromEnd xs = (passes? x).bind fun passes =>
      if passes then
        (passing passes? fromEnd behind).map (middle fromEnd xs.length + 1 + ·)
      else passing passes? fromEnd (xs.take (middle fromEnd xs.length)) := by
  rw [passing]
  split
  · rename_i hnil
    rw [hnil] at h
    cases h
  · rename_i hcons
    obtain ⟨rfl, rfl⟩ := List.cons.inj (hcons.symm.trans h)
    cases passes? _ with
    | none => rfl
    | some passes => cases passes <;> cases passing passes? fromEnd _ <;> rfl

/-- A search by halving ends with a number if each item answers. -/
theorem isSome_passing {xs : List α} (h : ∀ x ∈ xs, (passes? x).isSome = true) :
    (passing passes? fromEnd xs).isSome = true := by
  induction xs using passing.induct fromEnd with
  | case1 xs hdrop =>
      rw [passing]
      split
      · rfl
      · rename_i hcons
        rw [hdrop] at hcons
        cases hcons
  | case2 xs x behind hdrop ihbehind ihfront =>
      have hmem : ∀ y ∈ x :: behind, y ∈ xs := fun y hy => List.mem_of_mem_drop (hdrop ▸ hy)
      rw [passing_of_drop hdrop]
      refine isSome_bind (h x (hmem x List.mem_cons_self)) fun passes _ => ?_
      cases passes with
      | true =>
          simpa using ihbehind fun y hy => h y (hmem y (List.mem_cons_of_mem x hy))
      | false => simpa using ihfront fun y hy => h y (List.mem_of_mem_take hy)

/-- A search by halving asks about some item. -/
theorem exists_asked_of_passing {xs : List α} (hne : xs ≠ []) {k : Nat}
    (h : passing passes? fromEnd xs = some k) : ∃ x ∈ xs, (passes? x).isSome = true := by
  have hlt : middle fromEnd xs.length < xs.length := by
    have hpos := List.length_pos_iff.mpr hne
    rw [middle]
    split <;> omega
  rw [passing_of_drop (List.drop_eq_getElem_cons hlt), Option.bind_eq_some_iff] at h
  obtain ⟨passes, hpasses, -⟩ := h
  exact ⟨_, List.getElem_mem hlt, Option.isSome_of_eq_some hpasses⟩

theorem isSome_passingBehind {xs : List α} (h : ∀ x ∈ xs, (passes? x).isSome = true)
    (place next : Nat) : (passingBehind passes? fromEnd xs place next).isSome = true := by
  have hbetween (place next : Nat) : (passing passes? fromEnd
      ((xs.drop (place + 1)).take (next - (place + 1)))).isSome = true :=
    isSome_passing fun x hx => h x (List.mem_of_mem_drop (List.mem_of_mem_take hx))
  induction place, next using passingBehind.induct xs with
  | case1 place next hnone =>
      rw [passingBehind]
      split
      · simpa using hbetween place next
      · rename_i hsome
        rw [hnone] at hsome
        cases hsome
  | case2 place next x hx ih =>
      rw [passingBehind]
      split
      · simpa using hbetween place next
      · rename_i y hy
        refine isSome_bind (h y (List.mem_of_getElem? hy)) fun passes _ => ?_
        cases passes with
        | true => simpa using ih
        | false => simpa using hbetween place next

/-- A search by leaps ends with a number if each item answers. -/
theorem isSome_leap {xs : List α} (h : ∀ x ∈ xs, (passes? x).isSome = true) :
    (leap passes? fromEnd xs).isSome = true := by
  cases xs with
  | nil => rfl
  | cons x xs =>
      refine isSome_bind (h x List.mem_cons_self) fun passes _ => ?_
      cases passes with
      | true => simpa using isSome_passingBehind h 0 1
      | false => rfl

/-- A search by leaps asks about the first item. -/
theorem asked_of_leap {x : α} {xs : List α} {k : Nat}
    (h : leap passes? fromEnd (x :: xs) = some k) : (passes? x).isSome = true := by
  rw [leap, Option.bind_eq_bind, Option.bind_eq_some_iff] at h
  obtain ⟨passes, hpasses, -⟩ := h
  exact Option.isSome_of_eq_some hpasses

end

variable {before? : α → α → Option Bool}

/-! ## What is kept -/

/-- An insertion adds its item and loses none. -/
theorem perm_of_insert {x : α} {xs ys : List α} (h : insert before? x xs = some ys) :
    ys.Perm (x :: xs) := by
  obtain ⟨k, -, h⟩ := Option.bind_eq_some_iff.mp h
  obtain rfl := Option.some.inj h
  exact List.perm_middle.trans (.of_eq (by rw [List.take_append_drop]))

/-- Insertions one after another add all their items. -/
theorem perm_of_insertAll {sorted xs ys : List α} (h : insertAll before? sorted xs = some ys) :
    ys.Perm (sorted ++ xs) := by
  induction xs generalizing sorted with
  | nil =>
      obtain rfl := Option.some.inj h
      rw [List.append_nil]
  | cons x xs ih =>
      obtain ⟨sorted', hinsert, h⟩ := Option.bind_eq_some_iff.mp h
      calc ys.Perm (sorted' ++ xs) := ih h
        List.Perm _ (x :: sorted ++ xs) := (perm_of_insert hinsert).append_right xs
        List.Perm _ (sorted ++ x :: xs) := List.perm_middle.symm

/-- A list is taken apart by its first run, which is made longer, and the runs behind it. -/
theorem runs_cons (least : Nat) (x : α) (xs : List α) :
    runs before? least (x :: xs) = (firstRun before? x xs).bind fun r =>
      (insertAll before? (if r.1 then (x :: xs.take r.2).reverse else x :: xs.take r.2)
        ((xs.drop r.2).take (least - (r.2 + 1)))).bind fun run =>
          (runs before? least ((xs.drop r.2).drop (least - (r.2 + 1)))).map (run :: ·) := by
  rw [runs]
  cases firstRun before? x xs with
  | none => rfl
  | some r =>
      simp only [Option.bind_eq_bind, Option.bind_some]
      cases insertAll before? _ _ with
      | none => rfl
      | some run => cases runs before? least _ <;> rfl

theorem perm_arranged (falls : Bool) (xs : List α) :
    (if falls then xs.reverse else xs).Perm xs := by
  cases falls with
  | true => exact List.reverse_perm xs
  | false => exact .refl _

/-- The runs of a list have its items. -/
theorem perm_of_runs {least : Nat} {xs : List α} {rs : List (List α)}
    (h : runs before? least xs = some rs) : rs.flatten.Perm xs := by
  induction xs using runs.induct least generalizing rs with
  | case1 =>
      rw [runs] at h
      obtain rfl := Option.some.inj h
      exact .refl _
  | case2 x xs ih =>
      rw [runs_cons] at h
      obtain ⟨⟨falls, k⟩, -, h⟩ := Option.bind_eq_some_iff.mp h
      obtain ⟨run, hrun, h⟩ := Option.bind_eq_some_iff.mp h
      obtain ⟨rs', hrs, rfl⟩ := Option.map_eq_some_iff.mp h
      have hrun' := (perm_of_insertAll hrun).trans ((perm_arranged falls _).append_right _)
      have hparts : x :: xs.take k ++ (xs.drop k).take (least - (k + 1)) ++
          (xs.drop k).drop (least - (k + 1)) = x :: xs := by
        rw [List.append_assoc, List.take_append_drop, List.cons_append, List.take_append_drop]
      exact (hrun'.append (ih k hrs)).trans (.of_eq hparts)

/-! ## Success -/

/-- Two items can be compared, whichever is asked about. -/
def Answers (before? : α → α → Option Bool) (a b : α) : Prop :=
  (before? a b).isSome = true ∧ (before? b a).isSome = true

theorem answers_symm {a b : α} (h : Answers before? a b) : Answers before? b a := ⟨h.2, h.1⟩

/-- What has an order among all items has one however they are reordered. -/
theorem answers_of_perm {xs ys : List α} (hperm : ys.Perm xs)
    (h : xs.Pairwise (Answers before?)) : ys.Pairwise (Answers before?) :=
  (hperm.pairwise_iff answers_symm).mpr h

theorem isSome_runBehind (falls : Bool) {x : α} {ys : List α}
    (h : (x :: ys).Pairwise (Answers before?)) :
    (runBehind before? falls x ys).isSome = true := by
  induction ys generalizing x with
  | nil => rfl
  | cons y ys ih =>
      obtain ⟨hx, hys⟩ := List.pairwise_cons.mp h
      refine isSome_bind (hx y List.mem_cons_self).2 fun first _ => ?_
      split
      · exact isSome_bind (ih hys) fun _ _ => rfl
      · rfl

/-- The first run is found where all items can be compared. -/
theorem isSome_firstRun {x : α} {xs : List α} (h : (x :: xs).Pairwise (Answers before?)) :
    (firstRun before? x xs).isSome = true := by
  cases xs with
  | nil => rfl
  | cons y ys =>
      obtain ⟨hx, hys⟩ := List.pairwise_cons.mp h
      exact isSome_bind (hx y List.mem_cons_self).2 fun falls _ =>
        isSome_bind (isSome_runBehind falls hys) fun _ _ => rfl

/-- An item that can be compared with all others is inserted. -/
theorem isSome_insert {x : α} {xs : List α} (h : ∀ y ∈ xs, Answers before? x y) :
    (insert before? x xs).isSome = true :=
  isSome_bind (isSome_passing fun y hy => by simpa using (h y hy).1) fun _ _ => rfl

/-- Items that can all be compared are inserted one after another. -/
theorem isSome_insertAll {sorted xs : List α} (h : (sorted ++ xs).Pairwise (Answers before?)) :
    (insertAll before? sorted xs).isSome = true := by
  induction xs generalizing sorted with
  | nil => rfl
  | cons x xs ih =>
      have hmiddle := answers_of_perm List.perm_middle.symm h
      have hx : ∀ y ∈ sorted, Answers before? x y := fun y hy =>
        (List.pairwise_cons.mp hmiddle).1 y (List.mem_append_left xs hy)
      exact isSome_bind (isSome_insert hx) fun sorted' hinsert =>
        ih (answers_of_perm ((perm_of_insert hinsert).append_right xs) hmiddle)

/-- A list of items that can all be compared is taken apart into runs. -/
theorem isSome_runs (least : Nat) {xs : List α} (h : xs.Pairwise (Answers before?)) :
    (runs before? least xs).isSome = true := by
  induction xs using runs.induct least with
  | case1 => rw [runs]; rfl
  | case2 x xs ih =>
      rw [runs_cons]
      refine isSome_bind (isSome_firstRun h) fun (falls, k) _ => ?_
      have hparts : (x :: xs.take k ++ ((xs.drop k).take (least - (k + 1)) ++
          (xs.drop k).drop (least - (k + 1)))).Pairwise (Answers before?) := by
        rwa [List.take_append_drop, List.cons_append, List.take_append_drop]
      rw [← List.append_assoc] at hparts
      obtain ⟨hrun, hrest, -⟩ := List.pairwise_append.mp hparts
      refine isSome_bind (isSome_insertAll (answers_of_perm
        ((perm_arranged falls _).append_right _) hrun)) fun run _ => ?_
      rw [Option.isSome_map]
      exact ih k hrest

/-! ## Items of one kind -/

section

variable {R : α → α → Prop} (hR : ∀ a b, (before? a b).isSome = true → R a b)
  (hsymm : ∀ {a b}, R a b → R b a) (htrans : ∀ {a b c}, R a b → R b c → R a c)

include hR hsymm htrans

/-- What is compared with one of some related items is related to all. -/
theorem related_of_compared {x y : α} {ys : List α} (hys : ys.Pairwise R) (hy : y ∈ ys)
    (hcompared : (before? x y).isSome = true ∨ (before? y x).isSome = true) :
    ∀ z ∈ ys, R x z := by
  have hxy : R x y := hcompared.elim (hR x y) fun h => hsymm (hR y x h)
  have : Std.Symm R := ⟨fun _ _ h => hsymm h⟩
  intro z hz
  by_cases hyz : y = z
  · exact hyz ▸ hxy
  · exact htrans hxy (hys.forall hy hz hyz)

/-- Neighbours in a run have been compared, so a transitive relation holds throughout it. -/
theorem pairwise_of_runBehind {falls : Bool} {x : α} {ys : List α} {k : Nat}
    (h : runBehind before? falls x ys = some k) : (x :: ys.take k).Pairwise R := by
  induction ys generalizing x k with
  | nil => simp
  | cons y ys ih =>
      obtain ⟨first, hfirst, h⟩ := Option.bind_eq_some_iff.mp h
      split at h
      · obtain ⟨k', hk, h⟩ := Option.bind_eq_some_iff.mp h
        obtain rfl := Option.some.inj h
        rw [List.take_succ_cons]
        exact List.pairwise_cons.mpr ⟨related_of_compared hR hsymm htrans (ih hk)
          List.mem_cons_self (.inr (Option.isSome_of_eq_some hfirst)), ih hk⟩
      · obtain rfl := Option.some.inj h
        exact List.pairwise_singleton R x

/-- The first run of a list has related items. -/
theorem pairwise_of_firstRun {falls : Bool} {x : α} {xs : List α} {k : Nat}
    (h : firstRun before? x xs = some (falls, k)) : (x :: xs.take k).Pairwise R := by
  cases xs with
  | nil => simp
  | cons y ys =>
      obtain ⟨falls', hfalls, h⟩ := Option.bind_eq_some_iff.mp h
      obtain ⟨k', hk, h⟩ := Option.bind_eq_some_iff.mp h
      obtain ⟨rfl, rfl⟩ := Prod.mk.inj (Option.some.inj h)
      have hys := pairwise_of_runBehind hR hsymm htrans hk
      rw [List.take_succ_cons]
      exact List.pairwise_cons.mpr ⟨related_of_compared hR hsymm htrans hys List.mem_cons_self
        (.inr (Option.isSome_of_eq_some hfalls)), hys⟩

/-- Inserted items have each been compared with one that is related to all others. -/
theorem pairwise_of_insertAll {sorted xs ys : List α} (hne : sorted ≠ [])
    (hsorted : sorted.Pairwise R) (h : insertAll before? sorted xs = some ys) :
    ys.Pairwise R := by
  induction xs generalizing sorted with
  | nil =>
      obtain rfl := Option.some.inj h
      exact hsorted
  | cons x xs ih =>
      obtain ⟨sorted', hinsert, h⟩ := Option.bind_eq_some_iff.mp h
      have hperm := perm_of_insert hinsert
      obtain ⟨k, hk, -⟩ := Option.bind_eq_some_iff.mp hinsert
      obtain ⟨y, hy, hasked⟩ := exists_asked_of_passing hne hk
      have hx := related_of_compared hR hsymm htrans hsorted hy (.inl (by simpa using hasked))
      refine ih (fun hnil => ?_) ?_ h
      · simpa [hnil] using hperm.length_eq
      · exact (hperm.pairwise_iff hsymm).mpr (List.pairwise_cons.mpr ⟨hx, hsorted⟩)

/-- The runs of a list are not empty and have related items. -/
theorem related_of_runs {least : Nat} {xs : List α} {rs : List (List α)}
    (h : runs before? least xs = some rs) : ∀ r ∈ rs, r ≠ [] ∧ r.Pairwise R := by
  induction xs using runs.induct least generalizing rs with
  | case1 =>
      rw [runs] at h
      obtain rfl := Option.some.inj h
      exact fun r hr => absurd hr List.not_mem_nil
  | case2 x xs ih =>
      rw [runs_cons] at h
      obtain ⟨⟨falls, k⟩, hfirst, h⟩ := Option.bind_eq_some_iff.mp h
      obtain ⟨run, hrun, h⟩ := Option.bind_eq_some_iff.mp h
      obtain ⟨rs', hrs, rfl⟩ := Option.map_eq_some_iff.mp h
      dsimp only at hrun hrs
      have harranged := perm_arranged falls (x :: xs.take k)
      have hne : (if falls then (x :: xs.take k).reverse else x :: xs.take k) ≠ [] :=
        fun hnil => by cases (hnil ▸ harranged).nil_eq
      refine List.forall_mem_cons.mpr ⟨⟨fun hnil => ?_, ?_⟩, ih k hrs⟩
      · have hlength := (perm_of_insertAll hrun).length_eq
        have hpos := List.length_pos_iff.mpr hne
        rw [hnil, List.length_append, List.length_nil] at hlength
        omega
      · exact pairwise_of_insertAll hR hsymm htrans hne
          ((harranged.pairwise_iff hsymm).mpr (pairwise_of_firstRun hR hsymm htrans hfirst)) hrun

end

end Sorting

end SpatialDiagram
