import SpatialDiagram.Proofs.Sorting.Merges
import SpatialDiagram.Sorting

/-!
# What sorting keeps and when it succeeds

Sorting reorders the items, and succeeds if any two of them can be compared.
The converse holds where only related items can be compared. All that happens
to the runs that wait is that two of them are merged, so what a merge keeps is
kept to the end.
-/

namespace SpatialDiagram

namespace Sorting

variable {α : Type} {before? : α → α → Option Bool}

/-! ## Merging runs in turn -/

variable (before?) in
/-- Runs become other runs by merging two neighbours at a time. -/
inductive Merging : List (List α) → List (List α) → Prop
  | refl (rs : List (List α)) : Merging rs rs
  | step (above : List (List α)) {below rs : List (List α)} {a b : List α} {patience : Nat}
      {r : List α × Nat} (hmerge : merge before? patience a b = some r)
      (h : Merging (above ++ r.1 :: below) rs) : Merging (above ++ b :: a :: below) rs

namespace Merging

variable {rs rs' : List (List α)}

/-- Merging loses no item. -/
theorem perm (h : Merging before? rs rs') : rs'.flatten.Perm rs.flatten := by
  induction h with
  | refl rs => exact .refl _
  | @step above below rs a b _ r hmerge _ ih =>
      have hpair := (perm_of_merge hmerge).trans List.perm_append_comm
      calc rs.flatten.Perm (above ++ r.1 :: below).flatten := ih
        _ = above.flatten ++ (r.1 ++ below.flatten) := by
          rw [List.flatten_append, List.flatten_cons]
        List.Perm _ (above.flatten ++ (b ++ a ++ below.flatten)) :=
          (hpair.append_right _).append_left _
        _ = (above ++ b :: a :: below).flatten := by
          simp only [List.flatten_append, List.flatten_cons, List.append_assoc]

/-- Runs of related items stay such runs, if only related items can be compared. -/
theorem related {R : α → α → Prop} (hR : ∀ a b, (before? a b).isSome = true → R a b)
    (hsymm : ∀ {a b}, R a b → R b a) (htrans : ∀ {a b c}, R a b → R b c → R a c)
    (h : Merging before? rs rs') (hrs : ∀ r ∈ rs, r ≠ [] ∧ r.Pairwise R) :
    ∀ r ∈ rs', r ≠ [] ∧ r.Pairwise R := by
  induction h with
  | refl rs => exact hrs
  | @step above below rs a b patience r hmerge _ ih =>
      refine ih fun q hq => ?_
      obtain ⟨ha, hapairs⟩ := hrs a (by simp)
      obtain ⟨hb, hbpairs⟩ := hrs b (by simp)
      rcases List.mem_append.mp hq with hq | hq
      · exact hrs q (List.mem_append_left _ hq)
      · rcases List.mem_cons.mp hq with rfl | hq
        · refine ⟨fun hnil => ha ?_, pairwise_of_merge hR hsymm htrans ⟨ha, hb⟩ hapairs hbpairs
            hmerge⟩
          exact (List.append_eq_nil_iff.mp (hnil ▸ perm_of_merge hmerge).nil_eq.symm).1
        · exact hrs q (by simp [hq])

theorem trans {rs'' : List (List α)} (h : Merging before? rs rs') (h' : Merging before? rs' rs'') :
    Merging before? rs rs'' := by
  induction h with
  | refl rs => exact h'
  | step above hmerge _ ih => exact .step above hmerge (ih h')

/-- Further runs do not matter. -/
theorem cons (r : List α) (h : Merging before? rs rs') : Merging before? (r :: rs) (r :: rs') := by
  induction h with
  | refl rs => exact .refl _
  | step above hmerge _ ih => exact .step (r :: above) hmerge ih

end Merging

namespace Stack

/-- The runs that wait, without the places at which they part. -/
def lists (s : Stack α) : List (List α) := s.runs.map Pending.items

variable {power patience total : Nat} {last run : List α} {below : List (Pending α)}
  {s s' : Stack α}

theorem merging_settle (h : settle before? power patience last below = some s) :
    Merging before? (last :: below.map Pending.items) s.lists := by
  induction below generalizing patience last with
  | nil =>
      obtain rfl := Option.some.inj h
      exact .refl _
  | cons run rest ih =>
      rw [settle] at h
      split at h
      · obtain ⟨r, hmerge, h⟩ := Option.bind_eq_some_iff.mp h
        exact .step [] hmerge (ih h)
      · obtain rfl := Option.some.inj h
        exact .refl _

theorem merging_push (h : push before? total s run = some s') :
    Merging before? (run :: s.lists) s'.lists := by
  rw [push] at h
  split at h
  · rename_i hruns
    obtain rfl := Option.some.inj h
    rw [lists, hruns]
    exact .refl _
  · rename_i last below hruns
    obtain ⟨s₁, hsettle, h⟩ := Option.bind_eq_some_iff.mp h
    obtain rfl := Option.some.inj h
    rw [lists, hruns]
    exact (merging_settle hsettle).cons run

/-- All that happens while runs come in is that some are merged. -/
theorem merging_pushAll {rs : List (List α)} (h : rs.foldlM (push before? total) s = some s') :
    Merging before? (rs.reverse ++ s.lists) s'.lists := by
  induction rs generalizing s with
  | nil =>
      obtain rfl := Option.some.inj h
      exact .refl _
  | cons r rs ih =>
      obtain ⟨s₁, hpush, h⟩ := Option.bind_eq_some_iff.mp h
      rw [List.reverse_cons, List.append_assoc, List.singleton_append]
      refine .trans ?_ (ih h)
      clear h ih
      induction rs.reverse with
      | nil => exact merging_push hpush
      | cons q qs ih => exact ih.cons q

theorem merging_collapse {rs : List (List α)} {ys : List α}
    (h : collapse before? patience last rs = some ys) : Merging before? (last :: rs) [ys] := by
  induction patience, last, rs using collapse.induct with
  | case1 patience last =>
      rw [collapse] at h
      obtain rfl := Option.some.inj h
      exact .refl _
  | case2 patience last below =>
      rw [collapse] at h
      obtain ⟨r, hmerge, h⟩ := Option.bind_eq_some_iff.mp h
      obtain rfl := Option.some.inj h
      exact .step [] hmerge (.refl _)
  | case3 patience last below lowest rest hlt ih =>
      rw [collapse, if_pos hlt] at h
      obtain ⟨r, hmerge, h⟩ := Option.bind_eq_some_iff.mp h
      exact .step [last] hmerge (ih r.1 r.2 h)
  | case4 patience last below lowest rest hlt ih =>
      rw [collapse, if_neg hlt] at h
      obtain ⟨r, hmerge, h⟩ := Option.bind_eq_some_iff.mp h
      exact .step [] hmerge (ih r.1 r.2 h)

end Stack

/-! ## Success -/

namespace Stack

variable {power patience total : Nat} {last run : List α} {s : Stack α}

theorem answers_of_append {a b : List α} (h : (a ++ b).Pairwise (Answers before?)) :
    ∀ x ∈ b, ∀ y ∈ a, Answers before? x y :=
  fun x hx y hy => answers_symm ((List.pairwise_append.mp h).2.2 y hy x hx)

/-- Two neighbours among runs whose items can be compared are merged, and the items of the runs can
still be compared. -/
theorem isSome_merge_bind {β : Type} (above : List (List α)) {below : List (List α)} {a b : List α}
    {f : List α × Nat → Option β}
    (h : (above ++ b :: a :: below).flatten.Pairwise (Answers before?))
    (hf : ∀ r : List α × Nat, (above ++ r.1 :: below).flatten.Pairwise (Answers before?) →
      (f r).isSome = true) :
    ((merge before? patience a b).bind f).isSome = true := by
  refine isSome_bind (isSome_merge ?_) fun r hmerge => hf r ?_
  · simp only [List.flatten_append, List.flatten_cons, ← List.append_assoc] at h
    have hpair := (List.pairwise_append.mp h).1
    simp only [List.append_assoc] at hpair
    exact answers_of_append (List.pairwise_append.mp hpair).2.1
  · exact answers_of_perm (Merging.step above hmerge (.refl _)).perm h

theorem isSome_settle {below : List (Pending α)}
    (h : (last :: below.map Pending.items).flatten.Pairwise (Answers before?)) :
    (settle before? power patience last below).isSome = true := by
  induction below generalizing patience last with
  | nil => rfl
  | cons run rest ih =>
      rw [settle]
      split
      · exact isSome_merge_bind [] h fun r hr => ih hr
      · rfl

theorem isSome_push (h : s.lists.flatten.Pairwise (Answers before?)) :
    (push before? total s run).isSome = true := by
  rw [push]
  split
  · rfl
  · rename_i last below hruns
    rw [lists, hruns] at h
    exact isSome_bind (isSome_settle h) fun _ _ => rfl

/-- Runs come in as long as all items can be compared. -/
theorem isSome_pushAll {rs : List (List α)}
    (h : (s.lists.flatten ++ rs.flatten).Pairwise (Answers before?)) :
    (rs.foldlM (push before? total) s).isSome = true := by
  induction rs generalizing s with
  | nil => rfl
  | cons r rs ih =>
      refine isSome_bind (isSome_push (List.pairwise_append.mp h).1) fun s' hpush => ih ?_
      refine answers_of_perm ?_ h
      rw [List.flatten_cons, ← List.append_assoc]
      exact ((merging_push hpush).perm.trans List.perm_append_comm).append_right _

theorem isSome_collapse {rs : List (List α)}
    (h : (last :: rs).flatten.Pairwise (Answers before?)) :
    (collapse before? patience last rs).isSome = true := by
  induction patience, last, rs using collapse.induct with
  | case1 patience last => rw [collapse]; rfl
  | case2 patience last below =>
      rw [collapse]
      exact isSome_merge_bind [] h fun _ _ => rfl
  | case3 patience last below lowest rest hlt ih =>
      rw [collapse, if_pos hlt]
      exact isSome_merge_bind [last] h fun r hr => ih r.1 r.2 hr
  | case4 patience last below lowest rest hlt ih =>
      rw [collapse, if_neg hlt]
      exact isSome_merge_bind [] h fun r hr => ih r.1 r.2 hr

end Stack

/-! ## Lists -/

/-- Sorting merges the runs of a list until one of them is left, if there are any. -/
theorem exists_merging_of_sort {xs ys : List α} (h : sort before? xs = some ys) :
    ∃ rs rs', runs before? (leastRun xs.length) xs = some rs ∧ Merging before? rs.reverse rs' ∧
      (rs' = [] ∧ ys = [] ∨ rs' = [ys]) := by
  obtain ⟨rs, hrs, h⟩ := Option.bind_eq_some_iff.mp h
  obtain ⟨s, hpush, h⟩ := Option.bind_eq_some_iff.mp h
  have hmerging := Stack.merging_pushAll hpush
  rw [show ({} : Stack α).lists = [] from rfl, List.append_nil] at hmerging
  rw [Stack.finish] at h
  split at h
  · rename_i hruns
    rw [Stack.lists, hruns] at hmerging
    exact ⟨rs, [], hrs, hmerging, .inl ⟨rfl, (Option.some.inj h).symm⟩⟩
  · rename_i last below hruns
    rw [Stack.lists, hruns] at hmerging
    exact ⟨rs, [ys], hrs, hmerging.trans (Stack.merging_collapse h), .inr rfl⟩

/-- Sorting loses and adds no items. -/
theorem perm_of_sort {xs ys : List α} (h : sort before? xs = some ys) : ys.Perm xs := by
  obtain ⟨rs, rs', hrs, hmerging, hys⟩ := exists_merging_of_sort h
  have hflatten : rs'.flatten = ys := by
    obtain ⟨rfl, rfl⟩ | rfl := hys
    · rfl
    · exact List.flatten_singleton
  calc ys.Perm rs'.flatten := .of_eq hflatten.symm
    List.Perm _ rs.reverse.flatten := hmerging.perm
    List.Perm _ rs.flatten := (List.reverse_perm rs).flatten
    List.Perm _ xs := perm_of_runs hrs

/-- Items of which any two can be compared can be sorted. -/
theorem isSome_sort {xs : List α} (h : xs.Pairwise (Answers before?)) :
    (sort before? xs).isSome = true := by
  refine isSome_bind (isSome_runs _ h) fun rs hrs => ?_
  have hall := answers_of_perm (perm_of_runs hrs) h
  refine isSome_bind (Stack.isSome_pushAll hall) fun s hpush => ?_
  have hlists : s.lists.flatten.Pairwise (Answers before?) := by
    refine answers_of_perm ((Stack.merging_pushAll hpush).perm.trans ?_) hall
    exact ((List.reverse_perm rs).append_right _).flatten.trans (by simp [Stack.lists])
  rw [Stack.finish]
  split
  · rfl
  · rename_i last below hruns
    rw [Stack.lists, hruns] at hlists
    exact Stack.isSome_collapse hlists

/-- Items that can be sorted are all of one kind if only items of one kind can be compared. -/
theorem pairwise_of_sort {R : α → α → Prop} (hR : ∀ a b, (before? a b).isSome = true → R a b)
    (hsymm : ∀ {a b}, R a b → R b a) (htrans : ∀ {a b c}, R a b → R b c → R a c)
    {xs ys : List α} (h : sort before? xs = some ys) : xs.Pairwise R := by
  refine ((perm_of_sort h).pairwise_iff hsymm).mp ?_
  obtain ⟨rs, rs', hrs, hmerging, hys⟩ := exists_merging_of_sort h
  obtain ⟨-, rfl⟩ | rfl := hys
  · exact .nil
  · have hruns := related_of_runs hR hsymm htrans hrs
    exact (hmerging.related hR hsymm htrans (fun r hr => hruns r (List.mem_reverse.mp hr)) ys
      (List.mem_singleton_self ys)).2

/-! ## Lists that grow -/

/-- A list that is sorted in turn keeps its items. -/
theorem perm_of_sortInTurn {xs ys : List α} (h : sortInTurn before? xs = some ys) :
    ys.Perm xs := by
  suffices hfrom : ∀ sorted : List α,
      xs.foldlM (fun sorted x => sort before? (sorted ++ [x])) sorted = some ys →
        ys.Perm (sorted ++ xs) from hfrom [] h
  clear h
  induction xs with
  | nil =>
      intro sorted h
      obtain rfl := Option.some.inj h
      rw [List.append_nil]
  | cons x xs ih =>
      intro sorted h
      obtain ⟨sorted', hsort, h⟩ := Option.bind_eq_some_iff.mp h
      calc ys.Perm (sorted' ++ xs) := ih sorted' h
        List.Perm _ (sorted ++ [x] ++ xs) := (perm_of_sort hsort).append_right xs
        _ = sorted ++ x :: xs := by rw [List.append_assoc, List.singleton_append]

/-- Items that can all be compared are sorted in turn. -/
theorem isSome_sortInTurn {xs : List α} (h : xs.Pairwise (Answers before?)) :
    (sortInTurn before? xs).isSome = true := by
  suffices hfrom : ∀ sorted : List α, (sorted ++ xs).Pairwise (Answers before?) →
      (xs.foldlM (fun sorted x => sort before? (sorted ++ [x])) sorted).isSome = true from
    hfrom [] h
  clear h
  induction xs with
  | nil => exact fun _ _ => rfl
  | cons x xs ih =>
      intro sorted hall
      rw [← List.singleton_append, ← List.append_assoc] at hall
      refine isSome_bind (isSome_sort (List.pairwise_append.mp hall).1) fun sorted' hsort => ?_
      exact ih sorted' (answers_of_perm ((perm_of_sort hsort).append_right xs) hall)

end Sorting

end SpatialDiagram
