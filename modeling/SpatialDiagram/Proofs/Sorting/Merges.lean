import SpatialDiagram.Proofs.Sorting.Runs
import SpatialDiagram.Sorting.Merges

/-!
# What a merge keeps and when it succeeds

Each step of a merge takes items off the two runs and loses none, and a merge
succeeds if the items of one run can be compared with those of the other. It
always compares two of them, so the merged run is of one kind if the two runs
are and only items of one kind can be compared.
-/

namespace SpatialDiagram

namespace Sorting

variable {α : Type} {before? : α → α → Option Bool} {fromEnd : Bool}

namespace Merge

variable {m m' m'' : Merge α}

/-! ## Steps -/

/-- One merge goes on to another: no item is lost, and none is added to what is left of a run. -/
structure GoesOn (m m' : Merge α) : Prop where
  items : (m'.merged ++ (m'.held ++ m'.other)).Perm (m.merged ++ (m.held ++ m.other))
  held : m'.held ⊆ m.held
  other : m'.other ⊆ m.other

theorem GoesOn.trans (h : m.GoesOn m') (h' : m'.GoesOn m'') : m.GoesOn m'' where
  items := h'.items.trans h.items
  held := List.Subset.trans h'.held h.held
  other := List.Subset.trans h'.other h.other

/-- Only what is left of the runs and what is merged matters. -/
theorem goesOn_of_eq (hmerged : m'.merged = m.merged) (hheld : m'.held = m.held)
    (hother : m'.other = m.other) : m.GoesOn m' where
  items := by rw [hmerged, hheld, hother]
  held := by rw [hheld]; exact List.Subset.refl _
  other := by rw [hother]; exact List.Subset.refl _

theorem goesOn_counted (m : Merge α) (p : Pile) (k : Nat) : m.GoesOn (m.counted p k) := by
  cases p <;> exact goesOn_of_eq rfl rfl rfl

theorem goesOn_paced (m : Merge α) : m.GoesOn m.paced := by
  rw [paced]
  split_ifs <;> exact goesOn_of_eq rfl rfl rfl

/-- Items that are merged are taken off their run. -/
theorem goesOn_give (m : Merge α) (p : Pile) (k : Nat) : m.GoesOn (m.give p k) := by
  cases p with
  | held =>
      refine ⟨.of_eq ?_, List.drop_subset k _, List.Subset.refl _⟩
      simp only [give, List.append_assoc]
      rw [← List.append_assoc (m.held.take k), List.take_append_drop]
  | other =>
      refine ⟨?_, List.Subset.refl _, List.drop_subset k _⟩
      calc m.merged ++ m.other.take k ++ (m.held ++ m.other.drop k)
        _ = m.merged ++ (m.other.take k ++ m.held ++ m.other.drop k) := by
          simp only [List.append_assoc]
        List.Perm _ (m.merged ++ (m.held ++ m.other.take k ++ m.other.drop k)) :=
          (List.perm_append_comm.append_right _).append_left _
        _ = m.merged ++ (m.held ++ m.other) := by rw [List.append_assoc, List.take_append_drop]

theorem goesOn_walk (h : m.walk before? fromEnd = some m') : m.GoesOn m' := by
  rw [walk] at h
  split at h
  · obtain ⟨first, -, h⟩ := Option.bind_eq_some_iff.mp h
    cases first <;> obtain rfl := Option.some.inj h <;>
      exact (goesOn_give m _ 1).trans ((goesOn_counted _ _ _).trans (goesOn_counted _ _ _))
  · obtain rfl := Option.some.inj h
    exact goesOn_of_eq rfl rfl rfl

theorem goesOn_leapOver {p : Pile} (h : m.leapOver before? fromEnd p = some m') : m.GoesOn m' := by
  rw [leapOver] at h
  split at h
  · obtain rfl := Option.some.inj h
    exact goesOn_of_eq rfl rfl rfl
  · obtain ⟨k, -, h⟩ := Option.bind_eq_some_iff.mp h
    obtain rfl := Option.some.inj h
    have hleapt := (goesOn_give m p k).trans (goesOn_counted _ p k)
    split
    · exact hleapt
    · exact hleapt.trans (goesOn_give _ _ 1)

/-- A step goes on: it takes items off the two runs and loses none. -/
theorem goesOn_step (h : m.step before? fromEnd = some m') : m.GoesOn m' := by
  refine (goesOn_paced m).trans ?_
  rw [step] at h
  split at h
  · obtain ⟨m₁, hfirst, h⟩ := Option.bind_eq_some_iff.mp h
    refine (goesOn_leapOver hfirst).trans ?_
    split at h
    · obtain rfl := Option.some.inj h
      exact goesOn_of_eq rfl rfl rfl
    · exact goesOn_leapOver h
  · exact goesOn_walk h

variable (before? fromEnd) in
/-- Every item that is held can be compared with every item of the other run. -/
def Answering (m : Merge α) : Prop :=
  ∀ x ∈ m.held, ∀ y ∈ m.other, (otherFirst? before? fromEnd x y).isSome = true

theorem Answering.goesOn (h : m.Answering before? fromEnd) (hm : m.GoesOn m') :
    m'.Answering before? fromEnd :=
  fun x hx y hy => h x (hm.held hx) y (hm.other hy)

theorem isSome_walk (h : m.Answering before? fromEnd) : (m.walk before? fromEnd).isSome = true := by
  rw [walk]
  split
  · rename_i x xs y ys hheld hother
    refine isSome_bind (h x (by simp [hheld]) y (by simp [hother])) fun first _ => ?_
    cases first <;> rfl
  · rfl

theorem isSome_leapOver (p : Pile) (h : m.Answering before? fromEnd) :
    (m.leapOver before? fromEnd p).isSome = true := by
  rw [leapOver]
  split
  · rfl
  · rename_i y ys hopposite
    have hy : y ∈ m.items p.opposite := hopposite ▸ List.mem_cons_self
    refine isSome_bind (isSome_leap fun x hx => ?_) fun k _ => rfl
    cases p with
    | held => simpa [comesFirst?] using h x hx y hy
    | other => exact h y hy x hx

/-- A step succeeds if the items of the two runs can be compared. -/
theorem isSome_step (h : m.Answering before? fromEnd) :
    (m.step before? fromEnd).isSome = true := by
  have hpaced := h.goesOn (goesOn_paced m)
  rw [step]
  split
  · refine isSome_bind (isSome_leapOver _ hpaced) fun m₁ hfirst => ?_
    split
    · rfl
    · exact isSome_leapOver _ (hpaced.goesOn (goesOn_leapOver hfirst))
  · exact isSome_walk hpaced

/-! ## Runs of steps -/

theorem run_of_rest {rest : List α} (h : m.rest? = some rest) :
    m.run before? fromEnd = some (m.merged ++ rest, m.patience) := by
  rw [run]
  split
  · rename_i rest' hrest
    obtain rfl := Option.some.inj (hrest.symm.trans h)
    rfl
  · rename_i hnone
    rw [h] at hnone
    cases hnone

theorem run_of_step (hrest : m.rest? = none) :
    m.run before? fromEnd = (m.step before? fromEnd).bind fun m' => m'.run before? fromEnd := by
  rw [run]
  split
  · rename_i rest hsome
    rw [hrest] at hsome
    cases hsome
  · split
    · rename_i hstep
      rw [hstep, Option.bind_some]
    · rename_i hstep
      rw [hstep, Option.bind_none]

/-- What is left, once there is nothing more to ask, is all of it. -/
theorem perm_of_rest {rest : List α} (h : m.rest? = some rest) : rest.Perm (m.held ++ m.other) := by
  rw [rest?] at h
  split at h
  · rename_i hother
    rw [hother, List.append_nil, Option.some.inj h]
  · rename_i hheld _
    rw [hheld, List.nil_append, Option.some.inj h]
  · rename_i hheld _
    rw [hheld, ← Option.some.inj h]
    exact List.perm_append_comm
  · cases h

/-- A merge that ends has lost no item. -/
theorem perm_of_run {r : List α × Nat} (h : m.run before? fromEnd = some r) :
    r.1.Perm (m.merged ++ (m.held ++ m.other)) := by
  induction m using run.induct before? fromEnd with
  | case1 m rest hrest =>
      rw [run_of_rest hrest] at h
      obtain rfl := Option.some.inj h
      exact (perm_of_rest hrest).append_left _
  | case2 m hrest m' hstep ih =>
      rw [run_of_step hrest, hstep] at h
      exact (ih h).trans (goesOn_step hstep).items
  | case3 m hrest hstep =>
      rw [run_of_step hrest, hstep] at h
      cases h

/-- A merge ends if the items of the two runs can be compared. -/
theorem isSome_run (h : m.Answering before? fromEnd) : (m.run before? fromEnd).isSome = true := by
  induction m using run.induct before? fromEnd with
  | case1 m rest hrest => rw [run_of_rest hrest]; rfl
  | case2 m hrest m' hstep ih =>
      rw [run_of_step hrest, hstep]
      exact ih (h.goesOn (goesOn_step hstep))
  | case3 m hrest hstep =>
      have hsome := isSome_step h
      rw [hstep] at hsome
      cases hsome

end Merge

/-! ## Two runs -/

variable {patience : Nat} {a b : List α} {r : List α × Nat}

theorem perm_of_mergeOverlap (h : mergeOverlap before? patience a b = some r) :
    r.1.Perm (a ++ b) := by
  rw [mergeOverlap] at h
  split at h
  · exact (Merge.perm_of_run h).trans (Merge.goesOn_give _ .other 1).items
  · obtain ⟨r', hr', rfl⟩ := Option.map_eq_some_iff.mp h
    calc r'.1.reverse.Perm r'.1 := List.reverse_perm _
      List.Perm _ (b.reverse ++ a.reverse) :=
        (Merge.perm_of_run hr').trans (Merge.goesOn_give _ .other 1).items
      _ = (a ++ b).reverse := List.reverse_append.symm
      List.Perm _ (a ++ b) := List.reverse_perm _

theorem isSome_mergeOverlap (h : ∀ x ∈ a, ∀ y ∈ b, Answers before? x y) :
    (mergeOverlap before? patience a b).isSome = true := by
  rw [mergeOverlap]
  split
  · refine Merge.isSome_run (Merge.Answering.goesOn ?_ (Merge.goesOn_give _ .other 1))
    exact fun x hx y hy => (h x hx y hy).2
  · rw [Option.isSome_map]
    refine Merge.isSome_run (Merge.Answering.goesOn ?_ (Merge.goesOn_give _ .other 1))
    exact fun y hy x hx => (h x (List.mem_reverse.mp hx) y (List.mem_reverse.mp hy)).2

/-- A merge loses no item. -/
theorem perm_of_merge (h : merge before? patience a b = some r) : r.1.Perm (a ++ b) := by
  cases b with
  | nil =>
      obtain rfl := Option.some.inj h
      rw [List.append_nil]
  | cons y ys =>
      obtain ⟨k, -, h⟩ := Option.bind_eq_some_iff.mp h
      split at h
      · obtain rfl := Option.some.inj h
        exact .refl _
      · obtain ⟨j, -, h⟩ := Option.bind_eq_some_iff.mp h
        obtain ⟨r', hr', h⟩ := Option.bind_eq_some_iff.mp h
        obtain rfl := Option.some.inj h
        refine (((perm_of_mergeOverlap hr').append_left _).append_right _).trans (.of_eq ?_)
        rw [← List.append_assoc, List.take_append_drop, List.append_assoc, List.take_append_drop]

/-- Two runs can be merged if each item of one can be compared with each item of the other. -/
theorem isSome_merge (h : ∀ x ∈ a, ∀ y ∈ b, Answers before? x y) :
    (merge before? patience a b).isSome = true := by
  cases b with
  | nil => rfl
  | cons y ys =>
      refine isSome_bind (isSome_leap fun x hx => ?_) fun k _ => ?_
      · simpa using (h x hx y List.mem_cons_self).2
      split
      · rfl
      · rename_i x hx
        have hxa : x ∈ a := List.mem_of_mem_drop (List.mem_of_getLast? hx)
        refine isSome_bind (isSome_leap fun z hz => ?_) fun j _ => ?_
        · simpa using (h x hxa z (List.mem_reverse.mp hz)).2
        · exact isSome_bind (isSome_mergeOverlap fun x hx z hz =>
            h x (List.mem_of_mem_drop hx) z (List.mem_of_mem_take hz)) fun _ _ => rfl

/-- Runs of related items that are merged are related to each other. -/
theorem pairwise_of_merge {R : α → α → Prop} (hR : ∀ a b, (before? a b).isSome = true → R a b)
    (hsymm : ∀ {a b}, R a b → R b a) (htrans : ∀ {a b c}, R a b → R b c → R a c)
    (hne : a ≠ [] ∧ b ≠ []) (ha : a.Pairwise R) (hb : b.Pairwise R)
    (h : merge before? patience a b = some r) : r.1.Pairwise R := by
  refine ((perm_of_merge h).pairwise_iff hsymm).mpr (List.pairwise_append.mpr ⟨ha, hb, ?_⟩)
  obtain ⟨x, xs, rfl⟩ := List.exists_cons_of_ne_nil hne.1
  obtain ⟨y, ys, rfl⟩ := List.exists_cons_of_ne_nil hne.2
  obtain ⟨k, hk, -⟩ := Option.bind_eq_some_iff.mp h
  have hasked : (before? y x).isSome = true := by simpa using asked_of_leap hk
  have hy := related_of_compared hR hsymm htrans ha List.mem_cons_self (.inl hasked)
  have hys := (List.pairwise_cons.mp hb).1
  intro z hz
  exact List.forall_mem_cons.mpr ⟨hsymm (hy z hz), fun w hw => htrans (hsymm (hy z hz)) (hys w hw)⟩

end Sorting

end SpatialDiagram
