import Mathlib.Data.List.Chain
import Mathlib.Data.List.Nodup
import Mathlib.Data.List.Perm.Subperm

/-!
# Cycles of a relation

A cycle is written as a list that ends where it starts. A chain that repeats an
element runs round a cycle, so a chain that is longer than the stock of elements
does. With it, elements each of which has another one of them before it lie
behind a cycle, if there are finitely many.
-/

namespace SpatialDiagram

variable {ι : Type} {r : ι → ι → Prop}

/-- A list that follows a relation from an element back to it and repeats no other. -/
structure IsCycle (r : ι → ι → Prop) (c : List ι) : Prop where
  moves : 2 ≤ c.length
  closed : c.head? = c.getLast?
  distinct : c.dropLast.Nodup
  chain : c.IsChain r

theorem isCycle_cons_concat_iff (v : ι) (vs : List ι) :
    IsCycle r (v :: (vs ++ [v])) ↔ (v :: vs).Nodup ∧ (v :: (vs ++ [v])).IsChain r := by
  have hdrop : (v :: (vs ++ [v])).dropLast = v :: vs := by
    rw [← List.cons_append, List.dropLast_concat]
  constructor
  · intro h
    exact ⟨hdrop ▸ h.distinct, h.chain⟩
  · rintro ⟨hdistinct, hchain⟩
    exact ⟨by simp, by simp [List.getLast?_cons], hdrop ▸ hdistinct, hchain⟩

namespace IsCycle

variable {c : List ι}

theorem exists_eq (h : IsCycle r c) : ∃ v vs, c = v :: (vs ++ [v]) := by
  obtain ⟨hmoves, hclosed, -, -⟩ := h
  match c, hmoves with
  | v :: w :: ws, _ =>
      obtain ⟨vs, u, hvs⟩ := List.eq_nil_or_concat (w :: ws) |>.resolve_left (by simp)
      rw [List.concat_eq_append] at hvs
      rw [hvs] at hclosed ⊢
      simp [List.getLast?_cons] at hclosed
      exact ⟨v, vs, by rw [hclosed]⟩

theorem mono {s : ι → ι → Prop} (h : IsCycle r c) (hrs : ∀ u v, r u v → s u v) : IsCycle s c :=
  { h with chain := h.chain.imp hrs }

theorem ne_nil (h : IsCycle r c) : c ≠ [] := List.ne_nil_of_length_pos (by have := h.moves; omega)

/-- Each element of a cycle has one of the cycle after it. -/
theorem exists_after (h : IsCycle r c) {u : ι} (hu : u ∈ c) : ∃ v ∈ c, r u v := by
  obtain ⟨v, vs, rfl⟩ := h.exists_eq
  have hmem : u ∈ v :: vs := by
    rcases List.mem_append.mp (by simpa using hu : u ∈ (v :: vs) ++ [v]) with hu | hu
    · exact hu
    · exact List.mem_singleton.mp hu ▸ List.mem_cons_self
  obtain ⟨ws, xs, hsplit⟩ := List.append_of_mem hmem
  have hcut : v :: (vs ++ [v]) = (ws ++ [u]) ++ (xs ++ [v]) := by
    rw [← List.cons_append, hsplit]
    simp
  have hchain := h.chain
  rw [hcut] at hchain ⊢
  refine ⟨(xs ++ [v]).head (by simp), List.mem_append_right _ (List.head_mem _), ?_⟩
  simpa using hchain.rel_getLast_head_of_append (by simp) (by simp)

/-- Each element of a cycle has one of the cycle before it. -/
theorem exists_before (h : IsCycle r c) {u : ι} (hu : u ∈ c) : ∃ v ∈ c, r v u := by
  obtain ⟨v, vs, rfl⟩ := h.exists_eq
  have hmem : u ∈ vs ++ [v] := by
    rcases List.mem_cons.mp hu with rfl | hu
    · simp
    · exact hu
  obtain ⟨ws, xs, hsplit⟩ := List.append_of_mem hmem
  have hcut : v :: (vs ++ [v]) = (v :: ws) ++ (u :: xs) := by rw [hsplit, List.cons_append]
  have hchain := h.chain
  rw [hcut] at hchain ⊢
  refine ⟨(v :: ws).getLast (by simp), List.mem_append_left _ (List.getLast_mem _), ?_⟩
  simpa using hchain.rel_getLast_head_of_append (by simp) (by simp)

/-- Each element of a cycle leads to each. -/
theorem transGen (h : IsCycle r c) {u v : ι} (hu : u ∈ c) (hv : v ∈ c) :
    Relation.TransGen r u v := by
  obtain ⟨w, ws, rfl⟩ := h.exists_eq
  have hpairs : (w :: (ws ++ [w])).Pairwise (Relation.TransGen r) :=
    (h.chain.imp fun _ _ hxy => .single hxy).pairwise
  obtain ⟨hfrom, hto⟩ := List.pairwise_cons.mp hpairs
  have hloop : Relation.TransGen r w w := hfrom w (by simp)
  have huw : Relation.TransGen r u w := by
    rcases List.mem_cons.mp hu with rfl | hu
    · exact hloop
    · rcases List.mem_append.mp hu with hu | hu
      · exact (List.pairwise_append.mp hto).2.2 u hu w List.mem_cons_self
      · exact List.mem_singleton.mp hu ▸ hloop
  rcases List.mem_cons.mp hv with rfl | hv
  · exact huw
  · exact huw.trans (hfrom v hv)

/-- Nothing rises all the way round a cycle. -/
theorem not_rising (h : IsCycle r c) {f : ι → Nat} : ¬ ∀ u ∈ c, ∀ v ∈ c, r u v → f u < f v := by
  intro hrise
  have hchain : IsCycle (fun u v => f u < f v) c :=
    { h with chain := h.chain.imp_of_mem_imp fun u v hu hv huv => hrise u hu v hv huv }
  obtain ⟨v, hv⟩ := List.exists_mem_of_ne_nil c h.ne_nil
  have hless : ∀ w, Relation.TransGen (fun u v => f u < f v) v w → f v < f w := by
    intro w hw
    induction hw with
    | single h => exact h
    | tail _ h ih => exact Nat.lt_trans ih h
  exact Nat.lt_irrefl _ (hless v (hchain.transGen hv hv))

end IsCycle

/-- A chain that repeats an element runs round a cycle. -/
theorem exists_isCycle_of_not_nodup {p : List ι} (hp : p.IsChain r) (hdup : ¬ p.Nodup) :
    ∃ c, IsCycle r c ∧ c <:+: p := by
  induction p with
  | nil => exact absurd List.nodup_nil hdup
  | cons v p ih =>
      by_cases hrest : p.Nodup
      · have hv : v ∈ p := by
          by_contra hv
          exact hdup (List.nodup_cons.mpr ⟨hv, hrest⟩)
        obtain ⟨vs, ws, rfl⟩ := List.append_of_mem hv
        have hstart : v :: (vs ++ [v]) <+: v :: (vs ++ v :: ws) := ⟨ws, by simp⟩
        refine ⟨v :: (vs ++ [v]), (isCycle_cons_concat_iff v vs).mpr ⟨?_, hp.prefix hstart⟩,
          hstart.isInfix⟩
        have hparts := List.nodup_append.mp hrest
        exact List.nodup_cons.mpr
          ⟨fun hmem => hparts.2.2 v hmem v List.mem_cons_self rfl, hparts.1⟩
      · obtain ⟨c, hc, hsub⟩ := ih hp.tail hrest
        exact ⟨c, hc, hsub.trans (List.suffix_cons v p).isInfix⟩

/-- A chain with more elements than there are runs round a cycle. -/
theorem exists_isCycle_of_length_lt {ids p : List ι} (hp : p.IsChain r) (hsub : p ⊆ ids)
    (hlength : ids.length < p.length) : ∃ c, IsCycle r c ∧ c <:+: p :=
  exists_isCycle_of_not_nodup hp fun hnodup =>
    absurd (hnodup.subperm hsub).length_le (Nat.not_le_of_lt hlength)

/-- If each of some elements of a list has another one of them before it, there is a cycle of
them. -/
theorem exists_isCycle_of_forall_before {ids : List ι} {P : ι → Prop} (hids : ∀ u, P u → u ∈ ids)
    (hbefore : ∀ u, P u → ∃ v, P v ∧ r v u) {u : ι} (hu : P u) :
    ∃ c, IsCycle r c ∧ ∀ v ∈ c, P v := by
  have hlong : ∀ n, ∃ v p, (v :: p).IsChain r ∧ (∀ w ∈ v :: p, P w) ∧ p.length = n := by
    intro n
    induction n with
    | zero => exact ⟨u, [], by simp, by simpa using hu, rfl⟩
    | succ n ih =>
        obtain ⟨v, p, hchain, hall, hlength⟩ := ih
        obtain ⟨w, hw, hwv⟩ := hbefore v (hall v List.mem_cons_self)
        exact ⟨w, v :: p, hchain.cons_cons hwv, List.forall_mem_cons.mpr ⟨hw, hall⟩,
          congrArg Nat.succ hlength⟩
  obtain ⟨v, p, hchain, hall, hlength⟩ := hlong ids.length
  obtain ⟨c, hc, hsub⟩ := exists_isCycle_of_length_lt hchain (fun w hw => hids w (hall w hw))
    (by simp [hlength])
  exact ⟨c, hc, fun w hw => hall w (hsub.subset hw)⟩

/-! ## Cycles through different elements -/

/-- A relation between different elements. -/
def Strict (r : ι → ι → Prop) (u v : ι) : Prop := r u v ∧ u ≠ v

theorem isChain_strict_of_nodup {p : List ι} (hp : p.IsChain r) (hnodup : p.Nodup) :
    p.IsChain (Strict r) := by
  rw [List.isChain_iff_forall_rel_of_append_cons_cons] at hp ⊢
  intro u v ws xs hcut
  refine ⟨hp hcut, ?_⟩
  rintro rfl
  simp [hcut, List.nodup_append] at hnodup

/-- A cycle that runs through more than one element never stands still. -/
theorem isCycle_strict_iff {c : List ι} : IsCycle (Strict r) c ↔ IsCycle r c ∧ 3 ≤ c.length := by
  constructor
  · intro h
    refine ⟨h.mono fun u v huv => huv.1, ?_⟩
    obtain ⟨v, vs, rfl⟩ := h.exists_eq
    cases vs with
    | nil => exact absurd rfl (List.isChain_pair.mp h.chain).2
    | cons w ws => simp
  · rintro ⟨h, hlength⟩
    obtain ⟨v, vs, rfl⟩ := h.exists_eq
    obtain ⟨hdistinct, hchain⟩ := (isCycle_cons_concat_iff v vs).mp h
    obtain ⟨w, ws, rfl⟩ := List.exists_cons_of_ne_nil (l := vs) (by rintro rfl; simp at hlength)
    rw [← List.cons_append] at hchain
    have hstraight := List.isChain_append.mp hchain
    refine ⟨h.moves, h.closed, h.distinct, List.cons_append ▸ List.isChain_append.mpr
      ⟨isChain_strict_of_nodup hstraight.1 hdistinct, List.isChain_singleton v,
        fun x hx y hy => ?_⟩⟩
    refine ⟨hstraight.2.2 x hx y hy, ?_⟩
    obtain rfl : v = y := by simpa using hy
    rintro rfl
    rw [List.getLast?_cons_cons] at hx
    exact (List.nodup_cons.mp hdistinct).1 (List.mem_of_getLast? hx)

theorem reflTransGen_strict_iff {u v : ι} :
    Relation.ReflTransGen (Strict r) u v ↔ Relation.ReflTransGen r u v := by
  constructor
  · exact Relation.ReflTransGen.mono (fun _ _ hr => hr.1) u v
  · intro h
    induction h with
    | refl => exact .refl
    | @tail w x _ hr ih =>
        by_cases hne : w = x
        · exact hne ▸ ih
        · exact ih.tail ⟨hr, hne⟩

/-- Whoever comes back to where it started has gone round a cycle. -/
theorem exists_isCycle_of_transGen {ids : List ι} (hids : ∀ u v, r u v → v ∈ ids) {u : ι}
    (h : Relation.TransGen r u u) : ∃ c, IsCycle r c := by
  have hbefore (v : ι) (hv : Relation.TransGen r v v) :
      ∃ w, Relation.TransGen r w w ∧ r w v := by
    obtain ⟨w, hw, hwv⟩ := Relation.TransGen.tail'_iff.mp hv
    exact ⟨w, .head' hwv hw, hwv⟩
  have hknown (v : ι) (hv : Relation.TransGen r v v) : v ∈ ids := by
    obtain ⟨w, -, hwv⟩ := hbefore v hv
    exact hids w v hwv
  obtain ⟨c, hc, -⟩ := exists_isCycle_of_forall_before hknown hbefore h
  exact ⟨c, hc⟩

end SpatialDiagram
