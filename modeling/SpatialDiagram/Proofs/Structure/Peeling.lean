import Mathlib.Order.Bounds.Basic
import SpatialDiagram.Digraph
import SpatialDiagram.Proofs.Structure.Cycles

/-!
# What peeling tells

Vertices wait for others, and a round takes away those that wait for none. What
is never taken away waits in a cycle. If all goes, the rounds are as many as the
vertices of the longest chain in which each waits for the next: a round takes
the last vertex off every chain, and a chain of what a round leaves can be
prolonged by a vertex that the round takes.
-/

namespace SpatialDiagram

namespace Digraph

variable {ι : Type} {waiting : List (ι × List ι)}

/-- A vertex still waits for another one to go first. -/
def Awaits (waiting : List (ι × List ι)) (u v : ι) : Prop := ∃ w ∈ waiting, w.1 = u ∧ v ∈ w.2

/-- Every vertex has one entry, and waits for vertices that have one. -/
structure IsQueue (waiting : List (ι × List ι)) : Prop where
  nodup : (waiting.map Prod.fst).Nodup
  known : ∀ u v, Awaits waiting u v → v ∈ waiting.map Prod.fst

theorem Awaits.mem_keys {u v : ι} (h : Awaits waiting u v) : u ∈ waiting.map Prod.fst := by
  obtain ⟨w, hw, rfl, -⟩ := h
  exact List.mem_map_of_mem hw

theorem awaits_map_iff {us : List ι} {f : ι → List ι} {u v : ι} :
    Awaits (us.map fun u => (u, f u)) u v ↔ u ∈ us ∧ v ∈ f u := by
  constructor
  · rintro ⟨w, hw, rfl, hv⟩
    obtain ⟨u, hu, rfl⟩ := List.mem_map.mp hw
    exact ⟨hu, hv⟩
  · rintro ⟨hu, hv⟩
    exact ⟨(u, f u), List.mem_map_of_mem hu, rfl, hv⟩

theorem isQueue_map {us : List ι} {f : ι → List ι} (hus : us.Nodup) (hf : ∀ u, f u ⊆ us) :
    IsQueue (us.map fun u => (u, f u)) := by
  have hkeys : (us.map fun u => (u, f u)).map Prod.fst = us := by
    rw [List.map_map]
    exact List.map_id us
  refine ⟨by rwa [hkeys], fun u v h => ?_⟩
  rw [hkeys]
  exact hf u (awaits_map_iff.mp h).2

/-! ## One round -/

theorem mem_free_iff {u : ι} : u ∈ free waiting ↔ ∃ w ∈ waiting, w.1 = u ∧ w.2 = [] := by
  simp [free, List.isEmpty_iff]

/-- Who waits for nobody is free, and nobody else. -/
theorem IsQueue.not_mem_free_iff (h : IsQueue waiting) {u : ι} (hu : u ∈ waiting.map Prod.fst) :
    u ∉ free waiting ↔ ∃ v, Awaits waiting u v := by
  obtain ⟨w, hw, rfl⟩ := List.mem_map.mp hu
  rw [mem_free_iff]
  constructor
  · intro hfree
    obtain ⟨v, hv⟩ := List.exists_mem_of_ne_nil w.2 fun he => hfree ⟨w, hw, rfl, he⟩
    exact ⟨v, w, hw, rfl, hv⟩
  · rintro ⟨v, x, hx, hkey, hv⟩ ⟨y, hy, hkey', he⟩
    obtain rfl := List.inj_on_of_nodup_map h.nodup hx hy (hkey.trans hkey'.symm)
    rw [he] at hv
    cases hv

variable [DecidableEq ι]

theorem mem_keys_blocked_iff {u : ι} :
    u ∈ (blocked waiting).map Prod.fst ↔ ∃ v, Awaits waiting u v := by
  simp only [blocked, List.map_map, List.mem_map, List.mem_filter, Bool.not_eq_true',
    List.isEmpty_eq_false_iff_exists_mem, Function.comp_apply]
  constructor
  · rintro ⟨w, ⟨hw, v, hv⟩, rfl⟩
    exact ⟨v, w, hw, rfl, hv⟩
  · rintro ⟨v, w, hw, rfl, hv⟩
    exact ⟨w, ⟨hw, v, hv⟩, rfl⟩

/-- After a round a vertex awaits those of its own that still await another. -/
theorem IsQueue.awaits_blocked_iff (h : IsQueue waiting) {u v : ι} :
    Awaits (blocked waiting) u v ↔ Awaits waiting u v ∧ ∃ x, Awaits waiting v x := by
  have hkept : Awaits (blocked waiting) u v ↔ Awaits waiting u v ∧ v ∉ free waiting := by
    simp only [Awaits, blocked, List.mem_map, List.mem_filter]
    constructor
    · rintro ⟨_, ⟨w, ⟨hw, -⟩, rfl⟩, rfl, hv⟩
      obtain ⟨hv, hfree⟩ := List.mem_filter.mp hv
      exact ⟨⟨w, hw, rfl, hv⟩, of_decide_eq_true hfree⟩
    · rintro ⟨⟨w, hw, rfl, hv⟩, hfree⟩
      refine ⟨_, ⟨w, ⟨hw, ?_⟩, rfl⟩, rfl, List.mem_filter.mpr ⟨hv, decide_eq_true hfree⟩⟩
      rw [Bool.not_eq_true', List.isEmpty_eq_false_iff_exists_mem]
      exact ⟨v, hv⟩
  rw [hkept]
  exact and_congr_right fun hv => h.not_mem_free_iff (h.known u v hv)

/-- A round leaves a queue. -/
theorem IsQueue.round (h : IsQueue waiting) : IsQueue (blocked waiting) := by
  constructor
  · have hsub : ((blocked waiting).map Prod.fst).Sublist (waiting.map Prod.fst) := by
      rw [blocked, List.map_map]
      exact List.filter_sublist.map Prod.fst
    exact h.nodup.sublist hsub
  · intro u v hv
    exact mem_keys_blocked_iff.mpr (h.awaits_blocked_iff.mp hv).2

/-! ## All rounds -/

/-- What is left in the end waits for others that are left. -/
theorem IsQueue.left (h : IsQueue waiting) :
    IsQueue (peel waiting).2 ∧ (∀ w ∈ (peel waiting).2, w.2 ≠ []) ∧
      ∀ u v, Awaits (peel waiting).2 u v → Awaits waiting u v := by
  fun_induction peel waiting with
  | case1 waiting hless rounds left heq ih =>
      rw [heq] at ih
      obtain ⟨hqueue, hbusy, hsub⟩ := ih h.round
      exact ⟨hqueue, hbusy, fun u v hv => (h.awaits_blocked_iff.mp (hsub u v hv)).1⟩
  | case2 waiting hmore =>
      refine ⟨h, fun w hw => ?_, fun u v hv => hv⟩
      have hlength : (waiting.filter fun w => !w.2.isEmpty).length = waiting.length := by
        rw [blocked, List.length_map] at hmore
        exact Nat.le_antisymm (List.length_filter_le _ _) (Nat.le_of_not_lt hmore)
      simpa using List.length_filter_eq_length_iff.mp hlength w hw

/-- Vertices that wait for each other are left. -/
theorem IsQueue.mem_left (h : IsQueue waiting) {P : ι → Prop}
    (hP : ∀ u, P u → ∃ v, P v ∧ Awaits waiting u v) {u : ι} (hu : P u) :
    u ∈ (peel waiting).2.map Prod.fst := by
  fun_induction peel waiting with
  | case1 waiting hless rounds left heq ih =>
      rw [heq] at ih
      refine ih h.round fun v hv => ?_
      obtain ⟨w, hw, hvw⟩ := hP v hv
      obtain ⟨x, -, hwx⟩ := hP w hw
      exact ⟨w, hw, h.awaits_blocked_iff.mpr ⟨hvw, x, hwx⟩⟩
  | case2 waiting hmore =>
      obtain ⟨v, -, huv⟩ := hP u hu
      exact huv.mem_keys

/-- All vertices are taken away exactly if none wait in a cycle. -/
theorem IsQueue.left_eq_nil_iff (h : IsQueue waiting) :
    (peel waiting).2 = [] ↔ ¬ ∃ c, IsCycle (fun u v => Awaits waiting v u) c := by
  constructor
  · rintro hnil ⟨c, hc⟩
    obtain ⟨u, hu⟩ := List.exists_mem_of_ne_nil c hc.ne_nil
    have hleft := h.mem_left (P := (· ∈ c)) (fun v hv => hc.exists_before hv) hu
    simp [hnil] at hleft
  · intro hnone
    obtain ⟨hqueue, hbusy, hsub⟩ := h.left
    by_contra hne
    have hbefore (u : ι) (hu : u ∈ (peel waiting).2.map Prod.fst) :
        ∃ v, v ∈ (peel waiting).2.map Prod.fst ∧ Awaits waiting u v := by
      obtain ⟨w, hw, rfl⟩ := List.mem_map.mp hu
      obtain ⟨v, hv⟩ := List.exists_mem_of_ne_nil w.2 (hbusy w hw)
      have hwaits : Awaits (peel waiting).2 w.1 v := ⟨w, hw, rfl, hv⟩
      exact ⟨v, hqueue.known _ _ hwaits, hsub _ _ hwaits⟩
    obtain ⟨w, hw⟩ := List.exists_mem_of_ne_nil _ hne
    obtain ⟨c, hc, -⟩ :=
      exists_isCycle_of_forall_before (fun _ hu => hu) hbefore (List.mem_map_of_mem hw)
    exact hnone ⟨c, hc⟩

/-! ## Counting the rounds -/

/-- The chains of vertices each of which waits for the next. -/
def chains (waiting : List (ι × List ι)) : Set (List ι) :=
  {p | p.IsChain (Awaits waiting) ∧ ∀ u ∈ p, u ∈ waiting.map Prod.fst}

/-- A round leaves a chain without its last vertex, at least. -/
theorem IsQueue.dropLast_mem_chains (h : IsQueue waiting) {p : List ι} (hp : p ∈ chains waiting) :
    p.dropLast ∈ chains (blocked waiting) := by
  obtain ⟨hchain, -⟩ := hp
  induction p with
  | nil => simp [chains]
  | cons u p ih =>
      match p, ih, hchain with
      | [], _, _ => simp [chains]
      | [v], _, hchain =>
          have huv := List.isChain_pair.mp hchain
          simpa [chains] using (mem_keys_blocked_iff.mpr ⟨v, huv⟩)
      | v :: w :: p, ih, hchain =>
          obtain ⟨huv, hrest⟩ := List.isChain_cons_cons.mp hchain
          have hvw := (List.isChain_cons_cons.mp hrest).1
          obtain ⟨hchain', hkeys⟩ := ih hrest
          rw [List.dropLast_cons_cons] at hchain' hkeys ⊢
          refine ⟨?_, ?_⟩
          · exact List.isChain_cons_cons.mpr ⟨h.awaits_blocked_iff.mpr ⟨huv, w, hvw⟩, hchain'⟩
          · exact List.forall_mem_cons.mpr ⟨mem_keys_blocked_iff.mpr ⟨v, huv⟩, hkeys⟩

/-- Every chain that a round leaves is one shorter than some chain before the round. -/
theorem IsQueue.exists_chain_of_blocked (h : IsQueue waiting) (hne : waiting ≠ []) {p : List ι}
    (hp : p ∈ chains (blocked waiting)) :
    ∃ q ∈ chains waiting, q.length = p.length + 1 := by
  obtain ⟨hchain, hkeys⟩ := hp
  rcases List.eq_nil_or_concat p with rfl | ⟨q, u, rfl⟩
  · obtain ⟨w, hw⟩ := List.exists_mem_of_ne_nil _ hne
    exact ⟨[w.1], ⟨by simp, by simpa using ⟨w.2, hw⟩⟩, rfl⟩
  · rw [List.concat_eq_append] at hchain hkeys ⊢
    have hsub : (q ++ [u]).IsChain (Awaits waiting) :=
      hchain.imp fun v w hvw => (h.awaits_blocked_iff.mp hvw).1
    have hlast := mem_keys_blocked_iff.mp (hkeys u (by simp))
    obtain ⟨v, huv⟩ := hlast
    refine ⟨(q ++ [u]) ++ [v], ⟨hsub.append (List.isChain_singleton v) ?_, ?_⟩, by simp⟩
    · simpa using huv
    · intro w hw
      rcases List.mem_append.mp hw with hw | hw
      · obtain ⟨x, hx⟩ := mem_keys_blocked_iff.mp (hkeys w hw)
        exact hx.mem_keys
      · obtain rfl := List.mem_singleton.mp hw
        exact h.known u _ huv

/-- If all vertices are taken away, it takes as many rounds as the longest chain has vertices. -/
theorem IsQueue.rounds (h : IsQueue waiting) (hleft : (peel waiting).2 = []) :
    IsGreatest (List.length '' chains waiting) (peel waiting).1 := by
  fun_induction peel waiting with
  | case1 waiting hless rounds left heq ih =>
      rw [heq] at ih
      obtain ⟨⟨p, hp, hlength⟩, hupper⟩ := ih h.round hleft
      have hne : waiting ≠ [] := List.ne_nil_of_length_pos (Nat.zero_lt_of_lt hless)
      obtain ⟨q, hq, hlonger⟩ := h.exists_chain_of_blocked hne hp
      refine ⟨⟨q, hq, hlonger.trans (congrArg Nat.succ hlength)⟩, ?_⟩
      rintro _ ⟨q, hq, rfl⟩
      have hshorter := hupper ⟨q.dropLast, h.dropLast_mem_chains hq, rfl⟩
      rw [List.length_dropLast] at hshorter
      omega
  | case2 waiting hmore =>
      subst hleft
      refine ⟨⟨[], by simp [chains], rfl⟩, ?_⟩
      rintro _ ⟨q, ⟨-, hkeys⟩, rfl⟩
      cases q with
      | nil => exact Nat.le_refl 0
      | cons u q => exact absurd (hkeys u List.mem_cons_self) (by simp)

end Digraph

end SpatialDiagram
