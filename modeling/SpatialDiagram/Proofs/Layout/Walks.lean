import SpatialDiagram.Proofs.Layout.Coverage
import SpatialDiagram.Proofs.Structure.Cycles

/-!
# Walks down the layers

The height of a member is one more than its layer. Two invariants carry a walk.
Heights are earned: a member of some height can be reached from a root by a
descent of as many members, and the cap is met only by a descent of more members
than there are. Heights are passed on: whoever has one is waiting in the queue
or has pushed each of its children to a greater one, unless the cap was met. A
walk ends with an empty queue, so in the end all children have been pushed.
-/

namespace SpatialDiagram

/-- Of several keys put with one value, each has that value afterwards. -/
theorem Table.get_putAll_const {κ ν : Type} [DecidableEq κ] (t : Table κ ν) (ks : List κ) (v : ν)
    (k : κ) : (t.putAll (ks.map fun k => (k, v))).get? k = if k ∈ ks then some v else t.get? k := by
  rw [get_putAll, ← List.map_reverse, Keyed.lookup_map_key]
  by_cases hk : k ∈ ks <;> simp [hk]

namespace Layers

variable {ι : Type} [DecidableEq ι] {ids : List ι} {childrenOf : ι → List ι} {isStart : ι → Prop}

theorem height_eq_succ_iff {layers : Table ι Nat} {u : ι} {l : Nat} :
    height layers u = l + 1 ↔ layers.get? u = some l := by
  rw [height]
  cases layers.get? u <;> simp

theorem height_eq_zero_iff {layers : Table ι Nat} {u : ι} :
    height layers u = 0 ↔ (layers.get? u).isNone = true := by
  rw [height]
  cases layers.get? u <;> simp

/-- A step down leads to a known child other than the member itself. -/
def Down (ids : List ι) (childrenOf : ι → List ι) : ι → ι → Prop :=
  Strict fun u v => v ∈ childrenOf u ∧ v ∈ ids

/-- The lists of members that lead step by step from one of the starts down to a member. -/
def descents (ids : List ι) (childrenOf : ι → List ι) (isStart : ι → Prop) (u : ι) :
    Set (List ι) :=
  {p | (∃ v, isStart v ∧ p.head? = some v) ∧ p.getLast? = some u ∧
    p.IsChain (Down ids childrenOf)}

omit [DecidableEq ι] in
/-- A descent goes on along every edge down. -/
theorem descents_concat {u v : ι} {p : List ι} (hp : p ∈ descents ids childrenOf isStart u)
    (huv : Down ids childrenOf u v) : p ++ [v] ∈ descents ids childrenOf isStart v := by
  obtain ⟨⟨root, hroot, hhead⟩, hlast, hchain⟩ := hp
  refine ⟨⟨root, hroot, by simp [List.head?_append, hhead]⟩, by simp, ?_⟩
  refine hchain.append (List.isChain_singleton v) fun x hx y hy => ?_
  obtain rfl := Option.some.inj (hlast.symm.trans hx)
  obtain rfl := Option.some.inj hy
  exact huv

/-! ## What an offer changes -/

/-- A later state of a walk: heights have grown, and who has moved is queued. -/
structure Grows (w w' : Walk ι) : Prop where
  height_le : ∀ u, height w.layers u ≤ height w'.layers u
  queued : ∀ u ∈ w.queue, u ∈ w'.queue
  moved : ∀ u, height w.layers u ≠ height w'.layers u → u ∈ w'.queue
  capped : w.capped = true → w'.capped = true

theorem Grows.refl (w : Walk ι) : Grows w w :=
  ⟨fun _ => Nat.le_refl _, fun _ hu => hu, fun _ hu => absurd rfl hu, id⟩

theorem Grows.trans {w₁ w₂ w₃ : Walk ι} (h : Grows w₁ w₂) (h' : Grows w₂ w₃) : Grows w₁ w₃ where
  height_le u := Nat.le_trans (h.height_le u) (h'.height_le u)
  queued u hu := h'.queued u (h.queued u hu)
  moved u hu := by
    by_cases hfirst : height w₁.layers u = height w₂.layers u
    · exact h'.moved u (hfirst ▸ hu)
    · exact h'.queued u (h.moved u hfirst)
  capped hc := h'.capped (h.capped hc)

/-- Offering a layer to a child takes no layer away. -/
theorem grows_offer (ids : List ι) (layer : Nat) (parent : ι) (w : Walk ι) (child : ι) :
    Grows w (offer ids layer parent w child) := by
  rw [offer]
  split_ifs with hskip hcap hlow
  · exact .refl w
  · exact ⟨fun _ => Nat.le_refl _, fun _ hu => hu, fun _ hu => absurd rfl hu, fun _ => rfl⟩
  · refine ⟨fun u => ?_, fun u hu => List.mem_append_left _ hu, fun u hu => ?_, id⟩
    · rw [height_put]
      split
      · rename_i hu
        exact hu ▸ Nat.le_succ_of_le hlow
      · exact Nat.le_refl _
    · rw [height_put] at hu
      split at hu
      · rename_i he
        simp [he]
      · exact absurd rfl hu
  · exact .refl w

/-- Offering layers to all children takes no layer away. -/
theorem grows_offers (ids : List ι) (layer : Nat) (parent : ι) (cs : List ι) (w : Walk ι) :
    Grows w (cs.foldl (offer ids layer parent) w) :=
  List.foldlRecOn cs _ (motive := Grows w) (.refl w)
    fun _ hw c _ => hw.trans (grows_offer ids layer parent _ c)

/-- Every child that is offered a layer is in that one or a deeper one in the end, unless the cap
was met. -/
theorem pushed_of_offers {layer : Nat} {parent child : ι} {cs : List ι} (hchild : child ∈ cs)
    (hne : child ≠ parent) (hid : child ∈ ids) (w : Walk ι) :
    (cs.foldl (offer ids layer parent) w).capped = true ∨
      layer < height (cs.foldl (offer ids layer parent) w).layers child := by
  induction cs generalizing w with
  | nil => cases hchild
  | cons c cs ih =>
      rcases List.mem_cons.mp hchild with rfl | hchild
      · have hrest := grows_offers ids layer parent cs (offer ids layer parent w child)
        have hoffer : (offer ids layer parent w child).capped = true ∨
            layer < height (offer ids layer parent w child).layers child := by
          rw [offer, if_neg (by simp [hne, hid])]
          split_ifs with hcap hlow
          · exact .inl rfl
          · right
            rw [height_put, if_pos rfl]
            exact Nat.lt_succ_self layer
          · exact .inr (Nat.lt_of_not_le hlow)
        exact hoffer.imp hrest.capped fun h => Nat.lt_of_lt_of_le h (hrest.height_le child)
      · exact ih hchild _

/-! ## Heights are earned -/

/-- Every layer that a walk has given is the length of some descent, and a capped walk has met one
longer than the ids it knows. -/
structure Earned (ids : List ι) (childrenOf : ι → List ι) (isStart : ι → Prop) (w : Walk ι) :
    Prop where
  queued : ∀ u ∈ w.queue, 0 < height w.layers u
  climbed : ∀ u, 0 < height w.layers u →
    ∃ p ∈ descents ids childrenOf isStart u, p.length = height w.layers u
  capped : w.capped = true → ∃ u, ∃ p ∈ descents ids childrenOf isStart u, ids.length < p.length

/-- Offering a layer to a child keeps every layer the length of a descent. -/
theorem earned_offer {u v : ι} {p : List ι} (hp : p ∈ descents ids childrenOf isStart u)
    (hv : v ∈ childrenOf u) {w : Walk ι} (h : Earned ids childrenOf isStart w) :
    Earned ids childrenOf isStart (offer ids p.length u w v) := by
  rw [offer]
  split_ifs with hskip hcap hlow
  · exact h
  · obtain ⟨hne, hid⟩ := not_or.mp hskip
    have hlonger := descents_concat hp ⟨⟨hv, Decidable.not_not.mp hid⟩, Ne.symm hne⟩
    exact { h with capped := fun _ => ⟨v, _, hlonger, by simpa using Nat.lt_succ_of_le hcap⟩ }
  · obtain ⟨hne, hid⟩ := not_or.mp hskip
    have hlonger := descents_concat hp ⟨⟨hv, Decidable.not_not.mp hid⟩, Ne.symm hne⟩
    refine ⟨fun x hx => ?_, fun x hx => ?_, h.capped⟩
    · rw [height_put]
      split
      · exact Nat.succ_pos _
      · rename_i hvx
        rcases List.mem_append.mp hx with hx | hx
        · exact h.queued x hx
        · exact absurd (List.mem_singleton.mp hx).symm hvx
    · rw [height_put] at hx ⊢
      split
      · rename_i hvx
        exact ⟨p ++ [v], hvx ▸ hlonger, by simp⟩
      · rename_i hvx
        rw [if_neg hvx] at hx
        exact h.climbed x hx
  · exact h

/-- A visit keeps every layer the length of a descent. -/
theorem earned_step {w : Walk ι} {u : ι} {rest : List ι} (hqueue : w.queue = u :: rest)
    (h : Earned ids childrenOf isStart w) :
    Earned ids childrenOf isStart (step ids childrenOf w u rest) := by
  obtain ⟨p, hp, hlength⟩ := h.climbed u (h.queued u (hqueue ▸ List.mem_cons_self))
  rw [step, ← hlength]
  refine List.foldlRecOn _ _ (motive := Earned ids childrenOf isStart) ?_
    fun _ hw v hv => earned_offer hp hv hw
  exact { h with queued := fun x hx => h.queued x (hqueue ▸ List.mem_cons_of_mem u hx) }

/-! ## Heights are passed on -/

/-- Every vertex that has a layer is still to be visited, or has passed a greater one on to all its
children. -/
structure PassedOn (ids : List ι) (childrenOf : ι → List ι) (isStart : ι → Prop) (w : Walk ι) :
    Prop where
  started : ∀ u, isStart u → 0 < height w.layers u
  pushed : ∀ u, 0 < height w.layers u → u ∈ w.queue ∨
    ∀ v, Down ids childrenOf u v → w.capped = true ∨ height w.layers u < height w.layers v

/-- A visit passes the layer of its vertex on to all the children. -/
theorem passedOn_step {w : Walk ι} {u : ι} {rest : List ι} (hqueue : w.queue = u :: rest)
    (h : PassedOn ids childrenOf isStart w) :
    PassedOn ids childrenOf isStart (step ids childrenOf w u rest) := by
  have hgrows : Grows { w with queue := rest } (step ids childrenOf w u rest) :=
    grows_offers ids (height w.layers u) u (childrenOf u) _
  refine ⟨fun x hx => Nat.lt_of_lt_of_le (h.started x hx) (hgrows.height_le x), fun x hx => ?_⟩
  by_cases hmoved : height w.layers x = height (step ids childrenOf w u rest).layers x
  · rw [← hmoved] at hx ⊢
    by_cases hxu : x = u
    · subst hxu
      right
      rintro v ⟨⟨hv, hid⟩, hne⟩
      exact pushed_of_offers hv (Ne.symm hne) hid _
    · refine (h.pushed x hx).imp (fun hmem => ?_) fun hall v hv => ?_
      · rw [hqueue] at hmem
        exact hgrows.queued x ((List.mem_cons.mp hmem).resolve_left hxu)
      · exact (hall v hv).imp hgrows.capped fun hlt => Nat.lt_of_lt_of_le hlt (hgrows.height_le v)
  · exact .inl (hgrows.moved x hmoved)

/-! ## The whole walk -/

/-- A whole walk keeps both invariants and ends with an empty queue. -/
theorem invariants_walk {w : Walk ι} (hearned : Earned ids childrenOf isStart w)
    (hpassed : PassedOn ids childrenOf isStart w) :
    Earned ids childrenOf isStart (walk ids childrenOf w) ∧
      PassedOn ids childrenOf isStart (walk ids childrenOf w) ∧
      (walk ids childrenOf w).queue = [] := by
  fun_induction walk ids childrenOf w with
  | case1 w hqueue => exact ⟨hearned, hpassed, hqueue⟩
  | case2 w u rest hqueue ih => exact ih (earned_step hqueue hearned) (passedOn_step hqueue hpassed)

/-- A member that the walk starts from. -/
def IsStart (members : List (Member ι)) (u : ι) : Prop := u ∈ (start members).queue

theorem height_start (members : List (Member ι)) (u : ι) :
    height (start members).layers u = if u ∈ (start members).queue then 1 else 0 := by
  rw [height, start, Table.ofList, Table.get_putAll_const]
  split_ifs <;> rfl

/-- At the start every layer is that of a root. -/
theorem earned_start (members : List (Member ι)) :
    Earned ids childrenOf (IsStart members) (start members) := by
  refine ⟨fun u hu => ?_, fun u hu => ?_, fun hcapped => by cases hcapped⟩
  · rw [height_start, if_pos hu]
    exact Nat.one_pos
  · rw [height_start] at hu ⊢
    split_ifs at hu ⊢ with hstart
    · exact ⟨[u], ⟨⟨u, hstart, rfl⟩, rfl, List.isChain_singleton u⟩, rfl⟩
    · cases hu

/-- At the start every root is still to be visited. -/
theorem passedOn_start (members : List (Member ι)) :
    PassedOn ids childrenOf (IsStart members) (start members) := by
  refine ⟨fun u (hu : u ∈ (start members).queue) => ?_, fun u hu => .inl ?_⟩
  · rw [height_start, if_pos hu]
    exact Nat.one_pos
  · by_contra hstart
    rw [height_start, if_neg hstart] at hu
    cases hu

/-- Heights grow along the descents of a walk that did not meet the cap, so none of them has more
members than its last one is high. -/
theorem length_le_height {w : Walk ι} (hpassed : PassedOn ids childrenOf isStart w)
    (hqueue : w.queue = []) (hcapped : w.capped = false) {u : ι} {p : List ι}
    (hp : p ∈ descents ids childrenOf isStart u) : p.length ≤ height w.layers u := by
  have hrise (x y : ι) (hx : 0 < height w.layers x) (hxy : Down ids childrenOf x y) :
      height w.layers x < height w.layers y := by
    have hpushed := (hpassed.pushed x hx).resolve_left (by simp [hqueue])
    exact (hpushed y hxy).resolve_left (by simp [hcapped])
  obtain ⟨⟨root, hroot, hhead⟩, hlast, hchain⟩ := hp
  have hroot := hpassed.started root hroot
  have hall : ∀ (q : List ι) (x : ι), 0 < height w.layers x →
      (x :: q).IsChain (Down ids childrenOf) → (x :: q).getLast? = some u →
        height w.layers x + q.length ≤ height w.layers u := by
    intro q
    induction q with
    | nil =>
        intro x _ _ hx
        obtain rfl : x = u := by simpa using hx
        exact Nat.le_refl _
    | cons y q ih =>
        intro x hx hxq hend
        obtain ⟨hxy, hyq⟩ := List.isChain_cons_cons.mp hxq
        have hless := hrise x y hx hxy
        have hrest := ih y (Nat.zero_lt_of_lt hless) hyq (by rwa [List.getLast?_cons_cons] at hend)
        simp only [List.length_cons]
        omega
  cases p with
  | nil => cases hhead
  | cons x q =>
      obtain rfl := Option.some.inj hhead
      have := hall q x hroot hchain hlast
      simp only [List.length_cons]
      omega

/-- A walk gives no vertex two layers. -/
theorem nodup_keys_walk {w : Walk ι} (h : w.layers.keys.Nodup) :
    (walk ids childrenOf w).layers.keys.Nodup := by
  fun_induction walk ids childrenOf w with
  | case1 w hqueue => exact h
  | case2 w u rest hqueue ih =>
      refine ih (List.foldlRecOn (childrenOf u) _
        (motive := fun w' : Walk ι => w'.layers.keys.Nodup) h fun w' hw' v _ => ?_)
      rw [offer]
      split_ifs
      · exact hw'
      · exact hw'
      · exact Table.nodup_keys_put hw' _ _
      · exact hw'

end Layers

end SpatialDiagram
