import SpatialDiagram.Proofs.Scene.Editing
import SpatialDiagram.Proofs.Structure.Peeling

/-!
# The search for a cycle

The search keeps the path that it is on, last vertex first. An edge back to the
path closes a cycle. Where the search ends without one, all that it has seen off
its path is grounded: no walk from there goes on forever. So the search finds a
cycle exactly if there is one, which is also what peeling tells.
-/

namespace SpatialDiagram

namespace Digraph

variable {ι : Type} [DecidableEq ι] {g : Digraph ι}

/-- There is an edge from one vertex to the other. -/
def Edge (g : Digraph ι) (u v : ι) : Prop := v ∈ g.succ u

/-- All vertices differ, and all edges lead to vertices. -/
structure IsClosed (g : Digraph ι) : Prop where
  nodup : g.vertices.Nodup
  known : ∀ u v, g.Edge u v → v ∈ g.vertices

/-- Every walk from a vertex comes to an end. -/
def Grounded (g : Digraph ι) (u : ι) : Prop := Acc (fun v u => g.Edge u v) u

theorem edge_iff_of_mem (h : g.vertices.Nodup) {a : ι × List ι} (ha : a ∈ g.adjacency) {v : ι} :
    g.Edge a.1 v ↔ v ∈ a.2 := by
  rw [Edge, succ, (Keyed.lookup_eq_some_iff_mem h a.1 a.2).mpr ha]
  rfl

theorem mem_vertices_of_edge {u v : ι} (h : g.Edge u v) : u ∈ g.vertices := by
  by_contra hu
  have hnone : g.adjacency.lookup u = none := by
    rw [Keyed.lookup_eq_find, Option.map_eq_none_iff, ← Option.not_isSome_iff_eq_none,
      Keyed.find_isSome_iff]
    exact hu
  rw [Edge, succ, hnone] at h
  cases h

theorem not_mem_of_grounded {c : List ι} (hc : IsCycle g.Edge c) {u : ι} (hu : g.Grounded u) :
    u ∉ c := by
  induction hu with
  | intro u _ ih =>
      intro hmem
      obtain ⟨v, hv, huv⟩ := hc.exists_after hmem
      exact ih v huv hv

/-! ## What is found -/

theorem exists_takeWhile_append {v : ι} {path : List ι} (hv : v ∈ path) :
    ∃ after, path = path.takeWhile (· ≠ v) ++ v :: after := by
  induction path with
  | nil => cases hv
  | cons w path ih =>
      by_cases hw : w = v
      · exact ⟨path, by simp [hw]⟩
      · obtain ⟨after, hafter⟩ := ih ((List.mem_cons.mp hv).resolve_left (Ne.symm hw))
        refine ⟨after, ?_⟩
        rw [List.takeWhile_cons_of_pos (by simpa using hw), List.cons_append, ← hafter]

/-- An edge from the end of a path back to one of its vertices closes a cycle. -/
theorem isCycle_closing {u v : ι} {path : List ι}
    (hpath : (u :: path).IsChain fun v u => g.Edge u v) (hnodup : (u :: path).Nodup)
    (hback : g.Edge u v) (hv : v ∈ u :: path) :
    IsCycle g.Edge (closing (u :: path) v) := by
  obtain ⟨after, hsplit⟩ := exists_takeWhile_append hv
  have hhead : ((u :: path).takeWhile (· ≠ v) ++ [v]).head? = some u := by
    have := congrArg List.head? hsplit
    rw [List.head?_append] at this ⊢
    exact this.symm
  rw [closing, List.reverse_cons, isCycle_cons_concat_iff]
  rw [hsplit] at hpath hnodup
  constructor
  · have hparts := List.nodup_append.mp hnodup
    rw [List.nodup_cons, List.mem_reverse, List.nodup_reverse]
    exact ⟨fun hmem => hparts.2.2 v hmem v List.mem_cons_self rfl, hparts.1⟩
  · have hturned : v :: (((u :: path).takeWhile (· ≠ v)).reverse ++ [v]) =
        (v :: ((u :: path).takeWhile (· ≠ v) ++ [v])).reverse := by simp
    rw [hturned, List.isChain_reverse, List.isChain_cons, hhead]
    refine ⟨fun w hw => Option.some.inj hw ▸ hback, hpath.prefix ⟨after, by simp⟩⟩

/-- The successor of the last vertex of a path that a search turns to next. -/
def visit (g : Digraph ι) (room : Nat) (path : List ι) (s : Search ι) (v : ι) : Search ι :=
  if s.cycle.isSome then s
  else if v ∈ path then { s with cycle := some (closing path v) }
  else if v ∈ s.seen then s
  else g.explore room path s.seen v

theorem explore_succ (room : Nat) (path seen : List ι) (u : ι) :
    g.explore (room + 1) path seen u =
      (g.succ u).foldl (g.visit room (u :: path)) { seen := u :: seen } := rfl

/-- The search from the next vertex, unless that has been seen. -/
def enter (g : Digraph ι) (s : Search ι) (u : ι) : Search ι :=
  if s.cycle.isSome || u ∈ s.seen then s else g.explore g.vertices.length [] s.seen u

theorem findCycle_eq : g.findCycle? = (g.vertices.foldl g.enter { seen := [] }).cycle := rfl

/-- What an exploration finds is a cycle. -/
theorem isCycle_of_explore {room : Nat} {path seen : List ι} {u : ι}
    (hpath : (u :: path).IsChain fun v u => g.Edge u v) (hnodup : (u :: path).Nodup) {c : List ι}
    (hc : (g.explore room path seen u).cycle = some c) : IsCycle g.Edge c := by
  induction room generalizing path seen u c with
  | zero => cases hc
  | succ room ih =>
      rw [explore_succ] at hc
      refine List.foldlRecOn
        (motive := fun s : Search ι => ∀ c, s.cycle = some c → IsCycle g.Edge c) _ _ (by simp)
        (fun s hs v hv c hc => ?_) c hc
      rw [visit] at hc
      split_ifs at hc with hfound honpath hseen
      · exact hs c hc
      · obtain rfl := Option.some.inj hc
        exact isCycle_closing hpath hnodup hv honpath
      · exact hs c hc
      · exact ih (List.isChain_cons_cons.mpr ⟨hv, hpath⟩) (List.nodup_cons.mpr ⟨honpath, hnodup⟩) hc

/-- What the search finds is a cycle. -/
theorem isCycle_of_findCycle {c : List ι} (hc : g.findCycle? = some c) : IsCycle g.Edge c := by
  rw [findCycle_eq] at hc
  refine List.foldlRecOn (motive := fun s : Search ι => ∀ c, s.cycle = some c → IsCycle g.Edge c)
    _ _ (by simp) (fun s hs u _ c hc => ?_) c hc
  rw [enter] at hc
  split_ifs at hc
  · exact hs c hc
  · exact isCycle_of_explore (List.isChain_singleton u) (List.nodup_singleton u) hc

/-! ## What is missed -/

/-- A fold that keeps a cycle it has found and ends without one keeps a property of what is seen,
and shows another one of each element, if each step without a cycle does. -/
theorem foldl_of_no_cycle {ι : Type} {f : Search ι → ι → Search ι} {P : List ι → Prop}
    {Q : ι → Prop} {vs : List ι} (hkeep : ∀ s v, s.cycle.isSome → f s v = s)
    (hstep : ∀ s, ∀ v ∈ vs, s.cycle = none → P s.seen → (f s v).cycle = none → P (f s v).seen ∧ Q v)
    {s : Search ι} (hs : P s.seen) (hnone : (vs.foldl f s).cycle = none) :
    P (vs.foldl f s).seen ∧ ∀ v ∈ vs, Q v := by
  have hstay (t : Search ι) (us : List ι) (ht : (us.foldl f t).cycle = none) : t.cycle = none := by
    induction us generalizing t with
    | nil => exact ht
    | cons u us ih =>
        by_contra hsome
        have hsome : t.cycle.isSome := Option.isSome_iff_ne_none.mpr hsome
        have hu := ih (f t u) ht
        rw [hkeep t u hsome] at hu
        simp [hu] at hsome
  induction vs generalizing s with
  | nil => exact ⟨hs, by simp⟩
  | cons v vs ih =>
      have hv := hstay (f s v) vs hnone
      obtain ⟨hP, hQ⟩ := hstep s v List.mem_cons_self (hstay s (v :: vs) hnone) hs hv
      obtain ⟨hrest, hall⟩ := ih (fun s w hw => hstep s w (List.mem_cons_of_mem v hw)) hP hnone
      exact ⟨hrest, List.forall_mem_cons.mpr ⟨hQ, hall⟩⟩

/-- What has been seen off a path is grounded. -/
def AllGrounded (g : Digraph ι) (path seen : List ι) : Prop := ∀ u ∈ seen, u ∉ path → g.Grounded u

/-- A search without a cycle grounds what it sees. The room is enough for a path through all
vertices, and a path repeats none. -/
theorem grounded_of_explore (hg : g.IsClosed) {room : Nat} {path seen : List ι} {u : ι}
    (hroom : g.vertices.length ≤ path.length + room) (hnodup : (u :: path).Nodup)
    (hpath : u :: path ⊆ g.vertices) (hseen : g.AllGrounded path seen)
    (hnone : (g.explore room path seen u).cycle = none) :
    g.AllGrounded path (g.explore room path seen u).seen ∧ g.Grounded u := by
  induction room generalizing path seen u with
  | zero =>
      have hlength := (hnodup.subperm hpath).length_le
      simp only [List.length_cons] at hlength
      omega
  | succ room ih =>
      rw [explore_succ] at hnone ⊢
      have hstart : g.AllGrounded (u :: path) (u :: seen) := by
        intro v hv hoff
        obtain ⟨hne, hoff⟩ := not_or.mp (fun h => hoff (List.mem_cons.mpr h))
        exact hseen v ((List.mem_cons.mp hv).resolve_left hne) hoff
      have hstep (s : Search ι) (v : ι) (hv : v ∈ g.succ u) (hnone : s.cycle = none)
          (hs : g.AllGrounded (u :: path) s.seen)
          (hafter : (g.visit room (u :: path) s v).cycle = none) :
          g.AllGrounded (u :: path) (g.visit room (u :: path) s v).seen ∧ g.Grounded v := by
        rw [visit] at hafter ⊢
        split_ifs at hafter ⊢ with hfound honpath hknown
        · simp [hnone] at hfound
        · exact ⟨hs, hs v hknown honpath⟩
        · exact ih (by simp only [List.length_cons]; omega) (List.nodup_cons.mpr ⟨honpath, hnodup⟩)
            (List.cons_subset.mpr ⟨hg.known u v hv, hpath⟩) hs hafter
      obtain ⟨hend, hall⟩ := foldl_of_no_cycle (fun s v hs => if_pos hs) hstep hstart hnone
      have hu : g.Grounded u := ⟨u, fun v hv => hall v hv⟩
      refine ⟨fun v hv hoff => ?_, hu⟩
      by_cases hvu : v = u
      · exact hvu ▸ hu
      · exact hend v hv (by simp [hvu, hoff])

/-- Where the search finds nothing, every vertex is grounded. -/
theorem grounded_of_findCycle (hg : g.IsClosed) (hnone : g.findCycle? = none) {u : ι}
    (hu : u ∈ g.vertices) : g.Grounded u := by
  rw [findCycle_eq] at hnone
  have hstart : g.AllGrounded [] [] := by simp [AllGrounded]
  have hstep (s : Search ι) (v : ι) (hv : v ∈ g.vertices) (hnone : s.cycle = none)
      (hs : g.AllGrounded [] s.seen) (hafter : (g.enter s v).cycle = none) :
      g.AllGrounded [] (g.enter s v).seen ∧ g.Grounded v := by
    rw [enter] at hafter ⊢
    split_ifs at hafter ⊢ with hskip
    · have hknown : v ∈ s.seen := by simpa [hnone] using hskip
      exact ⟨hs, hs v hknown (by simp)⟩
    · exact grounded_of_explore hg (by simp) (List.nodup_singleton v) (by simpa using hv) hs hafter
  obtain ⟨-, hall⟩ := foldl_of_no_cycle (fun s v hs => by simp [enter, hs]) hstep hstart hnone
  exact hall u hu

/-! ## Peeling by predecessors -/

theorem mem_predecessors_iff (hg : g.IsClosed) {u v : ι} : u ∈ g.predecessors v ↔ g.Edge u v := by
  simp only [predecessors, List.mem_map, List.mem_filter, decide_eq_true_eq]
  constructor
  · rintro ⟨a, ⟨ha, hv⟩, rfl⟩
    exact (edge_iff_of_mem hg.nodup ha).mpr hv
  · intro h
    obtain ⟨a, ha, rfl⟩ := List.mem_map.mp (mem_vertices_of_edge h)
    exact ⟨a, ⟨ha, (edge_iff_of_mem hg.nodup ha).mp h⟩, rfl⟩

/-- The test for cycles says whether there is one. -/
theorem isCyclic_iff (hg : g.IsClosed) : g.isCyclic = true ↔ ∃ c, IsCycle g.Edge c := by
  have hqueue : IsQueue (g.vertices.map fun v => (v, g.predecessors v)) :=
    isQueue_map hg.nodup fun v u hu => mem_vertices_of_edge ((mem_predecessors_iff hg).mp hu)
  have hedge (u v : ι) :
      Awaits (g.vertices.map fun v => (v, g.predecessors v)) v u ↔ g.Edge u v := by
    rw [awaits_map_iff, mem_predecessors_iff hg]
    exact and_iff_right_of_imp (hg.known u v)
  have hleft := hqueue.left_eq_nil_iff
  simp only [hedge] at hleft
  rw [isCyclic, Bool.not_eq_true', ← Bool.not_eq_true, List.isEmpty_iff, hleft, not_not]

/-- The search finds a cycle exactly if the vertices cannot all be taken away. -/
theorem findCycle_eq_none_iff (hg : g.IsClosed) : g.findCycle? = none ↔ g.isCyclic = false := by
  rw [← Bool.not_eq_true, isCyclic_iff hg]
  constructor
  · rintro hnone ⟨c, hc⟩
    obtain ⟨u, hu⟩ := List.exists_mem_of_ne_nil c hc.ne_nil
    obtain ⟨v, -, huv⟩ := hc.exists_after hu
    exact not_mem_of_grounded hc (grounded_of_findCycle hg hnone (mem_vertices_of_edge huv)) hu
  · intro hno
    by_contra hsome
    obtain ⟨c, hc⟩ := Option.ne_none_iff_exists'.mp hsome
    exact hno ⟨c, isCycle_of_findCycle hc⟩

end Digraph

end SpatialDiagram
