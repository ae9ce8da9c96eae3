import SpatialDiagram.Trace

/-!
# How computations end

A computation ends in a value or in a failure. Whether it fails, and how, can
be found part by part: a sequence fails as its first failing part does, and so
does a fold whose steps fail or not whatever has been built up before.
-/

namespace SpatialDiagram

/-! ## Optional values and results -/

theorem findSome_congr {α β : Type} {f g : α → Option β} {xs : List α}
    (h : ∀ x ∈ xs, f x = g x) : xs.findSome? f = xs.findSome? g := by
  induction xs with
  | nil => rfl
  | cons x xs ih =>
      rw [List.findSome?_cons, List.findSome?_cons, h x List.mem_cons_self,
        ih fun y hy => h y (List.mem_cons_of_mem _ hy)]

theorem findSome_flatMap {α β γ : Type} (f : α → List β) (g : β → Option γ) (xs : List α) :
    (xs.flatMap f).findSome? g = xs.findSome? fun x => (f x).findSome? g := by
  induction xs with
  | nil => rfl
  | cons x xs ih =>
      rw [List.flatMap_cons, List.findSome?_append, ih, List.findSome?_cons]
      cases (f x).findSome? g <;> rfl

theorem map_eq_ok_iff {α β : Type} {r : Except Failure α} {f : α → β} {b : β} :
    r.map f = .ok b ↔ ∃ a, r = .ok a ∧ f a = b := by
  cases r <;> simp [Except.map]

theorem exists_of_map_ok {α β : Type} {r : Except Failure α} {f : α → β} {b : β}
    (h : r.map f = .ok b) : ∃ a, r = .ok a := by
  obtain ⟨a, ha, -⟩ := map_eq_ok_iff.mp h
  exact ⟨a, ha⟩

theorem map_eq_error_iff {α β : Type} (r : Except Failure α) (f : α → β) (e : Failure) :
    r.map f = .error e ↔ r = .error e := by
  cases r <;> simp [Except.map]

theorem bind_eq_ok_iff {α β : Type} {r : Except Failure α} {f : α → Except Failure β} {b : β} :
    (r >>= f) = .ok b ↔ ∃ a, r = .ok a ∧ f a = .ok b := by
  cases r <;> simp [bind, Except.bind]

/-- A list is converted if its head is and its tail is. -/
theorem mapM_cons_eq_ok_iff {α β : Type} {f : α → Except Failure β} {x : α} {xs : List α}
    {ys : List β} :
    (x :: xs).mapM f = .ok ys ↔ ∃ y ys', f x = .ok y ∧ xs.mapM f = .ok ys' ∧ ys = y :: ys' := by
  simp only [List.mapM_cons, bind_eq_ok_iff, pure, Except.pure, Except.ok.injEq]
  constructor
  · rintro ⟨y, hy, ys', hys, rfl⟩
    exact ⟨y, ys', hy, hys, rfl⟩
  · rintro ⟨y, ys', hy, hys, rfl⟩
    exact ⟨y, hy, ys', hys, rfl⟩

/-- Every converted item comes from an item of the list. -/
theorem exists_of_mem_mapM {α β : Type} {f : α → Except Failure β} {xs : List α} {ys : List β}
    (h : xs.mapM f = .ok ys) {y : β} (hy : y ∈ ys) : ∃ x ∈ xs, f x = .ok y := by
  induction xs generalizing ys with
  | nil =>
      obtain rfl := Except.ok.inj h
      cases hy
  | cons x xs ih =>
      obtain ⟨y', ys', hx, hxs, rfl⟩ := mapM_cons_eq_ok_iff.mp h
      rcases List.mem_cons.mp hy with rfl | hy
      · exact ⟨x, List.mem_cons_self, hx⟩
      · obtain ⟨x', hx', he⟩ := ih hxs hy
        exact ⟨x', List.mem_cons_of_mem x hx', he⟩

/-- What has been written item by item can be read back item by item. -/
theorem mapM_map_of_inverse {α β : Type} {f : β → α} {read : α → Except Failure β}
    (h : ∀ y, read (f y) = .ok y) (ys : List β) : (ys.map f).mapM read = .ok ys := by
  induction ys with
  | nil => rfl
  | cons y ys ih => exact mapM_cons_eq_ok_iff.mpr ⟨y, ys, h y, ih, rfl⟩

namespace Trace

variable {α β : Type}

/-! ## Values -/

/-- What follows a computation matters only for the values that it can end in. -/
theorem bind_congr_of_ok {t : Trace α} {f g : α → Trace β}
    (h : ∀ a, t.result = .ok a → f a = g a) : t >>= f = t >>= g := by
  cases ht : t.result with
  | error e => simp only [bind, andThen, ht]
  | ok a => simp only [bind, andThen, ht, h a ht]

theorem ofResult_ok_bind (a : α) (f : α → Trace β) : ofResult (.ok a) >>= f = f a := by
  simp only [bind, andThen, ofResult, List.nil_append]

/-- A sequence returns if both of its parts do. -/
theorem result_bind_eq_ok_iff {t : Trace α} {f : α → Trace β} {b : β} :
    (t >>= f).result = .ok b ↔ ∃ a, t.result = .ok a ∧ (f a).result = .ok b := by
  rw [result_bind, bind_eq_ok_iff]

/-- A fold whose steps each read an item and act on what was read ends in a value exactly if all
items can be read and pass a test that does not depend on the steps before. -/
theorem result_foldlM_eq_ok_iff {γ : Type} {f : β → α → Trace β} {read : α → Except Failure γ}
    {step : β → γ → β} {passes : β → γ → Prop}
    (hf : ∀ b x b', (f b x).result = .ok b' ↔ ∃ y, read x = .ok y ∧ passes b y ∧ b' = step b y)
    (hpasses : ∀ b y z, passes b y → (passes (step b y) z ↔ passes b z)) {xs : List α} {b b' : β} :
    (xs.foldlM f b).result = .ok b' ↔
      ∃ ys, xs.mapM read = .ok ys ∧ (∀ y ∈ ys, passes b y) ∧ b' = ys.foldl step b := by
  induction xs generalizing b with
  | nil =>
      rw [List.foldlM_nil, result_pure, Except.ok.injEq]
      constructor
      · rintro rfl
        exact ⟨[], rfl, by simp, rfl⟩
      · rintro ⟨ys, hys, -, rfl⟩
        obtain rfl := Except.ok.inj hys
        rfl
  | cons x xs ih =>
      simp only [List.foldlM_cons, result_bind_eq_ok_iff, hf, ih, mapM_cons_eq_ok_iff]
      constructor
      · rintro ⟨_, ⟨y, hy, hpass, rfl⟩, ys, hys, hall, rfl⟩
        refine ⟨y :: ys, ⟨y, ys, hy, hys, rfl⟩, List.forall_mem_cons.mpr ⟨hpass, ?_⟩, rfl⟩
        exact fun z hz => (hpasses b y z hpass).mp (hall z hz)
      · rintro ⟨_, ⟨y, ys, hy, hys, rfl⟩, hall, rfl⟩
        obtain ⟨hpass, hall⟩ := List.forall_mem_cons.mp hall
        exact ⟨_, ⟨y, hy, hpass, rfl⟩, ys, hys, fun z hz => (hpasses b y z hpass).mpr (hall z hz),
          rfl⟩

/-! ## Failures -/

/-- The failure in which a computation ends, if it does. -/
def failure? (t : Trace α) : Option Failure :=
  match t.result with
  | .error f => some f
  | .ok _ => none

/-- A trace fails with the failure that its result is. -/
theorem failure_eq_some_iff (t : Trace α) (f : Failure) :
    t.failure? = some f ↔ t.result = .error f := by
  rw [failure?]
  cases t.result <;> simp

/-- A trace does not fail exactly if it returns. -/
theorem failure_eq_none_iff (t : Trace α) : t.failure? = none ↔ ∃ a, t.result = .ok a := by
  rw [failure?]
  cases t.result <;> simp

theorem failure_eq_none_of_result {t : Trace α} {a : α} (h : t.result = .ok a) :
    t.failure? = none :=
  t.failure_eq_none_iff.mpr ⟨a, h⟩

@[simp] theorem failure_done (a : α) : (done a).failure? = none := rfl

@[simp] theorem failure_pure (a : α) : (pure a : Trace α).failure? = none := rfl

@[simp] theorem failure_ofResult_ok (a : α) : (ofResult (.ok a)).failure? = none := rfl

@[simp] theorem failure_log (level : LogLevel) (logger message : String) :
    (log level logger message).failure? = none := rfl

@[simp] theorem failure_notice (i : Issue) : (notice i).failure? = none := rfl

@[simp] theorem failure_mapFailure (g : Failure → Failure) (t : Trace α) :
    (t.mapFailure g).failure? = t.failure?.map g := by
  obtain ⟨r, events⟩ := t
  cases r <;> rfl

@[simp] theorem failure_collect (t : Trace α) : t.collect.failure? = t.failure? := by
  cases h : t.result <;> simp [failure?, collect, h, Except.map]

theorem exists_of_result_bind {t : Trace α} {f : α → Trace β} {b : β}
    (h : (t >>= f).result = .ok b) : ∃ a, t.result = .ok a ∧ (f a).result = .ok b :=
  result_bind_eq_ok_iff.mp h

/-- After a first part that ends in a value it is the second part that counts. -/
theorem failure_bind_of_ok {t : Trace α} {a : α} (h : t.result = .ok a) (f : α → Trace β) :
    (t >>= f).failure? = (f a).failure? := by
  rw [failure?, failure?, result_bind, h]
  rfl

/-- A second part that fails or not whatever value it is given counts after the first part. -/
theorem failure_bind_of_forall_ok {t : Trace α} {f : α → Trace β} {e : Option Failure}
    (h : ∀ a, t.result = .ok a → (f a).failure? = e) : (t >>= f).failure? = t.failure?.or e := by
  cases ht : t.result with
  | ok a =>
      rw [failure_bind_of_ok ht, h a ht, failure_eq_none_of_result ht, Option.none_or]
  | error f =>
      rw [(t.failure_eq_some_iff f).mpr ht, Option.some_or, failure_eq_some_iff, result_bind, ht]
      rfl

/-- Where the second part fails alike after every result, the first failure of the two counts. -/
theorem failure_bind_of_forall (t : Trace α) {f : α → Trace β} {e : Option Failure}
    (h : ∀ a, (f a).failure? = e) : (t >>= f).failure? = t.failure?.or e :=
  failure_bind_of_forall_ok fun a _ => h a

@[simp] theorem failure_seq (t : Trace α) (u : Trace β) :
    (t >>= fun _ => u).failure? = t.failure?.or u.failure? :=
  failure_bind_of_forall t fun _ => rfl

/-- A loop fails at the first item that fails. -/
theorem failure_forM (f : α → Trace PUnit) (xs : List α) :
    (xs.forM f).failure? = xs.findSome? fun x => (f x).failure? := by
  induction xs with
  | nil => rfl
  | cons x xs ih =>
      have hcons : (x :: xs).forM f = (f x >>= fun _ => xs.forM f) := rfl
      rw [hcons, failure_seq, ih, List.findSome?_cons]
      cases (f x).failure? <;> rfl

/-- A fold whose steps fail for their items alone fails at the first such item. -/
theorem failure_foldlM {f : β → α → Trace β} (bad : α → Option Failure) {xs : List α}
    (h : ∀ b, ∀ x ∈ xs, (f b x).failure? = bad x) (b : β) :
    (xs.foldlM f b).failure? = xs.findSome? bad := by
  induction xs generalizing b with
  | nil => rfl
  | cons x xs ih =>
      have hrest (b' : β) : (xs.foldlM f b').failure? = xs.findSome? bad :=
        ih (fun b'' y hy => h b'' y (List.mem_cons_of_mem _ hy)) b'
      rw [List.foldlM_cons, failure_bind_of_forall _ hrest, h b x List.mem_cons_self,
        List.findSome?_cons]
      cases bad x <;> rfl

end Trace

end SpatialDiagram
