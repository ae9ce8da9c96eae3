import SpatialDiagram.Proofs.Endings

/-!
# What computations notice

The issues in a trace come in the order of its parts. A sequence whose first
part ends in a value has noticed what both parts have, and a fold whose steps
notice something for each element on its own has noticed all of that in turn.
The issues of one code are told apart by `Issue.only`.
-/

namespace SpatialDiagram

namespace Trace

variable {α β : Type}

@[simp] theorem issues_done (a : α) : (done a).issues = [] := rfl

@[simp] theorem issues_pure (a : α) : (pure a : Trace α).issues = [] := rfl

@[simp] theorem issues_ofResult (r : Except Failure α) : (ofResult r).issues = [] := rfl

@[simp] theorem issues_log (level : LogLevel) (logger message : String) :
    (log level logger message).issues = [] := rfl

@[simp] theorem issues_notice (i : Issue) : (notice i).issues = [i] := rfl

/-- After a first part that ends in a value the second one goes on noticing. -/
theorem issues_bind_of_ok {t : Trace α} {a : α} (h : t.result = .ok a) (f : α → Trace β) :
    (t >>= f).issues = t.issues ++ (f a).issues := by
  rw [issues, events_bind, h, List.filterMap_append]
  rfl

/-- What is collected of a trace that returns is all that it reported. -/
theorem result_collect_of_ok {t : Trace α} {a : α} (h : t.result = .ok a) :
    t.collect.result = .ok t.issues := by
  simp [collect, h, Except.map]

/-- A loop that returns has reported what its items report, in turn. -/
theorem issues_forM_of_ok {f : α → Trace PUnit} {xs : List α} {u : PUnit}
    (h : (xs.forM f).result = .ok u) : (xs.forM f).issues = xs.flatMap fun x => (f x).issues := by
  induction xs with
  | nil => rfl
  | cons x xs ih =>
      obtain ⟨u', hx, hrest⟩ := exists_of_result_bind (t := f x) (f := fun _ => xs.forM f) h
      have hcons : (x :: xs).forM f = (f x >>= fun _ => xs.forM f) := rfl
      rw [hcons, issues_bind_of_ok hx, ih hrest, List.flatMap_cons]

/-- What each step keeps up holds at the end of a fold. The elements before and after each step are
known to it. -/
theorem foldlM_induction {f : β → α → Trace β} {xs : List α} {b b' : β}
    (motive : List α → β → Prop) (hnil : motive [] b)
    (hstep : ∀ before x after b b', xs = before ++ x :: after → motive before b →
      (f b x).result = .ok b' → motive (before ++ [x]) b')
    (h : (xs.foldlM f b).result = .ok b') : motive xs b' := by
  suffices hall : ∀ (before after : List α) (b : β), xs = before ++ after → motive before b →
      (after.foldlM f b).result = .ok b' → motive xs b' from hall [] xs b rfl hnil h
  intro before after
  induction after generalizing before with
  | nil =>
      intro b hxs hb hresult
      obtain rfl := Except.ok.inj hresult
      rwa [hxs, List.append_nil]
  | cons x after ih =>
      intro b hxs hb hresult
      obtain ⟨b₁, hx, hrest⟩ := exists_of_result_bind hresult
      exact ih (before ++ [x]) b₁ (by simp [hxs]) (hstep before x after b b₁ hxs hb hx) hrest

/-- A fold that returns has reported what its steps report, as long as an invariant tells what that
is. -/
theorem issues_foldlM_of_ok {f : β → α → Trace β} {xs : List α} {b b' : β} (P : β → Prop)
    (found : α → List Issue) (hb : P b)
    (hstep : ∀ b x b', P b → (f b x).result = .ok b' → P b' ∧ (f b x).issues = found x)
    (h : (xs.foldlM f b).result = .ok b') : (xs.foldlM f b).issues = xs.flatMap found := by
  induction xs generalizing b with
  | nil => rfl
  | cons x xs ih =>
      obtain ⟨b₁, hx, hrest⟩ := exists_of_result_bind h
      obtain ⟨hb₁, hfound⟩ := hstep b x b₁ hb hx
      rw [List.foldlM_cons, issues_bind_of_ok hx, hfound, ih hb₁ hrest, List.flatMap_cons]

/-- A sequence commutes with changes of the values of its parts if its parts do. -/
theorem result_bind_map {α' β' : Type} {t : Trace α} {t' : Trace α'} {f : α → Trace β}
    {f' : α' → Trace β'} {k : α → α'} {l : β → β'} (ht : t'.result = t.result.map k)
    (hf : ∀ a, (f' (k a)).result = (f a).result.map l) :
    (t' >>= f').result = (t >>= f).result.map l := by
  rw [result_bind, result_bind, ht]
  cases t.result with
  | error e => rfl
  | ok a => exact hf a

/-- After first parts that end alike only the second ones count. -/
theorem result_bind_map_of_eq {β' : Type} {t t' : Trace α} {f : α → Trace β} {f' : α → Trace β'}
    {l : β → β'} (ht : t'.result = t.result) (hf : ∀ a, (f' a).result = (f a).result.map l) :
    (t' >>= f').result = (t >>= f).result.map l := by
  rw [result_bind, result_bind, ht]
  cases t.result with
  | error e => rfl
  | ok a => exact hf a

theorem result_bind_map_right {β' : Type} (t : Trace α) {f : α → Trace β} {f' : α → Trace β'}
    {l : β → β'} (hf : ∀ a, (f' a).result = (f a).result.map l) :
    (t >>= f').result = (t >>= f).result.map l := result_bind_map_of_eq rfl hf

/-- A fold over two lists goes on with what the first one left. -/
theorem result_foldlM_append {f : β → α → Trace β} (xs ys : List α) (b : β) :
    ((xs ++ ys).foldlM f b).result =
      ((xs.foldlM f b).result >>= fun b' => (ys.foldlM f b').result) := by
  induction xs generalizing b with
  | nil => rfl
  | cons x xs ih =>
      rw [List.cons_append, List.foldlM_cons, List.foldlM_cons, result_bind, result_bind]
      cases (f b x).result with
      | error e => rfl
      | ok b₁ => exact ih b₁

/-- Two folds go side by side if each step does, as long as what is built up has a property that the
steps keep. -/
theorem result_foldlM_map_of {α' β' : Type} {f : β → α → Trace β} {f' : β' → α' → Trace β'}
    (k : β → β') (l : α → α') (P : β → Prop) (xs : List α)
    (hkeep : ∀ b x b', P b → (f b x).result = .ok b' → P b')
    (hstep : ∀ b, ∀ x ∈ xs, P b → (f' (k b) (l x)).result = (f b x).result.map k) {b : β}
    (hb : P b) : ((xs.map l).foldlM f' (k b)).result = (xs.foldlM f b).result.map k := by
  induction xs generalizing b with
  | nil => rfl
  | cons x xs ih =>
      rw [List.map_cons, List.foldlM_cons, List.foldlM_cons, result_bind, result_bind,
        hstep b x List.mem_cons_self hb]
      cases hx : (f b x).result with
      | error e => rfl
      | ok b₁ => exact ih (fun b y hy => hstep b y (List.mem_cons_of_mem x hy)) (hkeep b x b₁ hb hx)

/-- A fold commutes with a change of what is built up if each of its steps does. -/
theorem result_foldlM_map {f : β → α → Trace β} (k : β → β)
    (hstep : ∀ b x, (f (k b) x).result = (f b x).result.map k) (xs : List α) (b : β) :
    (xs.foldlM f (k b)).result = (xs.foldlM f b).result.map k := by
  have hfold := result_foldlM_map_of k id (fun _ => True) xs (fun _ _ _ _ _ => trivial)
    (fun b x _ _ => hstep b x) (b := b) trivial
  rwa [List.map_id] at hfold

/-- Elements that change nothing may be left out of a fold. -/
theorem result_foldlM_filter {f : β → α → Trace β} {p : α → Bool} {xs : List α}
    (h : ∀ b, ∀ x ∈ xs, p x = false → (f b x).result = .ok b) (b : β) :
    ((xs.filter p).foldlM f b).result = (xs.foldlM f b).result := by
  induction xs generalizing b with
  | nil => rfl
  | cons x xs ih =>
      have ih := ih fun b y hy => h b y (List.mem_cons_of_mem x hy)
      rw [List.foldlM_cons, result_bind]
      cases hp : p x with
      | false =>
          rw [List.filter_cons_of_neg (Bool.eq_false_iff.mp hp), h b x List.mem_cons_self hp]
          exact ih b
      | true =>
          rw [List.filter_cons_of_pos hp, List.foldlM_cons, result_bind]
          cases (f b x).result with
          | error e => rfl
          | ok b₁ => exact ih b₁

end Trace

/-! ## Issues of one code -/

/-- Two codes never share a name. -/
theorem IssueCode.name_injective : Function.Injective IssueCode.name := fun a b h =>
  Option.some.inj ((ofName_name a).symm.trans (h ▸ ofName_name b))

namespace Issue

@[simp] theorem code_ofCode (level : IssueLevel) (code : IssueCode) (line : Option Nat)
    (details : List (String × Value)) : (Issue.ofCode level code line details).code = code.name :=
  rfl

/-- The issues of one code, in their order. -/
def only (code : IssueCode) (issues : List Issue) : List Issue :=
  issues.filter fun i => i.code = code.name

@[simp] theorem only_nil (code : IssueCode) : only code [] = [] := rfl

@[simp] theorem only_append (code : IssueCode) (issues more : List Issue) :
    only code (issues ++ more) = only code issues ++ only code more :=
  List.filter_append issues more

@[simp] theorem only_flatMap {α : Type} (code : IssueCode) (xs : List α) (f : α → List Issue) :
    only code (xs.flatMap f) = xs.flatMap fun x => only code (f x) :=
  List.filter_flatMap

theorem only_flatMap_eq_nil {α : Type} {code : IssueCode} {xs : List α} {f : α → List Issue}
    (h : ∀ x, only code (f x) = []) : only code (xs.flatMap f) = [] := by
  rw [only_flatMap, List.flatMap_eq_nil_iff]
  exact fun x _ => h x

@[simp] theorem only_ofCode (code code' : IssueCode) (level : IssueLevel) (line : Option Nat)
    (details : List (String × Value)) :
    only code [.ofCode level code' line details] =
      if code' = code then [.ofCode level code' line details] else [] := by
  simp only [only, List.filter_cons, List.filter_nil, code_ofCode,
    IssueCode.name_injective.eq_iff, decide_eq_true_eq]

end Issue

end SpatialDiagram
