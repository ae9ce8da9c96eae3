import SpatialDiagram.Config.Complaint
import SpatialDiagram.Proofs.Sorting

/-!
# Settling complaints

Complaints are settled if each text is there and each order has an answer, in
whatever sequence they come. What is then said names exactly the keys of the
complaints, so it can be written out if these keys can.
-/

namespace SpatialDiagram

/-! ## Keys in order -/

namespace Value

/-- Two keys can be compared if both are texts, or both are numbers or truth values. -/
def Comparable (k l : Value) : Prop :=
  (k.isText = true ∧ l.isText = true) ∨ (k.number?.isSome = true ∧ l.number?.isSome = true)

instance (k l : Value) : Decidable (k.Comparable l) :=
  inferInstanceAs (Decidable ((k.isText = true ∧ l.isText = true) ∨ _))

theorem comparable_symm {k l : Value} (h : k.Comparable l) : l.Comparable k :=
  h.imp And.symm And.symm

/-- Keys that can be compared with one key can be compared with each other. -/
theorem comparable_trans {k l m : Value} (hkl : k.Comparable l) (hlm : l.Comparable m) :
    k.Comparable m := by
  -- The one in the middle is a text or a number, but not both.
  have hkind : ¬ (l.isText = true ∧ l.number?.isSome = true) := by
    cases l <;> simp [isText, number?]
  unfold Comparable at *
  tauto

/-- Two keys have an order exactly if they are comparable. -/
theorem isSome_isLess_iff (k l : Value) : (k.isLess? l).isSome = true ↔ k.Comparable l := by
  cases k <;> cases l <;> simp [isLess?, Comparable, isText, number?]

/-- A key that always has a place among complaints. -/
def IsOrdinary (k : Value) : Prop := k.isText = true ∨ k.isWhole = true

theorem isSome_goesBefore_of_comparable {k l : Value} (h : k.Comparable l) :
    (k.goesBefore? l).isSome = true := by
  rw [goesBefore?]
  split
  · rfl
  · exact (isSome_isLess_iff k l).mpr h

/-- Texts, integers and truth values always have a place among each other. -/
theorem isSome_goesBefore_of_isOrdinary {k l : Value} (hk : k.IsOrdinary) (hl : l.IsOrdinary) :
    (k.goesBefore? l).isSome = true := by
  cases k <;> cases l <;> simp_all [IsOrdinary, isText, isWhole, goesBefore?, isLess?, number?]

end Value

namespace Mark

/-- Two marks can be compared as far as their keys can; marks of one key always can. -/
theorem answers_of_keys {a b : Mark}
    (h : a.key ≠ b.key → (a.key.goesBefore? b.key).isSome = true ∧
      (b.key.goesBefore? a.key).isSome = true) :
    Sorting.Answers goesBefore? a b := by
  unfold Sorting.Answers
  by_cases hkey : a.key = b.key
  · rw [goesBefore?, goesBefore?, if_pos hkey, if_pos hkey.symm]
    exact ⟨rfl, rfl⟩
  · rw [goesBefore?, goesBefore?, if_neg hkey, if_neg (Ne.symm hkey)]
    exact h hkey

/-- The empty place that a ledger starts with can be compared with every mark. -/
theorem answers_isFirst_of_keys {marks : List Mark}
    (h : marks.Pairwise (Sorting.Answers goesBefore?)) :
    (none :: marks.map some).Pairwise (Sorting.Answers isFirst?) := by
  refine List.pairwise_cons.mpr ⟨?_, List.pairwise_map.mpr h⟩
  intro m hm
  obtain ⟨m, -, rfl⟩ := List.mem_map.mp hm
  exact ⟨rfl, rfl⟩

end Mark

/-! ## Ledgers -/

namespace Ledger

/-- The marks of complaints added one after another. -/
def ofMarks (marks : List Mark) : Option Ledger := marks.foldlM add {}

/-- Whether marks can be put in order one after another, and on the shelves of their complaint. -/
def admits (rule : Rule) (marks : List Mark) : Bool :=
  match ofMarks marks with
  | some l => l.isClosable rule
  | none => false

/-- A complaint is filed exactly if it finds its place among all complaints and on its own shelf. -/
theorem add_eq_some_iff {l l' : Ledger} {m : Mark} : l.add m = some l' ↔
    Sorting.sort Mark.goesBefore? (l.all ++ [m]) = some l'.all ∧
      l.wholeWith? m = some l'.whole := by
  obtain ⟨all, whole⟩ := l'
  simp only [add, Option.bind_eq_bind, Option.bind_eq_some_iff, Option.pure_def, Option.some.injEq,
    mk.injEq]
  constructor
  · rintro ⟨_, hall, _, hwhole, rfl, rfl⟩
    exact ⟨hall, hwhole⟩
  · rintro ⟨hall, hwhole⟩
    exact ⟨_, hall, _, hwhole, rfl, rfl⟩

/-- The marks about the mapping as a whole are kept in order too. -/
theorem exists_wholeWith {l : Ledger} {m : Mark} {marks : List Mark}
    (h : (l.whole ++ m :: marks).Pairwise (Sorting.Answers Mark.goesBefore?)) :
    ∃ whole, l.wholeWith? m = some whole ∧
      (whole ++ marks).Pairwise (Sorting.Answers Mark.goesBefore?) := by
  rw [wholeWith?]
  split
  · rw [← List.singleton_append, ← List.append_assoc] at h
    obtain ⟨whole, hsort⟩ :=
      Option.isSome_iff_exists.mp (Sorting.isSome_sort (List.pairwise_append.mp h).1)
    have hperm := (Sorting.perm_of_sort hsort).append_right marks
    exact ⟨whole, hsort, (hperm.pairwise_iff Sorting.answers_symm).mpr h⟩
  · exact ⟨l.whole, rfl, h.sublist ((List.sublist_cons_self m marks).append_left l.whole)⟩

/-- Marks that can all be compared are added, and a ledger holds what was added. -/
theorem exists_of_answers {l : Ledger} {marks : List Mark}
    (hall : (l.all ++ marks).Pairwise (Sorting.Answers Mark.goesBefore?))
    (hwhole : (l.whole ++ marks).Pairwise (Sorting.Answers Mark.goesBefore?)) :
    ∃ l', marks.foldlM add l = some l' ∧ l'.all.Perm (l.all ++ marks) := by
  induction marks generalizing l with
  | nil => exact ⟨l, rfl, by rw [List.append_nil]⟩
  | cons m marks ih =>
      obtain ⟨whole, hadded, hwhole'⟩ := exists_wholeWith hwhole
      rw [← List.singleton_append, ← List.append_assoc] at hall ⊢
      obtain ⟨all, hsort⟩ :=
        Option.isSome_iff_exists.mp (Sorting.isSome_sort (List.pairwise_append.mp hall).1)
      have hperm := (Sorting.perm_of_sort hsort).append_right marks
      have hall' := (hperm.pairwise_iff Sorting.answers_symm).mpr hall
      obtain ⟨l', hl', hperm'⟩ := ih (l := ⟨all, whole⟩) hall' hwhole'
      have hadd : l.add m = some ⟨all, whole⟩ := add_eq_some_iff.mpr ⟨hsort, hadded⟩
      exact ⟨l', by rw [List.singleton_append, List.foldlM_cons, hadd]; exact hl',
        hperm'.trans hperm⟩

/-- Marks that can all be compared are filed one after another. -/
theorem exists_ofMarks {marks : List Mark}
    (h : marks.Pairwise (Sorting.Answers Mark.goesBefore?)) :
    ∃ l, ofMarks marks = some l ∧ l.all.Perm marks :=
  exists_of_answers (l := {}) h h

/-- A mapping whose marks can all be compared files every one of its complaints. -/
theorem admits_of_answers {marks : List Mark}
    (h : marks.Pairwise (Sorting.Answers Mark.goesBefore?)) (rule : Rule) :
    admits rule marks = true := by
  obtain ⟨l, hl, hperm⟩ := exists_ofMarks h
  have hall := (hperm.pairwise_iff Sorting.answers_symm).mpr h
  have hfirst := Sorting.isSome_sortInTurn (Mark.answers_isFirst_of_keys
    (hall.filter fun m => decide (m.rule = .whole)))
  have hshelf (r : Rule) : (Sorting.sortInTurn Mark.isFirst?
      ((l.all.filter fun m => m.rule = r).map some)).isSome = true :=
    Sorting.isSome_sortInTurn (List.pairwise_map.mpr (hall.filter _))
  rw [admits, hl]
  simp only [isClosable, List.all_eq_true]
  intro marks hmarks
  cases rule with
  | fields =>
      obtain rfl := List.mem_singleton.mp hmarks
      exact hfirst
  | _ =>
      rcases List.mem_cons.mp hmarks with rfl | hmarks
      · exact hfirst
      · obtain ⟨r, -, rfl⟩ := List.mem_map.mp hmarks
        exact hshelf r

end Ledger

/-! ## Settling -/

namespace Complaint

mutual

/-- Whether all texts of a complaint are there. -/
def isShown : Complaint → Bool
  | plain _ text? => text?.isSome
  | nested _ inner => areShown inner

/-- Whether all texts of the complaints under some keys are there. -/
def areShown : List Finding → Bool
  | [] => true
  | (_, c) :: rest => c.isShown && areShown rest

end

mutual

/-- Whether the complaints that a complaint holds can be put in order, at every depth. -/
def isOrderable : Complaint → Bool
  | plain .. => true
  | nested rule inner => areOrderable inner && Ledger.admits rule (inner.map Mark.ofFinding)

/-- Whether what each complaint under some keys holds can be put in order. -/
def areOrderable : List Finding → Bool
  | [] => true
  | (_, c) :: rest => c.isOrderable && areOrderable rest

end

theorem areShown_iff (found : List Finding) :
    areShown found = true ↔ ∀ f ∈ found, f.2.isShown = true := by
  induction found with
  | nil => simp [areShown]
  | cons f found ih => rw [areShown, Bool.and_eq_true, ih, List.forall_mem_cons]

theorem areOrderable_iff (found : List Finding) :
    areOrderable found = true ↔ ∀ f ∈ found, f.2.isOrderable = true := by
  induction found with
  | nil => simp [areOrderable]
  | cons f found ih => rw [areOrderable, Bool.and_eq_true, ih, List.forall_mem_cons]

mutual

/-- A complaint is settled unless a text is missing or an order has no answer. -/
theorem settle_cases : ∀ c : Complaint,
    c.settle = .ok () ∧ c.isShown = true ∧ c.isOrderable = true ∨
      c.settle = .error .unwritable ∧ c.isShown = false ∨
      c.settle = .error .wrongType ∧ c.isOrderable = false
  | plain rule text? => by
      rw [settle, isShown, isOrderable]
      cases text?.isSome <;> simp
  | nested rule inner => by
      simp only [settle, isShown, isOrderable, Ledger.admits, Ledger.ofMarks]
      rcases settleAll_cases inner {} with ⟨l, hl, hmarks, hshown, horderable⟩ | ⟨hl, hshown⟩ |
        ⟨hl, horderable | hmarks⟩
      · rw [hl, hmarks, hshown, horderable]
        cases hclose : l.isClosable rule <;> simp [bind, Except.bind, hclose]
      · simp [hl, hshown, bind, Except.bind]
      · simp [hl, horderable, bind, Except.bind]
      · simp [hl, hmarks, bind, Except.bind]

/-- Settling the complaints of a mapping ends in one of three ways: all are filed, a number that
cannot be shown stops it, or two keys that cannot be compared do. -/
theorem settleAll_cases : ∀ (found : List Finding) (l : Ledger),
    (∃ l', settleAll l found = .ok l' ∧
        (found.map Mark.ofFinding).foldlM Ledger.add l = some l' ∧
        areShown found = true ∧ areOrderable found = true) ∨
      settleAll l found = .error .unwritable ∧ areShown found = false ∨
      settleAll l found = .error .wrongType ∧ (areOrderable found = false ∨
        (found.map Mark.ofFinding).foldlM Ledger.add l = none)
  | [], l => .inl ⟨l, rfl, rfl, rfl, rfl⟩
  | (k, c) :: rest, l => by
      simp only [settleAll, areShown, areOrderable, List.map_cons, List.foldlM_cons]
      rcases settle_cases c with ⟨hc, hshown, horderable⟩ | ⟨hc, hshown⟩ | ⟨hc, horderable⟩
      · cases hadd : l.add ⟨k, c.rule⟩ with
        | none => simp [hc, hadd, hshown, Mark.ofFinding, Ledger.orWrongType, bind, Except.bind]
        | some l' =>
            simpa [hc, hadd, hshown, horderable, Mark.ofFinding, Ledger.orWrongType, bind,
              Except.bind] using settleAll_cases rest l'
      · simp [hc, hshown, bind, Except.bind]
      · simp [hc, horderable, bind, Except.bind]

end

/-! ## The keys that complaints name -/

/-- A complaint names the keys of the complaints that it holds, at any depth. -/
inductive Names : Complaint → Value → Prop
  | key {rule : Rule} {inner : List Finding} {f : Finding} (hf : f ∈ inner) :
      Names (.nested rule inner) f.1
  | inner {rule : Rule} {inner : List Finding} {f : Finding} {k : Value} (hf : f ∈ inner)
      (h : Names f.2 k) : Names (.nested rule inner) k

theorem not_names_plain {rule : Rule} {text? : Option String} {k : Value} :
    ¬ Names (.plain rule text?) k := nofun

/-- A nested complaint names the keys of its findings and what these name in turn. -/
theorem names_nested_iff {rule : Rule} {inner : List Finding} {k : Value} :
    Names (.nested rule inner) k ↔ ∃ f ∈ inner, f.1 = k ∨ f.2.Names k := by
  constructor
  · rintro (⟨hf⟩ | ⟨hf, h⟩)
    · exact ⟨_, hf, .inl rfl⟩
    · exact ⟨_, hf, .inr h⟩
  · rintro ⟨f, hf, rfl | h⟩
    · exact .key hf
    · exact .inner hf h

mutual

/-- Complaints under texts and whole numbers can be put in order, in whatever sequence they come. -/
theorem isOrderable_of_names : ∀ c : Complaint, (∀ k, c.Names k → k.IsOrdinary) →
    c.isOrderable = true
  | plain .., _ => rfl
  | nested rule inner, h => by
      rw [isOrderable, Bool.and_eq_true]
      refine ⟨areOrderable_of_names inner fun f hf k hk => h k (.inner hf hk), ?_⟩
      refine Ledger.admits_of_answers (List.pairwise_of_forall_mem_list fun a ha b hb => ?_) rule
      obtain ⟨f, hf, rfl⟩ := List.mem_map.mp ha
      obtain ⟨g, hg, rfl⟩ := List.mem_map.mp hb
      have hf' := h f.1 (.key hf)
      have hg' := h g.1 (.key hg)
      exact Mark.answers_of_keys fun _ => ⟨Value.isSome_goesBefore_of_isOrdinary hf' hg',
        Value.isSome_goesBefore_of_isOrdinary hg' hf'⟩

/-- Findings whose keys are all ordinary can be put in order on every level. -/
theorem areOrderable_of_names : ∀ found : List Finding,
    (∀ f ∈ found, ∀ k, f.2.Names k → k.IsOrdinary) → areOrderable found = true
  | [], _ => rfl
  | (k, c) :: rest, h => by
      rw [areOrderable, Bool.and_eq_true]
      exact ⟨isOrderable_of_names c (h (k, c) List.mem_cons_self),
        areOrderable_of_names rest fun f hf => h f (List.mem_cons_of_mem _ hf)⟩

end

end Complaint

/-! ## What is said -/

namespace Value

theorem areWritable_iff (vs : List Value) :
    areWritable vs = true ↔ ∀ v ∈ vs, v.isWritable = true := by
  induction vs with
  | nil => simp [areWritable]
  | cons v vs ih => rw [areWritable, Bool.and_eq_true, ih, List.forall_mem_cons]

theorem isWritable_mapping_iff (entries : List (Value × Value)) :
    (mapping entries).isWritable = true ↔
      ∀ e ∈ entries, e.1.isWritable = true ∧ e.2.isWritable = true := by
  rw [isWritable]
  induction entries with
  | nil => simp [areWritableEntries]
  | cons e entries ih =>
      rw [areWritableEntries, Bool.and_eq_true, Bool.and_eq_true, ih, List.forall_mem_cons]

end Value

namespace Remarks

/-- What is said of a key can be written out. -/
def IsWritable (r : Remarks) : Prop := r.toValue.isWritable = true

/-- Some keys and what is said of them can be written out. -/
def AreWritable (rs : List (Value × Remarks)) : Prop :=
  ∀ e ∈ rs, e.1.isWritable = true ∧ e.2.IsWritable

theorem entries_eq_map (rs : List (Value × Remarks)) :
    entries rs = rs.map fun e => (e.1, e.2.toValue) := by
  induction rs with
  | nil => rw [entries, List.map_nil]
  | cons e rs ih => rw [entries, ih, List.map_cons]

/-- Remarks can be written exactly if every key and every text of them can. -/
theorem isWritable_entries_iff (rs : List (Value × Remarks)) :
    (Value.mapping (entries rs)).isWritable = true ↔ AreWritable rs := by
  rw [Value.isWritable_mapping_iff, entries_eq_map, List.forall_mem_map]
  rfl

/-- Texts can always be written out. -/
theorem isWritable_mk_iff (texts : List String) (inner : List (Value × Remarks)) :
    (mk texts inner).IsWritable ↔ AreWritable inner := by
  rw [IsWritable, toValue, Value.isWritable, Value.areWritable_iff, List.forall_mem_append,
    List.forall_mem_map]
  have htexts : ∀ t ∈ texts, (Value.str t).isWritable = true := fun _ _ => rfl
  cases inner with
  | nil => simpa [AreWritable] using htexts
  | cons e inner => simpa [← isWritable_entries_iff] using fun _ => htexts

/-- What is put under a key can be written out with what was there before. -/
theorem areWritable_put_iff {base : List (Value × Remarks)} {k : Value} {r r' : Remarks}
    (hr' : r'.IsWritable ↔ (∀ b ∈ base.lookup k, b.IsWritable) ∧ r.IsWritable) :
    AreWritable (Keyed.put Prod.fst (k, r') base) ↔
      AreWritable base ∧ k.isWritable = true ∧ r.IsWritable := by
  unfold AreWritable at *
  induction base with
  | nil => simpa [Keyed.put] using fun _ => hr'
  | cons e base ih =>
      obtain ⟨l, b⟩ := e
      by_cases hl : l = k
      · subst hl
        simp only [Keyed.put, if_true, List.lookup_cons, beq_self_eq_true, Option.mem_some_iff,
          forall_eq', List.forall_mem_cons] at hr' ⊢
        rw [hr']
        tauto
      · rw [List.lookup_cons, beq_false_of_ne (Ne.symm hl)] at hr'
        rw [Keyed.put, if_neg hl, List.forall_mem_cons, List.forall_mem_cons, ih hr']
        exact and_assoc.symm

mutual

/-- What is remarked again under one key can be written if both remarks can. -/
theorem isWritable_after_iff (before : Option Remarks) : ∀ r : Remarks,
    (after before r).IsWritable ↔ (∀ b ∈ before, b.IsWritable) ∧ r.IsWritable
  | mk texts inner => by
      cases before with
      | none =>
          rw [after, isWritable_mk_iff, isWritable_mk_iff, areWritable_addAll_iff [] inner]
          simp [AreWritable]
      | some b =>
          obtain ⟨texts', inner'⟩ := b
          rw [after, isWritable_mk_iff, isWritable_mk_iff, areWritable_addAll_iff inner' inner]
          simp [isWritable_mk_iff]

/-- Remarks that are merged can be written exactly if all that went in can. -/
theorem areWritable_addAll_iff (base : List (Value × Remarks)) : ∀ rs : List (Value × Remarks),
    AreWritable (addAll base rs) ↔ AreWritable base ∧ AreWritable rs
  | [] => by simp [addAll, AreWritable]
  | (k, r) :: rest => by
      rw [addAll, areWritable_addAll_iff _ rest,
        areWritable_put_iff (isWritable_after_iff (base.lookup k) r), and_assoc]
      unfold AreWritable
      rw [List.forall_mem_cons]

end

/-- The keys of remarks that were added. -/
theorem mem_keys_addAll_iff {base rs : List (Value × Remarks)} {k : Value} :
    k ∈ (addAll base rs).map Prod.fst ↔ k ∈ base.map Prod.fst ∨ k ∈ rs.map Prod.fst := by
  induction rs generalizing base with
  | nil => simp [addAll]
  | cons e rs ih =>
      rw [addAll, ih, Keyed.keys_put, List.map_cons, List.mem_cons]
      split
      · rename_i hmem
        constructor
        · exact Or.imp_right .inr
        · rintro (h | rfl | h)
          · exact .inl h
          · exact .inl hmem
          · exact .inr h
      · simp only [List.mem_append, List.mem_singleton, or_assoc]

/-- Merged remarks have one entry for each key. -/
theorem nodup_keys_addAll {base : List (Value × Remarks)} (h : (base.map Prod.fst).Nodup)
    (rs : List (Value × Remarks)) : ((addAll base rs).map Prod.fst).Nodup := by
  induction rs generalizing base with
  | nil => rwa [addAll]
  | cons e rs ih =>
      rw [addAll]
      exact ih (Keyed.nodup_keys_put h _)

variable (found : List (Mark × Remarks))

/-- Putting findings in order loses none of them. -/
theorem perm_inOrder : ((Sorting.sortInTurn (fun a b => a.1.goesBefore? b.1) found).getD
    found).Perm found := by
  cases hsort : Sorting.sortInTurn (fun a b => a.1.goesBefore? b.1) found with
  | none => exact .refl found
  | some sorted => exact Sorting.perm_of_sortInTurn hsort

/-- What is gathered of findings can be written exactly if each of them can. -/
theorem areWritable_gather_iff : AreWritable (gather found) ↔
    ∀ f ∈ found, f.1.key.isWritable = true ∧ f.2.IsWritable := by
  have hnil : AreWritable [] := nofun
  rw [gather, areWritable_addAll_iff, and_iff_right hnil, AreWritable, List.forall_mem_map]
  exact forall_congr' fun f => by rw [(perm_inOrder found).mem_iff]

/-- Gathering keeps exactly the keys of the findings. -/
theorem mem_keys_gather_iff {k : Value} :
    k ∈ (gather found).map Prod.fst ↔ k ∈ found.map fun f => f.1.key := by
  have hperm := (perm_inOrder found).map fun f => f.1.key
  rw [gather, mem_keys_addAll_iff, List.map_map, ← hperm.mem_iff]
  simp [Function.comp_def]

end Remarks

namespace Complaint

theorem remarksOf_eq_map (found : List Finding) :
    remarksOf found = found.map fun f => (Mark.ofFinding f, f.2.remarks) := by
  induction found with
  | nil => rw [remarksOf, List.map_nil]
  | cons f found ih =>
      rw [remarksOf, ih, List.map_cons]
      rfl

/-- The remarks of findings can be written exactly if each key and each remark can. -/
theorem areWritable_remarks_iff (found : List Finding) :
    Remarks.AreWritable (Remarks.gather (remarksOf found)) ↔
      ∀ f ∈ found, f.1.isWritable = true ∧ f.2.remarks.IsWritable := by
  rw [Remarks.areWritable_gather_iff, remarksOf_eq_map, List.forall_mem_map]
  rfl

mutual

/-- What a complaint says can be written out if the keys that it names can. -/
theorem isWritable_remarks_iff : ∀ c : Complaint,
    c.remarks.IsWritable ↔ ∀ k, c.Names k → k.isWritable = true
  | plain rule text? => by
      rw [remarks, Remarks.isWritable_mk_iff]
      exact iff_of_true nofun fun k hk => absurd hk not_names_plain
  | nested rule inner => by
      rw [remarks, Remarks.isWritable_mk_iff, areWritable_remarks_iff]
      simp only [names_nested_iff]
      have hinner := areWritable_findings_iff inner
      constructor
      · rintro h k ⟨f, hf, rfl | hk⟩
        · exact (h f hf).1
        · exact (hinner f hf).mp (h f hf).2 k hk
      · intro h f hf
        exact ⟨h f.1 ⟨f, hf, .inl rfl⟩, (hinner f hf).mpr fun k hk => h k ⟨f, hf, .inr hk⟩⟩

/-- The remarks below a key can be written exactly if every key that is named there can. -/
theorem areWritable_findings_iff : ∀ (found : List Finding), ∀ f ∈ found,
    f.2.remarks.IsWritable ↔ ∀ k, f.2.Names k → k.isWritable = true
  | (_, c) :: rest, f, hf => by
      rcases List.mem_cons.mp hf with rfl | hf
      · exact isWritable_remarks_iff c
      · exact areWritable_findings_iff rest f hf

end

/-- What findings say can be written out if their keys and those that they name can. -/
theorem isWritable_entries_iff (found : List Finding) :
    (Value.mapping (entries found)).isWritable = true ↔
      ∀ f ∈ found, f.1.isWritable = true ∧ ∀ k, f.2.Names k → k.isWritable = true := by
  rw [entries, Remarks.isWritable_entries_iff, areWritable_remarks_iff]
  simp only [isWritable_remarks_iff]

/-- The errors of a mapping stand under the keys of its findings. -/
theorem mem_keys_entries_iff {found : List Finding} {k : Value} :
    k ∈ (entries found).map Prod.fst ↔ k ∈ found.map Prod.fst := by
  rw [entries, Remarks.entries_eq_map, List.map_map]
  change k ∈ (Remarks.gather _).map Prod.fst ↔ _
  rw [Remarks.mem_keys_gather_iff, remarksOf_eq_map, List.map_map]
  rfl

/-- Something is said of each key once. -/
theorem nodup_keys_entries (found : List Finding) : ((entries found).map Prod.fst).Nodup := by
  have hnil : (([] : List (Value × Remarks)).map Prod.fst).Nodup := List.nodup_nil
  rw [entries, Remarks.entries_eq_map, List.map_map]
  exact Remarks.nodup_keys_addAll hnil _

end Complaint

end SpatialDiagram
