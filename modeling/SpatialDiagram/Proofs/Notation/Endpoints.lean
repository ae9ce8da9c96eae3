import SpatialDiagram.Notation.ConnectionHeader
import SpatialDiagram.Proofs.Text.Trimming

/-!
# Endpoints and arrows

Both ends of a connection and the arrow between them stand at the front of what
is left of the line. An identifier is as long as it can be, a face is taken if
one follows, and no arrow begins another one, so each of them is determined by
the text that it begins.
-/

namespace SpatialDiagram

namespace Notation

/-! ## Identifiers and endpoints -/

/-- The longest run of identifier characters at the front of a text. -/
structure IsIdentifierRun (s : String) (cs rest : List Char) : Prop where
  ne_empty : s ≠ ""
  text_eq : cs = s.toList ++ rest
  isRun : Text.IsRun isIdentifier s.toList rest

theorem identifier_eq_some_iff (cs : List Char) (s : String) (rest : List Char) :
    identifier? cs = some (s, rest) ↔ IsIdentifierRun s cs rest := by
  rw [identifier?]
  constructor
  · intro h
    split at h
    · cases h
    · rename_i hid
      obtain ⟨rfl, rfl⟩ := Prod.mk.inj (Option.some.inj h)
      have hrun := Text.isRun_takeWhile isIdentifier cs
      constructor
      · simpa using hid
      · rw [String.toList_ofList, List.takeWhile_append_dropWhile]
      · rwa [String.toList_ofList]
  · rintro ⟨hne, rfl, hrun⟩
    have hid : s.toList ≠ [] := by simpa using hne
    simp [hrun.takeWhile, hrun.dropWhile, hid]

namespace Endpoint

/-- A node at the front of a text, with the face that follows an `@` right behind it. -/
inductive Leads : Endpoint → List Char → List Char → Prop
  | node {s : String} {cs rest : List Char} (hnode : IsIdentifierRun s cs rest)
      (hface : ∀ f more rest', rest = '@' :: more → ¬ IsIdentifierRun f more rest') :
      Leads { node := s } cs rest
  | face {s f : String} {cs more rest : List Char} (hnode : IsIdentifierRun s cs ('@' :: more))
      (hface : IsIdentifierRun f more rest) : Leads { node := s, face := some f } cs rest

theorem read_eq (cs : List Char) :
    read? cs = (identifier? cs).map fun r =>
      match (Text.after? ['@'] r.2).bind identifier? with
      | some (f, rest) => ({ node := r.1, face := some f }, rest)
      | none => ({ node := r.1 }, r.2) := by
  rw [read?]
  cases identifier? cs with
  | none => rfl
  | some r =>
      obtain ⟨s, rest⟩ := r
      rw [Option.map_some, Option.bind_eq_bind, Option.bind_some]
      simp only
      split
      · rename_i more
        rw [Text.after_singleton, Option.bind_some]
        cases identifier? more <;> rfl
      · rename_i hat
        rw [Text.after_singleton_eq_none hat, Option.bind_none]

theorem read_eq_some_iff (cs : List Char) (e : Endpoint) (rest : List Char) :
    read? cs = some (e, rest) ↔ e.Leads cs rest := by
  rw [read_eq, Option.map_eq_some_iff]
  constructor
  · rintro ⟨⟨s, more⟩, hnode, h⟩
    have hnode := (identifier_eq_some_iff cs s more).mp hnode
    simp only at h
    split at h
    · rename_i f rest' hface
      obtain ⟨rfl, rfl⟩ := Prod.mk.inj h
      obtain ⟨cs', hafter, hface⟩ := Option.bind_eq_some_iff.mp hface
      obtain rfl := (Text.after_eq_some_iff ['@'] more cs').mp hafter
      exact Leads.face hnode ((identifier_eq_some_iff _ _ _).mp hface)
    · rename_i hface
      obtain ⟨rfl, rfl⟩ := Prod.mk.inj h
      apply Leads.node hnode
      rintro f cs' rest' rfl hrun
      rw [Text.after_singleton, Option.bind_some,
        (identifier_eq_some_iff cs' f rest').mpr hrun] at hface
      cases hface
  · intro h
    cases h with
    | @node s _ _ hnode hface =>
        refine ⟨(s, rest), (identifier_eq_some_iff cs s rest).mpr hnode, ?_⟩
        have hnone : (Text.after? ['@'] rest).bind identifier? = none := by
          cases hread : (Text.after? ['@'] rest).bind identifier? with
          | none => rfl
          | some r =>
              obtain ⟨f, rest'⟩ := r
              obtain ⟨more, hafter, hid⟩ := Option.bind_eq_some_iff.mp hread
              have hmore := (Text.after_eq_some_iff ['@'] rest more).mp hafter
              exact absurd ((identifier_eq_some_iff _ _ _).mp hid) (hface f more rest' hmore)
        simp only [hnone]
    | @face s f _ more _ hnode hface =>
        refine ⟨(s, '@' :: more), (identifier_eq_some_iff cs s _).mpr hnode, ?_⟩
        simp only [Text.after_singleton, Option.bind_some,
          (identifier_eq_some_iff more f rest).mpr hface]

theorem read_cons_of_isBlank {c : Char} (hc : Text.isBlank c = true) (cs : List Char) :
    read? (c :: cs) = none := by
  have hnone : identifier? (c :: cs) = none := by
    simp [identifier?, isIdentifier_of_isBlank hc]
  rw [read_eq, hnone, Option.map_none]

theorem Leads.isSuffix {e : Endpoint} {cs rest : List Char} (h : e.Leads cs rest) :
    rest <:+ cs := by
  cases h with
  | node hnode _ =>
      rw [hnode.text_eq]
      exact List.suffix_append _ _
  | @face _ f _ more _ hnode hface =>
      rw [hnode.text_eq, hface.text_eq]
      exact (List.suffix_append _ _).trans ((List.suffix_cons _ _).trans (List.suffix_append _ _))

theorem Leads.skipBlanks {e : Endpoint} {gap cs rest : List Char} (h : e.Leads cs rest)
    (hgap : ∀ c ∈ gap, Text.isBlank c = true) : Text.skipBlanks (gap ++ cs) = cs := by
  have hread := (read_eq_some_iff cs e rest).mpr h
  have hrun : Text.IsRun Text.isBlank gap cs := by
    refine ⟨hgap, ?_⟩
    intro c hc
    obtain ⟨more, rfl⟩ := List.head?_eq_some_iff.mp hc
    cases hblank : Text.isBlank c with
    | false => rfl
    | true =>
        rw [read_cons_of_isBlank hblank] at hread
        cases hread
  exact hrun.dropWhile

end Endpoint

/-! ## Arrows -/

/-- The text is one of the known arrows. -/
def IsArrow (s : String) : Prop := s ∈ ConnectionCategory.arrows.map Prod.fst

instance : DecidablePred IsArrow := fun s =>
  inferInstanceAs (Decidable (s ∈ ConnectionCategory.arrows.map Prod.fst))

/-- No arrow begins another one, so at most one arrow stands at the front of a text. -/
theorem IsArrow.unique {a b : String} {rest rest' : List Char} (ha : IsArrow a) (hb : IsArrow b)
    (h : a.toList ++ rest = b.toList ++ rest') : a = b ∧ rest = rest' := by
  have hfree : ∀ a ∈ ConnectionCategory.arrows.map Prod.fst,
      ∀ b ∈ ConnectionCategory.arrows.map Prod.fst, a.toList <+: b.toList → a = b := by
    decide
  have hfirst := List.prefix_append a.toList rest
  have hsecond := List.prefix_append b.toList rest'
  rw [← h] at hsecond
  have hab : a = b := by
    rcases List.prefix_or_prefix_of_prefix hfirst hsecond with hab | hba
    · exact hfree a ha b hb hab
    · exact (hfree b hb a ha hba).symm
  rw [hab] at h
  exact ⟨hab, List.append_cancel_left h⟩

/-- An arrow begins with a dash or an equals sign. -/
theorem IsArrow.exists_cons {a : String} (ha : IsArrow a) :
    ∃ c cs, a.toList = c :: cs ∧ isIdentifier c = false ∧ Text.isBlank c = false ∧ c ≠ '@' := by
  have hheads : ∀ a ∈ ConnectionCategory.arrows.map Prod.fst, a.toList.head?.any (fun c =>
      decide (isIdentifier c = false ∧ Text.isBlank c = false ∧ c ≠ '@')) = true := by
    decide
  obtain ⟨c, hc, hplain⟩ := (Option.any_eq_true _ _).mp (hheads a ha)
  obtain ⟨cs, hcs⟩ := List.head?_eq_some_iff.mp hc
  exact ⟨c, cs, hcs, of_decide_eq_true hplain⟩

theorem arrow_eq_some_iff (cs : List Char) (a : String) (rest : List Char) :
    arrow? cs = some (a, rest) ↔ IsArrow a ∧ cs = a.toList ++ rest := by
  have hread (x : String × ConnectionCategory) (b : String) (rest' : List Char) :
      (if x.1.toList.isPrefixOf cs then some (x.1, cs.drop x.1.length) else none) =
          some (b, rest') ↔ x.1 = b ∧ cs = x.1.toList ++ rest' := by
    rw [← String.length_toList, ← Text.after_eq_some_iff, Text.after?]
    split <;> simp
  have hsound {b : String} {rest' : List Char} (h : arrow? cs = some (b, rest')) :
      IsArrow b ∧ cs = b.toList ++ rest' := by
    obtain ⟨x, hx, hfound⟩ := List.exists_of_findSome?_eq_some h
    obtain ⟨rfl, htext⟩ := (hread x b rest').mp hfound
    exact ⟨List.mem_map_of_mem hx, htext⟩
  refine ⟨hsound, ?_⟩
  rintro ⟨ha, hcs⟩
  obtain ⟨x, hx, rfl⟩ := List.mem_map.mp ha
  have hsome : (arrow? cs).isSome = true := by
    rw [arrow?, List.findSome?_isSome_iff]
    exact ⟨x, hx, Option.isSome_iff_exists.mpr ⟨_, (hread x x.1 rest).mpr ⟨rfl, hcs⟩⟩⟩
  obtain ⟨⟨b, rest'⟩, hb⟩ := Option.isSome_iff_exists.mp hsome
  obtain ⟨harrow, hcs'⟩ := hsound hb
  obtain ⟨hname, hrest⟩ := ha.unique harrow (hcs.symm.trans hcs')
  rw [hb, hname, hrest]

end Notation

end SpatialDiagram
