import SpatialDiagram.Geometry.Distance
import SpatialDiagram.Proofs.Building.Overflow
import SpatialDiagram.Proofs.Notation.IntegerLists
import SpatialDiagram.Proofs.Notation.WrittenOpacity
import SpatialDiagram.Proofs.Notation.WrittenProperties

/-!
# Spellings of a placement

Three integers are a scale or a position as an array or with commas alone, in
braces behind a node or in a block below it. The array holds integers, each of
which is converted; the text is cut at its commas, and each piece is read as a
decimal. Both give the same vector or none, unless an integer is beyond all
floating-point numbers: it cannot be converted, and its digits are an infinity,
which no placement has.
-/

namespace SpatialDiagram

open Notation

namespace Placement

/-! ## Components -/

theorem pieces_cons (c : Char) (cs : List Char) : pieces (c :: cs) =
    if c = ',' then [] :: pieces cs else (c :: (pieces cs).headD []) :: (pieces cs).tail := rfl

theorem pieces_of_not_mem {cs : List Char} (h : ',' ∉ cs) : pieces cs = [cs] := by
  induction cs with
  | nil => rfl
  | cons c cs ih =>
      rw [List.mem_cons, not_or] at h
      rw [pieces_cons, if_neg (Ne.symm h.1), ih h.2]
      rfl

/-- A piece ends at the first comma. -/
theorem pieces_append_comma {cs : List Char} (h : ',' ∉ cs) (more : List Char) :
    pieces (cs ++ ',' :: more) = cs :: pieces more := by
  induction cs with
  | nil => rfl
  | cons c cs ih =>
      rw [List.mem_cons, not_or] at h
      rw [List.cons_append, pieces_cons, if_neg (Ne.symm h.1), ih h.2]
      rfl

/-- The number nearest to an integer as its digits are read. -/
def decimal (n : IntegerText) : Float := Decimal.ofDecimal n.negative n.magnitude 0

/-- The pieces of a written list are read as its numbers, one by one. -/
theorem mapM_pieces_listText {ns : List IntegerText} (hne : ns ≠ [])
    (hns : ∀ n ∈ ns, n.IsProper) {gap : List Char} (hgap : ∀ c ∈ gap, c = ' ') :
    (pieces (gap ++ listText ns)).mapM Decimal.readFloat? = some (ns.map decimal) := by
  induction ns generalizing gap with
  | nil => exact absurd rfl hne
  | cons n ns ih =>
      have hn := hns n List.mem_cons_self
      have hread : Decimal.readFloat? (gap ++ n.text) = some (decimal n) :=
        Decimal.readFloat_text hn fun c hc => by rw [hgap c hc]; decide
      have hcomma : ',' ∉ gap ++ n.text := by
        rw [List.mem_append, not_or]
        exact ⟨fun hc => absurd (hgap _ hc) (by decide),
          fun hc => absurd (hn.mem_text hc) (by decide)⟩
      cases ns with
      | nil =>
          have htext : gap ++ listText [n] = gap ++ n.text := by simp [listText]
          rw [htext, pieces_of_not_mem hcomma, List.mapM_cons, hread]
          rfl
      | cons m ns =>
          have hspace : ∀ c ∈ [' '], c = ' ' := by simp
          have hmore := ih (List.cons_ne_nil m ns)
            (fun k hk => hns k (List.mem_cons_of_mem n hk)) hspace
          rw [listText_cons_cons, ← List.append_assoc, pieces_append_comma hcomma,
            List.mapM_cons, hread, ← List.singleton_append, hmore]
          rfl

/-- Numbers listed in a text are read as decimals. -/
theorem components_listText {ns : List IntegerText} (hne : ns ≠ [])
    (hns : ∀ n ∈ ns, n.IsProper) :
    components? (.str (String.ofList (listText ns))) = .ok (some (ns.map decimal)) := by
  have hread := mapM_pieces_listText hne hns (List.forall_mem_nil fun c => c = ' ')
  rw [List.nil_append] at hread
  rw [components?, String.toList_ofList, hread]

theorem toFloat_of_not_isTooLarge {k : Int} (h : ¬ Number.IsTooLarge k) :
    toFloat (.int k) = .ok (Float.ofInt k) := by
  have hfloat : Number.intToFloat? k = some (Float.ofInt k) := if_neg h
  rw [toFloat, Number.toFloat?, hfloat]

theorem mapM_toFloat_of_not_isTooLarge {ns : List IntegerText}
    (hns : ∀ n ∈ ns, ¬ Number.IsTooLarge n.value) :
    (ns.map fun n => Number.int n.value).mapM toFloat =
      .ok (ns.map fun n => Float.ofInt n.value) := by
  induction ns with
  | nil => rfl
  | cons n ns ih =>
      obtain ⟨hn, hns⟩ := List.forall_mem_cons.mp hns
      rw [List.map_cons, List.mapM_cons, toFloat_of_not_isTooLarge hn, ih hns]
      rfl

/-- Numbers listed in an array are converted as integers. -/
theorem components_array {ns : List IntegerText} (hns : ∀ n ∈ ns, ¬ Number.IsTooLarge n.value) :
    components? (.list (ns.map fun n => .int n.value)) =
      .ok (some (ns.map fun n => Float.ofInt n.value)) := by
  have hnumbers : (ns.map fun n => Value.int n.value).mapM Number.ofValue? =
      some (ns.map fun n => .int n.value) := by
    apply (Number.mapM_ofValue_eq_some_iff _ _).mpr
    rw [List.map_map]
    rfl
  rw [components?, hnumbers]
  simp only [mapM_toFloat_of_not_isTooLarge hns]
  rfl

/-! ## Readers of three components -/

/-- Component by component the same amounts. -/
def SameAmounts (p q : Vec Float) : Prop := ∀ a, Decimal.SameAmount (p.get a) (q.get a)

/-- Three components are read as a vector if they pass a check, which all of them fail unless they
are finite and for which no sign of a zero counts. -/
structure IsReader (read : Value → Except Failure (Option (Vec Float)))
    (accepts : Vec Float → Bool) : Prop where
  ok_of_components : ∀ {v x y z}, components? v = .ok (some [x, y, z]) →
    read v = .ok ((some ⟨x, y, z⟩).filter accepts)
  error_of_overflows : ∀ {v}, Overflows v → read v = .error .tooLarge
  isFinite_of_accepts : ∀ {p}, accepts p = true → ∀ a, (p.get a).isFinite = true
  accepts_congr : ∀ {p q}, SameAmounts p q → accepts p = accepts q

theorem isReader_scale : IsReader scale? Transform.isUsable where
  ok_of_components h := by rw [scale?, h]; rfl
  error_of_overflows h := (scale_eq_error_iff _ _).mpr ⟨h, rfl⟩
  isFinite_of_accepts {p} h := by
    simp only [Transform.isUsable, Vec.components, List.all_cons, List.all_nil, Bool.and_true,
      Bool.and_eq_true] at h
    intro a
    cases a
    · exact h.1.1
    · exact h.2.1.1
    · exact h.2.2.1
  accepts_congr {p q} h := by
    have hx := h .x
    have hy := h .y
    have hz := h .z
    simp only [Vec.get] at hx hy hz
    simp only [Transform.isUsable, Vec.components, List.all_cons, List.all_nil, hx.isFinite_eq,
      hy.isFinite_eq, hz.isFinite_eq, hx.zero_lt_iff, hy.zero_lt_iff, hz.zero_lt_iff]

theorem isReader_position : IsReader position? fun p => p.components.all Float.isFinite where
  ok_of_components h := by rw [position?, h]; rfl
  error_of_overflows h := (position_eq_error_iff _ _).mpr ⟨h, rfl⟩
  isFinite_of_accepts {p} h := by
    simp only [Vec.components, List.all_cons, List.all_nil, Bool.and_true, Bool.and_eq_true] at h
    intro a
    cases a
    · exact h.1
    · exact h.2.1
    · exact h.2.2
  accepts_congr {p q} h := by
    have hx := h .x
    have hy := h .y
    have hz := h .z
    simp only [Vec.get] at hx hy hz
    simp only [Vec.components, List.all_cons, List.all_nil, hx.isFinite_eq, hy.isFinite_eq,
      hz.isFinite_eq]

/-! ## Both spellings read -/

/-- The list that an array of integers is read as. -/
def listed (ns : List IntegerText) : Value := .list (ns.map fun n => .int n.value)

/-- The text that integers with commas stay. -/
def written (ns : List IntegerText) : Value := .str (String.ofList (listText ns))

section

variable {read : Value → Except Failure (Option (Vec Float))} {accepts : Vec Float → Bool}
  (hread : IsReader read accepts) {a b c : IntegerText}

include hread

/-- A reader of placements gives the same numbers for both spellings of three small integers. -/
theorem IsReader.agrees (hns : ∀ n ∈ [a, b, c], n.IsProper)
    (hsmall : ∀ n ∈ [a, b, c], n.magnitude < Number.floatLimit) :
    ∃ p q, read (listed [a, b, c]) = .ok p ∧ read (written [a, b, c]) = .ok q ∧
      Option.Rel (fun p q => p.sameNumbers q = true) p q := by
  have hsame : ∀ n ∈ [a, b, c], Decimal.SameAmount (Float.ofInt n.value) (decimal n) :=
    fun n hn => Decimal.sameAmount_ofDecimal n.negative (hsmall n hn)
  have hvalues : ∀ n ∈ [a, b, c], ¬ Number.IsTooLarge n.value := by
    intro n hn
    rw [Number.IsTooLarge, n.natAbs_value]
    exact Nat.not_le.mpr (hsmall n hn)
  have hlisted := hread.ok_of_components (components_array hvalues)
  have hwritten := hread.ok_of_components (components_listText (List.cons_ne_nil a _) hns)
  simp only [List.forall_mem_cons, List.not_mem_nil, false_implies, implies_true, and_true] at hsame
  have hsames : SameAmounts ⟨Float.ofInt a.value, Float.ofInt b.value, Float.ofInt c.value⟩
      ⟨decimal a, decimal b, decimal c⟩ := by
    intro axis
    cases axis
    · exact hsame.1
    · exact hsame.2.1
    · exact hsame.2.2
  refine ⟨_, _, hlisted, hwritten, ?_⟩
  rw [Option.filter_some, Option.filter_some, ← hread.accepts_congr hsames]
  split
  · rename_i haccepts
    have hfinite := hread.isFinite_of_accepts haccepts
    have hx := hsame.1.beq (hfinite .x)
    have hy := hsame.2.1.beq (hfinite .y)
    have hz := hsame.2.2.beq (hfinite .z)
    exact .some (by simp [Vec.sameNumbers, hx, hy, hz])
  · exact .none

/-- An integer beyond all floating-point numbers cannot be converted, and is an infinity in a
text. -/
theorem IsReader.differs (hns : ∀ n ∈ [a, b, c], n.IsProper)
    (hlarge : ∃ n ∈ [a, b, c], Number.floatLimit ≤ n.magnitude) :
    read (listed [a, b, c]) = .error .tooLarge ∧ read (written [a, b, c]) = .ok none := by
  obtain ⟨n, hn, hlarge⟩ := hlarge
  constructor
  · apply hread.error_of_overflows
    refine ⟨n.value, ?_, .inr ⟨[a, b, c].map fun n => .int n.value, rfl, ?_⟩⟩
    · rwa [Number.IsTooLarge, n.natAbs_value]
    · exact List.mem_map_of_mem (f := fun n => Number.int n.value) hn
  · have hwritten := hread.ok_of_components (components_listText (List.cons_ne_nil a _) hns)
    have hinfinite : (decimal n).isFinite = false :=
      Decimal.not_isFinite_ofDecimal n.negative hlarge
    rw [written, hwritten, Option.filter_some, if_neg]
    intro haccepts
    have hfinite := hread.isFinite_of_accepts haccepts
    simp only [List.mem_cons, List.not_mem_nil, or_false] at hn
    rcases hn with rfl | rfl | rfl
    · exact Bool.eq_false_iff.mp hinfinite (hfinite .x)
    · exact Bool.eq_false_iff.mp hinfinite (hfinite .y)
    · exact Bool.eq_false_iff.mp hinfinite (hfinite .z)

end

end Placement

/-! ## Placements of a node -/

namespace Notation

section

variable {key : List Char} (hkey : IsName key) {before behind : List RawPair}
  (hothers : ∀ p ∈ before ++ behind, IsPlainPair p ∧ ∃ v, (coerce p.2).result = .ok v)
  (hlast : key ∉ behind.map Prod.fst) {n m : IntegerText} {ns : List IntegerText}
  {h : NodeHeader} {block : Option Block}

include hkey hothers hlast

/-- Properties that spell an array keep the list of its numbers. -/
theorem exists_listed (hns : ∀ k ∈ n :: ns, k.IsProper)
    (hwrites : Writes (before ++ (key, arrayText (n :: ns)) :: behind) h block) :
    ∃ ps, (nodeProperties h block).result = .ok ps ∧
      ps.get? (String.ofList key) = some (Placement.listed (n :: ns)) := by
  have hplain := PiecedPair.isPlain_ofPair (isPlainPair_arrayText (List.cons_ne_nil n ns) hns hkey)
  have hvalue := result_coerce_arrayText (List.cons_ne_nil n ns) hns
  have hpair := PiecedPair.pair_ofPair (key, arrayText (n :: ns))
  rw [← hpair] at hwrites
  exact exists_properties hothers hplain hlast (by rwa [hpair]) hwrites

/-- Properties that spell a bare list keep its text. -/
theorem exists_written (hns : ∀ k ∈ n :: m :: ns, k.IsProper)
    (hwrites : Writes (before ++ (key, listText (n :: m :: ns)) :: behind) h block) :
    ∃ ps, (nodeProperties h block).result = .ok ps ∧
      ps.get? (String.ofList key) = some (Placement.written (n :: m :: ns)) := by
  have hvalue := congrArg Trace.result (coerce_listText hns)
  rw [← pair_listedPair] at hwrites
  exact exists_properties hothers (isPlain_listedPair hkey hns) hlast hvalue hwrites

end

/-- Both placement properties have a name that can be written and a reader of placements. -/
theorem exists_isReader {name : String} {read : Value → Except Failure (Option (Vec Float))}
    (h : (name, read) ∈ [("scale", Placement.scale?), ("position", Placement.position?)]) :
    IsName name.toList ∧ ∃ accepts, Placement.IsReader read accepts := by
  simp only [List.mem_cons, Prod.mk.injEq, List.not_mem_nil, or_false] at h
  obtain ⟨rfl, rfl⟩ | ⟨rfl, rfl⟩ := h
  · exact ⟨isName_of_identifier (by decide) (Text.forall_mem_of_all (by decide)), _,
      Placement.isReader_scale⟩
  · exact ⟨isName_of_identifier (by decide) (Text.forall_mem_of_all (by decide)), _,
      Placement.isReader_position⟩

/-- A scale or a position written as an array and with commas alone, among other properties that
can be read. Both are the same vector or none, unless an integer is beyond all floating-point
numbers: then reading the array fails, and the text is no placement. -/
theorem placement_of_spellings {name : String}
    {read : Value → Except Failure (Option (Vec Float))}
    (hread : (name, read) ∈ [("scale", Placement.scale?), ("position", Placement.position?)])
    {a b c : IntegerText} (hns : ∀ n ∈ [a, b, c], n.IsProper) {before behind : List RawPair}
    (hothers : ∀ p ∈ before ++ behind, IsPlainPair p ∧ ∃ v, (coerce p.2).result = .ok v)
    (hkey : name.toList ∉ behind.map Prod.fst) {h h' : NodeHeader} {block block' : Option Block}
    (harray : Writes (before ++ (name.toList, arrayText [a, b, c]) :: behind) h block)
    (hlist : Writes (before ++ (name.toList, listText [a, b, c]) :: behind) h' block') :
    let v := Placement.listed [a, b, c]
    let w := Placement.written [a, b, c]
    ∃ ps ps', (nodeProperties h block).result = .ok ps ∧ ps.get? name = some v ∧
      (nodeProperties h' block').result = .ok ps' ∧ ps'.get? name = some w ∧
      ((∀ n ∈ [a, b, c], n.magnitude < Number.floatLimit) →
        ∃ p q, read v = .ok p ∧ read w = .ok q ∧
          Option.Rel (fun p q => p.sameNumbers q = true) p q) ∧
      ((∃ n ∈ [a, b, c], Number.floatLimit ≤ n.magnitude) →
        read v = .error .tooLarge ∧ read w = .ok none) := by
  intro v w
  obtain ⟨hname, accepts, hreader⟩ := exists_isReader hread
  obtain ⟨ps, hps, hv⟩ := exists_listed hname hothers hkey hns harray
  obtain ⟨ps', hps', hw⟩ := exists_written hname hothers hkey hns hlist
  rw [String.ofList_toList] at hv hw
  exact ⟨ps, ps', hps, hv, hps', hw, hreader.agrees hns, hreader.differs hns⟩

/-- A negative zero has its sign in one of the vectors only. -/
theorem placement_of_spellings_signed_zero :
    let ns : List IntegerText := [⟨false, ['1']⟩, ⟨true, ['2', '0']⟩, ⟨true, ['0']⟩]
    let key := "position".toList
    let color : RawPair := ("color".toList, "red".toList)
    let h : NodeHeader :=
      { id := "A", category := "Function", name := "f", delimiter := .square
        remainder := "\x7bcolor: red, position: [1, -20, -0]\x7d".toList }
    let h' : NodeHeader := { h with remainder := [] }
    let b : Block := ⟨[⟨3, "color: red".toList⟩, ⟨4, "position: 1, -20, -0".toList⟩], true⟩
    ((∀ n ∈ ns, n.IsProper) ∧ (∀ n ∈ ns, n.magnitude < Number.floatLimit) ∧
        Writes [color, (key, arrayText ns)] h none ∧
        Writes [color, (key, listText ns)] h' (some b)) ∧
      ∃ ps ps' q, (nodeProperties h none).result = .ok ps ∧
        ps.get? "position" = some (Placement.listed ns) ∧
        (nodeProperties h' (some b)).result = .ok ps' ∧
        ps'.get? "position" = some (Placement.written ns) ∧
        Placement.position? (Placement.listed ns) = .ok (some ⟨1.0, -20.0, 0.0⟩) ∧
        Placement.position? (Placement.written ns) = .ok (some q) ∧
        Vec.sameNumbers ⟨1.0, -20.0, 0.0⟩ q = true := by
  intro ns key color h h' b
  have hread : ("position", Placement.position?) ∈
      [("scale", Placement.scale?), ("position", Placement.position?)] := by simp
  have hns : ∀ n ∈ ns, n.IsProper := by decide
  have hsmall : ∀ n ∈ ns, n.magnitude < Number.floatLimit := by decide +kernel
  have harray : Writes [color, (key, arrayText ns)] h none := .inline (by decide)
  have hlist : Writes [color, (key, listText ns)] h' (some b) := .block (by decide) (by decide)
  have hothers : ∀ p ∈ [color] ++ [], IsPlainPair p ∧ ∃ v, (coerce p.2).result = .ok v := by
    intro p hp
    obtain rfl := List.mem_singleton.mp hp
    exact ⟨by decide, _, rfl⟩
  obtain ⟨ps, ps', hps, hv, hps', hw, hagrees, -⟩ :=
    placement_of_spellings hread hns hothers List.not_mem_nil harray hlist
  obtain ⟨p, q, hp, hq, hsame⟩ := hagrees hsmall
  have hvector : Placement.position? (Placement.listed ns) = .ok (some ⟨1.0, -20.0, 0.0⟩) := by
    decide +kernel
  obtain rfl := Except.ok.inj (hp.symm.trans hvector)
  cases hsame with
  | some hsame => exact ⟨⟨hns, hsmall, harray, hlist⟩, ps, ps', _, hps, hv, hps', hw, hp, hq, hsame⟩

/-- With an integer of 309 nines an array is no position but a failure, and a text is none. -/
theorem position_of_nines_fails :
    let zero : IntegerText := ⟨false, ['0']⟩
    let ns : List IntegerText := [⟨false, nines 309⟩, zero, zero]
    let h : NodeHeader := ⟨"A", "Function", "f", .square, []⟩
    let block (value : List Char) : Block :=
      ⟨[⟨3, pairText ("position".toList, value)⟩], true⟩
    (∀ n ∈ ns, n.IsProper) ∧
      ∃ ps ps', (nodeProperties h (some (block (arrayText ns)))).result = .ok ps ∧
        ps.get? "position" = some (Placement.listed ns) ∧
        (nodeProperties h (some (block (listText ns)))).result = .ok ps' ∧
        ps'.get? "position" = some (Placement.written ns) ∧
        Placement.position? (Placement.listed ns) = .error .tooLarge ∧
        Placement.position? (Placement.written ns) = .ok none := by
  intro zero ns h block
  have hnines : (⟨false, nines 309⟩ : IntegerText).IsProper :=
    ⟨⟨by decide, of_mem_nines (by decide)⟩, .inr (by decide), by decide +kernel⟩
  have hns : ∀ n ∈ ns, n.IsProper :=
    List.forall_mem_cons.mpr ⟨hnines, by decide⟩
  have hlarge : ∃ n ∈ ns, Number.floatLimit ≤ n.magnitude := by
    refine ⟨⟨false, nines 309⟩, List.mem_cons_self, ?_⟩
    rw [IntegerText.magnitude, ofDigits_nines]
    decide +kernel
  have hname : IsName "position".toList :=
    isName_of_identifier (by decide) (Text.forall_mem_of_all (by decide))
  have hothers : ∀ p ∈ ([] ++ [] : List RawPair),
      IsPlainPair p ∧ ∃ v, (coerce p.2).result = .ok v := List.forall_mem_nil _
  have harray : Writes ([] ++ ("position".toList, arrayText ns) :: []) h
      (some (block (arrayText ns))) := .block rfl rfl
  have hlist : Writes ([] ++ ("position".toList, listText ns) :: []) h
      (some (block (listText ns))) := .block rfl rfl
  obtain ⟨ps, hps, hv⟩ := exists_listed hname hothers List.not_mem_nil hns harray
  obtain ⟨ps', hps', hw⟩ := exists_written hname hothers List.not_mem_nil hns hlist
  obtain ⟨hfails, hnone⟩ := Placement.isReader_position.differs hns hlarge
  exact ⟨hns, ps, ps', hps, hv, hps', hw, hfails, hnone⟩

end Notation

end SpatialDiagram
