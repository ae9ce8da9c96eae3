import SpatialDiagram.Proofs.Notation.Concatenation
import SpatialDiagram.Proofs.Text.Trimming

/-!
# Comments

A comment at a statement position contributes nothing. The lines of a block are
not asked whether they are comments, so a comment with a colon is read there as
a property, and a comment between a node and an opening brace keeps the brace
from opening a block. Elsewhere comments may be deleted.
-/

namespace SpatialDiagram

namespace Text

/-- Trimming keeps a doubled character in front that is no blank. -/
theorem pair_isPrefix_trim_iff {c : Char} (hc : isBlank c = false) (cs : List Char) :
    [c, c] <+: trim cs ↔ [c, c] <+: cs.dropWhile isBlank := by
  constructor
  · exact fun h => h.trans (stripWhile_isPrefix_dropWhile isBlank cs)
  · rintro ⟨rest, hrest⟩
    rw [trim, stripWhile, ← hrest, List.reverse_append, List.dropWhile_append]
    split
    · simp [hc]
    · rw [List.reverse_append]
      exact List.prefix_append _ _

end Text

namespace Notation

/-! ## Comments and keys -/

theorem isComment_iff (cs : List Char) :
    isComment cs = true ↔ ['%', '%'] <+: cs ∨ ['/', '/'] <+: cs := by
  simp [isComment, commentMarkers, List.isPrefixOf_iff_prefix]

theorem pair_isPrefix_takeWhile_iff {c : Char} {p : Char → Bool} (hc : p c = true)
    (cs : List Char) : [c, c] <+: cs.takeWhile p ↔ [c, c] <+: cs := by
  refine ⟨fun h => h.trans (List.takeWhile_prefix p), ?_⟩
  rintro ⟨rest, rfl⟩
  simp [hc]

/-- A line without a blank in front is a comment exactly if its key looks like one. -/
theorem isComment_key {cs : List Char} (hcs : ∀ c, cs.head? = some c → Text.isBlank c = false)
    {p : RawPair} (hp : rawPair? cs = some p) : isComment p.1 = isComment cs := by
  obtain ⟨hsplit, -⟩ := Option.filter_eq_some_iff.mp hp
  have hkey : p.1 = Text.trim (cs.takeWhile (· ≠ ':')) := by
    rw [splitColon?] at hsplit
    split at hsplit
    · exact congrArg Prod.fst (Option.some.inj hsplit).symm
    · cases hsplit
  have hfront : (cs.takeWhile (· ≠ ':')).dropWhile Text.isBlank = cs.takeWhile (· ≠ ':') := by
    cases htake : cs.takeWhile (· ≠ ':') with
    | nil => rfl
    | cons c rest =>
        refine List.dropWhile_cons_of_neg ?_
        have hhead : (cs.takeWhile (· ≠ ':')).head? = some c := by rw [htake, List.head?_cons]
        rw [List.head?_takeWhile] at hhead
        simp [hcs c (Option.filter_eq_some_iff.mp hhead).1]
  have hmarker {c : Char} (hblank : Text.isBlank c = false) (hcolon : c ≠ ':') :
      [c, c] <+: p.1 ↔ [c, c] <+: cs := by
    rw [hkey, Text.pair_isPrefix_trim_iff hblank, hfront,
      pair_isPrefix_takeWhile_iff (decide_eq_true hcolon)]
  rw [Bool.eq_iff_iff, isComment_iff, isComment_iff, hmarker (by decide) (by decide),
    hmarker (by decide) (by decide)]

/-! ## Deleting the comments of a source -/

/-- The line says something: it is no comment. -/
def isContent (l : SourceLine) : Bool := !isComment l.text

/-- The lines of one text are those of another that are no comments. -/
def Uncommented (source bare : List Char) : Prop :=
  Text.lines bare = (Text.lines source).filter fun l => !isComment (Text.trim l)

instance (source bare : List Char) : Decidable (Uncommented source bare) :=
  inferInstanceAs (Decidable (_ = _))

theorem SourceLine.texts_ofText (source : List Char) :
    (ofText source).map text =
      ((Text.lines source).map Text.trim).filter fun cs => !cs.isEmpty := by
  have hall : ((Text.lines source).zipIdx 1).map (fun l => Text.trim l.1) =
      (Text.lines source).map Text.trim := by
    conv_rhs => rw [← List.zipIdx_map_fst 1 (Text.lines source), List.map_map]
    rfl
  rw [ofText, ← hall, List.filter_map, List.filter_map, List.map_map]
  rfl

theorem SourceLine.isBlank_head {source : List Char} {l : SourceLine} (hl : l ∈ ofText source)
    {c : Char} (hc : l.text.head? = some c) : Text.isBlank c = false := by
  have htext : l.text ∈ (ofText source).map text := List.mem_map_of_mem hl
  rw [texts_ofText] at htext
  obtain ⟨cs, -, htrim⟩ := List.mem_map.mp (List.mem_of_mem_filter htext)
  exact (Text.trim_ends cs).1 c (htrim ▸ hc)

/-- A source without its comments has the content lines of the source. -/
theorem texts_of_uncommented {source bare : List Char} (h : Uncommented source bare) :
    (SourceLine.ofText bare).map SourceLine.text =
      ((SourceLine.ofText source).filter isContent).map SourceLine.text := by
  have hfilter : ((SourceLine.ofText source).filter isContent).map SourceLine.text =
      ((SourceLine.ofText source).map SourceLine.text).filter fun cs => !isComment cs := by
    rw [List.filter_map]
    rfl
  have htrim : ((Text.lines source).filter fun l => !isComment (Text.trim l)).map Text.trim =
      ((Text.lines source).map Text.trim).filter fun cs => !isComment cs := by
    rw [List.filter_map]
    rfl
  rw [hfilter, SourceLine.texts_ofText, SourceLine.texts_ofText, h, htrim, List.filter_filter,
    List.filter_filter]
  simp only [Bool.and_comm]

/-! ## Comments among statements -/

/-- Comments stand between a usable node without an inline block and an opening brace alone. -/
def Parted (l : SourceLine) (rest : List SourceLine) : Prop :=
  (classify l.text).takesBlock = true ∧ ∃ cs next more, rest = cs ++ next :: more ∧ cs ≠ [] ∧
    (∀ c ∈ cs, isComment c.text = true) ∧ next.text = blockOpener

/-- Comments part a node from the block that would be its own without them. -/
def PartsBlock (ls : List SourceLine) : Prop :=
  ∃ i l, StatementAt ls i ∧ ls[i]? = some l ∧ Parted l (ls.drop (i + 1))

/-- A block is opened in which a comment has the form of a property. -/
def MisreadAt (ls : List SourceLine) (i : Nat) : Prop :=
  OpensBlock ls i ∧
    ∃ l ∈ blockLines ls i, isComment l.text = true ∧ (rawPair? l.text).isSome = true

/-- Some statement of the source takes in a comment as if it were content. -/
def MisreadsComment (ls : List SourceLine) : Prop := ∃ i, StatementAt ls i ∧ MisreadAt ls i

/-- A block without its comment lines. -/
def Block.uncommented (b : Block) : Block := { b with lines := b.lines.filter isContent }

/-- A statement whose block has lost its comment lines. -/
def Statement.uncommented (s : Statement) : Statement :=
  { s with block := s.block.map Block.uncommented }

theorem isContent_of_takesBlock {l : SourceLine} (h : (classify l.text).takesBlock = true) :
    isContent l = true := by
  rw [isContent, Bool.not_eq_true']
  refine Bool.eq_false_iff.mpr fun hcomment => ?_
  rw [classify, if_pos hcomment] at h
  cases h

theorem isContent_of_text {l : SourceLine} {cs : List Char} (hcs : isComment cs = false)
    (h : l.text = cs) : isContent l = true := by
  rw [isContent, h, hcs]
  rfl

theorem judgment_of_comment {l : SourceLine} (h : isContent l = false) :
    classify l.text = .comment := by
  rw [isContent, Bool.not_eq_false'] at h
  rw [classify, if_pos h]

/-- A block without comments is split as the block with them. -/
theorem Block.split_uncommented (ls : List SourceLine) :
    split (ls.filter isContent) = ((split ls).1.uncommented, (split ls).2.filter isContent) := by
  induction ls with
  | nil => rfl
  | cons l ls ih =>
      by_cases hl : l.text = blockCloser
      · rw [List.filter_cons_of_pos (isContent_of_text (by decide) hl), split_closer hl,
          split_closer hl]
        rfl
      · rw [split_cons hl]
        cases hc : isContent l with
        | true =>
            rw [List.filter_cons_of_pos hc, split_cons hl, ih]
            simp [uncommented, hc]
        | false =>
            rw [List.filter_cons_of_neg (Bool.eq_false_iff.mp hc), ih]
            simp [uncommented, hc]

/-- Without its comments a source opens the same blocks, and those from which comments were parting
a node. -/
theorem opening_filter_iff (l : SourceLine) (rest : List SourceLine) :
    Opening l (rest.filter isContent) ↔ Opening l rest ∨ Parted l rest := by
  constructor
  · intro hopen
    cases hrest : rest.filter isContent with
    | nil => exact absurd (hrest ▸ hopen) (not_opening_nil l)
    | cons next more =>
        rw [hrest, opening_cons_iff] at hopen
        obtain ⟨htakes, hnext⟩ := hopen
        obtain ⟨cs, more', rfl, hcs, -, -⟩ := List.filter_eq_cons_iff.mp hrest
        cases cs with
        | nil => exact .inl ((opening_cons_iff l next more').mpr ⟨htakes, hnext⟩)
        | cons c cs =>
            refine .inr ⟨htakes, c :: cs, next, more', rfl, List.cons_ne_nil c cs, ?_, hnext⟩
            intro d hd
            simpa [isContent] using hcs d hd
  · rintro (hopen | ⟨htakes, cs, next, more, rfl, -, hcs, hnext⟩)
    · cases rest with
      | nil => exact absurd hopen (not_opening_nil l)
      | cons next more =>
          have hnext := ((opening_cons_iff l next more).mp hopen).2
          rw [List.filter_cons_of_pos (isContent_of_text (by decide) hnext), opening_cons_iff]
          exact ⟨hopen.1, hnext⟩
    · have hnone : cs.filter isContent = [] :=
        List.filter_eq_nil_iff.mpr fun c hc => by simp [isContent, hcs c hc]
      rw [List.filter_append, hnone, List.nil_append,
        List.filter_cons_of_pos (isContent_of_text (by decide) hnext), opening_cons_iff]
      exact ⟨htakes, hnext⟩

/-- Where no comment parts a node from its block, the lines without comments are the same statements
without comments. -/
theorem statements_uncommented {ls : List SourceLine} (h : ¬ PartsBlock ls) :
    statements (ls.filter isContent) =
      ((statements ls).filter fun s => isContent s.line).map Statement.uncommented := by
  refine statements_induction
    (motive := fun ls => statements (ls.filter isContent) =
      ((statements ls).filter fun s => isContent s.line).map Statement.uncommented)
    (P := fun l rest => ¬ Parted l rest)
    (fun i l hi hl hparted => h ⟨i, l, hi, hl, hparted⟩) ?_ ?_ ?_
  · rw [List.filter_nil, statements]
    rfl
  · intro l next more hopen _ ih
    obtain ⟨htakes, hnext⟩ := (opening_cons_iff l next more).mp hopen
    have hl := isContent_of_takesBlock htakes
    have hopen' : Opening l (next :: more.filter isContent) :=
      (opening_cons_iff l next _).mpr ⟨htakes, hnext⟩
    rw [List.filter_cons_of_pos hl, List.filter_cons_of_pos (isContent_of_text (by decide) hnext),
      statements_of_opening hopen', statements_of_opening hopen, Block.split_uncommented, ih]
    simp only [List.filter_cons, hl, if_true, List.map_cons]
    rfl
  · intro l rest hopen hparted ih
    have hopen' : ¬ Opening l (rest.filter isContent) := fun ho =>
      ((opening_filter_iff l rest).mp ho).elim hopen hparted
    rw [statements_of_line hopen]
    cases hl : isContent l with
    | false => simpa only [List.filter_cons, hl, if_false, Bool.false_eq_true] using ih
    | true =>
        rw [List.filter_cons_of_pos hl, statements_of_line hopen', ih]
        simp only [List.filter_cons, hl, if_true, List.map_cons]
        rfl

/-! ## Comments among properties -/

theorem forall₂_and {α β : Type} {R S : α → β → Prop} {xs : List α} {ys : List β}
    (h : List.Forall₂ R xs ys) (h' : List.Forall₂ S xs ys) :
    List.Forall₂ (fun x y => R x y ∧ S x y) xs ys := by
  induction h with
  | nil => exact .nil
  | cons hxy _ ih =>
      obtain _ | ⟨hxy', hrest'⟩ := h'
      exact .cons ⟨hxy, hxy'⟩ (ih hrest')

/-- A comment of a block is read as a property. -/
def Block.Misread (b : Block) : Prop :=
  ∃ l ∈ b.lines, isComment l.text = true ∧ (rawPair? l.text).isSome = true

/-- A statement misreads a comment exactly if its block does. -/
theorem misreadAt_iff {ls : List SourceLine} {i : Nat} {s : Statement} (hs : IsStatement ls i s) :
    MisreadAt ls i ↔ ∃ b, s.block = some b ∧ b.Misread := by
  by_cases hopen : OpensBlock ls i
  · obtain ⟨b, hb, hlines⟩ := hs.block hopen
    simp only [MisreadAt, Block.Misread, hopen, hb, Option.some.injEq, exists_eq_left', hlines,
      true_and]
  · simp [MisreadAt, hopen, hs.no_block hopen]

/-- A block that misreads no comment has the same pairs without them. -/
theorem Block.filterMap_uncommented {b : Block} (h : ¬ b.Misread) :
    (b.uncommented.lines.filterMap fun l => rawPair? l.text) =
      b.lines.filterMap fun l => rawPair? l.text := by
  rw [uncommented, List.filterMap_filter]
  refine List.filterMap_congr fun l hl => ?_
  split
  · rfl
  · rename_i hcomment
    rw [isContent, Bool.not_eq_true', Bool.not_eq_false] at hcomment
    refine (Option.not_isSome_iff_eq_none.mp fun hpair => h ⟨l, hl, hcomment, hpair⟩).symm

namespace Statement

def isNode (s : Statement) : Bool := s.judgment.nodeHeader?.isSome

/-- A node statement gives its node these properties. -/
def Spells (s : Statement) (p : Properties) : Prop :=
  ∃ header, s.judgment = .node (some header) ∧ (nodeProperties header s.block).result = .ok p

end Statement

namespace Diagram

theorem result_declare_uncommented {s : Statement} (h : ∀ b, s.block = some b → ¬ b.Misread)
    (d : Diagram) : (d.declare s.uncommented).result = (d.declare s).result.map id :=
  result_declare_of id rfl
    (fun header => result_nodeProperties_map header fun b hb =>
      Block.filterMap_uncommented (h b hb))
    (fun _ _ => rfl) (fun n hn => by simp [← hn, Statement.uncommented]) (fun _ => rfl) fun _ => rfl

theorem result_foldlM_content {ss : List Statement}
    (hss : ∀ s ∈ ss, s.judgment = classify s.line.text) (d : Diagram) :
    ((ss.filter fun s => isContent s.line).foldlM declare d).result =
      (ss.foldlM declare d).result := by
  refine Trace.result_foldlM_filter (fun d s hs hcomment => declare_of_silent d ?_) d
  rw [hss s hs, judgment_of_comment hcomment]
  rfl

/-- A statement that adds a node adds one with the properties that it spells, and no other statement
adds a node. -/
theorem properties_of_declares {d d' : Diagram} {s : Statement} (h : Declares d s d') :
    ∃ ps, d'.nodes.map NodeDeclaration.properties =
        d.nodes.map NodeDeclaration.properties ++ ps ∧
      List.Forall₂ Statement.Spells ([s].filter Statement.isNode) ps := by
  have hother (hnode : s.isNode = false) (hnodes : d'.nodes = d.nodes) :
      ∃ ps, d'.nodes.map NodeDeclaration.properties =
          d.nodes.map NodeDeclaration.properties ++ ps ∧
        List.Forall₂ Statement.Spells ([s].filter Statement.isNode) ps := by
    refine ⟨[], by rw [hnodes, List.append_nil], ?_⟩
    rw [List.filter_cons_of_neg (Bool.eq_false_iff.mp hnode)]
    exact .nil
  cases h with
  | node hj hp =>
      refine ⟨[_], List.map_append, ?_⟩
      rw [List.filter_cons_of_pos (by rw [Statement.isNode, hj]; rfl)]
      exact .cons ⟨_, hj, hp⟩ .nil
  | silent hsilent =>
      refine hother ?_ rfl
      rw [Statement.isNode]
      cases hj : s.judgment <;> simp_all [Judgment.contributes, Judgment.nodeHeader?]
  | @field field value hj =>
      refine hother (by rw [Statement.isNode, hj]; rfl) ?_
      cases field <;> rfl
  | connection hj => exact hother (by rw [Statement.isNode, hj]; rfl) rfl
  | metadata hj => exact hother (by rw [Statement.isNode, hj]; rfl) rfl

/-- The properties of the nodes are spelled by their statements, one by one. -/
theorem properties_of_foldlM {ss : List Statement} {d : Diagram}
    (h : (ss.foldlM declare {}).result = .ok d) :
    List.Forall₂ Statement.Spells (ss.filter Statement.isNode)
      (d.nodes.map NodeDeclaration.properties) := by
  refine Trace.foldlM_induction
    (motive := fun before d => List.Forall₂ Statement.Spells (before.filter Statement.isNode)
      (d.nodes.map NodeDeclaration.properties)) .nil ?_ h
  intro before s after d d' _ hbefore hs
  obtain ⟨ps, hps, hlast⟩ := properties_of_declares (declares_of_ok hs)
  rw [List.filter_append, hps]
  exact List.rel_append hbefore hlast

/-- The properties that are spelled have exactly the keys of the pairs. -/
theorem mem_keys_iff_of_spells {pairs : List RawPair} {ps : Properties} (h : Spells pairs ps)
    (k : String) : k ∈ ps.keys ↔ ∃ p ∈ pairs, String.ofList p.1 = k := by
  obtain ⟨entries, hall, rfl⟩ := h
  have hkeys : entries.map Prod.fst = pairs.map fun p => String.ofList p.1 := by
    rw [← List.forall₂_eq_eq_eq, List.forall₂_map_left_iff, List.forall₂_map_right_iff]
    exact hall.flip.imp fun _ _ hp => hp.1
  calc k ∈ (Table.ofList entries).keys ↔ ∃ e ∈ entries, e.1 = k := by
        rw [← Table.get_isSome_iff, Table.get_ofList, List.lookup_isSome_iff]
        simp only [List.mem_reverse, beq_iff_eq]
        exact exists_congr fun e => and_congr_right fun _ => eq_comm
    _ ↔ k ∈ entries.map Prod.fst := List.mem_map.symm
    _ ↔ ∃ p ∈ pairs, String.ofList p.1 = k := by rw [hkeys, List.mem_map]

/-- Where both spell the same properties, no comment of a block is read as one. -/
theorem not_misread_of_spells {s : Statement} {b : Block} {p : Properties}
    (hb : s.block = some b) (htakes : s.judgment.takesBlock = true)
    (htrim : ∀ l ∈ b.lines, ∀ c, l.text.head? = some c → Text.isBlank c = false)
    (h : s.Spells p) (h' : s.uncommented.Spells p) : ¬ b.Misread := by
  rintro ⟨l, hl, hcomment, hpair⟩
  obtain ⟨pair, hpair⟩ := Option.isSome_iff_exists.mp hpair
  obtain ⟨header, hj, hp⟩ := h
  obtain ⟨header', hj', hp'⟩ := h'
  obtain rfl : header = header' :=
    Option.some.inj (Judgment.node.inj (hj.symm.trans hj'))
  have hinline : inlineBlock? header.remainder = none :=
    Option.isNone_iff_eq_none.mp (by rwa [hj] at htakes)
  rw [hb] at hp
  have hblock' : s.uncommented.block = some b.uncommented := by
    rw [Statement.uncommented, hb, Option.map_some]
  rw [hblock'] at hp'
  simp only [nodeProperties, hinline] at hp hp'
  have hkey : String.ofList pair.1 ∈ p.keys :=
    (mem_keys_iff_of_spells (spells_of_blockProperties hp) _).mpr
      ⟨pair, List.mem_filterMap.mpr ⟨l, hl, hpair⟩, rfl⟩
  obtain ⟨pair', hmem, hsame⟩ :=
    (mem_keys_iff_of_spells (spells_of_blockProperties hp') _).mp hkey
  obtain ⟨l', hl', hpair'⟩ := List.mem_filterMap.mp hmem
  obtain ⟨hl', hcontent⟩ := List.mem_filter.mp hl'
  have hcomment' : isComment l'.text = true := by
    rw [← isComment_key (htrim l' hl') hpair', String.ofList_injective hsame,
      isComment_key (htrim l hl) hpair, hcomment]
  rw [isContent, hcomment'] at hcontent
  cases hcontent

theorem result_foldlM_uncommented {ss : List Statement}
    (h : ∀ s ∈ ss, ∀ b, s.block = some b → ¬ b.Misread) :
    ((ss.map Statement.uncommented).foldlM declare {}).result = (ss.foldlM declare {}).result := by
  have hfold := Trace.result_foldlM_map_of id Statement.uncommented (fun _ => True) ss
    (fun _ _ _ _ _ => trivial) (fun d s hs _ => result_declare_uncommented (h s hs) d)
    (b := ({} : Diagram)) trivial
  rwa [Except.map_id] at hfold

/-- The statements of a source that are no comments. -/
def contents (ls : List SourceLine) : List Statement :=
  (statements ls).filter fun s => isContent s.line

/-- No comment is misread exactly if no content statement has a block that misreads one. -/
theorem not_misreadsComment_iff (ls : List SourceLine) :
    ¬ MisreadsComment ls ↔ ∀ s ∈ contents ls, ∀ b, s.block = some b → ¬ b.Misread := by
  constructor
  · intro h s hs b hb hmisread
    obtain ⟨i, hi, his⟩ := exists_position (List.mem_of_mem_filter hs)
    exact h ⟨i, hi, (misreadAt_iff his).mpr ⟨b, hb, hmisread⟩⟩
  · rintro h ⟨i, hi, hmisread⟩
    obtain ⟨s, hs, his⟩ := exists_statement hi
    obtain ⟨b, hb, hb'⟩ := (misreadAt_iff his).mp hmisread
    have htakes := ((opensBlock_iff his.line).mp hmisread.1).1
    exact h s (List.mem_filter.mpr ⟨hs, isContent_of_takesBlock htakes⟩) b hb hb'

/-- Where the statements with and without the comments of their blocks give the nodes the same
properties, no comment was read as one. -/
theorem not_misread_of_properties {ls : List SourceLine}
    (htrim : ∀ l ∈ ls, ∀ c, l.text.head? = some c → Text.isBlank c = false) {d d' : Diagram}
    (hd : ((contents ls).foldlM declare {}).result = .ok d)
    (hd' : (((contents ls).map Statement.uncommented).foldlM declare {}).result = .ok d')
    (hsame : d'.nodes.map NodeDeclaration.properties = d.nodes.map NodeDeclaration.properties) :
    ∀ s ∈ contents ls, ∀ b, s.block = some b → ¬ b.Misread := by
  intro s hs b hb
  obtain ⟨i, hi, his⟩ := exists_position (List.mem_of_mem_filter hs)
  have hopen : OpensBlock ls i := by
    by_contra hopen
    rw [his.no_block hopen] at hb
    cases hb
  have htakes : s.judgment.takesBlock = true :=
    his.judgment ▸ ((opensBlock_iff his.line).mp hopen).1
  have hspells := properties_of_foldlM hd
  have hspells' := properties_of_foldlM hd'
  have hnodes : ((contents ls).map Statement.uncommented).filter Statement.isNode =
      ((contents ls).filter Statement.isNode).map Statement.uncommented := by
    rw [List.filter_map]
    rfl
  rw [hsame, hnodes, List.forall₂_map_left_iff] at hspells'
  have hnode : s ∈ (contents ls).filter Statement.isNode := by
    obtain ⟨header, hj, -⟩ := (takesBlock_iff s.judgment).mp htakes
    exact List.mem_filter.mpr ⟨hs, by rw [Statement.isNode, hj]; rfl⟩
  obtain ⟨p, -, hp, hp'⟩ := exists_of_forall₂ (forall₂_and hspells hspells') hnode
  refine not_misread_of_spells hb htakes (fun l hl => htrim l ?_) hp hp'
  obtain ⟨b', hb', hlines⟩ := his.block hopen
  obtain rfl := Option.some.inj (hb.symm.trans hb')
  rw [hlines] at hl
  exact List.mem_of_mem_drop ((List.takeWhile_prefix _).subset hl)

theorem properties_unnumbered (d : Diagram) :
    d.unnumbered.nodes.map NodeDeclaration.properties =
      d.nodes.map NodeDeclaration.properties := by
  rw [unnumbered, renumber, List.map_map]
  rfl

/-- Where no comment parts a node from its block, the comments of a source may be deleted if none of
them is read as a property, and for a source that can be parsed only then. -/
theorem parse_uncommented {source bare : String} (hbare : Uncommented source.toList bare.toList)
    (hparted : ¬ PartsBlock (SourceLine.ofText source.toList)) :
    (¬ MisreadsComment (SourceLine.ofText source.toList) →
      (parse (.str bare)).result.map unnumbered = (parse (.str source)).result.map unnumbered) ∧
    ∀ d, (parse (.str source)).result = .ok d →
      (parse (.str bare)).result.map unnumbered = .ok d.unnumbered →
        ¬ MisreadsComment (SourceLine.ofText source.toList) := by
  set ls := SourceLine.ofText source.toList with hls
  have hsource : (parse (.str source)).result = ((contents ls).foldlM declare {}).result := by
    rw [result_parse, contents, result_foldlM_content fun s hs => ?_]
    obtain ⟨i, -, hi⟩ := exists_position hs
    exact hi.judgment
  have hbare : (parse (.str bare)).result.map unnumbered =
      (((contents ls).map Statement.uncommented).foldlM declare {}).result.map unnumbered := by
    rw [result_parse, result_foldlM_of_texts (texts_of_uncommented hbare),
      statements_uncommented hparted, contents]
  rw [not_misreadsComment_iff]
  constructor
  · intro hmisread
    rw [hbare, hsource, result_foldlM_uncommented hmisread]
  · intro d hd hsame
    rw [hsource] at hd
    rw [hbare] at hsame
    cases hd' : (((contents ls).map Statement.uncommented).foldlM declare {}).result with
    | error e =>
        rw [hd'] at hsame
        cases hsame
    | ok d' =>
        rw [hd'] at hsame
        refine not_misread_of_properties (fun l hl c => SourceLine.isBlank_head hl) hd hd' ?_
        rw [← properties_unnumbered d', Except.ok.inj hsame, properties_unnumbered]

/-- Comments before, inside and behind a block. -/
theorem parse_uncommented_block :
    let source := "// a\nA[Function: f]\n\x7b\n// b\nk: v\n\x7d\n%% c: d"
    let bare := "A[Function: f]\n\x7b\nk: v\n\x7d"
    Uncommented source.toList bare.toList ∧
      ¬ PartsBlock (SourceLine.ofText source.toList) ∧
      ¬ MisreadsComment (SourceLine.ofText source.toList) ∧
      (parse (.str bare)).result.map unnumbered =
        (parse (.str source)).result.map unnumbered := by
  intro source bare
  have hbare : Uncommented source.toList bare.toList := by decide
  have hlines : SourceLine.ofText source.toList =
      [⟨1, "// a".toList⟩, ⟨2, "A[Function: f]".toList⟩, ⟨3, blockOpener⟩, ⟨4, "// b".toList⟩,
        ⟨5, "k: v".toList⟩, ⟨6, blockCloser⟩, ⟨7, "%% c: d".toList⟩] := by decide
  have hparted : ¬ PartsBlock (SourceLine.ofText source.toList) := by
    rw [hlines]
    rintro ⟨i, l, -, hl, htakes, cs, next, more, hrest, hcs, hcomments, -⟩
    -- Only the second line takes a block, and the line behind it is no comment.
    obtain rfl : i = 1 := by
      rcases i with _ | _ | _ | _ | _ | _ | _ | i <;> cases hl
      all_goals first | rfl | exact absurd htakes (by decide)
    obtain _ | ⟨c, cs⟩ := cs
    · exact hcs rfl
    · obtain rfl := (List.cons.inj hrest).1
      exact absurd (hcomments _ List.mem_cons_self) (by decide)
  have hread : ¬ MisreadsComment (SourceLine.ofText source.toList) := by
    rw [hlines]
    rintro ⟨i, -, ⟨_, _, next, -, -, -, hnext, htext⟩, l, hl, hcomment, hpair⟩
    obtain rfl : i = 1 := by
      rcases i with _ | _ | _ | _ | _ | _ | i <;> cases hnext
      all_goals first | rfl | exact absurd htext (by decide)
    have hblock : blockLines [⟨1, "// a".toList⟩, ⟨2, "A[Function: f]".toList⟩, ⟨3, blockOpener⟩,
        ⟨4, "// b".toList⟩, ⟨5, "k: v".toList⟩, ⟨6, blockCloser⟩, ⟨7, "%% c: d".toList⟩] 1 =
        [⟨4, "// b".toList⟩, ⟨5, "k: v".toList⟩] := by decide
    rw [hblock, List.mem_pair] at hl
    rcases hl with rfl | rfl
    · exact absurd hpair (by decide)
    · exact absurd hcomment (by decide)
  exact ⟨hbare, hparted, hread, (parse_uncommented hbare hparted).1 hread⟩

/-- A comment in a block is read as a property, and a comment in front of a block keeps the node
from its properties. -/
theorem comment_changes_node :
    let bare := "A[Function: f]\n\x7b\nk: v\n\x7d"
    let inside := "A[Function: f]\n\x7b\nk: v\n%% color: red\n\x7d"
    let before := "A[Function: f]\n%% color: red\n\x7b\nk: v\n\x7d"
    let n (p : Properties) : NodeDeclaration :=
      { id := "A", category := .function, name := "f", delimiter := .square, properties := p
        line := 1 }
    Uncommented inside.toList bare.toList ∧ Uncommented before.toList bare.toList ∧
      (parse (.str bare)).result = .ok { nodes := [n ⟨[("k", .str "v")]⟩] } ∧
      (parse (.str inside)).result =
        .ok { nodes := [n ⟨[("k", .str "v"), ("%% color", .str "red")]⟩] } ∧
      (parse (.str before)).result =
        .ok { nodes := [n .empty], metadata := ⟨[("k", "v")]⟩ } := by
  intro bare inside before n
  refine ⟨by decide, by decide, ?_, ?_, ?_⟩
  · have hlines : SourceLine.ofText bare.toList =
        [⟨1, "A[Function: f]".toList⟩, ⟨2, blockOpener⟩, ⟨3, "k: v".toList⟩, ⟨4, blockCloser⟩] := by
      decide
    have hsplit : Block.split [⟨3, "k: v".toList⟩, ⟨4, blockCloser⟩] =
        (⟨[⟨3, "k: v".toList⟩], true⟩, []) := by decide
    rw [result_parse, hlines, statements_of_opening ⟨by decide, _, rfl, rfl⟩, hsplit, statements]
    rfl
  · have hlines : SourceLine.ofText inside.toList =
        [⟨1, "A[Function: f]".toList⟩, ⟨2, blockOpener⟩, ⟨3, "k: v".toList⟩,
          ⟨4, "%% color: red".toList⟩, ⟨5, blockCloser⟩] := by decide
    have hsplit : Block.split [⟨3, "k: v".toList⟩, ⟨4, "%% color: red".toList⟩, ⟨5, blockCloser⟩] =
        (⟨[⟨3, "k: v".toList⟩, ⟨4, "%% color: red".toList⟩], true⟩, []) := by decide
    rw [result_parse, hlines, statements_of_opening ⟨by decide, _, rfl, rfl⟩, hsplit, statements]
    rfl
  · have hlines : SourceLine.ofText before.toList =
        [⟨1, "A[Function: f]".toList⟩, ⟨2, "%% color: red".toList⟩, ⟨3, blockOpener⟩,
          ⟨4, "k: v".toList⟩, ⟨5, blockCloser⟩] := by decide
    rw [result_parse, hlines, statements_of_line (by rw [opening_cons_iff]; decide),
      statements_of_line (by rw [opening_cons_iff]; decide),
      statements_of_line (by rw [opening_cons_iff]; decide), statements_of_no_block (by decide)]
    rfl

end Diagram

end Notation

end SpatialDiagram
