import SpatialDiagram.Proofs.Notation.Renumbering

/-!
# Sources one after another

The lines of a text do not depend on what stands before the break that ends it,
and a block that is closed does not depend on the lines behind it. So two
sources, of which the first leaves no block open and the second does not begin
with an opening brace, state their diagrams one after the other.
-/

namespace SpatialDiagram

/-! ## Lines -/

namespace Text

theorem lines_of_break {c : Char} (h : isBreak c = true) {cs : List Char}
    (hpair : ∀ rest, c = '\r' → cs ≠ '\n' :: rest) : lines (c :: cs) = [] :: lines cs := by
  rw [lines, if_pos h]
  exact hpair

theorem lines_ne_nil (c : Char) (cs : List Char) : lines (c :: cs) ≠ [] := by
  rw [lines.eq_def]
  repeat' split
  all_goals simp_all

/-- A line feed ends the lines of the text before it, and it adds a line at most if that text ends
with a break. -/
theorem lines_append (a : List Char) :
    ∃ ls, (ls = lines a ∨ ls = lines a ++ [[]]) ∧ ∀ b, lines (a ++ '\n' :: b) = ls ++ lines b := by
  induction a using lines.induct with
  | case1 => exact ⟨[[]], .inr rfl, fun _ => rfl⟩
  | case2 cs ih =>
      obtain ⟨ls, hls, happend⟩ := ih
      exact ⟨[] :: ls, hls.imp (congrArg ([] :: ·)) (congrArg ([] :: ·)),
        fun b => congrArg ([] :: ·) (happend b)⟩
  | case3 c cs hpair hbreak ih =>
      by_cases hreturn : c = '\r' ∧ cs = []
      · obtain ⟨rfl, rfl⟩ := hreturn
        exact ⟨[[]], .inl rfl, fun _ => rfl⟩
      · have hpair' : ∀ b rest, c = '\r' → cs ++ '\n' :: b ≠ '\n' :: rest := by
          intro b rest hc he
          cases cs with
          | nil => exact hreturn ⟨hc, rfl⟩
          | cons d ds => exact hpair ds hc (congrArg (· :: ds) (List.cons.inj he).1)
        obtain ⟨ls, hls, happend⟩ := ih
        refine ⟨[] :: ls, ?_, fun b => ?_⟩
        · rw [lines_of_break hbreak hpair]
          exact hls.imp (congrArg ([] :: ·)) (congrArg ([] :: ·))
        · rw [List.cons_append, lines_of_break hbreak (hpair' b), happend b]
          rfl
  | case4 c cs hpair hbreak hnil ih =>
      have hcs : cs = [] := by
        cases cs with
        | nil => rfl
        | cons d ds => exact absurd hnil (lines_ne_nil d ds)
      subst hcs
      have hc : isBreak c = false := Bool.eq_false_iff.mpr hbreak
      exact ⟨[[c]], .inl (by rw [lines_cons_of_not_break hc]; rfl), fun b => by
        rw [List.cons_append, lines_cons_of_not_break hc]
        rfl⟩
  | case5 c cs hpair hbreak l ls hcs ih =>
      have hc : isBreak c = false := Bool.eq_false_iff.mpr hbreak
      obtain ⟨ls', hls, happend⟩ := ih
      obtain ⟨more, rfl⟩ : ∃ more, ls' = l :: more := by
        rw [hcs] at hls
        exact hls.elim (fun h => ⟨_, h⟩) fun h => ⟨_, h⟩
      refine ⟨(c :: l) :: more, ?_, fun b => ?_⟩
      · rw [lines_cons_of_not_break hc, hcs]
        rw [hcs] at hls
        exact hls.imp (fun h => congrArg ((c :: l) :: ·) (List.cons.inj h).2)
          fun h => congrArg ((c :: l) :: ·) (List.cons.inj h).2
      · rw [List.cons_append, lines_cons_of_not_break hc, happend b]
        rfl

end Text

namespace Notation

namespace SourceLine

/-- The lines of a source that are not blank, the first one under a given number. -/
def numberedFrom (k : Nat) (ls : List (List Char)) : List SourceLine :=
  ((ls.zipIdx k).map fun l => ⟨l.2, Text.trim l.1⟩).filter fun l => !l.text.isEmpty

theorem numberedFrom_append (k : Nat) (ls more : List (List Char)) :
    numberedFrom k (ls ++ more) = numberedFrom k ls ++ numberedFrom (k + ls.length) more := by
  rw [numberedFrom, List.zipIdx_append, List.map_append, List.filter_append]
  rfl

/-- To count on from a later number is to shift the numbers. -/
theorem numberedFrom_add (k n : Nat) (ls : List (List Char)) :
    numberedFrom (k + n) ls = (numberedFrom k ls).map (renumber (· + n)) := by
  have hnumbers : ls.zipIdx (k + n) = (ls.zipIdx k).map fun l => (l.1, l.2 + n) := by
    rw [List.zipIdx_eq_map_add, List.zipIdx_eq_map_add (i := k), List.map_map]
    exact List.map_congr_left fun l _ => congrArg (l.1, ·) (Nat.add_right_comm k n l.2)
  simp only [numberedFrom, hnumbers, List.filter_map, List.map_map]
  rfl

/-- The lines of a source behind a line feed are numbered on from the lines before it. -/
theorem ofText_append (a b : List Char) :
    ofText (a ++ '\n' :: b) =
      ofText a ++ (ofText b).map (renumber (· + (Text.lines (a ++ ['\n'])).length)) := by
  obtain ⟨ls, hls, happend⟩ := Text.lines_append a
  have hends : Text.lines (a ++ ['\n']) = ls := (happend []).trans (List.append_nil ls)
  have hblank : numberedFrom 1 ls = numberedFrom 1 (Text.lines a) := by
    rcases hls with rfl | rfl
    · rfl
    · rw [numberedFrom_append]
      exact List.append_nil _
  change numberedFrom 1 (Text.lines (a ++ '\n' :: b)) =
    numberedFrom 1 (Text.lines a) ++ (numberedFrom 1 (Text.lines b)).map _
  rw [happend, numberedFrom_append, hblank, numberedFrom_add, hends]

end SourceLine

/-! ## Statements -/

namespace Block

theorem split_closer {l : SourceLine} (h : l.text = blockCloser) (ls : List SourceLine) :
    split (l :: ls) = (⟨[], true⟩, ls) := by
  simp [split, h]

theorem split_cons {l : SourceLine} (h : l.text ≠ blockCloser) (ls : List SourceLine) :
    split (l :: ls) = (⟨l :: (split ls).1.lines, (split ls).1.closed⟩, (split ls).2) := by
  simp [split, h]

/-- A block that is closed does not see what stands behind it. -/
theorem split_append {ls : List SourceLine} (h : (split ls).1.closed = true)
    (more : List SourceLine) : split (ls ++ more) = ((split ls).1, (split ls).2 ++ more) := by
  induction ls with
  | nil => cases h
  | cons l ls ih =>
      by_cases hl : l.text = blockCloser
      · rw [List.cons_append, split_closer hl, split_closer hl]
      · rw [split_cons hl] at h
        rw [List.cons_append, split_cons hl, split_cons hl, ih h]

end Block

/-- No block that is opened in a source is still open at its end. -/
def ClosesBlocks (ls : List SourceLine) : Prop :=
  ∀ i, StatementAt ls i → OpensBlock ls i → ∃ j, ClosesAt ls i j

/-- Where all blocks are closed and no opener follows, the statements are those of both parts. -/
theorem statements_append {ls more : List SourceLine}
    (hclosed : ClosesBlocks ls)
    (hmore : ∀ l, more.head? = some l → l.text ≠ blockOpener) :
    statements (ls ++ more) = statements ls ++ statements more := by
  refine statements_induction
    (motive := fun ls => statements (ls ++ more) = statements ls ++ statements more)
    (P := fun l rest => Opening l rest → (Block.split rest.tail).1.closed = true)
    (fun i l hi hl hopen => ?_) ?_ ?_ ?_
  · rw [List.tail_drop, closed_split_iff]
    exact hclosed i hi ((opening_drop_iff hl).mp hopen)
  · rw [statements]
    rfl
  · intro l next rest hopen hclosed ih
    have hopen' : Opening l (next :: (rest ++ more)) :=
      (opening_cons_iff l next _).mpr ((opening_cons_iff l next _).mp hopen)
    have hsplit := Block.split_append (hclosed hopen) more
    rw [List.tail_cons] at hsplit
    rw [List.cons_append, List.cons_append, statements_of_opening hopen',
      statements_of_opening hopen, hsplit, ih, List.cons_append]
  · intro l rest hopen _ ih
    have hopen' : ¬ Opening l (rest ++ more) := by
      cases rest with
      | cons next rest =>
          exact fun ho =>
            hopen ((opening_cons_iff l next _).mpr ((opening_cons_iff l next _).mp ho))
      | nil =>
          rintro ⟨-, next, hnext, htext⟩
          exact hmore next (by rwa [List.head?_eq_getElem?]) htext
    rw [List.cons_append, statements_of_line hopen', statements_of_line hopen, ih, List.cons_append]

/-! ## Diagrams -/

namespace Diagram

/-- What two sources state together: the second one declares title and description anew, adds its
nodes and connections to those of the first, and its metadata to that of the first. -/
def append (d more : Diagram) : Diagram :=
  { title := more.title.or d.title
    description := more.description.or d.description
    nodes := d.nodes ++ more.nodes
    connections := d.connections ++ more.connections.mapIdx fun i c =>
      { c with id := "conn_" ++ toString (d.connections.length + i) }
    metadata := d.metadata.putAll more.metadata.entries }

theorem append_empty (d : Diagram) : d.append {} = d := by
  simp [append, Table.putAll, Table.empty]

theorem nodup_metadata_of_declare {d d' : Diagram} {s : Statement} (hd : d.metadata.keys.Nodup)
    (h : (d.declare s).result = .ok d') : d'.metadata.keys.Nodup := by
  cases declares_of_ok h with
  | field =>
      rename_i field _ _
      cases field <;> exact hd
  | metadata => exact Table.nodup_keys_put hd _ _
  | _ => exact hd

/-- A statement adds to what stands behind a diagram as it adds to this alone. -/
theorem result_declare_append (d : Diagram) {more : Diagram} (hmore : more.metadata.keys.Nodup)
    (s : Statement) :
    ((d.append more).declare s).result = (more.declare s).result.map d.append := by
  refine result_declare_of d.append rfl (fun _ => rfl) ?_ ?_ ?_ ?_
  · intro field value
    cases field <;> rfl
  · intro n hn
    simp [append, ← hn]
  · intro h
    simp [declareConnection, append]
  · intro m
    have hput := Table.putAll_put hmore d.metadata m.key m.value
    exact congrArg (fun t => { d.append more with metadata := t }) hput.symm

/-- To read on from a diagram is to read afresh and to append. -/
theorem result_foldlM_append (d : Diagram) (ss : List Statement) :
    (ss.foldlM declare d).result = (ss.foldlM declare {}).result.map d.append := by
  have hfold := Trace.result_foldlM_map_of d.append id (fun more => more.metadata.keys.Nodup) ss
    (fun _ _ _ hmore h => nodup_metadata_of_declare hmore h)
    (fun _ s _ hmore => result_declare_append d hmore s) (b := {}) List.nodup_nil
  rwa [List.map_id, append_empty] at hfold

/-- Where the first source leaves no block open and the second one does not begin with an opening
brace, both together state the diagram of the first followed by that of the second. -/
theorem parse_append {t₁ t₂ : String} {d₁ d₂ : Diagram}
    (h₁ : (parse (.str t₁)).result = .ok d₁) (h₂ : (parse (.str t₂)).result = .ok d₂)
    (hclosed : ClosesBlocks (SourceLine.ofText t₁.toList))
    (hfirst : ∀ l, (SourceLine.ofText t₂.toList).head? = some l → l.text ≠ blockOpener) :
    (parse (.str (t₁ ++ "\n" ++ t₂))).result =
      .ok (d₁.append (d₂.renumber (· + (Text.lines (t₁ ++ "\n").toList).length))) := by
  have htext : (t₁ ++ "\n" ++ t₂).toList = t₁.toList ++ '\n' :: t₂.toList := by simp
  have hbreak : (t₁ ++ "\n").toList = t₁.toList ++ ['\n'] := by simp
  rw [result_parse] at h₁ h₂ ⊢
  rw [htext, hbreak]
  set n := (Text.lines (t₁.toList ++ ['\n'])).length with hn
  have hlater : ∀ l, ((SourceLine.ofText t₂.toList).map (SourceLine.renumber (· + n))).head? =
      some l → l.text ≠ blockOpener := by
    intro l hl
    rw [List.head?_map] at hl
    obtain ⟨first, hhead, rfl⟩ := Option.map_eq_some_iff.mp hl
    exact hfirst first hhead
  rw [SourceLine.ofText_append, ← hn, statements_append hclosed hlater, statements_renumber,
    Trace.result_foldlM_append, h₁]
  calc (((statements (SourceLine.ofText t₂.toList)).map (Statement.renumber (· + n))).foldlM
          declare d₁).result
      = (((statements (SourceLine.ofText t₂.toList)).map (Statement.renumber (· + n))).foldlM
          declare {}).result.map d₁.append := result_foldlM_append d₁ _
    _ = (((statements (SourceLine.ofText t₂.toList)).foldlM declare {}).result.map
          (renumber (· + n))).map d₁.append :=
        congrArg (Except.map d₁.append) (result_foldlM_renumber (· + n) _ {})
    _ = .ok (d₁.append (d₂.renumber (· + n))) := by
        rw [h₂]
        rfl

/-- A node with a block and a connection, and a second source with a title, the same metadata key
and another connection. -/
theorem parse_append_block :
    let t₁ := "A[Function: f]\n\x7b\n\x7d\nk: v\nA --> A"
    let t₂ := "title: t\n\nk: w\nA --> A"
    let c (id : String) (line : Nat) : ConnectionDeclaration :=
      { id, category := .dataFlow, source := ⟨"A", none⟩, target := ⟨"A", none⟩, label := none
        line }
    let n : NodeDeclaration :=
      { id := "A", category := .function, name := "f", delimiter := .square
        properties := .empty, line := 1 }
    ClosesBlocks (SourceLine.ofText t₁.toList) ∧
      (parse (.str (t₁ ++ "\n" ++ t₂))).result = .ok
        { title := some "t", nodes := [n], connections := [c "conn_0" 5, c "conn_1" 9]
          metadata := ⟨[("k", "w")]⟩ } := by
  intro t₁ t₂ c n
  have hlines₁ : SourceLine.ofText t₁.toList =
      [⟨1, "A[Function: f]".toList⟩, ⟨2, blockOpener⟩, ⟨3, blockCloser⟩, ⟨4, "k: v".toList⟩,
        ⟨5, "A --> A".toList⟩] := by decide
  have hlines₂ : SourceLine.ofText t₂.toList =
      [⟨1, "title: t".toList⟩, ⟨3, "k: w".toList⟩, ⟨4, "A --> A".toList⟩] := by decide
  have hclosed : ClosesBlocks (SourceLine.ofText t₁.toList) := by
    rw [hlines₁]
    rintro i - ⟨_, _, next, -, -, -, hnext, htext⟩
    obtain rfl : i = 0 := by
      rcases i with _ | _ | _ | _ | _ | i
      · rfl
      all_goals cases hnext
      all_goals cases htext
    exact ⟨2, Nat.lt_succ_self 1, ⟨_, rfl, rfl⟩, fun k l hk hk' => by omega⟩
  have h₁ : (parse (.str t₁)).result = .ok
      { nodes := [n], connections := [c "conn_0" 5], metadata := ⟨[("k", "v")]⟩ } := by
    have hsplit : Block.split [⟨3, blockCloser⟩, ⟨4, "k: v".toList⟩, ⟨5, "A --> A".toList⟩] =
        (⟨[], true⟩, [⟨4, "k: v".toList⟩, ⟨5, "A --> A".toList⟩]) := by decide
    rw [result_parse, hlines₁, statements_of_opening ⟨by decide, _, rfl, rfl⟩, hsplit,
      statements_of_no_block (by decide)]
    rfl
  have h₂ : (parse (.str t₂)).result = .ok
      { title := some "t", connections := [c "conn_0" 4], metadata := ⟨[("k", "w")]⟩ } := by
    rw [parse_of_no_block hlines₂ (by decide)]
    rfl
  refine ⟨hclosed, ?_⟩
  have hlength : (Text.lines (t₁ ++ "\n").toList).length = 5 := by decide
  rw [parse_append h₁ h₂ hclosed (by rw [hlines₂]; decide), hlength]
  simp only [append, renumber, List.map_cons, List.map_nil, List.mapIdx_cons, List.mapIdx_nil,
    List.length_singleton]
  rfl

end Diagram

end Notation

end SpatialDiagram
