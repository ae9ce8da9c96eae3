import SpatialDiagram.Proofs.Notation.LeadingIdentifiers

/-!
# Nodes and connections among the kinds of lines

A line that can be read as a node or as a connection is one, whatever stands in
it otherwise: it begins with an identifier, and what stands behind the
identifier tells the two apart. Only the graph keywords come before both, so a
node or a connection under such a name is taken for a title.
-/

namespace SpatialDiagram

namespace Notation

/-! ## What begins a connection -/

namespace Endpoint

theorem Leads.exists_run {e : Endpoint} {cs rest : List Char} (h : e.Leads cs rest) :
    ∃ behind, IsIdentifierRun e.node cs behind ∧
      (behind = rest ∨ ∃ more, behind = '@' :: more) := by
  cases h with
  | node hnode _ => exact ⟨rest, hnode, .inl rfl⟩
  | face hnode _ => exact ⟨_, hnode, .inr ⟨_, rfl⟩⟩

end Endpoint

/-- Neither a word goes on with such a character, nor does it make a word a field or a node. -/
def PartsWord (c : Char) : Prop :=
  Text.isWord c = false ∧ c ≠ ':' ∧ NodeHeader.opens c = false

instance : DecidablePred PartsWord := fun _ => inferInstanceAs (Decidable (_ ∧ _))

theorem partsWord_of_isBlank {c : Char} (h : Text.isBlank c = true) : PartsWord c := by
  have hothers : ∀ d ∈ [':', '[', '\x7b', '(', '<'], c ≠ d :=
    Text.ne_of_any_eq_false h (by decide)
  simp only [List.forall_mem_cons] at hothers
  refine ⟨Text.isWord_of_isBlank h, hothers.1, ?_⟩
  simp [NodeHeader.opens, hothers]

theorem IsArrow.partsWord {a : String} (ha : IsArrow a) {c : Char} (hc : a.toList.head? = some c) :
    PartsWord c := by
  have hheads : ∀ a ∈ ConnectionCategory.arrows.map Prod.fst,
      a.toList.head?.all (fun c => decide (PartsWord c)) = true := by
    decide +kernel
  simpa [hc] using hheads a ha

/-- A connection begins with the identifier of its source, and what follows makes it no node. -/
theorem ConnectionHeader.exists_source {line : List Char} {h : ConnectionHeader}
    (hl : ConnectionHeader.ofLine? line = some h) :
    ∃ behind, IsIdentifierRun h.source.node line behind ∧
      ∀ c, behind.head? = some c → PartsWord c := by
  obtain ⟨gap, gap', ending, hsource, harrow, hgap, -, -⟩ :=
    (ConnectionHeader.ofLine_eq_some_iff line h).mp hl
  obtain ⟨behind, hrun, hbehind⟩ := hsource.exists_run
  refine ⟨behind, hrun, ?_⟩
  intro c hc
  rcases hbehind with rfl | ⟨more, rfl⟩
  · cases gap with
    | cons g gs =>
        obtain rfl := Option.some.inj hc
        exact partsWord_of_isBlank (hgap g List.mem_cons_self)
    | nil =>
        obtain ⟨x, xs, hcons, -⟩ := harrow.exists_cons
        rw [List.nil_append, hcons] at hc
        obtain rfl := Option.some.inj hc
        exact harrow.partsWord (by rw [hcons, List.head?_cons])
  · obtain rfl := Option.some.inj hc
    decide +kernel

theorem occursIn_of_infix {part line : List Char} (h : part <:+: line) :
    occursIn part line = true := by
  induction line with
  | nil => simpa [occursIn] using h
  | cons c cs ih =>
      rw [occursIn, Bool.or_eq_true]
      rcases List.infix_cons_iff.mp h with hprefix | hinfix
      · exact .inl (List.isPrefixOf_iff_prefix.mpr hprefix)
      · exact .inr (ih hinfix)

/-- A line that is read as a connection contains an arrow. -/
theorem ConnectionHeader.containsArrow_of_ofLine {line : List Char} {h : ConnectionHeader}
    (hl : ConnectionHeader.ofLine? line = some h) : containsArrow line = true := by
  obtain ⟨gap, gap', ending, hsource, harrow, -⟩ :=
    (ConnectionHeader.ofLine_eq_some_iff line h).mp hl
  obtain ⟨x, hx, harrow⟩ := List.mem_map.mp harrow
  refine List.any_eq_true.mpr ⟨x, hx, occursIn_of_infix ?_⟩
  have hrest : x.1.toList <:+: gap ++ (h.arrow.toList ++ (gap' ++ ending)) := by
    rw [harrow]
    exact ⟨gap, gap' ++ ending, by simp⟩
  exact hrest.trans hsource.isSuffix.isInfix

/-! ## Lines that can be read -/

/-- A line that is read as a node is taken for one, unless it reads as a title. -/
theorem NodeHeader.classify_of_ofLine {line : List Char} {h : NodeHeader}
    (hl : NodeHeader.ofLine? line = some h) : classify line =
      if h.id.toList ∈ graphKeywords ∧ IsTitle (line.drop h.id.length) then
        .declaration ⟨.title, label? (line.drop h.id.length)⟩
      else .node (some h) := by
  obtain ⟨p, hp, rfl, rfl⟩ := NodeHeader.exists_parts hl
  have hid : p.header.id.toList = p.id := String.toList_ofList
  have hbehind : p.line.drop p.header.id.length = p.tail := by
    rw [← String.length_toList, hid, NodeParts.line, List.drop_left]
  rw [NodeParts.classify_of_opener hp.id_ne_nil hp.isShaped.isRun_id.all, hp.ofLine, hid, hbehind]

/-- A line that is read as a connection is taken for one, unless it reads as a title or as a node.
-/
theorem ConnectionHeader.classify_of_ofLine {line : List Char} {h : ConnectionHeader}
    (hl : ConnectionHeader.ofLine? line = some h) : classify line =
      if h.source.node.toList ∈ graphKeywords ∧ IsTitle (line.drop h.source.node.length) then
        .declaration ⟨.title, label? (line.drop h.source.node.length)⟩
      else .connection (some h) := by
  obtain ⟨behind, hrun, hparts⟩ := ConnectionHeader.exists_source hl
  have hne : h.source.node.toList ≠ [] := by simpa using hrun.ne_empty
  have hdrop : line.drop h.source.node.length = behind := by
    rw [hrun.text_eq, ← String.length_toList, List.drop_left]
  have hshape : ¬ NodeHeader.looksLike line = true := by
    rw [NodeHeader.looksLike, hrun.text_eq, hrun.isRun.dropWhile]
    cases hhead : behind.head? with
    | none => simp
    | some c => simp [(hparts c hhead).2.2]
  have hclassify := classify_of_identifier hrun.isRun.all
    (fun c hc => ⟨(hparts c hc).1, (hparts c hc).2.1⟩) hne
  rw [← hrun.text_eq, if_neg hshape, if_pos (ConnectionHeader.containsArrow_of_ofLine hl), hl]
    at hclassify
  rw [hclassify, hdrop]

/-- What can be read as a node or as a connection is one, unless it begins with a graph keyword that
makes the rest of the line a title. -/
theorem classify_of_header (line : List Char) :
    (∀ h, NodeHeader.ofLine? line = some h → classify line =
      if h.id.toList ∈ graphKeywords ∧ IsTitle (line.drop h.id.length) then
        .declaration ⟨.title, label? (line.drop h.id.length)⟩
      else .node (some h)) ∧
    ∀ h, ConnectionHeader.ofLine? line = some h → classify line =
      if h.source.node.toList ∈ graphKeywords ∧ IsTitle (line.drop h.source.node.length) then
        .declaration ⟨.title, label? (line.drop h.source.node.length)⟩
      else .connection (some h) :=
  ⟨fun _ => NodeHeader.classify_of_ofLine, fun _ => ConnectionHeader.classify_of_ofLine⟩

/-- The keyword as the beginning of a longer name, and as the target. -/
theorem classify_of_header_longer :
    let node := "graph3ds[Function: f]".toList
    let connection := "title --> ast3d: description".toList
    let h : NodeHeader := ⟨"graph3ds", "Function", "f", .square, []⟩
    let c : ConnectionHeader := ⟨⟨"title", none⟩, "-->", ⟨"ast3d", none⟩, some "description"⟩
    (NodeHeader.ofLine? node = some h ∧ classify node = .node (some h)) ∧
      ConnectionHeader.ofLine? connection = some c ∧
        classify connection = .connection (some c) := by
  intro node connection h c
  have hnode : NodeHeader.ofLine? node = some h := by decide
  have hconnection : ConnectionHeader.ofLine? connection = some c := by decide
  refine ⟨⟨hnode, ?_⟩, hconnection, ?_⟩
  · exact ((classify_of_header node).1 h hnode).trans (if_neg (by decide))
  · exact ((classify_of_header connection).2 c hconnection).trans (if_neg (by decide))

/-- A node and a connection under the name of a keyword become titles. -/
theorem keyword_takes_line :
    let node := "graph3d[Function: f]".toList
    let connection := "graph3d --> B".toList
    NodeHeader.ofLine? node = some ⟨"graph3d", "Function", "f", .square, []⟩ ∧
      classify node = .declaration ⟨.title, some "[Function: f]"⟩ ∧
      ConnectionHeader.ofLine? connection =
        some ⟨⟨"graph3d", none⟩, "-->", ⟨"B", none⟩, none⟩ ∧
      classify connection = .declaration ⟨.title, some "--> B"⟩ := by
  decide +kernel

end Notation

end SpatialDiagram
