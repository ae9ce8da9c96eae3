import SpatialDiagram.Notation.NodeHeader
import SpatialDiagram.Proofs.Text.Pattern
import SpatialDiagram.Proofs.Text.Trimming

/-!
# The grammar of node lines

A node line consists of parts in a fixed order, and its characters determine the
parts. The pattern between two delimiters has many ways to share out the blanks
around the name, but all of them give the same header, so trying the ways in
turn finds a header exactly where reading the line once does.
-/

namespace SpatialDiagram

namespace Notation

/-! ## Parts -/

/-- What a node line is put together from. -/
structure NodeParts where
  id : List Char
  delimiter : Delimiter
  category : List Char
  name : List Char
  rest : List Char

namespace NodeParts

/-- The text behind the identifier. -/
def tail (p : NodeParts) : List Char :=
  p.delimiter.opener ++ (p.category ++ ':' :: (p.name ++ (p.delimiter.closer ++ p.rest)))

def line (p : NodeParts) : List Char := p.id ++ p.tail

/-- The identifier is as long as it can be, the opener is the first one in order that follows it,
and neither category nor name is empty or holds what would end it before. -/
structure IsProper (p : NodeParts) : Prop where
  id_ne_nil : p.id ≠ []
  id_maximal : p.line.takeWhile isIdentifier = p.id
  first_opener : Delimiter.all.find? (fun d => d.opener.isPrefixOf p.tail) = some p.delimiter
  category_ne_nil : p.category ≠ []
  category_plain : ∀ c ∈ p.category, c ≠ ':' ∧ c ∉ p.delimiter.opener ∧ c ∉ p.delimiter.closer
  name_ne_nil : p.name ≠ []
  name_plain : ∀ c ∈ p.name, c ∉ p.delimiter.opener ∧ c ∉ p.delimiter.closer

/-- Parts that stand apart as those of a node do, but whose category and name may be empty. -/
structure IsShaped (p : NodeParts) : Prop where
  id_ne_nil : p.id ≠ []
  id_maximal : p.line.takeWhile isIdentifier = p.id
  first_opener : Delimiter.all.find? (fun d => d.opener.isPrefixOf p.tail) = some p.delimiter
  category_plain : ∀ c ∈ p.category, c ≠ ':' ∧ c ∉ p.delimiter.opener ∧ c ∉ p.delimiter.closer
  name_plain : ∀ c ∈ p.name, c ∉ p.delimiter.opener ∧ c ∉ p.delimiter.closer

theorem isProper_iff {p : NodeParts} :
    p.IsProper ↔ p.IsShaped ∧ p.category ≠ [] ∧ p.name ≠ [] := by
  constructor
  · rintro ⟨hid, hmaximal, hfirst, hcategory, hcategoryPlain, hname, hnamePlain⟩
    exact ⟨⟨hid, hmaximal, hfirst, hcategoryPlain, hnamePlain⟩, hcategory, hname⟩
  · rintro ⟨⟨hid, hmaximal, hfirst, hcategoryPlain, hnamePlain⟩, hcategory, hname⟩
    exact ⟨hid, hmaximal, hfirst, hcategory, hcategoryPlain, hname, hnamePlain⟩

theorem IsProper.isShaped {p : NodeParts} (hp : p.IsProper) : p.IsShaped := (isProper_iff.mp hp).1

/-- What is read from the parts of a node line: all but the id is trimmed. -/
def header (p : NodeParts) : NodeHeader :=
  { id := String.ofList p.id
    category := String.ofList (Text.trim p.category)
    name := String.ofList (Text.trim p.name)
    delimiter := p.delimiter
    remainder := Text.trim p.rest }

end NodeParts

/-! ## Delimiters -/

namespace Delimiter

theorem forbids_eq_false_iff (d : Delimiter) (c : Char) :
    d.forbids c = false ↔ c ∉ d.opener ∧ c ∉ d.closer := by
  simp [forbids]

theorem closer_eq_cons (d : Delimiter) : ∃ c r, d.closer = c :: r ∧ d.forbids c = true := by
  cases d <;> exact ⟨_, _, rfl, by decide⟩

theorem forbids_of_isBlank (d : Delimiter) {c : Char} (h : Text.isBlank c = true) :
    d.forbids c = false := by
  rw [forbids_eq_false_iff]
  have hbrackets : (d.opener ++ d.closer).all fun c => !Text.isBlank c := by cases d <;> decide
  have hnot : c ∉ d.opener ++ d.closer := by
    intro hc
    simpa [h] using List.all_eq_true.mp hbrackets c hc
  simpa using hnot

/-- Which opener a text begins with shows in its first two characters. -/
theorem find_append {cs : List Char} (h : 2 ≤ cs.length) (more : List Char) :
    find? (cs ++ more) = find? cs := by
  match cs, h with
  | a :: b :: rest, _ =>
      have hopener (d : Delimiter) :
          d.opener.isPrefixOf (a :: b :: rest ++ more) = d.opener.isPrefixOf (a :: b :: rest) := by
        cases d <;> simp [opener, List.isPrefixOf]
      simp only [find?, hopener]

end Delimiter

theorem isIdentifier_of_opens {c : Char} (h : NodeHeader.opens c = true) :
    isIdentifier c = false := by
  simp only [NodeHeader.opens, Bool.or_eq_true, decide_eq_true_eq] at h
  rcases h with ((rfl | rfl) | rfl) | rfl <;> decide

/-! ## Reading a line once -/

namespace NodeParts

section

variable {p : NodeParts} (hp : p.IsShaped)

include hp

theorem IsShaped.isRun_id : Text.IsRun isIdentifier p.id p.tail := by
  have hrun := Text.isRun_takeWhile isIdentifier p.line
  have hsplit := List.takeWhile_append_dropWhile (p := isIdentifier) (l := p.line)
  rw [hp.id_maximal] at hrun hsplit
  rwa [List.append_cancel_left hsplit] at hrun

theorem IsShaped.isRun_category :
    Text.IsRun (fun c => c ≠ ':' && !p.delimiter.forbids c) p.category
      (':' :: (p.name ++ (p.delimiter.closer ++ p.rest))) := by
  constructor
  · intro c hc
    obtain ⟨hcolon, hforbids⟩ := hp.category_plain c hc
    simp [hcolon, (p.delimiter.forbids_eq_false_iff c).mpr hforbids]
  · intro c hc
    obtain rfl := Option.some.inj hc
    rfl

theorem IsShaped.isRun_name :
    Text.IsRun (fun c => !p.delimiter.forbids c) p.name (p.delimiter.closer ++ p.rest) := by
  constructor
  · intro c hc
    simpa using (p.delimiter.forbids_eq_false_iff c).mpr (hp.name_plain c hc)
  · intro c hc
    obtain ⟨x, r, hcloser, hx⟩ := p.delimiter.closer_eq_cons
    rw [hcloser, List.cons_append, List.head?_cons] at hc
    obtain rfl := Option.some.inj hc
    simp [hx]

end

theorem IsProper.ofLine {p : NodeParts} (hp : p.IsProper) :
    NodeHeader.ofLine? p.line = some p.header := by
  have hid := hp.isShaped.isRun_id
  have hcategory := hp.isShaped.isRun_category
  have hname := hp.isShaped.isRun_name
  have hfind : Delimiter.find? p.tail = some p.delimiter := hp.first_opener
  have htail : p.tail.drop p.delimiter.opener.length =
      p.category ++ ':' :: (p.name ++ (p.delimiter.closer ++ p.rest)) := List.drop_left
  have hclosed : p.delimiter.closer.isPrefixOf (p.delimiter.closer ++ p.rest) = true :=
    List.isPrefixOf_iff_prefix.mpr (List.prefix_append _ _)
  rw [NodeHeader.ofLine?, line, hid.takeWhile, hid.dropWhile,
    if_neg (by simpa using hp.id_ne_nil), hfind, Option.bind_some, htail, NodeHeader.body?]
  simp only [hcategory.takeWhile, hcategory.dropWhile, hname.takeWhile, hname.dropWhile]
  rw [if_neg (by simp [hp.category_ne_nil, hp.name_ne_nil, hclosed]), List.drop_left]
  rfl

end NodeParts

theorem NodeHeader.exists_parts {line : List Char} {h : NodeHeader}
    (hl : NodeHeader.ofLine? line = some h) :
    ∃ p : NodeParts, p.IsProper ∧ p.line = line ∧ p.header = h := by
  rw [NodeHeader.ofLine?] at hl
  split at hl
  · cases hl
  · rename_i hid
    obtain ⟨d, hfind, hbody⟩ := Option.bind_eq_some_iff.mp hl
    obtain ⟨after, hafter⟩ := List.isPrefixOf_iff_prefix.mp (Delimiter.opener_isPrefixOf hfind)
    rw [← hafter, List.drop_left, NodeHeader.body?] at hbody
    simp only at hbody
    split at hbody
    · rename_i rest hrest
      split at hbody
      · cases hbody
      · rename_i hparts
        simp only [Bool.or_eq_true, Bool.not_eq_true', not_or, List.isEmpty_iff,
          Bool.not_eq_false] at hparts
        obtain ⟨⟨hcategory, hname⟩, hcloser⟩ := hparts
        obtain ⟨behind, hbehind⟩ := List.isPrefixOf_iff_prefix.mp hcloser
        rw [← hbehind, List.drop_left] at hbody
        let p : NodeParts :=
          { id := line.takeWhile isIdentifier
            delimiter := d
            category := after.takeWhile fun c => c ≠ ':' && !d.forbids c
            name := rest.takeWhile fun c => !d.forbids c
            rest := behind }
        have htail : p.tail = line.dropWhile isIdentifier := by
          rw [← hafter, NodeParts.tail, hbehind, List.takeWhile_append_dropWhile, ← hrest,
            List.takeWhile_append_dropWhile]
        have hline : p.line = line := by
          rw [NodeParts.line, htail, List.takeWhile_append_dropWhile]
        refine ⟨p, ?_, hline, Option.some.inj hbody⟩
        constructor
        · exact mt List.isEmpty_iff.mpr hid
        · rw [hline]
        · rw [htail]
          exact hfind
        · exact hcategory
        · intro c hc
          have hplain := (Text.isRun_takeWhile _ after).all c hc
          simp only [Bool.and_eq_true, Bool.not_eq_true', decide_eq_true_eq] at hplain
          exact ⟨hplain.1, (d.forbids_eq_false_iff c).mp hplain.2⟩
        · exact hname
        · intro c hc
          have hplain := (Text.isRun_takeWhile _ rest).all c hc
          exact (d.forbids_eq_false_iff c).mp (by simpa using hplain)
    · cases hbody

theorem NodeHeader.ofLine_eq_some_iff (line : List Char) (h : NodeHeader) :
    NodeHeader.ofLine? line = some h ↔
      ∃ p : NodeParts, p.IsProper ∧ p.line = line ∧ p.header = h := by
  constructor
  · exact NodeHeader.exists_parts
  · rintro ⟨p, hp, rfl, rfl⟩
    exact hp.ofLine

/-- The characters of a line determine its parts. -/
theorem NodeParts.eq_of_line {p q : NodeParts} (hp : p.IsShaped) (hq : q.IsShaped)
    (h : p.line = q.line) : p = q := by
  have hid : p.id = q.id := by
    rw [← hp.id_maximal, h, hq.id_maximal]
  have htail : p.tail = q.tail := by
    rw [NodeParts.line, NodeParts.line, hid] at h
    exact List.append_cancel_left h
  have hdelimiter : p.delimiter = q.delimiter := by
    have hfirst := hp.first_opener
    rw [htail, hq.first_opener] at hfirst
    exact (Option.some.inj hfirst).symm
  have hpcategory := hp.isRun_category
  have hpname := hp.isRun_name
  rw [NodeParts.tail, NodeParts.tail, hdelimiter] at htail
  rw [hdelimiter] at hpcategory hpname
  obtain ⟨hcategory, hbehind⟩ :=
    Text.isRun_unique hpcategory hq.isRun_category (List.append_cancel_left htail)
  obtain ⟨hname, hcloser⟩ :=
    Text.isRun_unique hpname hq.isRun_name (List.cons.inj hbehind).2
  have hrest := List.append_cancel_left hcloser
  clear hp hq hpcategory hpname
  cases p
  cases q
  simp_all

/-! ## Trying the ways of a pattern -/

namespace NodeHeader

/-- A node between given delimiters. -/
def pattern (d : Delimiter) : Text.Pattern :=
  .sequence [.group "id" (.greedy 1 isIdentifier), .literal d.opener,
    .group "category" (.greedy 1 fun c => c ≠ ':' && !d.forbids c), .literal [':'],
    .greedy 0 Text.isBlank, .group "name" (.lazy 1 fun c => !d.forbids c),
    .greedy 0 Text.isBlank, .literal d.closer]

/-- The header that a match of the pattern of a delimiter gives. -/
def ofMatch (d : Delimiter) (m : Text.Match) : NodeHeader :=
  { id := String.ofList ((m.group? "id").getD [])
    category := String.ofList (Text.trim ((m.group? "category").getD []))
    name := String.ofList (Text.trim ((m.group? "name").getD []))
    delimiter := d
    remainder := Text.trim m.rest }

/-- The node that a line declares by the pattern of the first delimiter in order that follows the
identifier. -/
def byPattern? (line : List Char) : Option NodeHeader :=
  let rest := line.dropWhile isIdentifier
  if (line.takeWhile isIdentifier).isEmpty then none
  else (Delimiter.find? rest).bind fun d => ((pattern d).first line).map (ofMatch d)

/-- The ways of the pattern differ in the blanks that they leave around the name, and trimming
takes these off. -/
theorem exists_parts_of_mem_ways {d : Delimiter} {line : List Char} {m : Text.Match}
    (hfind : Delimiter.find? (line.dropWhile isIdentifier) = some d)
    (hm : m ∈ (pattern d).ways line) :
    ∃ p : NodeParts, p.IsProper ∧ p.line = line ∧ p.header = ofMatch d m := by
  rw [pattern, Text.Pattern.greedy, Text.Pattern.mem_ways_group_cons_iff] at hm
  obtain ⟨id, _, rfl, hidLength, hidAll, _, hm, rfl⟩ := hm
  rw [Text.Pattern.mem_ways_literal_cons_iff] at hm
  obtain ⟨_, rfl, _, hm, rfl⟩ := hm
  rw [Text.Pattern.greedy, Text.Pattern.mem_ways_group_cons_iff] at hm
  obtain ⟨category, _, rfl, hcategoryLength, hcategoryAll, _, hm, rfl⟩ := hm
  rw [Text.Pattern.mem_ways_literal_cons_iff] at hm
  obtain ⟨_, rfl, _, hm, rfl⟩ := hm
  rw [Text.Pattern.greedy, Text.Pattern.mem_ways_run_cons_iff] at hm
  obtain ⟨gap, _, rfl, -, hgap, _, hm, rfl⟩ := hm
  rw [Text.Pattern.lazy, Text.Pattern.mem_ways_group_cons_iff] at hm
  obtain ⟨name, _, rfl, hnameLength, hnameAll, _, hm, rfl⟩ := hm
  rw [Text.Pattern.mem_ways_run_cons_iff] at hm
  obtain ⟨gap', _, rfl, -, hgap', _, hm, rfl⟩ := hm
  rw [Text.Pattern.mem_ways_literal_cons_iff] at hm
  obtain ⟨rest, rfl, _, hm, rfl⟩ := hm
  obtain rfl := Text.Pattern.mem_ways_nil_iff.mp hm
  let p : NodeParts :=
    { id, delimiter := d, category, name := gap ++ (name ++ gap'), rest }
  have hline : p.line = id ++ (d.opener ++ (category ++ ([':'] ++ (gap ++ (name ++ (gap' ++
      (d.closer ++ rest))))))) := by
    simp [p, NodeParts.line, NodeParts.tail]
  have hid : Text.IsRun isIdentifier p.id p.tail := by
    refine ⟨hidAll, ?_⟩
    intro c hc
    obtain ⟨x, r, hopener, hx⟩ := opener_eq_cons d
    rw [NodeParts.tail, hopener, List.cons_append, List.head?_cons] at hc
    obtain rfl := Option.some.inj hc
    exact isIdentifier_of_opens hx
  refine ⟨p, ?_, hline, ?_⟩
  · rw [← hline, NodeParts.line, hid.dropWhile] at hfind
    constructor
    · exact List.ne_nil_of_length_pos hidLength
    · exact hid.takeWhile
    · exact hfind
    · exact List.ne_nil_of_length_pos hcategoryLength
    · intro c hc
      have hplain := hcategoryAll c hc
      simp only [Bool.and_eq_true, Bool.not_eq_true', decide_eq_true_eq] at hplain
      exact ⟨hplain.1, (d.forbids_eq_false_iff c).mp hplain.2⟩
    · have hname : name ≠ [] := List.ne_nil_of_length_pos hnameLength
      simp [p, hname]
    · intro c hc
      apply (d.forbids_eq_false_iff c).mp
      rcases List.mem_append.mp hc with hc | hc
      · exact d.forbids_of_isBlank (hgap c hc)
      · rcases List.mem_append.mp hc with hc | hc
        · simpa using hnameAll c hc
        · exact d.forbids_of_isBlank (hgap' c hc)
  · have hname : Text.trim p.name = Text.trim name := by
      rw [Text.trim_append_left hgap, Text.trim_append_right name hgap']
    rw [NodeParts.header, hname]
    rfl

/-- The pattern can take the parts of a line as they are, without blanks around the name. -/
theorem exists_mem_ways {p : NodeParts} (hp : p.IsProper) :
    ∃ m, m ∈ (pattern p.delimiter).ways p.line := by
  have hend : { text := [], rest := p.rest } ∈ (Text.Pattern.sequence []).ways p.rest :=
    Text.Pattern.mem_ways_nil_iff.mpr rfl
  have hcloser := (Text.Pattern.mem_ways_literal_cons_iff p.delimiter.closer).mpr
    ⟨_, rfl, _, hend, rfl⟩
  have hgap := (Text.Pattern.mem_ways_run_cons_iff true 0 Text.isBlank).mpr
    ⟨[], _, rfl, Nat.le_refl 0, List.forall_mem_nil _, _, hcloser, rfl⟩
  have hname := (Text.Pattern.mem_ways_group_cons_iff "name" false 1 _).mpr
    ⟨p.name, _, rfl, List.length_pos_iff.mpr hp.name_ne_nil, hp.isShaped.isRun_name.all, _,
      hgap, rfl⟩
  have hgap' := (Text.Pattern.mem_ways_run_cons_iff true 0 Text.isBlank).mpr
    ⟨[], _, rfl, Nat.le_refl 0, List.forall_mem_nil _, _, hname, rfl⟩
  have hcolon := (Text.Pattern.mem_ways_literal_cons_iff [':']).mpr ⟨_, rfl, _, hgap', rfl⟩
  have hcategory := (Text.Pattern.mem_ways_group_cons_iff "category" true 1 _).mpr
    ⟨p.category, _, rfl, List.length_pos_iff.mpr hp.category_ne_nil,
      hp.isShaped.isRun_category.all, _, hcolon, rfl⟩
  have hopener := (Text.Pattern.mem_ways_literal_cons_iff p.delimiter.opener).mpr
    ⟨_, rfl, _, hcategory, rfl⟩
  exact ⟨_, (Text.Pattern.mem_ways_group_cons_iff "id" true 1 isIdentifier).mpr
    ⟨p.id, _, rfl, List.length_pos_iff.mpr hp.id_ne_nil, hp.isShaped.isRun_id.all, _, hopener, rfl⟩⟩

/-- Trying the ways of a pattern in turn reads what reading the line once does. -/
theorem byPattern_eq_ofLine (line : List Char) : byPattern? line = ofLine? line := by
  cases hread : ofLine? line with
  | some h =>
      obtain ⟨p, hp, rfl, rfl⟩ := exists_parts hread
      have hfind : Delimiter.find? (p.line.dropWhile isIdentifier) = some p.delimiter := by
        rw [NodeParts.line, hp.isShaped.isRun_id.dropWhile]
        exact hp.first_opener
      obtain ⟨m, hm⟩ := exists_mem_ways hp
      obtain ⟨n, hn⟩ := Text.Pattern.exists_first_of_mem hm
      obtain ⟨q, hq, hline, hheader⟩ :=
        exists_parts_of_mem_ways hfind (Text.Pattern.mem_ways_of_first hn)
      obtain rfl := NodeParts.eq_of_line hq.isShaped hp.isShaped hline
      rw [byPattern?, hp.id_maximal, if_neg (by simpa using hp.id_ne_nil), hfind,
        Option.bind_some, hn, Option.map_some, hheader]
  | none =>
      cases hpattern : byPattern? line with
      | none => rfl
      | some h =>
          rw [byPattern?] at hpattern
          split at hpattern
          · cases hpattern
          · obtain ⟨d, hfind, hfirst⟩ := Option.bind_eq_some_iff.mp hpattern
            obtain ⟨m, hm, -⟩ := Option.map_eq_some_iff.mp hfirst
            obtain ⟨p, hp, rfl, -⟩ :=
              exists_parts_of_mem_ways hfind (Text.Pattern.mem_ways_of_first hm)
            rw [hp.ofLine] at hread
            cases hread

/-! ## The grammar -/

/-- A line matches if and only if it consists of proper parts. These are unique, and the match
holds them, the blanks around them taken off. -/
theorem byPattern_grammar (line : List Char) :
    (∀ h, byPattern? line = some h ↔
      ∃ p : NodeParts, p.IsProper ∧ p.line = line ∧ p.header = h ∧ h.shape = p.delimiter.shape) ∧
    (∀ p q : NodeParts, p.IsProper → p.line = line → q.IsProper → q.line = line → p = q) ∧
    byPattern? line = ofLine? line := by
  refine ⟨?_, ?_, byPattern_eq_ofLine line⟩
  · intro h
    rw [byPattern_eq_ofLine, ofLine_eq_some_iff]
    constructor
    · rintro ⟨p, hp, hline, rfl⟩
      exact ⟨p, hp, hline, rfl, rfl⟩
    · rintro ⟨p, hp, hline, hheader, -⟩
      exact ⟨p, hp, hline, hheader⟩
  · intro p q hp hpline hq hqline
    apply NodeParts.eq_of_line hp.isShaped hq.isShaped
    rw [hpline, hqline]

/-- A node in double square brackets, with blanks to be trimmed. -/
theorem byPattern_grammar_double_square :
    let p : NodeParts :=
      { id := "A".toList, delimiter := .squares, category := "Door".toList, name := " Front".toList
        rest := " extra".toList }
    p.IsProper ∧ byPattern? "A[[Door: Front]] extra".toList = some p.header ∧
      ∀ q : NodeParts, q.IsProper → q.line = "A[[Door: Front]] extra".toList → p = q := by
  intro p
  have hp : p.IsProper := ⟨by decide, by decide, by decide, by decide,
    Text.forall_mem_of_all (by decide), by decide, Text.forall_mem_of_all (by decide)⟩
  have hline : p.line = "A[[Door: Front]] extra".toList := by decide
  obtain ⟨hmatch, hunique, -⟩ := byPattern_grammar "A[[Door: Front]] extra".toList
  exact ⟨hp, (hmatch _).mpr ⟨p, hp, hline, rfl, rfl⟩, fun q hq hq' => hunique p q hp hline hq hq'⟩

end NodeHeader

end Notation

end SpatialDiagram
