import SpatialDiagram.Proofs.Notation.ConnectionPatterns

/-!
# The grammar of connection lines

A connection line states a source, an arrow and a target, and the patterns find
what it states. A label between bars and the same label after a colon are one
label.
-/

namespace SpatialDiagram

namespace Notation

namespace ConnectionHeader

/-! ## The grammar -/

/-- What stands behind the arrow of a line: a label between bars before the target, a label after
a colon behind the target, or the target alone. -/
inductive Ending : List Char → Option String → Endpoint → Prop
  | bars {text gap cs rest : List Char} {t : Endpoint} (htext : '|' ∉ text)
      (hgap : ∀ c ∈ gap, Text.isBlank c = true) (htarget : t.Leads cs rest) :
      Ending ('|' :: (text ++ '|' :: (gap ++ cs))) (label? text) t
  | colon {cs gap text : List Char} {t : Endpoint} (htarget : t.Leads cs (gap ++ ':' :: text))
      (hgap : ∀ c ∈ gap, Text.isBlank c = true) : Ending cs (label? text) t
  | bare {cs rest : List Char} {t : Endpoint} (htarget : t.Leads cs rest)
      (hcolon : ∀ gap text, rest = gap ++ ':' :: text → ¬ ∀ c ∈ gap, Text.isBlank c = true) :
      Ending cs none t

/-- A line that consists of a source, an arrow and an ending, with blanks around the arrow. -/
def States (line : List Char) (h : ConnectionHeader) : Prop :=
  ∃ gap gap' ending, h.source.Leads line (gap ++ (h.arrow.toList ++ (gap' ++ ending))) ∧
    IsArrow h.arrow ∧ (∀ c ∈ gap, Text.isBlank c = true) ∧ (∀ c ∈ gap', Text.isBlank c = true) ∧
    Ending ending h.label h.target

theorem label_skipBlanks (cs : List Char) : label? (Text.skipBlanks cs) = label? cs := by
  have htrim := Text.trim_append_left (Text.isRun_takeWhile Text.isBlank cs).all
    (cs.dropWhile Text.isBlank)
  rw [List.takeWhile_append_dropWhile] at htrim
  exact label_of_trim_eq htrim.symm

/-- A label that goes on to the end of its line. -/
theorem label_of_line {text : List Char} (htext : '\n' ∉ text) :
    label? ((Text.skipBlanks text).takeWhile (· ≠ '\n')) = label? text := by
  have hrun : Text.IsRun (fun c => decide (c ≠ '\n')) (Text.skipBlanks text) [] := by
    constructor
    · intro c hc
      have hmem := (List.dropWhile_suffix Text.isBlank).subset hc
      exact decide_eq_true (ne_of_mem_of_not_mem hmem htext)
    · intro c hc
      cases hc
  have hline := hrun.takeWhile
  rw [List.append_nil] at hline
  rw [hline, label_skipBlanks]

theorem skipBlanks_colon {gap : List Char} (hgap : ∀ c ∈ gap, Text.isBlank c = true)
    (text : List Char) : Text.skipBlanks (gap ++ ':' :: text) = ':' :: text := by
  have hrun : Text.IsRun Text.isBlank gap (':' :: text) := by
    refine ⟨hgap, ?_⟩
    intro c hc
    obtain rfl := Option.some.inj hc
    decide
  exact hrun.dropWhile

theorem barLabel_of_leads {cs rest : List Char} {t : Endpoint} (h : t.Leads cs rest) :
    barLabel? cs = none := by
  have hread := (Endpoint.read_eq_some_iff cs t rest).mpr h
  cases hbar : barLabel? cs with
  | none => rfl
  | some r =>
      obtain ⟨text, more, rfl, -⟩ := exists_of_barLabel hbar
      have hnone : identifier? ('|' :: (text ++ '|' :: more)) = none := by
        simp [identifier?, isIdentifier]
      rw [Endpoint.read_eq, hnone] at hread
      cases hread

/-- An ending is read as the label and the target that it states. -/
theorem Ending.read {cs : List Char} {l : Option String} {t : Endpoint} (h : Ending cs l t)
    (hline : '\n' ∉ cs) : (barLabel? cs).or (colonLabel? cs) = some (l, t) := by
  cases h with
  | @bars text gap cs rest _ htext hgap htarget =>
      have hread := (Endpoint.read_eq_some_iff cs t rest).mpr htarget
      rw [barLabel_of_text htext, htarget.skipBlanks hgap, hread]
      rfl
  | @colon _ gap text _ htarget hgap =>
      have hread := (Endpoint.read_eq_some_iff cs t _).mpr htarget
      have htext : '\n' ∉ text := by
        intro hc
        exact hline (htarget.isSuffix.subset (by simp [hc]))
      rw [barLabel_of_leads htarget, Option.none_or, colonLabel_eq, hread, Option.map_some,
        colonGroup, skipBlanks_colon hgap, Text.after_singleton]
      simpa using label_of_line htext
  | @bare _ rest _ htarget hcolon =>
      have hread := (Endpoint.read_eq_some_iff cs t rest).mpr htarget
      have hnone : Text.after? [':'] (Text.skipBlanks rest) = none := by
        apply Text.after_singleton_eq_none
        intro text hrest
        apply hcolon (rest.takeWhile Text.isBlank) text
        · rw [← hrest, Text.skipBlanks, List.takeWhile_append_dropWhile]
        · exact (Text.isRun_takeWhile Text.isBlank rest).all
      rw [barLabel_of_leads htarget, Option.none_or, colonLabel_eq, hread, Option.map_some,
        colonGroup, hnone]
      rfl

/-- What is read as an ending states its label and its target. -/
theorem ending_of_read {cs : List Char} {l : Option String} {t : Endpoint} (hline : '\n' ∉ cs)
    (h : (barLabel? cs).or (colonLabel? cs) = some (l, t)) : Ending cs l t := by
  have hblanks (cs : List Char) := List.takeWhile_append_dropWhile (p := Text.isBlank) (l := cs)
  cases hbar : barLabel? cs with
  | some r =>
      obtain ⟨text, more, rfl, htext⟩ := exists_of_barLabel hbar
      rw [hbar, Option.some_or] at h
      rw [h, barLabel_of_text htext] at hbar
      obtain ⟨⟨t, rest⟩, hread, hlabel⟩ := Option.map_eq_some_iff.mp hbar
      obtain ⟨rfl, rfl⟩ := Prod.mk.inj hlabel
      rw [← hblanks more]
      apply Ending.bars htext (Text.isRun_takeWhile Text.isBlank more).all
      exact (Endpoint.read_eq_some_iff _ t rest).mp hread
  | none =>
      rw [hbar, Option.none_or, colonLabel_eq] at h
      obtain ⟨⟨t, rest⟩, hread, hlabel⟩ := Option.map_eq_some_iff.mp h
      obtain ⟨rfl, rfl⟩ := Prod.mk.inj hlabel
      have htarget := (Endpoint.read_eq_some_iff cs t rest).mp hread
      have hgap := (Text.isRun_takeWhile Text.isBlank rest).all
      cases hafter : Text.after? [':'] (Text.skipBlanks rest) with
      | some text =>
          have hcolon := (Text.after_eq_some_iff [':'] _ text).mp hafter
          have hrest : rest = rest.takeWhile Text.isBlank ++ ':' :: text := by
            calc
              rest = rest.takeWhile Text.isBlank ++ Text.skipBlanks rest := (hblanks rest).symm
              _ = _ := by rw [hcolon, List.singleton_append]
          have htext : '\n' ∉ text := by
            intro hc
            apply hline
            apply htarget.isSuffix.subset
            rw [hrest]
            simp [hc]
          rw [hrest] at htarget
          rw [colonGroup, hafter]
          change Ending cs (label? ((Text.skipBlanks text).takeWhile (· ≠ '\n'))) t
          rw [label_of_line htext]
          exact Ending.colon htarget hgap
      | none =>
          rw [colonGroup, hafter]
          apply Ending.bare htarget
          rintro gap text rfl hall
          rw [skipBlanks_colon hall, Text.after_singleton] at hafter
          cases hafter

/-- A line is read as a connection exactly if it is made of ends, an arrow and an ending. -/
theorem ofLine_eq_some_iff (line : List Char) (h : ConnectionHeader) :
    ofLine? line = some h ↔ ∃ gap gap' ending,
      h.source.Leads line (gap ++ (h.arrow.toList ++ (gap' ++ ending))) ∧ IsArrow h.arrow ∧
      (∀ c ∈ gap, Text.isBlank c = true) ∧ (∀ c ∈ gap', Text.isBlank c = true) ∧
      (barLabel? ending).or (colonLabel? ending) = some (h.label, h.target) := by
  have hblanks (cs : List Char) := List.takeWhile_append_dropWhile (p := Text.isBlank) (l := cs)
  constructor
  · intro hread
    obtain ⟨⟨s, rest⟩, hsource, hread⟩ := Option.bind_eq_some_iff.mp hread
    obtain ⟨⟨a, more⟩, harrow, hread⟩ := Option.bind_eq_some_iff.mp hread
    obtain ⟨⟨l, t⟩, hending, hread⟩ := Option.bind_eq_some_iff.mp hread
    obtain rfl := Option.some.inj hread
    have hsource := (Endpoint.read_eq_some_iff line s rest).mp hsource
    obtain ⟨harrow, hrest⟩ := (arrow_eq_some_iff _ a more).mp harrow
    rw [← hblanks rest, ← Text.skipBlanks, hrest, ← hblanks more] at hsource
    exact ⟨_, _, Text.skipBlanks more, hsource, harrow, (Text.isRun_takeWhile _ _).all,
      (Text.isRun_takeWhile _ _).all, Option.or_eq_orElse.trans hending⟩
  · rintro ⟨gap, gap', ending, hsource, harrow, hgap, hgap', hending⟩
    have hread := (Endpoint.read_eq_some_iff line _ _).mpr hsource
    have hfirst : Text.skipBlanks (gap ++ (h.arrow.toList ++ (gap' ++ ending))) =
        h.arrow.toList ++ (gap' ++ ending) := by
      apply Text.IsRun.dropWhile
      refine ⟨hgap, ?_⟩
      intro c hc
      obtain ⟨x, cs, hcons, -, hblank, -⟩ := harrow.exists_cons
      rw [hcons] at hc
      obtain rfl := Option.some.inj hc
      exact hblank
    have hsecond : Text.skipBlanks (gap' ++ ending) = ending := by
      apply Text.IsRun.dropWhile
      refine ⟨hgap', ?_⟩
      intro c hc
      obtain ⟨more, rfl⟩ := List.head?_eq_some_iff.mp hc
      cases hblank : Text.isBlank c with
      | false => rfl
      | true =>
          rw [colonLabel_eq, Endpoint.read_cons_of_isBlank hblank, Option.map_none,
            Option.or_none] at hending
          obtain ⟨text, more, hcs, -⟩ := exists_of_barLabel hending
          obtain ⟨rfl, -⟩ := List.cons.inj hcs
          revert hblank
          decide
    have harrow := (arrow_eq_some_iff (h.arrow.toList ++ (gap' ++ ending)) h.arrow _).mpr
      ⟨harrow, rfl⟩
    rw [ofLine?, hread, Option.bind_eq_bind, Option.bind_some]
    simp only [hfirst, harrow, hsecond, Option.bind_eq_bind, Option.bind_some]
    have hending := Option.or_eq_orElse.symm.trans hending
    exact Option.bind_eq_some_iff.mpr ⟨_, hending, rfl⟩

/-- A line is read as what it states. -/
theorem states_iff {line : List Char} (hline : '\n' ∉ line) (h : ConnectionHeader) :
    States line h ↔ ofLine? line = some h := by
  rw [ofLine_eq_some_iff]
  constructor
  · rintro ⟨gap, gap', ending, hsource, harrow, hgap, hgap', hending⟩
    have hending := hending.read fun hc => hline (hsource.isSuffix.subset (by simp [hc]))
    exact ⟨gap, gap', ending, hsource, harrow, hgap, hgap', hending⟩
  · rintro ⟨gap, gap', ending, hsource, harrow, hgap, hgap', hending⟩
    have hending := ending_of_read
      (fun hc => hline (hsource.isSuffix.subset (by simp [hc]))) hending
    exact ⟨gap, gap', ending, hsource, harrow, hgap, hgap', hending⟩

end ConnectionHeader

/-! ## The two places of a label -/

theorem ends_of_isBlank {c : Char} (h : Text.isBlank c = true) :
    isIdentifier c = false ∧ c ≠ '@' := by
  refine ⟨isIdentifier_of_isBlank h, ?_⟩
  rintro rfl
  revert h
  decide

namespace Endpoint

/-- The text of an endpoint. -/
def text (e : Endpoint) : List Char :=
  e.node.toList ++ (e.face.map fun f => '@' :: f.toList).getD []

/-- Node and face are identifiers. -/
structure IsProper (e : Endpoint) : Prop where
  node_ne_empty : e.node ≠ ""
  node_plain : ∀ c ∈ e.node.toList, isIdentifier c = true
  face_ne_empty : ∀ f ∈ e.face, f ≠ ""
  face_plain : ∀ f ∈ e.face, ∀ c ∈ f.toList, isIdentifier c = true

theorem IsProper.leads {e : Endpoint} (he : e.IsProper) {rest : List Char}
    (hrest : ∀ c, rest.head? = some c → isIdentifier c = false ∧ c ≠ '@') :
    e.Leads (e.text ++ rest) rest := by
  have hends : ∀ c, rest.head? = some c → isIdentifier c = false := fun c hc => (hrest c hc).1
  obtain ⟨node, face⟩ := e
  cases face with
  | none =>
      apply Leads.node
      · exact ⟨he.node_ne_empty, by simp [text], he.node_plain, hends⟩
      · rintro f more rest' rfl -
        exact (hrest '@' rfl).2 rfl
  | some f =>
      have hface : IsIdentifierRun f (f.toList ++ rest) rest :=
        ⟨he.face_ne_empty f rfl, rfl, he.face_plain f rfl, hends⟩
      apply Leads.face _ hface
      refine ⟨he.node_ne_empty, by simp [text], he.node_plain, ?_⟩
      intro c hc
      obtain rfl := Option.some.inj hc
      decide

end Endpoint

/-- What a connection line with a label is put together from. The gaps stand around the arrow and
between the label and the target. -/
structure ConnectionParts where
  source : Endpoint
  gap : List Char
  arrow : String
  gap' : List Char
  label : List Char
  gap'' : List Char
  target : Endpoint

namespace ConnectionParts

/-- The parts are those of a connection line: proper ends, a known arrow and blanks between. -/
structure IsProper (p : ConnectionParts) : Prop where
  source : p.source.IsProper
  target : p.target.IsProper
  isArrow : IsArrow p.arrow
  gap_blank : ∀ c ∈ p.gap, Text.isBlank c = true
  gap_blank' : ∀ c ∈ p.gap', Text.isBlank c = true
  gap_blank'' : ∀ c ∈ p.gap'', Text.isBlank c = true
  label_plain : '|' ∉ p.label

def line (p : ConnectionParts) (ending : List Char) : List Char :=
  p.source.text ++ (p.gap ++ (p.arrow.toList ++ (p.gap' ++ ending)))

/-- The label between bars, with any text behind the target. -/
def withBars (p : ConnectionParts) (more : List Char) : List Char :=
  p.line ('|' :: (p.label ++ '|' :: (p.gap'' ++ (p.target.text ++ more))))

/-- The label after a colon. -/
def withColon (p : ConnectionParts) : List Char :=
  p.line (p.target.text ++ (p.gap'' ++ ':' :: p.label))

/-- What is read from the parts of a connection line. -/
def header (p : ConnectionParts) : ConnectionHeader :=
  { source := p.source, arrow := p.arrow, target := p.target, label := label? p.label }

variable {p : ConnectionParts} (hp : p.IsProper)

include hp

theorem states_line {ending : List Char}
    (h : ConnectionHeader.Ending ending (label? p.label) p.target) :
    ConnectionHeader.States (p.line ending) p.header := by
  refine ⟨p.gap, p.gap', ending, ?_, hp.isArrow, hp.gap_blank, hp.gap_blank', h⟩
  apply hp.source.leads
  intro c hc
  cases hgap : p.gap with
  | nil =>
      obtain ⟨x, cs, harrow, hidentifier, -, hat⟩ := hp.isArrow.exists_cons
      rw [hgap, List.nil_append, harrow] at hc
      obtain rfl := Option.some.inj hc
      exact ⟨hidentifier, hat⟩
  | cons x gap =>
      rw [hgap] at hc
      obtain rfl := Option.some.inj hc
      exact ends_of_isBlank (hp.gap_blank x (by simp [hgap]))

/-- A connection with its label between bars states its header. -/
theorem states_withBars {more : List Char}
    (hmore : ∀ c, more.head? = some c → isIdentifier c = false ∧ c ≠ '@') :
    ConnectionHeader.States (p.withBars more) p.header := by
  apply states_line hp
  exact ConnectionHeader.Ending.bars hp.label_plain hp.gap_blank'' (hp.target.leads hmore)

/-- A connection with its label behind a colon states its header. -/
theorem states_withColon : ConnectionHeader.States p.withColon p.header := by
  apply states_line hp
  apply ConnectionHeader.Ending.colon _ hp.gap_blank''
  apply hp.target.leads
  intro c hc
  cases hgap : p.gap'' with
  | nil =>
      rw [hgap] at hc
      obtain rfl := Option.some.inj hc
      decide
  | cons x gap =>
      rw [hgap] at hc
      obtain rfl := Option.some.inj hc
      exact ends_of_isBlank (hp.gap_blank'' x (by simp [hgap]))

end ConnectionParts

namespace ConnectionHeader

/-- A line matches if and only if it states a connection, and the match is what it states. A label
reads the same between bars and after a colon. -/
theorem byPatterns_grammar :
    (∀ line, byPatterns? line = ofLine? line) ∧
    (∀ line, '\n' ∉ line → ∀ h, byPatterns? line = some h ↔ States line h) ∧
    ∀ (p : ConnectionParts) (more : List Char), p.IsProper → '\n' ∉ p.withBars more →
      (∀ c, more.head? = some c → isIdentifier c = false ∧ c ≠ '@') →
      byPatterns? (p.withBars more) = some p.header ∧ byPatterns? p.withColon = some p.header := by
  have hgrammar (line : List Char) (hline : '\n' ∉ line) (h : ConnectionHeader) :
      byPatterns? line = some h ↔ States line h := by
    rw [byPatterns_eq_ofLine, states_iff hline]
  refine ⟨byPatterns_eq_ofLine, hgrammar, ?_⟩
  intro p more hp hline hmore
  have hcolon : '\n' ∉ p.withColon := by
    simp only [ConnectionParts.withBars, ConnectionParts.withColon, ConnectionParts.line,
      List.mem_append, List.mem_cons, not_or] at hline ⊢
    obtain ⟨hsource, hgap, harrow, hgap', -, hlabel, -, hgap'', htarget, -⟩ := hline
    exact ⟨hsource, hgap, harrow, hgap', htarget, hgap'', by decide, hlabel⟩
  exact ⟨(hgrammar _ hline _).mpr (p.states_withBars hp hmore),
    (hgrammar _ hcolon _).mpr (p.states_withColon hp)⟩

/-- A connection with a face, a quoted label and text behind it. -/
theorem byPatterns_grammar_face :
    byPatterns? "A@top -->|\"go\"| B, later".toList =
        some { source := { node := "A", face := some "top" }, arrow := "-->"
               target := { node := "B" }, label := some "go" } ∧
      byPatterns? "A@top -->B :\"go\"".toList =
        some { source := { node := "A", face := some "top" }, arrow := "-->"
               target := { node := "B" }, label := some "go" } := by
  let p : ConnectionParts :=
    { source := { node := "A", face := some "top" }, gap := [' '], arrow := "-->", gap' := []
      label := "\"go\"".toList, gap'' := [' '], target := { node := "B" } }
  have hp : p.IsProper := by
    constructor
    · constructor
      · decide
      · exact Text.forall_mem_of_all (by decide)
      · decide
      · rintro f hf
        obtain rfl := Option.some.inj hf
        exact Text.forall_mem_of_all (by decide)
    · constructor
      · decide
      · exact Text.forall_mem_of_all (by decide)
      · decide
      · exact fun f hf => nomatch hf
    · decide
    · exact Text.forall_mem_of_all (by decide)
    · exact Text.forall_mem_of_all (by decide)
    · exact Text.forall_mem_of_all (by decide)
    · decide
  have hlines : p.withBars ", later".toList = "A@top -->|\"go\"| B, later".toList ∧
      p.withColon = "A@top -->B :\"go\"".toList := by decide
  rw [← hlines.1, ← hlines.2]
  apply byPatterns_grammar.2.2 p ", later".toList hp (by decide)
  intro c hc
  obtain rfl := Option.some.inj hc
  decide

end ConnectionHeader

end Notation

end SpatialDiagram
