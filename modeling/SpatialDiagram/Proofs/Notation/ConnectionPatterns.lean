import SpatialDiagram.Proofs.Notation.Endpoints
import SpatialDiagram.Proofs.Text.Pattern

/-!
# The patterns of connection lines

Two patterns find connections, one with a label between bars and one with a
label after a colon. Nothing that follows an endpoint, an arrow or a gap could
also belong to it, so the patterns have no reason to go back there. Only the
blanks around a label between bars can be shared out in several ways, and
trimming takes these off. The patterns find what reading the line once does.
-/

namespace SpatialDiagram

namespace Notation

open Text (Pattern)

/-! ## The patterns -/

namespace ConnectionHeader

/-- An identifier, kept under the name of a group. -/
def namePattern (group : String) : Pattern := .group group (.greedy 1 isIdentifier)

/-- The face that may follow a node: an at sign and a name. -/
def facePattern (group : String) : Pattern :=
  .optional (.sequence [.literal ['@'], namePattern group])

/-- One end of a connection. -/
def endpoint (node face : String) : List Pattern := [namePattern node, facePattern face]

/-- Any of the arrows, in the order of their table. -/
def arrowPattern : Pattern :=
  .group "arrow" (.oneOf (ConnectionCategory.arrows.map fun a => a.1.toList))

/-- What both patterns of a connection share: the two ends and the arrow between them. -/
def beginning : List Pattern :=
  endpoint "source" "source_face" ++ [.greedy 0 Text.isBlank, arrowPattern, .greedy 0 Text.isBlank]

/-- A label between bars, and the target behind it. -/
def barEnding : List Pattern :=
  [.literal ['|'], .greedy 0 Text.isBlank, .group "label" (.lazy 0 (· ≠ '|')),
    .greedy 0 Text.isBlank, .literal ['|'], .greedy 0 Text.isBlank] ++
    endpoint "target" "target_face"

/-- A label after a colon. -/
def colonPattern : Pattern :=
  .sequence [.greedy 0 Text.isBlank, .literal [':'], .greedy 0 Text.isBlank,
    .group "label" (.greedy 0 (· ≠ '\n'))]

/-- The target, and a label after a colon or none. -/
def colonEnding : List Pattern :=
  endpoint "target" "target_face" ++ [.optional colonPattern]

/-- The header that the groups of a match give. -/
def ofGroups (gs : List (String × List Char)) : ConnectionHeader :=
  let text (name : String) := String.ofList ((gs.lookup name).getD [])
  { source := { node := text "source", face := (gs.lookup "source_face").map String.ofList }
    arrow := text "arrow"
    target := { node := text "target", face := (gs.lookup "target_face").map String.ofList }
    label := (gs.lookup "label").bind label? }

/-- The connection that a line states by the first pattern that finds one. -/
def byPatterns? (line : List Char) : Option ConnectionHeader :=
  [barEnding, colonEnding].findSome? fun ending =>
    ((Pattern.sequence (beginning ++ ending)).found line).map ofGroups

/-! ## Reading what the patterns find -/

/-- What an endpoint leaves in the groups for its node and its face. -/
def endpointGroups (node face : String) (e : Endpoint) : List (String × List Char) :=
  (node, e.node.toList) :: e.face.toList.map fun f => (face, f.toList)

section

variable {next : Pattern}

/-- A name is taken whole: nothing that may follow it begins with a character of it. -/
theorem found_name_seq (group : String)
    (h : (∀ cs, (next.found cs).isSome = true) ∨ next.Refuses isIdentifier) (cs : List Char) :
    ((namePattern group).seq next).found cs =
      (identifier? cs).bind fun r => (next.found r.2).map ((group, r.1.toList) :: ·) := by
  rw [namePattern, Pattern.found_group_greedy_seq group (h.imp_left fun hsome => hsome _),
    identifier?]
  cases hid : cs.takeWhile isIdentifier with
  | nil => simp
  | cons c more => simp

/-- What can go on behind every text, or behind no text that would lengthen an endpoint. -/
def EndsEndpoint (next : Pattern) : Prop :=
  (∀ cs, (next.found cs).isSome = true) ∨ next.Refuses fun c => isIdentifier c || c = '@'

/-- A face is taken where it stands; without it the pattern goes on. -/
theorem found_face_seq (group : String) (h : EndsEndpoint next) (cs : List Char) :
    ((facePattern group).seq next).found cs =
      match (Text.after? ['@'] cs).bind identifier? with
      | some (f, rest) => (next.found rest).map ((group, f.toList) :: ·)
      | none => next.found cs := by
  have hnext : (∀ cs, (((Pattern.sequence []).seq next).found cs).isSome = true) ∨
      ((Pattern.sequence []).seq next).Refuses isIdentifier := by
    refine h.imp (fun hsome cs => ?_) fun hrefuses c more hc => ?_
    · rw [Pattern.found_nil_seq]
      exact hsome cs
    · rw [Pattern.found_nil_seq]
      exact hrefuses c more (by simp [hc])
  have hname : ((Pattern.sequence [namePattern group]).seq next).found =
      fun rest => (identifier? rest).bind fun r =>
        (next.found r.2).map ((group, r.1.toList) :: ·) := by
    funext rest
    rw [Pattern.found_cons_seq, found_name_seq group hnext]
    simp only [Pattern.found_nil_seq]
  rw [facePattern, Pattern.found_optional_seq, Pattern.found_cons_seq, Pattern.found_literal_seq,
    hname]
  cases hafter : Text.after? ['@'] cs with
  | none => rfl
  | some more =>
      obtain rfl := (Text.after_eq_some_iff ['@'] cs more).mp hafter
      rw [Option.bind_some, Option.bind_some]
      cases identifier? more with
      | none => rfl
      | some r =>
          have hcs : (next.found r.2).isSome = true ∨ next.found (['@'] ++ more) = none :=
            h.imp (fun hsome => hsome r.2) fun hrefuses => hrefuses '@' more (by decide)
          rw [Option.bind_some]
          cases hr : next.found r.2 with
          | some gs => simp [hr]
          | none =>
              rw [hr] at hcs
              simpa [hr] using hcs

/-- An endpoint of a pattern is the one that is read once. -/
theorem found_endpoint_seq {parts : List Pattern} (node face : String)
    (h : EndsEndpoint (.sequence parts)) (cs : List Char) :
    (Pattern.sequence (endpoint node face ++ parts)).found cs =
      (Endpoint.read? cs).bind fun r =>
        ((Pattern.sequence parts).found r.2).map (endpointGroups node face r.1 ++ ·) := by
  have hface : (∀ rest, (((facePattern face).seq (.sequence parts)).found rest).isSome = true) ∨
      ((facePattern face).seq (.sequence parts)).Refuses isIdentifier := by
    refine h.imp (fun hsome rest => ?_) fun hrefuses c more hc => ?_
    · rw [found_face_seq face h]
      split
      · rw [Option.isSome_map]
        exact hsome _
      · exact hsome _
    · have hat : Text.after? ['@'] (c :: more) = none := by
        apply Text.after_singleton_eq_none
        intro more' hcs
        obtain ⟨rfl, -⟩ := List.cons.inj hcs
        revert hc
        decide
      rw [found_face_seq face h, hat]
      exact hrefuses c more (by simp [hc])
  have hsplit : Pattern.sequence (endpoint node face ++ parts) =
      (namePattern node).seq ((facePattern face).seq (.sequence parts)) := rfl
  rw [hsplit, found_name_seq node hface, Endpoint.read_eq]
  cases identifier? cs with
  | none => rfl
  | some r =>
      obtain ⟨s, rest⟩ := r
      simp only [Option.bind_some, Option.map_some]
      rw [found_face_seq face h]
      cases hread : (Text.after? ['@'] rest).bind identifier? with
      | none => simp [endpointGroups]
      | some f => simp [endpointGroups, Function.comp_def]

theorem found_blanks_seq (h : next.Refuses Text.isBlank) (cs : List Char) :
    ((Pattern.greedy 0 Text.isBlank).seq next).found cs = next.found (Text.skipBlanks cs) := by
  rw [Pattern.found_greedy_seq (Or.inr h), if_pos (Nat.zero_le _), Text.skipBlanks]

theorem mem_ways_arrow_iff (cs : List Char) (m : Text.Match) :
    m ∈ arrowPattern.ways cs ↔ ∃ a rest, arrow? cs = some (a, rest) ∧
      m = { groups := [("arrow", a.toList)], text := a.toList, rest } := by
  rw [arrowPattern, Pattern.ways, List.mem_map]
  constructor
  · rintro ⟨n, hn, rfl⟩
    obtain ⟨text, htext, rest, hcs, rfl⟩ := (Pattern.mem_ways_oneOf_iff _).mp hn
    obtain ⟨a, ha, rfl⟩ := List.mem_map.mp htext
    exact ⟨a.1, rest, (arrow_eq_some_iff cs a.1 rest).mpr ⟨List.mem_map_of_mem ha, hcs⟩, rfl⟩
  · rintro ⟨a, rest, hread, rfl⟩
    obtain ⟨ha, hcs⟩ := (arrow_eq_some_iff cs a rest).mp hread
    obtain ⟨x, hx, rfl⟩ := List.mem_map.mp ha
    exact ⟨_, (Pattern.mem_ways_oneOf_iff _).mpr ⟨_, List.mem_map_of_mem hx, rest, hcs, rfl⟩, rfl⟩

/-- The first arrow of the table that fits is the only one that can. -/
theorem found_arrow_seq (cs : List Char) :
    (arrowPattern.seq next).found cs =
      (arrow? cs).bind fun r => (next.found r.2).map (("arrow", r.1.toList) :: ·) := by
  cases hread : arrow? cs with
  | some r =>
      have hway := (mem_ways_arrow_iff cs _).mpr ⟨r.1, r.2, hread, rfl⟩
      rw [Pattern.found_seq_of_unique hway]
      · rfl
      · intro n hn
        obtain ⟨a, rest, ha, rfl⟩ := (mem_ways_arrow_iff cs n).mp hn
        obtain rfl := Option.some.inj (hread.symm.trans ha)
        rfl
  | none =>
      rw [Pattern.found_seq, Option.bind_none, List.findSome?_eq_none_iff]
      intro m hm
      obtain ⟨a, rest, ha, -⟩ := (mem_ways_arrow_iff cs m).mp hm
      rw [hread] at ha
      cases ha

theorem arrow_cons_eq_none {c : Char} (cs : List Char)
    (h : Text.isBlank c = true ∨ isIdentifier c = true ∨ c = '@') : arrow? (c :: cs) = none := by
  cases hread : arrow? (c :: cs) with
  | none => rfl
  | some r =>
      obtain ⟨ha, hcs⟩ := (arrow_eq_some_iff _ r.1 r.2).mp hread
      obtain ⟨x, more, ha, hidentifier, hblank, hat⟩ := ha.exists_cons
      rw [ha] at hcs
      obtain ⟨rfl, -⟩ := List.cons.inj hcs
      simp [hblank, hidentifier, hat] at h

/-- Both patterns begin with the source and the arrow that are read once. -/
theorem found_beginning_append {parts : List Pattern}
    (h : (Pattern.sequence parts).Refuses Text.isBlank) (line : List Char) :
    (Pattern.sequence (beginning ++ parts)).found line =
      (Endpoint.read? line).bind fun s => (arrow? (Text.skipBlanks s.2)).bind fun a =>
        ((Pattern.sequence parts).found (Text.skipBlanks a.2)).map
          (endpointGroups "source" "source_face" s.1 ++ ("arrow", a.1.toList) :: ·) := by
  have harrow (cs : List Char) : (Pattern.sequence (.greedy 0 Text.isBlank :: arrowPattern ::
      .greedy 0 Text.isBlank :: parts)).found cs = (arrow? (Text.skipBlanks cs)).bind fun a =>
        ((Pattern.sequence parts).found (Text.skipBlanks a.2)).map
          (("arrow", a.1.toList) :: ·) := by
    have hrefuses :
        (arrowPattern.seq (.sequence (.greedy 0 Text.isBlank :: parts))).Refuses Text.isBlank := by
      intro c cs hc
      rw [found_arrow_seq, arrow_cons_eq_none cs (Or.inl hc), Option.bind_none]
    calc
      _ = (arrowPattern.seq (.sequence (.greedy 0 Text.isBlank :: parts))).found
          (Text.skipBlanks cs) := found_blanks_seq hrefuses cs
      _ = _ := by
        rw [found_arrow_seq]
        congr 1
        funext a
        exact congrArg (Option.map _) (found_blanks_seq h a.2)
  have hends : EndsEndpoint (.sequence (.greedy 0 Text.isBlank :: arrowPattern ::
      .greedy 0 Text.isBlank :: parts)) := by
    refine Or.inr fun c cs hc => ?_
    have hc : isIdentifier c = true ∨ c = '@' := by simpa using hc
    have hblank : Text.isBlank c = false := by
      rcases hc with hidentifier | rfl
      · exact isBlank_of_isIdentifier hidentifier
      · decide
    rw [harrow, Text.skipBlanks, List.dropWhile_cons_of_neg (by simp [hblank]),
      arrow_cons_eq_none cs (Or.inr hc), Option.bind_none]
  rw [beginning, List.append_assoc, List.cons_append, List.cons_append, List.cons_append,
    List.nil_append, found_endpoint_seq _ _ hends]
  simp only [harrow, Option.map_bind, Function.comp_def, Option.map_map]

end

/-! ## Labels -/

theorem label_of_trim_eq {a b : List Char} (h : Text.trim a = Text.trim b) :
    label? a = label? b := by
  rw [label?, unquote, h, label?, unquote]

theorem barLabel_of_text {text : List Char} (htext : '|' ∉ text) (more : List Char) :
    barLabel? ('|' :: (text ++ '|' :: more)) =
      (Endpoint.read? (Text.skipBlanks more)).map fun r => (label? text, r.1) := by
  have hrun := Text.isRun_until htext more
  rw [barLabel?]
  simp only [hrun.dropWhile, hrun.takeWhile]
  cases Endpoint.read? (Text.skipBlanks more) <;> rfl

/-- A label between bars ends at the first bar. -/
theorem exists_of_barLabel {cs : List Char} {r : Option String × Endpoint}
    (h : barLabel? cs = some r) : ∃ text more, cs = '|' :: (text ++ '|' :: more) ∧ '|' ∉ text := by
  match cs with
  | [] => cases h
  | c :: inner =>
      have hc : c = '|' := by
        rw [barLabel?.eq_def] at h
        split at h
        · rename_i hcs
          exact (List.cons.inj hcs).1
        · cases h
      subst hc
      by_cases hbar : '|' ∈ inner
      · obtain ⟨text, more, rfl, htext⟩ := List.eq_append_cons_of_mem hbar
        exact ⟨text, more, rfl, htext⟩
      · have hnone : inner.dropWhile (fun c => decide (c ≠ '|')) = [] := by
          apply (Text.dropWhile_eq_nil_iff _ inner).mpr
          intro c hc
          exact decide_eq_true (ne_of_mem_of_not_mem hc hbar)
        rw [barLabel?] at h
        simp only [hnone] at h
        cases h

section

variable {parts : List Pattern} {cs : List Char}

/-- A label between bars, and what may go on behind it. -/
def afterBar (parts : List Pattern) : Pattern :=
  .sequence (.greedy 0 Text.isBlank :: .group "label" (.lazy 0 (· ≠ '|')) ::
    .greedy 0 Text.isBlank :: .literal ['|'] :: parts)

theorem exists_of_found_afterBar {gs : List (String × List Char)}
    (h : (afterBar parts).found cs = some gs) :
    ∃ text label more hs, cs = text ++ '|' :: more ∧ '|' ∉ text ∧
      Text.trim label = Text.trim text ∧ (Pattern.sequence parts).found more = some hs ∧
      gs = ("label", label) :: hs := by
  obtain ⟨gap, _, rfl, hgap, hlabel⟩ := Pattern.exists_of_found_run_seq h
  obtain ⟨label, _, hs, rfl, hplain, hgap', rfl⟩ := Pattern.exists_of_found_group_run_seq hlabel
  obtain ⟨gap', cs, rfl, hblank, hbar⟩ := Pattern.exists_of_found_run_seq hgap'
  obtain ⟨more, hafter, hmore⟩ := Option.bind_eq_some_iff.mp
    ((Pattern.found_literal_seq ['|'] _ cs).symm.trans hbar)
  obtain rfl := (Text.after_eq_some_iff ['|'] cs more).mp hafter
  refine ⟨gap ++ (label ++ gap'), label, more, hs, by simp, ?_, ?_, hmore, rfl⟩
  · have hnot {c : Char} (hc : Text.isBlank c = true) : c ≠ '|' := by
      rintro rfl
      revert hc
      decide
    simp only [List.mem_append, not_or]
    refine ⟨fun hc => hnot (hgap _ hc) rfl, fun hc => ?_, fun hc => hnot (hblank _ hc) rfl⟩
    simpa using hplain '|' hc
  · rw [Text.trim_append_left hgap, Text.trim_append_right label hblank]

theorem found_afterBar_isSome {text more : List Char} (htext : '|' ∉ text)
    (h : ((Pattern.sequence parts).found more).isSome = true) :
    ((afterBar parts).found (text ++ '|' :: more)).isSome = true := by
  have hbar : ((Pattern.sequence (.literal ['|'] :: parts)).found ('|' :: more)).isSome = true := by
    rw [Pattern.sequence, List.foldr_cons, Pattern.found_literal_seq, Text.after_singleton,
      Option.bind_some]
    exact h
  have hnone : ∀ c ∈ ([] : List Char), Text.isBlank c = true := List.forall_mem_nil _
  have hplain : ∀ c ∈ text, decide (c ≠ '|') = true := by
    intro c hc
    exact decide_eq_true (ne_of_mem_of_not_mem hc htext)
  have hgap' := Pattern.found_run_seq_isSome (Nat.zero_le _) hnone hbar true
  have hlabel :=
    Pattern.found_group_run_seq_isSome (Nat.zero_le _) hplain hgap' "label" false
  exact Pattern.found_run_seq_isSome (Nat.zero_le _) hnone hlabel true

end

theorem found_target (cs : List Char) :
    (Pattern.sequence (endpoint "target" "target_face")).found cs =
      (Endpoint.read? cs).map fun r => endpointGroups "target" "target_face" r.1 := by
  have hends : EndsEndpoint (.sequence []) := by
    refine Or.inl fun cs => ?_
    rw [Pattern.found_sequence_nil, Option.isSome_some]
  have hfound := found_endpoint_seq "target" "target_face" hends cs
  rw [List.append_nil] at hfound
  rw [hfound]
  cases Endpoint.read? cs with
  | none => rfl
  | some r => simp [Pattern.found_sequence_nil]

theorem target_refuses_blanks :
    (Pattern.sequence (endpoint "target" "target_face")).Refuses Text.isBlank := by
  intro c cs hc
  rw [found_target, Endpoint.read_cons_of_isBlank hc, Option.map_none]

/-- The target is found behind the blanks. -/
theorem found_blanks_target (cs : List Char) :
    (Pattern.sequence (.greedy 0 Text.isBlank :: endpoint "target" "target_face")).found cs =
      (Endpoint.read? (Text.skipBlanks cs)).map fun r =>
        endpointGroups "target" "target_face" r.1 := by
  rw [Pattern.sequence, List.foldr_cons, found_blanks_seq, ← Pattern.sequence, found_target]
  exact target_refuses_blanks

theorem found_barEnding (cs : List Char) :
    (Pattern.sequence barEnding).found cs =
      (Text.after? ['|'] cs).bind
        (afterBar (.greedy 0 Text.isBlank :: endpoint "target" "target_face")).found :=
  Pattern.found_literal_seq ['|'] _ cs

/-- The pattern finds what stands between the bars but for blanks. -/
theorem barLabel_of_found {cs : List Char} {gs : List (String × List Char)}
    (h : (Pattern.sequence barEnding).found cs = some gs) :
    ∃ label t, barLabel? cs = some (label? label, t) ∧
      gs = ("label", label) :: endpointGroups "target" "target_face" t := by
  rw [found_barEnding] at h
  obtain ⟨inner, hafter, hfound⟩ := Option.bind_eq_some_iff.mp h
  obtain ⟨text, label, more, hs, rfl, htext, htrim, hmore, rfl⟩ := exists_of_found_afterBar hfound
  obtain rfl := (Text.after_eq_some_iff ['|'] cs _).mp hafter
  rw [found_blanks_target] at hmore
  obtain ⟨⟨t, rest⟩, hread, rfl⟩ := Option.map_eq_some_iff.mp hmore
  refine ⟨label, t, ?_, rfl⟩
  rw [List.singleton_append, barLabel_of_text htext, hread, Option.map_some,
    label_of_trim_eq htrim]

theorem found_of_barLabel {cs : List Char} {r : Option String × Endpoint}
    (h : barLabel? cs = some r) : ((Pattern.sequence barEnding).found cs).isSome = true := by
  obtain ⟨text, more, rfl, htext⟩ := exists_of_barLabel h
  rw [barLabel_of_text htext] at h
  obtain ⟨t, hread, -⟩ := Option.map_eq_some_iff.mp h
  rw [found_barEnding, Text.after_singleton, Option.bind_some]
  apply found_afterBar_isSome htext
  rw [found_blanks_target, hread, Option.map_some, Option.isSome_some]

/-- The label behind a colon. -/
def colonGroup (cs : List Char) : List (String × List Char) :=
  ((Text.after? [':'] (Text.skipBlanks cs)).map fun label =>
    ("label", (Text.skipBlanks label).takeWhile (· ≠ '\n'))).toList

theorem found_colonLabel (cs : List Char) :
    (Pattern.sequence [.optional colonPattern]).found cs = some (colonGroup cs) := by
  have hlabel (cs : List Char) :
      ((Pattern.sequence [.group "label" (.greedy 0 (· ≠ '\n'))]).seq (.sequence [])).found cs =
        some [("label", cs.takeWhile (· ≠ '\n'))] := by
    have hend (cs : List Char) :
        ((Pattern.sequence []).seq (.sequence [])).found cs = some [] := by
      rw [Pattern.found_nil_seq, Pattern.found_sequence_nil]
    rw [Pattern.found_cons_seq, Pattern.found_group_greedy_seq, if_pos (Nat.zero_le _), hend]
    · rfl
    · rw [hend]
      exact Or.inl rfl
  have hbehind (cs : List Char) :
      ((Pattern.sequence [.greedy 0 Text.isBlank, .group "label" (.greedy 0 (· ≠ '\n'))]).seq
        (.sequence [])).found cs = some [("label", (Text.skipBlanks cs).takeWhile (· ≠ '\n'))] := by
    rw [Pattern.found_cons_seq, Pattern.found_greedy_seq, if_pos (Nat.zero_le _), hlabel,
      Text.skipBlanks]
    rw [hlabel]
    exact Or.inl rfl
  have hcolon (cs : List Char) :
      ((Pattern.sequence [.literal [':'], .greedy 0 Text.isBlank,
        .group "label" (.greedy 0 (· ≠ '\n'))]).seq (.sequence [])).found cs =
          (Text.after? [':'] cs).map fun label =>
            [("label", (Text.skipBlanks label).takeWhile (· ≠ '\n'))] := by
    rw [Pattern.found_cons_seq, Pattern.found_literal_seq]
    cases Text.after? [':'] cs with
    | none => rfl
    | some label => exact hbehind label
  have hrefuses : ((Pattern.sequence [.literal [':'], .greedy 0 Text.isBlank,
      .group "label" (.greedy 0 (· ≠ '\n'))]).seq (.sequence [])).Refuses Text.isBlank := by
    intro c cs hc
    rw [hcolon, Text.after_singleton_eq_none, Option.map_none]
    intro more hcs
    obtain ⟨rfl, -⟩ := List.cons.inj hcs
    revert hc
    decide
  rw [Pattern.sequence, List.foldr_cons, ← Pattern.sequence, Pattern.found_optional_seq,
    colonPattern, Pattern.found_cons_seq, found_blanks_seq hrefuses, hcolon,
    Pattern.found_sequence_nil, colonGroup]
  cases Text.after? [':'] (Text.skipBlanks cs) <;> rfl

/-- The ending with a colon is the target and what stands behind it. -/
theorem found_colonEnding (cs : List Char) :
    (Pattern.sequence colonEnding).found cs =
      (Endpoint.read? cs).map fun r =>
        endpointGroups "target" "target_face" r.1 ++ colonGroup r.2 := by
  have hends : EndsEndpoint (.sequence [.optional colonPattern]) := by
    refine Or.inl fun cs => ?_
    rw [found_colonLabel, Option.isSome_some]
  rw [colonEnding, found_endpoint_seq _ _ hends]
  cases Endpoint.read? cs with
  | none => rfl
  | some r => simp only [Option.bind_some, Option.map_some, found_colonLabel]

/-- The label behind a colon is the group that the pattern keeps. -/
theorem colonLabel_eq (cs : List Char) :
    colonLabel? cs = (Endpoint.read? cs).map fun r =>
      (((colonGroup r.2).lookup "label").bind label?, r.1) := by
  rw [colonLabel?]
  cases Endpoint.read? cs with
  | none => rfl
  | some r =>
      simp only [Option.bind_eq_bind, Option.bind_some, Option.map_some, colonGroup]
      split
      · rename_i label hcolon
        rw [hcolon, Text.after_singleton]
        rfl
      · rename_i hcolon
        rw [Text.after_singleton_eq_none hcolon]
        rfl

/-! ## Trying the patterns in turn -/

theorem ofGroups_barLabel (s t : Endpoint) (a : String) (label : List Char) :
    ofGroups (endpointGroups "source" "source_face" s ++ ("arrow", a.toList) :: ("label", label) ::
      endpointGroups "target" "target_face" t) =
        { source := s, arrow := a, target := t, label := label? label } := by
  obtain ⟨node, face⟩ := s
  obtain ⟨node', face'⟩ := t
  cases face <;> cases face' <;> simp [ofGroups, endpointGroups, List.lookup_cons]

theorem ofGroups_colonLabel (s t : Endpoint) (a : String) (cs : List Char) :
    ofGroups (endpointGroups "source" "source_face" s ++ ("arrow", a.toList) ::
      (endpointGroups "target" "target_face" t ++ colonGroup cs)) =
        { source := s, arrow := a, target := t
          label := ((colonGroup cs).lookup "label").bind label? } := by
  obtain ⟨node, face⟩ := s
  obtain ⟨node', face'⟩ := t
  cases hgroup : Text.after? [':'] (Text.skipBlanks cs) <;> cases face <;> cases face' <;>
    simp [ofGroups, endpointGroups, colonGroup, hgroup, List.lookup_cons]

theorem barEnding_refuses_blanks : (Pattern.sequence barEnding).Refuses Text.isBlank := by
  intro c cs hc
  rw [found_barEnding, Text.after_singleton_eq_none, Option.bind_none]
  intro more hcs
  obtain ⟨rfl, -⟩ := List.cons.inj hcs
  revert hc
  decide

theorem colonEnding_refuses_blanks : (Pattern.sequence colonEnding).Refuses Text.isBlank := by
  intro c cs hc
  rw [found_colonEnding, Endpoint.read_cons_of_isBlank hc, Option.map_none]

/-- The two patterns read what the reader of connections reads. -/
theorem byPatterns_eq_ofLine (line : List Char) : byPatterns? line = ofLine? line := by
  rw [byPatterns?, List.findSome?_cons, List.findSome?_cons, List.findSome?_nil,
    found_beginning_append barEnding_refuses_blanks,
    found_beginning_append colonEnding_refuses_blanks, ofLine?]
  cases Endpoint.read? line with
  | none => rfl
  | some s =>
      rw [Option.bind_some, Option.bind_some, Option.bind_eq_bind, Option.bind_some]
      simp only
      cases arrow? (Text.skipBlanks s.2) with
      | none => rfl
      | some a =>
          rw [Option.bind_some, Option.bind_some, Option.bind_eq_bind, Option.bind_some]
          cases hbar : barLabel? (Text.skipBlanks a.2) with
          | some r =>
              obtain ⟨gs, hgs⟩ := Option.isSome_iff_exists.mp (found_of_barLabel hbar)
              obtain ⟨label, t, hread, rfl⟩ := barLabel_of_found hgs
              obtain rfl := Option.some.inj (hbar.symm.trans hread)
              rw [hgs, Option.map_some, Option.map_some, ofGroups_barLabel]
              rfl
          | none =>
              have hnone : (Pattern.sequence barEnding).found (Text.skipBlanks a.2) = none := by
                cases hgs : (Pattern.sequence barEnding).found (Text.skipBlanks a.2) with
                | none => rfl
                | some gs =>
                    obtain ⟨label, t, hread, -⟩ := barLabel_of_found hgs
                    rw [hbar] at hread
                    cases hread
              rw [hnone, found_colonEnding, colonLabel_eq]
              cases Endpoint.read? (Text.skipBlanks a.2) with
              | none => rfl
              | some t =>
                  simp only [Option.map_some, Option.map_none, ofGroups_colonLabel]
                  rfl

end ConnectionHeader

end Notation

end SpatialDiagram
