import SpatialDiagram.Text.Scan

/-!
# Patterns

A pattern says how a text may begin, often in several ways, of which the first
one counts. A greedy run of characters takes as many as it can and then gives
back one after the other, a lazy run begins with as few as it may, and an
optional part is taken rather than left out. What follows in a sequence decides
how far a part has to go back. Named groups keep what they have matched.

A scanner that never goes back agrees with a pattern where what follows a run
refuses the characters of the run (`first_greedy_seq`).
-/

namespace SpatialDiagram

namespace Text

inductive Pattern where
  /-- One of some texts, tried in turn. -/
  | oneOf (texts : List (List Char))
  /-- A run of characters, the longest or the shortest one first. -/
  | run (isGreedy : Bool) (least : Nat) (p : Char → Bool)
  | group (name : String) (part : Pattern)
  | optional (part : Pattern)
  | seq (part next : Pattern)

/-- What a pattern has found at the front of a text. -/
structure Match where
  groups : List (String × List Char) := []
  text : List Char
  rest : List Char
deriving DecidableEq, Repr

namespace Match

/-- The text kept under the name of a group. -/
def group? (m : Match) (name : String) : Option (List Char) := m.groups.lookup name

/-- Goes on with what has been found in the rest of a text. -/
def andThen (m n : Match) : Match :=
  { groups := m.groups ++ n.groups, text := m.text ++ n.text, rest := n.rest }

/-- The first characters of a text. -/
def takes (cs : List Char) (k : Nat) : Match := { text := cs.take k, rest := cs.drop k }

/-- A match whose text is kept under a name. -/
def named (name : String) (m : Match) : Match := { m with groups := m.groups ++ [(name, m.text)] }

end Match

namespace Pattern

/-- One text as it stands. -/
def literal (text : List Char) : Pattern := oneOf [text]

/-- A run of characters, the longest one first. -/
def greedy (least : Nat) (p : Char → Bool) : Pattern := run true least p

/-- A run of characters, the shortest one first. -/
def lazy (least : Nat) (p : Char → Bool) : Pattern := run false least p

/-- Some patterns one after the other. -/
def sequence (parts : List Pattern) : Pattern := parts.foldr seq (literal [])

/-- How many characters a run may take, in ascending order. -/
def lengths (least : Nat) (p : Char → Bool) (cs : List Char) : List Nat :=
  List.range' least ((cs.takeWhile p).length + 1 - least)

/-- The ways in which a text begins as a pattern says, the preferred ones first. -/
def ways : Pattern → List Char → List Match
  | oneOf texts, cs =>
      (texts.filter fun t => t.isPrefixOf cs).map fun t => Match.takes cs t.length
  | run isGreedy least p, cs =>
      let ks := lengths least p cs
      (if isGreedy then ks.reverse else ks).map (Match.takes cs)
  | group name part, cs => (ways part cs).map (Match.named name)
  | optional part, cs => ways part cs ++ [Match.takes cs 0]
  | seq part next, cs => (ways part cs).flatMap fun m => (ways next m.rest).map m.andThen

/-- The way that counts. -/
def first (p : Pattern) (cs : List Char) : Option Match := (p.ways cs).head?

/-! ## All ways -/

section

variable {cs : List Char} {m : Match}

theorem mem_ways_oneOf_iff (texts : List (List Char)) :
    m ∈ (oneOf texts).ways cs ↔ ∃ text ∈ texts, ∃ rest, cs = text ++ rest ∧ m = { text, rest } := by
  rw [ways, List.mem_map]
  constructor
  · rintro ⟨text, ht, rfl⟩
    obtain ⟨htext, hbegins⟩ := List.mem_filter.mp ht
    obtain ⟨rest, rfl⟩ := List.isPrefixOf_iff_prefix.mp hbegins
    exact ⟨text, htext, rest, rfl, by simp [Match.takes]⟩
  · rintro ⟨text, htext, rest, rfl, rfl⟩
    have hbegins : text.isPrefixOf (text ++ rest) = true :=
      List.isPrefixOf_iff_prefix.mpr (List.prefix_append text rest)
    refine ⟨text, List.mem_filter.mpr ⟨htext, hbegins⟩, ?_⟩
    simp [Match.takes]

theorem mem_ways_literal_iff (text : List Char) :
    m ∈ (literal text).ways cs ↔ ∃ rest, cs = text ++ rest ∧ m = { text, rest } := by
  simp [literal, mem_ways_oneOf_iff]

theorem mem_lengths_iff (least : Nat) (p : Char → Bool) (k : Nat) :
    k ∈ lengths least p cs ↔ least ≤ k ∧ k ≤ (cs.takeWhile p).length := by
  rw [lengths, List.mem_range'_1]
  omega

/-- Greedy and lazy runs differ in the order of their ways alone. -/
theorem mem_ways_run_iff (isGreedy : Bool) (least : Nat) (p : Char → Bool) :
    m ∈ (run isGreedy least p).ways cs ↔
      ∃ taken rest, cs = taken ++ rest ∧ least ≤ taken.length ∧ (∀ c ∈ taken, p c = true) ∧
        m = { text := taken, rest } := by
  have hmem (k : Nat) :
      k ∈ (if isGreedy then (lengths least p cs).reverse else lengths least p cs) ↔
        least ≤ k ∧ k ≤ (cs.takeWhile p).length := by
    cases isGreedy <;> simp [mem_lengths_iff]
  simp only [ways, List.mem_map, hmem]
  constructor
  · rintro ⟨k, ⟨hleast, hk⟩, rfl⟩
    have hbegins : cs.take k <+: cs.takeWhile p :=
      List.prefix_of_prefix_length_le (List.take_prefix k cs) (List.takeWhile_prefix p)
        (Nat.le_trans (List.length_take_le k cs) hk)
    have hlength : (cs.take k).length = k :=
      List.length_take_of_le (Nat.le_trans hk (List.takeWhile_prefix p).length_le)
    refine ⟨cs.take k, cs.drop k, (List.take_append_drop k cs).symm, hlength.symm ▸ hleast, ?_, rfl⟩
    intro c hc
    exact List.all_eq_true.mp List.all_takeWhile c (hbegins.subset hc)
  · rintro ⟨taken, rest, rfl, hleast, hall, rfl⟩
    refine ⟨taken.length, ⟨hleast, ?_⟩, by simp [Match.takes]⟩
    rw [List.takeWhile_append_of_pos hall, List.length_append]
    exact Nat.le_add_right _ _

/-- A sequence matches by a way of its first part and a way of the others behind it. -/
theorem mem_ways_sequence_cons_iff (part : Pattern) (parts : List Pattern) :
    m ∈ (sequence (part :: parts)).ways cs ↔
      ∃ n ∈ part.ways cs, ∃ k ∈ (sequence parts).ways n.rest, m = n.andThen k := by
  rw [sequence, List.foldr_cons, ways, List.mem_flatMap]
  simp only [List.mem_map, eq_comm]
  exact Iff.rfl

theorem mem_ways_nil_iff : m ∈ (sequence []).ways cs ↔ m = { text := [], rest := cs } := by
  rw [sequence, List.foldr_nil, mem_ways_literal_iff]
  constructor
  · rintro ⟨rest, rfl, rfl⟩
    rfl
  · rintro rfl
    exact ⟨cs, rfl, rfl⟩

variable {parts : List Pattern}

theorem mem_ways_literal_cons_iff (text : List Char) :
    m ∈ (sequence (literal text :: parts)).ways cs ↔
      ∃ rest, cs = text ++ rest ∧ ∃ k ∈ (sequence parts).ways rest,
        m = Match.andThen { text, rest } k := by
  rw [mem_ways_sequence_cons_iff]
  constructor
  · rintro ⟨n, hn, k, hk, rfl⟩
    obtain ⟨rest, rfl, rfl⟩ := (mem_ways_literal_iff text).mp hn
    exact ⟨rest, rfl, k, hk, rfl⟩
  · rintro ⟨rest, rfl, k, hk, rfl⟩
    exact ⟨_, (mem_ways_literal_iff text).mpr ⟨rest, rfl, rfl⟩, k, hk, rfl⟩

theorem mem_ways_run_cons_iff (isGreedy : Bool) (least : Nat) (p : Char → Bool) :
    m ∈ (sequence (run isGreedy least p :: parts)).ways cs ↔
      ∃ taken rest, cs = taken ++ rest ∧ least ≤ taken.length ∧ (∀ c ∈ taken, p c = true) ∧
        ∃ k ∈ (sequence parts).ways rest, m = Match.andThen { text := taken, rest } k := by
  rw [mem_ways_sequence_cons_iff]
  constructor
  · rintro ⟨n, hn, k, hk, rfl⟩
    obtain ⟨taken, rest, rfl, hleast, hall, rfl⟩ := (mem_ways_run_iff isGreedy least p).mp hn
    exact ⟨taken, rest, rfl, hleast, hall, k, hk, rfl⟩
  · rintro ⟨taken, rest, rfl, hleast, hall, k, hk, rfl⟩
    exact ⟨_, (mem_ways_run_iff isGreedy least p).mpr ⟨taken, rest, rfl, hleast, hall, rfl⟩, k, hk,
      rfl⟩

theorem mem_ways_group_cons_iff (name : String) (isGreedy : Bool) (least : Nat)
    (p : Char → Bool) :
    m ∈ (sequence (group name (run isGreedy least p) :: parts)).ways cs ↔
      ∃ taken rest, cs = taken ++ rest ∧ least ≤ taken.length ∧ (∀ c ∈ taken, p c = true) ∧
        ∃ k ∈ (sequence parts).ways rest,
          m = Match.andThen { groups := [(name, taken)], text := taken, rest } k := by
  rw [mem_ways_sequence_cons_iff]
  constructor
  · rintro ⟨n, hn, k, hk, rfl⟩
    obtain ⟨n', hn', rfl⟩ := List.mem_map.mp hn
    obtain ⟨taken, rest, rfl, hleast, hall, rfl⟩ := (mem_ways_run_iff isGreedy least p).mp hn'
    exact ⟨taken, rest, rfl, hleast, hall, k, hk, rfl⟩
  · rintro ⟨taken, rest, rfl, hleast, hall, k, hk, rfl⟩
    have hrun := (mem_ways_run_iff isGreedy least p).mpr ⟨taken, rest, rfl, hleast, hall, rfl⟩
    exact ⟨_, List.mem_map.mpr ⟨_, hrun, rfl⟩, k, hk, rfl⟩

end

/-! ## The first way -/

theorem mem_ways_of_first {p : Pattern} {cs : List Char} {m : Match} (h : p.first cs = some m) :
    m ∈ p.ways cs := List.mem_of_head? h

theorem exists_first_of_mem {p : Pattern} {cs : List Char} {m : Match} (h : m ∈ p.ways cs) :
    ∃ n, p.first cs = some n := by
  obtain ⟨n, ns, hways⟩ := List.exists_cons_of_ne_nil (List.ne_nil_of_mem h)
  exact ⟨n, by rw [first, hways, List.head?_cons]⟩

/-! ## What the groups have found -/

/-- The groups of the way that counts. -/
def found (p : Pattern) (cs : List Char) : Option (List (String × List Char)) :=
  (p.first cs).map Match.groups

theorem found_sequence_nil (cs : List Char) : (sequence []).found cs = some [] := by
  simp [found, first, sequence, literal, ways, Match.takes]

/-- The first match of a sequence takes the first way of its first part that the rest allows. -/
theorem found_seq (part next : Pattern) (cs : List Char) :
    (part.seq next).found cs =
      (part.ways cs).findSome? fun m => (next.found m.rest).map (m.groups ++ ·) := by
  rw [found, first, ways, List.head?_flatMap, List.map_findSome?]
  congr 1
  funext m
  rw [Function.comp_apply, List.head?_map, found, first, Option.map_map, Option.map_map]
  rfl

theorem exists_of_found_seq {part next : Pattern} {cs : List Char}
    {gs : List (String × List Char)} (h : (part.seq next).found cs = some gs) :
    ∃ m ∈ part.ways cs, ∃ hs, next.found m.rest = some hs ∧ gs = m.groups ++ hs := by
  rw [found_seq] at h
  obtain ⟨m, hm, hfound⟩ := List.exists_of_findSome?_eq_some h
  obtain ⟨hs, hnext, rfl⟩ := Option.map_eq_some_iff.mp hfound
  exact ⟨m, hm, hs, hnext, rfl⟩

theorem found_seq_isSome {part next : Pattern} {cs : List Char} {m : Match}
    (hm : m ∈ part.ways cs) (h : (next.found m.rest).isSome = true) :
    ((part.seq next).found cs).isSome = true := by
  rw [found_seq, List.findSome?_isSome_iff]
  exact ⟨m, hm, by rwa [Option.isSome_map]⟩

/-- The first way of a part is the one that counts if the pattern can go on there, or if it can go
on nowhere else. -/
theorem found_seq_of_head {part next : Pattern} {cs : List Char} {m : Match} {more : List Match}
    (hways : part.ways cs = m :: more)
    (h : (next.found m.rest).isSome = true ∨ ∀ n ∈ more, next.found n.rest = none) :
    (part.seq next).found cs = (next.found m.rest).map (m.groups ++ ·) := by
  rw [found_seq, hways, List.findSome?_cons]
  cases hm : next.found m.rest with
  | some gs => rfl
  | none =>
      have hmore : ∀ n ∈ more, next.found n.rest = none := by
        rcases h with hsome | hnone
        · rw [hm] at hsome
          cases hsome
        · exact hnone
      apply List.findSome?_eq_none_iff.mpr
      intro n hn
      rw [hmore n hn, Option.map_none]

/-- A part with one way only is not tried again. -/
theorem found_seq_of_unique {part next : Pattern} {cs : List Char} {m : Match}
    (hm : m ∈ part.ways cs) (hunique : ∀ n ∈ part.ways cs, n = m) :
    (part.seq next).found cs = (next.found m.rest).map (m.groups ++ ·) := by
  obtain ⟨n, more, hways⟩ := List.exists_cons_of_ne_nil (List.ne_nil_of_mem hm)
  rw [hways] at hunique
  obtain rfl := hunique n List.mem_cons_self
  apply found_seq_of_head hways
  cases hn : next.found n.rest with
  | some gs => exact Or.inl rfl
  | none =>
      refine Or.inr fun k hk => ?_
      rw [hunique k (List.mem_cons_of_mem n hk), hn]

theorem ways_seq_assoc (part next last : Pattern) (cs : List Char) :
    ((part.seq next).seq last).ways cs = (part.seq (next.seq last)).ways cs := by
  have hassoc (m n k : Match) : (m.andThen n).andThen k = m.andThen (n.andThen k) := by
    simp [Match.andThen]
  simp only [ways, List.flatMap_assoc, List.flatMap_map, List.map_flatMap, List.map_map]
  congr 1
  funext m
  congr 1
  funext n
  apply List.map_congr_left
  intro k hk
  exact hassoc m n k

/-- It does not matter how a sequence is bracketed. -/
theorem found_seq_assoc (part next last : Pattern) (cs : List Char) :
    ((part.seq next).seq last).found cs = (part.seq (next.seq last)).found cs := by
  rw [found, first, ways_seq_assoc, found, first]

theorem found_cons_seq (part : Pattern) (parts : List Pattern) (next : Pattern) (cs : List Char) :
    ((sequence (part :: parts)).seq next).found cs =
      (part.seq ((sequence parts).seq next)).found cs :=
  found_seq_assoc part (sequence parts) next cs

theorem found_literal_seq (text : List Char) (next : Pattern) (cs : List Char) :
    ((literal text).seq next).found cs = (after? text cs).bind next.found := by
  rw [found_seq, literal, ways, after?]
  cases hbegins : text.isPrefixOf cs with
  | true => simp [hbegins, Match.takes]
  | false => simp [hbegins]

theorem found_nil_seq (next : Pattern) (cs : List Char) :
    ((sequence []).seq next).found cs = next.found cs := by
  have hafter : after? [] cs = some cs := (after_eq_some_iff [] cs cs).mpr rfl
  rw [sequence, List.foldr_nil, found_literal_seq, hafter, Option.bind_some]

/-- An optional part is tried first, and left out if what follows fails. -/
theorem found_optional_seq (part next : Pattern) (cs : List Char) :
    ((optional part).seq next).found cs = ((part.seq next).found cs).or (next.found cs) := by
  rw [found_seq, ways, List.findSome?_append, ← found_seq, List.findSome?_singleton]
  simp [Match.takes]

section

variable {isGreedy : Bool} {least : Nat} {p : Char → Bool} {next : Pattern}

theorem exists_of_found_run_seq {cs : List Char} {gs : List (String × List Char)}
    (h : ((run isGreedy least p).seq next).found cs = some gs) :
    ∃ taken rest, cs = taken ++ rest ∧ (∀ c ∈ taken, p c = true) ∧ next.found rest = some gs := by
  obtain ⟨m, hm, hs, hnext, rfl⟩ := exists_of_found_seq h
  obtain ⟨taken, rest, hcs, -, hall, rfl⟩ := (mem_ways_run_iff ..).mp hm
  exact ⟨taken, rest, hcs, hall, hnext⟩

theorem exists_of_found_group_run_seq {name : String} {cs : List Char}
    {gs : List (String × List Char)}
    (h : ((group name (run isGreedy least p)).seq next).found cs = some gs) :
    ∃ taken rest hs, cs = taken ++ rest ∧ (∀ c ∈ taken, p c = true) ∧
      next.found rest = some hs ∧ gs = (name, taken) :: hs := by
  obtain ⟨m, hm, hs, hnext, rfl⟩ := exists_of_found_seq h
  obtain ⟨n, hn, rfl⟩ := List.mem_map.mp hm
  obtain ⟨taken, rest, hcs, -, hall, rfl⟩ := (mem_ways_run_iff ..).mp hn
  exact ⟨taken, rest, hs, hcs, hall, hnext, rfl⟩

variable {taken rest : List Char} (hleast : least ≤ taken.length)
  (hall : ∀ c ∈ taken, p c = true) (h : (next.found rest).isSome = true)

include hleast hall h

theorem found_run_seq_isSome (isGreedy : Bool) :
    (((run isGreedy least p).seq next).found (taken ++ rest)).isSome = true := by
  have hway := (mem_ways_run_iff isGreedy least p).mpr ⟨taken, rest, rfl, hleast, hall, rfl⟩
  exact found_seq_isSome hway h

theorem found_group_run_seq_isSome (name : String) (isGreedy : Bool) :
    (((group name (run isGreedy least p)).seq next).found (taken ++ rest)).isSome = true := by
  have hway := (mem_ways_run_iff isGreedy least p).mpr ⟨taken, rest, rfl, hleast, hall, rfl⟩
  exact found_seq_isSome (List.mem_map_of_mem hway) h

end

/-- A pattern finds nothing in a text that begins with one of some characters. -/
def Refuses (q : Pattern) (p : Char → Bool) : Prop :=
  ∀ c cs, p c = true → q.found (c :: cs) = none

/-! ## Runs that need no way back -/

/-- The longest run comes first, and every other one leaves a character that could be taken. -/
theorem ways_greedy {least : Nat} {p : Char → Bool} {cs : List Char}
    (h : least ≤ (cs.takeWhile p).length) :
    ∃ more, (greedy least p).ways cs =
        { text := cs.takeWhile p, rest := cs.dropWhile p } :: more ∧
      ∀ m ∈ more, ∃ c rest, m.rest = c :: rest ∧ p c = true := by
  have hlast : lengths least p cs =
      List.range' least ((cs.takeWhile p).length - least) ++ [(cs.takeWhile p).length] := by
    have hcount : (cs.takeWhile p).length + 1 - least = (cs.takeWhile p).length - least + 1 := by
      omega
    have hend : least + 1 * ((cs.takeWhile p).length - least) = (cs.takeWhile p).length := by
      omega
    rw [lengths, hcount, List.range'_concat, hend]
  refine ⟨(List.range' least ((cs.takeWhile p).length - least)).reverse.map (Match.takes cs),
    ?_, ?_⟩
  · simp only [greedy, ways, if_true]
    rw [hlast, List.reverse_append, List.reverse_singleton, List.singleton_append, List.map_cons]
    congr 1
    have htake := List.takeWhile_prefix p (l := cs)
    rw [Match.takes, ← List.prefix_iff_eq_take.mp htake, List.dropWhile_eq_drop_findIdx_not,
      List.takeWhile_eq_take_findIdx_not, List.length_take,
      Nat.min_eq_left List.findIdx_le_length]
  · intro m hm
    obtain ⟨k, hk, rfl⟩ := List.mem_map.mp hm
    rw [List.mem_reverse, List.mem_range'_1] at hk
    have hk : k < (cs.takeWhile p).length := by omega
    have hget : (cs.takeWhile p)[k] ∈ cs.takeWhile p := List.getElem_mem hk
    have hlength : k < cs.length := Nat.lt_of_lt_of_le hk (List.takeWhile_prefix p).length_le
    refine ⟨_, _, List.drop_eq_getElem_cons hlength, ?_⟩
    rw [← List.IsPrefix.getElem (List.takeWhile_prefix p) hk]
    exact List.all_eq_true.mp List.all_takeWhile _ hget

section

variable {least : Nat} {p : Char → Bool} {next : Pattern} {cs : List Char}

theorem ways_greedy_of_lt (h : (cs.takeWhile p).length < least) :
    (greedy least p).ways cs = [] := by
  have hnone : lengths least p cs = [] := by
    rw [lengths, Nat.sub_eq_zero_of_le (by omega), List.range'_zero]
  simp only [greedy, ways, hnone, List.reverse_nil, ite_self, List.map_nil]

/-- A greedy run is the longest run of its characters if the pattern can go on behind it, or if it
cannot go on at any of them. -/
theorem found_greedy_seq
    (h : (next.found (cs.dropWhile p)).isSome = true ∨ next.Refuses p) :
    ((greedy least p).seq next).found cs =
      if least ≤ (cs.takeWhile p).length then next.found (cs.dropWhile p) else none := by
  split
  · rename_i hleast
    obtain ⟨more, hways, hmore⟩ := ways_greedy hleast
    rw [found_seq_of_head hways]
    · simp
    · refine h.imp_right fun hrefuses m hm => ?_
      obtain ⟨c, rest, hrest, hc⟩ := hmore m hm
      rw [hrest]
      exact hrefuses c rest hc
  · rename_i hleast
    rw [found_seq, ways_greedy_of_lt (Nat.not_le.mp hleast), List.findSome?_nil]

/-- A greedy run is taken whole if what follows can go on behind it, or cannot begin inside it. -/
theorem found_group_greedy_seq (name : String)
    (h : (next.found (cs.dropWhile p)).isSome = true ∨ next.Refuses p) :
    ((group name (greedy least p)).seq next).found cs =
      if least ≤ (cs.takeWhile p).length then
        (next.found (cs.dropWhile p)).map ((name, cs.takeWhile p) :: ·)
      else none := by
  split
  · rename_i hleast
    obtain ⟨more, hways, hmore⟩ := ways_greedy hleast
    have hnamed : (group name (greedy least p)).ways cs =
        Match.named name { text := cs.takeWhile p, rest := cs.dropWhile p } ::
          more.map (Match.named name) := by
      rw [ways, hways, List.map_cons]
    rw [found_seq_of_head hnamed]
    · rfl
    · refine h.imp_right fun hrefuses m hm => ?_
      obtain ⟨n, hn, rfl⟩ := List.mem_map.mp hm
      obtain ⟨c, rest, hrest, hc⟩ := hmore n hn
      rw [Match.named, hrest]
      exact hrefuses c rest hc
  · rename_i hleast
    rw [found_seq, ways, ways_greedy_of_lt (Nat.not_le.mp hleast), List.map_nil, List.findSome?_nil]

end

end Pattern

end Text

end SpatialDiagram
