import SpatialDiagram.Notation.Diagram
import SpatialDiagram.Proofs.Endings
import SpatialDiagram.Proofs.Notation.StatementPositions

/-!
# Diagrams by their lines

What a diagram says can be told from the lines at the statement positions, each
on its own: nodes and connections in the order of their lines, the metadata and
the declared fields by the last line that gives a value.
-/

namespace SpatialDiagram

namespace Notation

/-! ## Line numbers -/

/-- The line numbers rise from line to line. -/
theorem SourceLine.pairwise_number (source : List Char) :
    ((ofText source).map number).Pairwise (· < ·) := by
  have hsub : ((ofText source).map number).Sublist
      (List.range' 1 (Text.lines source).length) := by
    have hall : (((Text.lines source).zipIdx 1).map fun l =>
        (⟨l.2, Text.trim l.1⟩ : SourceLine)).map number =
        List.range' 1 (Text.lines source).length := by
      rw [List.map_map, ← List.zipIdx_map_snd]
      rfl
    rw [← hall]
    exact List.filter_sublist.map number
  exact List.Pairwise.sublist hsub List.pairwise_lt_range'

/-! ## What a line contributes -/

namespace Judgment

def nodeHeader? : Judgment → Option NodeHeader
  | node h => h
  | _ => none

def connectionHeader? : Judgment → Option ConnectionHeader
  | connection h => h
  | _ => none

def pair? : Judgment → Option (String × String)
  | metadata m => some (m.key, m.value)
  | _ => none

/-- The value that a line declares for a field; a bare graph keyword declares none. -/
def value? (field : Field) : Judgment → Option String
  | declaration d => if d.field = field then d.value else none
  | _ => none

/-- The statement leaves something in the diagram. -/
def contributes : Judgment → Bool
  | declaration d => d.value.isSome
  | node h => h.isSome
  | connection h => h.isSome
  | metadata _ => true
  | _ => false

end Judgment

/-- What the line at a position is read as. -/
def judgmentAt (ls : List SourceLine) (i : Nat) : Judgment :=
  ((ls[i]?).map fun l => classify l.text).getD .unrecognized

/-- The number in the source of the line at a position. -/
def numberAt (ls : List SourceLine) (i : Nat) : Nat := ((ls[i]?).map SourceLine.number).getD 0

/-- The properties that raw pairs spell: their values are read one by one, and the last value of a
key counts. -/
def Spells (pairs : List RawPair) (ps : Properties) : Prop :=
  ∃ entries : List (String × Value),
    List.Forall₂ (fun p e => e.1 = String.ofList p.1 ∧ (coerce p.2).result = .ok e.2)
      pairs entries ∧ ps = Table.ofList entries

/-- A node as the line at a position declares it. -/
structure DeclaredBy (ls : List SourceLine) (i : Nat) (h : NodeHeader) (n : NodeDeclaration) :
    Prop where
  judgment : judgmentAt ls i = .node (some h)
  line : n.line = numberAt ls i
  id : n.id = h.id
  category : n.category = NodeCategory.ofLabel h.category
  name : n.name = h.name
  delimiter : n.delimiter = h.delimiter
  inline : ∀ body, h.remainder = '\x7b' :: (body ++ ['\x7d']) →
    (inlineProperties body).result = .ok n.properties
  block : OpensBlock ls i →
    Spells ((blockLines ls i).filterMap fun l => rawPair? l.text) n.properties
  bare : (∀ body, h.remainder ≠ '\x7b' :: (body ++ ['\x7d'])) → ¬ OpensBlock ls i →
    n.properties = .empty

/-- The connection declared at a position, with its line number. -/
def connectionAt? (ls : List SourceLine) (i : Nat) : Option (ConnectionHeader × Nat) :=
  (judgmentAt ls i).connectionHeader?.map fun h => (h, numberAt ls i)

/-- A connection under the number that it has among all connections. -/
def numbered (k : Nat) (c : ConnectionHeader × Nat) : ConnectionDeclaration :=
  { id := "conn_" ++ toString k
    category := ConnectionCategory.ofArrow c.1.arrow
    source := c.1.source
    target := c.1.target
    label := c.1.label
    line := c.2 }

/-- A diagram says what the lines at some positions contribute. -/
structure Diagram.Reads (ls : List SourceLine) (ps : List Nat) (d : Diagram) : Prop where
  title : d.title = (ps.filterMap fun i => (judgmentAt ls i).value? .title).getLast?
  description :
    d.description = (ps.filterMap fun i => (judgmentAt ls i).value? .description).getLast?
  nodes : List.Forall₂ (fun i n => ∃ h, DeclaredBy ls i h n)
    (ps.filter fun i => (judgmentAt ls i).nodeHeader?.isSome) d.nodes
  connections : d.connections = (ps.filterMap (connectionAt? ls)).mapIdx numbered
  metadata : d.metadata = Table.ofList (ps.filterMap fun i => (judgmentAt ls i).pair?)

/-! ## Properties -/

/-- Properties are added pair by pair, each under its key with its value read. -/
theorem exists_of_addProperties {pairs : List RawPair} {ps ps' : Properties}
    (h : (addProperties ps pairs).result = .ok ps') :
    ∃ entries : List (String × Value),
      List.Forall₂ (fun p e => e.1 = String.ofList p.1 ∧ (coerce p.2).result = .ok e.2)
        pairs entries ∧ ps' = ps.putAll entries := by
  induction pairs generalizing ps with
  | nil => exact ⟨[], .nil, (Except.ok.inj h).symm⟩
  | cons p pairs ih =>
      obtain ⟨ps₁, hp, hrest⟩ := Trace.exists_of_result_bind h
      obtain ⟨v, hv, hput⟩ := Trace.exists_of_result_bind hp
      obtain ⟨entries, hall, hps⟩ := ih hrest
      obtain rfl := Except.ok.inj hput
      exact ⟨(String.ofList p.1, v) :: entries, .cons ⟨rfl, hv⟩ hall, hps⟩

theorem result_blockProperties (b : Block) :
    (blockProperties b).result =
      (addProperties .empty (b.lines.filterMap fun l => rawPair? l.text)).result := by
  rw [blockProperties, Trace.result_bind]
  cases (addProperties .empty (b.lines.filterMap fun l => rawPair? l.text)).result with
  | error e => rfl
  | ok ps => cases b.closed <;> rfl

theorem spells_of_blockProperties {b : Block} {ps : Properties}
    (h : (blockProperties b).result = .ok ps) :
    Spells (b.lines.filterMap fun l => rawPair? l.text) ps :=
  exists_of_addProperties ((result_blockProperties b).symm.trans h)

theorem result_categoryOf (label : String) :
    (categoryOf label).result = .ok (NodeCategory.ofLabel label) := by
  rw [categoryOf]
  split <;> rfl

/-! ## One statement -/

namespace IsStatement

variable {ls : List SourceLine} {i : Nat} {s : Statement} (hs : IsStatement ls i s)

include hs

theorem judgmentAt_eq : judgmentAt ls i = s.judgment := by
  rw [judgmentAt, hs.line, hs.judgment]
  rfl

theorem numberAt_eq : numberAt ls i = s.line.number := by
  rw [numberAt, hs.line]
  rfl

theorem declaredBy {h : NodeHeader} (hj : s.judgment = .node (some h)) {properties : Properties}
    (hp : (nodeProperties h s.block).result = .ok properties) :
    DeclaredBy ls i h
      { id := h.id, category := NodeCategory.ofLabel h.category, name := h.name,
        delimiter := h.delimiter, properties, line := s.line.number } where
  judgment := hs.judgmentAt_eq.trans hj
  line := hs.numberAt_eq.symm
  id := rfl
  category := by dsimp only
  name := rfl
  delimiter := rfl
  inline := fun body hbody => by
    have hinline := (inlineBlock_eq_some_iff h.remainder body).mpr hbody
    simpa only [nodeProperties, hinline] using hp
  block := fun hopen => by
    obtain ⟨b, hb, hlines⟩ := hs.block hopen
    have htakes := ((opensBlock_iff hs.line).mp hopen).1
    rw [← hs.judgment, hj] at htakes
    have hinline : inlineBlock? h.remainder = none := Option.isNone_iff_eq_none.mp htakes
    simp only [nodeProperties, hinline, hb] at hp
    exact hlines ▸ spells_of_blockProperties hp
  bare := fun hbody hopen => by
    have hinline := (inlineBlock_eq_none_iff h.remainder).mpr hbody
    simp only [nodeProperties, hinline, hs.no_block hopen] at hp
    exact (Except.ok.inj hp).symm

end IsStatement

namespace Diagram

theorem reads_nil (ls : List SourceLine) : Reads ls [] {} :=
  ⟨rfl, rfl, .nil, rfl, rfl⟩

theorem declare_of_silent (d : Diagram) {s : Statement} (h : s.judgment.contributes = false) :
    (d.declare s).result = .ok d := by
  cases hk : s.judgment with
  | declaration dec =>
      obtain ⟨field, _ | value⟩ := dec
      · simp only [declare, hk]
        rfl
      · simp [hk, Judgment.contributes] at h
  | node header =>
      cases header with
      | none => simp only [declare, hk]; rfl
      | some header => simp [hk, Judgment.contributes] at h
  | connection header =>
      cases header with
      | none => simp only [declare, hk]; rfl
      | some header => simp [hk, Judgment.contributes] at h
  | metadata m => simp [hk, Judgment.contributes] at h
  | comment => simp only [declare, hk]; rfl
  | unrecognized => simp only [declare, hk]; rfl

/-- What taking up one statement makes of a diagram. -/
inductive Declares (d : Diagram) (s : Statement) : Diagram → Prop where
  | silent : s.judgment.contributes = false → Declares d s d
  | field {field : Field} {value : String} :
      s.judgment = .declaration ⟨field, some value⟩ → Declares d s (d.declareField field value)
  | node {header : NodeHeader} {properties : Properties} :
      s.judgment = .node (some header) →
      (nodeProperties header s.block).result = .ok properties →
      Declares d s
        { d with nodes := d.nodes ++
            [{ id := header.id, category := NodeCategory.ofLabel header.category
               name := header.name, delimiter := header.delimiter, properties
               line := s.line.number }] }
  | connection {header : ConnectionHeader} :
      s.judgment = .connection (some header) →
      Declares d s (d.declareConnection header s.line.number)
  | metadata {m : Metadata} :
      s.judgment = .metadata m → Declares d s { d with metadata := d.metadata.put m.key m.value }

/-- A statement that is read declares what its line says. -/
theorem declares_of_ok {d d' : Diagram} {s : Statement} (h : (d.declare s).result = .ok d') :
    Declares d s d' := by
  by_cases hsilent : s.judgment.contributes = false
  · rw [declare_of_silent d hsilent] at h
    obtain rfl := Except.ok.inj h
    exact .silent hsilent
  · cases hk : s.judgment with
    | comment => exact absurd (hk ▸ rfl) hsilent
    | unrecognized => exact absurd (hk ▸ rfl) hsilent
    | declaration dec =>
        obtain ⟨field, _ | value⟩ := dec
        · exact absurd (hk ▸ rfl) hsilent
        · simp only [declare, hk] at h
          obtain rfl := Except.ok.inj h
          exact .field hk
    | node header =>
        obtain _ | header := header
        · exact absurd (hk ▸ rfl) hsilent
        · simp only [declare, hk] at h
          obtain ⟨properties, hp, hrest⟩ := Trace.exists_of_result_bind h
          obtain ⟨category, hc, hnode⟩ := Trace.exists_of_result_bind hrest
          obtain rfl : NodeCategory.ofLabel header.category = category :=
            Except.ok.inj ((result_categoryOf header.category).symm.trans hc)
          obtain rfl := Except.ok.inj hnode
          exact .node hk hp
    | connection header =>
        obtain _ | header := header
        · exact absurd (hk ▸ rfl) hsilent
        · simp only [declare, hk] at h
          obtain rfl := Except.ok.inj h
          exact .connection hk
    | metadata m =>
        simp only [declare, hk] at h
        obtain rfl := Except.ok.inj h
        exact .metadata hk

section

variable {ls : List SourceLine} {ps : List Nat} {d : Diagram} {i : Nat} (h : Reads ls ps d)

include h

/-- What was read stays so behind a line that contributes nothing. -/
theorem reads_of_silent (hsilent : (judgmentAt ls i).contributes = false) :
    Reads ls (ps ++ [i]) d := by
  have hvalue (field : Field) : (judgmentAt ls i).value? field = none := by
    cases hj : judgmentAt ls i <;> simp_all [Judgment.contributes, Judgment.value?]
  have hnode : (judgmentAt ls i).nodeHeader? = none := by
    cases hj : judgmentAt ls i <;> simp_all [Judgment.contributes, Judgment.nodeHeader?]
  have hconnection : (judgmentAt ls i).connectionHeader? = none := by
    cases hj : judgmentAt ls i <;> simp_all [Judgment.contributes, Judgment.connectionHeader?]
  have hpair : (judgmentAt ls i).pair? = none := by
    cases hj : judgmentAt ls i <;> simp_all [Judgment.contributes, Judgment.pair?]
  constructor
  · simpa [hvalue] using h.title
  · simpa [hvalue] using h.description
  · simpa [hnode] using h.nodes
  · simpa [connectionAt?, hconnection] using h.connections
  · simpa [hpair] using h.metadata

theorem reads_declareField {field : Field} {value : String}
    (hj : judgmentAt ls i = .declaration ⟨field, some value⟩) :
    Reads ls (ps ++ [i]) (d.declareField field value) := by
  cases field with
  | title =>
      simp only [declareField]
      constructor
      · simp [hj, Judgment.value?]
      · simpa [hj, Judgment.value?] using h.description
      · simpa [hj, Judgment.nodeHeader?] using h.nodes
      · simpa [hj, connectionAt?, Judgment.connectionHeader?] using h.connections
      · simpa [hj, Judgment.pair?] using h.metadata
  | description =>
      simp only [declareField]
      constructor
      · simpa [hj, Judgment.value?] using h.title
      · simp [hj, Judgment.value?]
      · simpa [hj, Judgment.nodeHeader?] using h.nodes
      · simpa [hj, connectionAt?, Judgment.connectionHeader?] using h.connections
      · simpa [hj, Judgment.pair?] using h.metadata

theorem reads_declareNode {header : NodeHeader} {n : NodeDeclaration}
    (hn : DeclaredBy ls i header n) :
    Reads ls (ps ++ [i]) { d with nodes := d.nodes ++ [n] } := by
  have hj := hn.judgment
  constructor
  · simpa [hj, Judgment.value?] using h.title
  · simpa [hj, Judgment.value?] using h.description
  · have hlast : [i].filter (fun i => (judgmentAt ls i).nodeHeader?.isSome) = [i] := by
      simp [hj, Judgment.nodeHeader?]
    rw [List.filter_append, hlast]
    exact List.rel_append h.nodes (.cons ⟨header, hn⟩ .nil)
  · simpa [hj, connectionAt?, Judgment.connectionHeader?] using h.connections
  · simpa [hj, Judgment.pair?] using h.metadata

/-- The next connection takes the number of connections so far. -/
theorem reads_declareConnection {header : ConnectionHeader}
    (hj : judgmentAt ls i = .connection (some header)) :
    Reads ls (ps ++ [i]) (d.declareConnection header (numberAt ls i)) := by
  simp only [declareConnection]
  constructor
  · simpa [hj, Judgment.value?] using h.title
  · simpa [hj, Judgment.value?] using h.description
  · simpa [hj, Judgment.nodeHeader?] using h.nodes
  · have hlast : connectionAt? ls i = some (header, numberAt ls i) := by
      rw [connectionAt?, hj]
      rfl
    have hlength := congrArg List.length h.connections
    rw [List.length_mapIdx] at hlength
    rw [List.filterMap_append, List.filterMap_cons, hlast, List.filterMap_nil, List.mapIdx_concat,
      ← h.connections, ← hlength]
    rfl
  · simpa [hj, Judgment.pair?] using h.metadata

theorem reads_declareMetadata {m : Metadata} (hj : judgmentAt ls i = .metadata m) :
    Reads ls (ps ++ [i]) { d with metadata := d.metadata.put m.key m.value } := by
  constructor
  · simpa [hj, Judgment.value?] using h.title
  · simpa [hj, Judgment.value?] using h.description
  · simpa [hj, Judgment.nodeHeader?] using h.nodes
  · simpa [hj, connectionAt?, Judgment.connectionHeader?] using h.connections
  · simp [hj, Judgment.pair?, h.metadata, Table.ofList, Table.putAll]

/-- A statement that is taken up contributes what its line says, and nothing else. -/
theorem reads_declare {s : Statement} (hs : IsStatement ls i s) {d' : Diagram}
    (hd : (d.declare s).result = .ok d') : Reads ls (ps ++ [i]) d' := by
  have hj := hs.judgmentAt_eq
  cases declares_of_ok hd with
  | silent hsilent => exact reads_of_silent h (hj ▸ hsilent)
  | field hk => exact reads_declareField h (hj.trans hk)
  | node hk hp => exact reads_declareNode h (hs.declaredBy hk hp)
  | connection hk =>
      rw [← hs.numberAt_eq]
      exact reads_declareConnection h (hj.trans hk)
  | metadata hk => exact reads_declareMetadata h (hj.trans hk)

end

/-! ## All statements -/

/-- Statements read in turn are read as their positions say. -/
theorem reads_foldlM {ls : List SourceLine} {ps : List Nat} {ss : List Statement}
    (hss : List.Forall₂ (IsStatement ls) ps ss) {before : List Nat} {d d' : Diagram}
    (h : Reads ls before d) (hd : (ss.foldlM declare d).result = .ok d') :
    Reads ls (before ++ ps) d' := by
  induction hss generalizing before d with
  | nil =>
      obtain rfl := Except.ok.inj hd
      rwa [List.append_nil]
  | cons hs _ ih =>
      obtain ⟨d₁, hfirst, hrest⟩ := Trace.exists_of_result_bind hd
      rw [List.append_cons]
      exact ih (reads_declare h hs hfirst) hrest

theorem result_parse (text : String) :
    (parse (.str text)).result =
      ((statements (SourceLine.ofText text.toList)).foldlM declare {}).result := by
  simp only [parse, ofText, Trace.result_bind, Trace.result_log]
  cases ((statements (SourceLine.ofText text.toList)).foldlM declare {}).result <;> rfl

theorem parse_of_no_block {text : String} {ls : List SourceLine}
    (hls : SourceLine.ofText text.toList = ls) (h : ∀ l ∈ ls, l.text ≠ blockOpener) :
    (parse (.str text)).result =
      ((ls.map fun l => (⟨l, classify l.text, none⟩ : Statement)).foldlM declare {}).result := by
  rw [result_parse, hls, statements_of_no_block h]

/-! ## Order and uniqueness -/

/-- Lines that stand further down have greater numbers. -/
theorem numberAt_lt_of_lt (source : List Char) {i j : Nat} (hij : i < j)
    (hj : j < (SourceLine.ofText source).length) :
    numberAt (SourceLine.ofText source) i < numberAt (SourceLine.ofText source) j := by
  have hnumbers := SourceLine.pairwise_number source
  rw [List.pairwise_map, List.pairwise_iff_getElem] at hnumbers
  have hlt := hnumbers i j (Nat.lt_trans hij hj) hj hij
  simpa [numberAt, List.getElem?_eq_getElem hj,
    List.getElem?_eq_getElem (Nat.lt_trans hij hj)] using hlt

/-- The nodes carry the line numbers of the node lines, in order. -/
theorem map_line_nodes {ls : List SourceLine} {ps : List Nat} {d : Diagram} (h : Reads ls ps d) :
    d.nodes.map NodeDeclaration.line =
      (ps.filter fun i => (judgmentAt ls i).nodeHeader?.isSome).map (numberAt ls) := by
  rw [eq_comm, ← List.forall₂_eq_eq_eq, List.forall₂_map_left_iff, List.forall₂_map_right_iff]
  exact h.nodes.imp fun i n ⟨_, hn⟩ => hn.line.symm

/-- The connections carry the line numbers of the connection lines, in order. -/
theorem map_line_connections {ls : List SourceLine} {ps : List Nat} {d : Diagram}
    (h : Reads ls ps d) :
    d.connections.map ConnectionDeclaration.line =
      (ps.filterMap (connectionAt? ls)).map Prod.snd := by
  rw [h.connections]
  apply List.ext_getElem
  · simp
  · simp [numbered]

/-- Pairs spell one table of properties only. -/
theorem spells_unique {pairs : List RawPair} {ps ps' : Properties} (h : Spells pairs ps)
    (h' : Spells pairs ps') : ps = ps' := by
  obtain ⟨entries, hall, rfl⟩ := h
  obtain ⟨entries', hall', rfl⟩ := h'
  have hunique : Relator.RightUnique fun (p : RawPair) (e : String × Value) =>
      e.1 = String.ofList p.1 ∧ (coerce p.2).result = .ok e.2 := by
    rintro p ⟨k, v⟩ ⟨k', v'⟩ ⟨hk, hv⟩ ⟨hk', hv'⟩
    rw [hv] at hv'
    exact Prod.ext (hk.trans hk'.symm) (Except.ok.inj hv')
  rw [hunique.forall₂ hall hall']

/-- A position declares one node at most. -/
theorem declaredBy_unique (ls : List SourceLine) :
    Relator.RightUnique fun i n => ∃ h, DeclaredBy ls i h n := by
  rintro i n n' ⟨h, hn⟩ ⟨h', hn'⟩
  obtain rfl : h = h' := by
    have hj := hn.judgment.symm.trans hn'.judgment
    exact Option.some.inj (Judgment.node.inj hj)
  have hproperties : n.properties = n'.properties := by
    by_cases hbody : ∃ body, h.remainder = '\x7b' :: (body ++ ['\x7d'])
    · obtain ⟨body, hbody⟩ := hbody
      exact Except.ok.inj ((hn.inline body hbody).symm.trans (hn'.inline body hbody))
    · by_cases hopen : OpensBlock ls i
      · exact spells_unique (hn.block hopen) (hn'.block hopen)
      · have hnone := not_exists.mp hbody
        exact (hn.bare hnone hopen).trans (hn'.bare hnone hopen).symm
  have hid := hn.id.trans hn'.id.symm
  have hcategory := hn.category.trans hn'.category.symm
  have hname := hn.name.trans hn'.name.symm
  have hdelimiter := hn.delimiter.trans hn'.delimiter.symm
  have hline := hn.line.trans hn'.line.symm
  clear hn hn'
  cases n
  cases n'
  simp_all

/-- The lines at given positions determine the diagram. -/
theorem reads_unique {ls : List SourceLine} {ps : List Nat} {d d' : Diagram} (h : Reads ls ps d)
    (h' : Reads ls ps d') : d = d' := by
  have hnodes : d.nodes = d'.nodes := (declaredBy_unique ls).forall₂ h.nodes h'.nodes
  have htitle := h.title.trans h'.title.symm
  have hdescription := h.description.trans h'.description.symm
  have hconnections := h.connections.trans h'.connections.symm
  have hmetadata := h.metadata.trans h'.metadata.symm
  cases d
  cases d'
  simp_all

/-- A source that can be parsed states exactly what the lines at its statement positions contribute
one by one, and its nodes and connections have ascending line numbers. -/
theorem parse_eq_reading {text : String} {d : Diagram}
    (h : (Diagram.parse (.str text)).result = .ok d) :
    let ls := SourceLine.ofText text.toList
    ∃ ps : List Nat, ps.Pairwise (· < ·) ∧ (∀ i, i ∈ ps ↔ StatementAt ls i) ∧
      (∀ d', Reads ls ps d' ↔ d' = d) ∧
      (∀ key, d.metadata.get? key =
        (ps.filterMap fun i => (judgmentAt ls i).pair?).reverse.lookup key) ∧
      (d.nodes.map NodeDeclaration.line).Pairwise (· < ·) ∧
      (d.connections.map ConnectionDeclaration.line).Pairwise (· < ·) := by
  intro ls
  obtain ⟨ps, hsorted, hmem, hall⟩ := exists_positions ls 0
  have hreads : Reads ls ps d := reads_foldlM hall (reads_nil ls) (result_parse text ▸ h)
  have hnumbers : ps.Pairwise fun i j => numberAt ls i < numberAt ls j :=
    hsorted.imp_of_mem fun _ hj hij => numberAt_lt_of_lt text.toList hij ((hmem _).mp hj).1
  refine ⟨ps, hsorted, hmem, fun d' => ⟨fun h' => reads_unique h' hreads, ?_⟩,
    fun key => ?_, ?_, ?_⟩
  · rintro rfl
    exact hreads
  · rw [hreads.metadata, Table.get_ofList]
  · rw [map_line_nodes hreads, List.pairwise_map]
    exact hnumbers.filter _
  · rw [map_line_connections hreads, List.pairwise_map, List.pairwise_filterMap]
    refine hnumbers.imp fun hlt c hc c' hc' => ?_
    obtain ⟨_, -, rfl⟩ := Option.map_eq_some_iff.mp hc
    obtain ⟨_, -, rfl⟩ := Option.map_eq_some_iff.mp hc'
    exact hlt

/-- A node with a block, a blank line and a connection behind it. -/
theorem parse_eq_reading_block :
    let text := "A[Function: f]\n\x7b\nk: v\n\x7d\n\nA --> A"
    let n : NodeDeclaration :=
      { id := "A", category := .function, name := "f", delimiter := .square
        properties := ⟨[("k", .str "v")]⟩, line := 1 }
    let c : ConnectionDeclaration :=
      { id := "conn_0", category := .dataFlow, source := ⟨"A", none⟩, target := ⟨"A", none⟩
        label := none, line := 6 }
    (parse (.str text)).result = .ok { nodes := [n], connections := [c] } ∧
      ∃ ps, Reads (SourceLine.ofText text.toList) ps { nodes := [n], connections := [c] } := by
  intro text n c
  have hlines : SourceLine.ofText text.toList =
      [⟨1, "A[Function: f]".toList⟩, ⟨2, blockOpener⟩, ⟨3, "k: v".toList⟩, ⟨4, blockCloser⟩,
        ⟨6, "A --> A".toList⟩] := by decide
  have hstatements : statements (SourceLine.ofText text.toList) =
      [⟨⟨1, "A[Function: f]".toList⟩, classify "A[Function: f]".toList,
          some ⟨[⟨3, "k: v".toList⟩], true⟩⟩,
        ⟨⟨6, "A --> A".toList⟩, classify "A --> A".toList, none⟩] := by
    rw [hlines, statements_cons, if_pos ⟨by decide, _, rfl, rfl⟩]
    have hsplit : Block.split [⟨3, "k: v".toList⟩, ⟨4, blockCloser⟩, ⟨6, "A --> A".toList⟩] =
        (⟨[⟨3, "k: v".toList⟩], true⟩, [⟨6, "A --> A".toList⟩]) := by decide
    rw [List.tail_cons, hsplit, statements_cons, if_neg (by simp), statements]
  have hparse : (parse (.str text)).result = .ok { nodes := [n], connections := [c] } := by
    rw [result_parse, hstatements]
    rfl
  obtain ⟨ps, -, -, hreads, -⟩ := parse_eq_reading hparse
  exact ⟨hparse, ps, (hreads _).mpr rfl⟩

end Diagram

end Notation

end SpatialDiagram
