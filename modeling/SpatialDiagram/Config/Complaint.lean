import SpatialDiagram.Failure
import SpatialDiagram.Sorting
import SpatialDiagram.Value.Order

/-!
# Complaints about a document

A complaint names a rule that the value under a key breaks; where this value is
a mapping, it holds the complaints about its entries. Complaints are put in
order as they come in, each time anew: those about one mapping together, and
among these once more those that lie on one shelf. `settleAll` says whether
that succeeds, `remarks` what is said of each key in the end.
-/

namespace SpatialDiagram

namespace Value

mutual

/-- Whether a message can show a value: none of its integers has more digits than may be written. -/
def isWritable : Value → Bool
  | int n => n.natAbs < Nat.pow 10 Json.digitLimit
  | list items => areWritable items
  | mapping entries => areWritableEntries entries
  | _ => true

/-- Whether a message can show all items of a list. -/
def areWritable : List Value → Bool
  | [] => true
  | v :: vs => isWritable v && areWritable vs

/-- Whether a message can show all keys and values of a mapping. -/
def areWritableEntries : List (Value × Value) → Bool
  | [] => true
  | (k, v) :: es => isWritable k && isWritable v && areWritableEntries es

end

end Value

/-- What a value must keep to. The complaints about one key come in the order of these rules. -/
inductive Rule where
  /-- A rule of the mapping as a whole: its fields are known, and spacings positive. -/
  | whole
  | oneOf
  | notEmpty
  /-- The rule for the keys of a table. -/
  | keys
  | atMost
  | atLeast
  | notNull
  /-- The rules for the fields of a record. -/
  | fields
  | type
  /-- The rule for the values of a table. -/
  | values
deriving DecidableEq, Repr

/-- The rules that are about single values. -/
def Rule.ofValues : List Rule :=
  [.oneOf, .notEmpty, .keys, .atMost, .atLeast, .notNull, .fields, .type, .values]

/-- That a value breaks a rule, or that values inside it do. -/
inductive Complaint where
  /-- A text; it is missing if it would show a number of too many digits. -/
  | plain (rule : Rule) (text? : Option String)
  /-- The complaints about the entries of a value, with their keys. -/
  | nested (rule : Rule) (inner : List (Value × Complaint))
deriving Repr

/-- The rule that is broken. -/
def Complaint.rule : Complaint → Rule
  | plain rule _ => rule
  | nested rule _ => rule

/-- A complaint with the key of the entry that it is about. -/
abbrev Finding := Value × Complaint

/-! ## Order -/

/-- What a finding is put in order by. -/
structure Mark where
  key : Value
  rule : Rule
deriving DecidableEq, Repr

namespace Mark

/-- The key and the rule of a finding. -/
def ofFinding (f : Finding) : Mark := ⟨f.1, f.2.rule⟩

/-- Whether one mark goes before another: by their keys, and by their rules under one key. -/
def goesBefore? (a b : Mark) : Option Bool :=
  if a.key = b.key then some (a.rule.ctorIdx < b.rule.ctorIdx) else a.key.goesBefore? b.key

/-- The complaint that holds the others, which is no mark of its own, goes before them. -/
def isFirst? : Option Mark → Option Mark → Option Bool
  | none, _ => some true
  | some _, none => some false
  | some a, some b => a.goesBefore? b

end Mark

/-- The marks of the complaints about a mapping so far, in order: all of them, and those that are
about the mapping as a whole. -/
structure Ledger where
  all : List Mark := []
  whole : List Mark := []
deriving DecidableEq, Repr

namespace Ledger

/-- The marks about the mapping as a whole, with one more if it is about it. -/
def wholeWith? (l : Ledger) (m : Mark) : Option (List Mark) :=
  if m.rule = .whole then Sorting.sort Mark.goesBefore? (l.whole ++ [m]) else some l.whole

/-- Adds a mark and sorts the marks anew. -/
def add (l : Ledger) (m : Mark) : Option Ledger := do
  let all ← Sorting.sort Mark.goesBefore? (l.all ++ [m])
  let whole ← l.wholeWith? m
  return { all, whole }

/-- The shelves on which marks lie in the complaint that holds them. The first one is its own, with
the marks about the mapping as a whole behind it. For a table there is one for each rule; in a
record a rule belongs to a single field. -/
def shelves (rule : Rule) (marks : List Mark) : List (List (Option Mark)) :=
  let first := none :: (marks.filter fun m => m.rule = .whole).map some
  match rule with
  | .fields => [first]
  | _ => first :: Rule.ofValues.map fun r => (marks.filter fun m => m.rule = r).map some

/-- Whether the marks can be put on their shelves one after another. -/
def isClosable (l : Ledger) (rule : Rule) : Bool :=
  (shelves rule l.all).all fun marks => (Sorting.sortInTurn Mark.isFirst? marks).isSome

end Ledger

/-- A step in an order without answer ends with the failure of a wrong type. -/
def Ledger.orWrongType {α : Type} : Option α → Except Failure α
  | some a => .ok a
  | none => .error .wrongType

mutual

/-- Puts a complaint into words and what it holds in order. -/
def Complaint.settle : Complaint → Except Failure Unit
  | plain _ text? => if text?.isSome then .ok () else .error .unwritable
  | nested rule inner => do
      let l ← settleAll {} inner
      if l.isClosable rule then .ok () else .error .wrongType

/-- Settles findings one after another and adds them to those before. -/
def Complaint.settleAll (l : Ledger) : List Finding → Except Failure Ledger
  | [] => .ok l
  | (k, c) :: rest => do
      c.settle
      Complaint.settleAll (← Ledger.orWrongType (l.add ⟨k, c.rule⟩)) rest

end

/-! ## What is said -/

/-- What is said of a key: texts, and what is said of the keys of its value. -/
inductive Remarks where
  | mk (texts : List String) (inner : List (Value × Remarks))
deriving Repr

namespace Remarks

mutual

/-- What is said of a key after what was said before. -/
def after (before : Option Remarks) : Remarks → Remarks
  | mk texts inner =>
      match before with
      | none => mk texts (addAll [] inner)
      | some (mk texts' inner') => mk (texts' ++ texts) (addAll inner' inner)

/-- Adds remarks to those about the same keys, new keys at the end. -/
def addAll (base : List (Value × Remarks)) : List (Value × Remarks) → List (Value × Remarks)
  | [] => base
  | (k, r) :: rest => addAll (Keyed.put Prod.fst (k, after (base.lookup k) r) base) rest

end

mutual

/-- The texts, and behind them a mapping with what is said inside. -/
def toValue : Remarks → Value
  | mk texts inner =>
      .list (texts.map Value.str ++ if inner.isEmpty then [] else [.mapping (entries inner)])

/-- Keys with what is said of them. -/
def entries : List (Value × Remarks) → List (Value × Value)
  | [] => []
  | (k, r) :: rest => (k, r.toValue) :: entries rest

end

/-- Remarks in the order of their marks, those about one key together. -/
def gather (found : List (Mark × Remarks)) : List (Value × Remarks) :=
  let inOrder := (Sorting.sortInTurn (fun a b => a.1.goesBefore? b.1) found).getD found
  addAll [] (inOrder.map fun f => (f.1.key, f.2))

end Remarks

mutual

/-- What a complaint says. -/
def Complaint.remarks : Complaint → Remarks
  | plain _ text? => .mk text?.toList []
  | nested _ inner => .mk [] (Remarks.gather (Complaint.remarksOf inner))

/-- What each of some findings says. -/
def Complaint.remarksOf : List Finding → List (Mark × Remarks)
  | [] => []
  | (k, c) :: rest => (⟨k, c.rule⟩, c.remarks) :: Complaint.remarksOf rest

end

/-- What findings say, by key. -/
def Complaint.entries (found : List Finding) : List (Value × Value) :=
  Remarks.entries (Remarks.gather (Complaint.remarksOf found))

end SpatialDiagram
