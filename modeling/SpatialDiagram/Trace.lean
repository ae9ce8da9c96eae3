import SpatialDiagram.Failure
import SpatialDiagram.Log.Record

/-!
# Computations that leave a trace

A computation ends in a value or a failure and leaves a trace: the records it
logged and the issues it noticed, in order and up to the point where it ended.
`result_bind` says that results combine as if there were no trace.
-/

namespace SpatialDiagram

/-- What a computation leaves behind, one thing at a time. -/
inductive Event where
  | logged (r : LogRecord)
  | noticed (i : Issue)
deriving DecidableEq, Repr

/-- The outcome of a computation and what it left behind. -/
structure Trace (α : Type) where
  result : Except Failure α
  events : List Event

namespace Trace

variable {α β γ : Type}

/-- Ends in a value at once. -/
def done (a : α) : Trace α := ⟨.ok a, []⟩

/-- Ends in a failure at once. -/
def fail (f : Failure) : Trace α := ⟨.error f, []⟩

/-- Ends in a value or a failure without leaving anything behind. -/
def ofResult (r : Except Failure α) : Trace α := ⟨r, []⟩

/-- Goes on with the value; a failure ends the computation where it is. -/
def andThen (t : Trace α) (f : α → Trace β) : Trace β :=
  match t.result with
  | .error e => ⟨.error e, t.events⟩
  | .ok a =>
      let u := f a
      ⟨u.result, t.events ++ u.events⟩

instance : Monad Trace where
  pure := done
  bind := andThen

/-- Leaves a record behind. -/
def log (level : LogLevel) (logger message : String) : Trace Unit :=
  ⟨.ok (), [.logged ⟨level, logger, message⟩]⟩

/-- Leaves an issue behind. -/
def notice (i : Issue) : Trace Unit := ⟨.ok (), [.noticed i]⟩

/-- Leaves some events behind. -/
def emit (events : List Event) : Trace Unit := ⟨.ok (), events⟩

/-- Gives a failure another form and leaves the trace alone. -/
def mapFailure (f : Failure → Failure) (t : Trace α) : Trace α :=
  ⟨t.result.mapError f, t.events⟩

/-- The issues among the events. -/
def issues (t : Trace α) : List Issue :=
  t.events.filterMap fun
    | .noticed i => some i
    | .logged _ => none

/-- The records among the events. -/
def records (t : Trace α) : List LogRecord :=
  t.events.filterMap fun
    | .logged r => some r
    | .noticed _ => none

/-- Gives the issues as the value of a computation instead of leaving them in its trace. -/
def collect (t : Trace α) : Trace (List Issue) :=
  { result := t.result.map fun _ => t.issues
    events := t.records.map Event.logged }

@[simp] theorem result_pure (a : α) : (pure a : Trace α).result = .ok a := rfl

@[simp] theorem events_pure (a : α) : (pure a : Trace α).events = [] := rfl

/-- The result of a sequence is the result of its second part, run on that of the first. -/
@[simp] theorem result_bind (t : Trace α) (f : α → Trace β) :
    (t >>= f).result = (t.result >>= fun a => (f a).result) := by
  cases h : t.result <;> simp [bind, andThen, Except.bind, h]

/-- A sequence emits what its first part emits, and the second part only if it is reached. -/
theorem events_bind (t : Trace α) (f : α → Trace β) :
    (t >>= f).events = t.events ++ (match t.result with
      | .error _ => []
      | .ok a => (f a).events) := by
  cases h : t.result <;> simp [bind, andThen, h]

@[simp] theorem result_fail (f : Failure) : (fail f : Trace α).result = .error f := rfl

@[simp] theorem result_ofResult (r : Except Failure α) : (ofResult r).result = r := rfl

@[simp] theorem result_log (level : LogLevel) (logger message : String) :
    (log level logger message).result = .ok () := rfl

@[simp] theorem result_notice (i : Issue) : (notice i).result = .ok () := rfl

@[simp] theorem result_emit (events : List Event) : (emit events).result = .ok () := rfl

@[simp] theorem result_mapFailure (f : Failure → Failure) (t : Trace α) :
    (t.mapFailure f).result = t.result.mapError f := rfl

@[simp] theorem issues_mapFailure (f : Failure → Failure) (t : Trace α) :
    (t.mapFailure f).issues = t.issues := rfl

end Trace

/-- The logger that is told of messages without all their details. -/
def issueLogger : String := "ast3d_core.validation.issue_codes"

/-- The message of a code; a detail that is missing is logged as an error. -/
def IssueCode.announce (c : IssueCode) (details : Details) : Trace String := do
  if let .error n := IssueCode.fill details c.pieces then
    Trace.log .error issueLogger
      ("Missing key " ++ Text.quoted n ++ " for formatting message template of " ++ c.name ++
        " (code: " ++ c.name ++ "): '" ++ c.template ++ "'. Provided args: " ++
        IssueCode.writtenDetails details)
  return c.message details

end SpatialDiagram
