import SpatialDiagram.Build
import SpatialDiagram.Config.Merge
import SpatialDiagram.Scene.Encoding

/-!
# Sessions

A session keeps a configuration and a builder for it. The builder has a
configuration of its own and keeps the issues of its last build. A change of the
configuration replaces the builder, which forgets the issues; a change that
fails changes nothing. A call that fails before the build leaves the builder
alone.
-/

namespace SpatialDiagram

/-- A configuration to build with, and the issues of the last build. -/
structure Builder where
  config : Config
  issues : List Issue := []
deriving DecidableEq, Repr

/-- Builds a diagram. The issues of the build are kept, also if it fails. -/
def Builder.build (b : Builder) (id : String) (d : Notation.Diagram) : Trace Graph × Builder :=
  let built := Build.run id b.config d
  (built, { b with issues := built.issues })

/-- A configuration with the builder that uses it. -/
structure Session where
  config : Config := {}
  builder : Builder := { config }
  /-- The builder goes by the configuration of the session. -/
  builds : builder.config = config := by rfl
deriving DecidableEq, Repr

/-- A change of the configuration: a new one, or a partial document to merge in. -/
inductive ConfigChange where
  | replace (c : Config)
  | merge (overrides : Value)

namespace Session

open Notation

/-- The issues of the last build. -/
def issues (s : Session) : List Issue := s.builder.issues

/-- The logger that a session writes to. -/
def sessionLogger : String := "ast3d_core.generator"

/-- What a call leaves: its trace and the session after it. -/
structure Step (α : Type) where
  trace : Trace α
  session : Session

/-- The configuration after a change. -/
def changed (c : Config) : ConfigChange → Trace Config
  | .replace new => .done new
  | .merge overrides => c.merge overrides

/-- Changes the configuration; a change that fails leaves the session as it was. -/
def update (s : Session) (change : ConfigChange) : Step Config :=
  let new := changed s.config change
  let trace := do
    let c ← new
    Trace.log .debug sessionLogger
      ("Generator configuration updated: layout=" ++ c.algorithm.name)
    return c
  match new.result with
  | .ok c => { trace, session := { config := c } }
  | .error _ => { trace, session := s }

/-- Refuses a diagram with errors. -/
def enforce (d : Diagram) : Trace Diagram := do
  let issues ← Validation.issues d
  if issues.any Issue.isError then
    Trace.fail (.refused (Diagnosis.invalid issues).report.render)
  else return d

/-- The diagram of a source, checked if that is asked for. -/
def diagramOf (source : Value) (check : Bool) : Trace Diagram := do
  let d ← Diagram.parse source
  if check then enforce d else return d

/-- Parses and builds a source. -/
def generate (s : Session) (id : String) (source : Value) (check : Bool) : Step Graph :=
  let parsed := diagramOf source check
  match parsed.result with
  | .error f => { trace := ⟨.error f, parsed.events⟩, session := s }
  | .ok d =>
      let built := s.builder.build id d
      { trace := ⟨built.1.result, parsed.events ++ built.1.events⟩
        session := { s with builder := built.2, builds := s.builds } }

/-- Builds a source and gives the record form of its graph. -/
def record (s : Session) (id : String) (source : Value) : Step Value :=
  let built := s.generate id source false
  { trace := do
      let g ← built.trace
      return g.toValue
    session := built.session }

/-- The text of a failure as the message of a verdict. -/
def failureText (f : Failure) : String :=
  let text := f.message?.getD ""
  if text = "" then "Unknown parsing error" else text

/-- Checks a source. A source that cannot be parsed has that as its only error. -/
def validate (source : Value) : Trace Verdict :=
  let parsed := Diagram.parse source
  match parsed.result with
  | .error f => do
      Trace.emit parsed.events
      Trace.log .debug sessionLogger
        ("Parsing failed during validation: " ++ f.message?.getD "")
      return { errors := [failureText f], warnings := [] }
  | .ok d => do
      Trace.emit parsed.events
      let issues ← Validation.issues d
      return .ofIssues issues

/-- A diagram that shows the notation. -/
def sample : String :=
  "graph3d \"Sample Application Architecture\"\n\n" ++
  "%% Node definitions\n" ++
  "A[Function: processData]\n" ++
  "B\x7bComponent: UserInterface\x7d\n" ++
  "C((Module: Database))\n" ++
  "D<Datapath: eventStream>\n" ++
  "E[[Class: UserModel]]\n\n" ++
  "%% Connections\n" ++
  "A --> B : \"processed data\"\n" ++
  "B -.-> D : \"user events\"\n" ++
  "C --> A : \"raw data\"\n" ++
  "D --> C : \"queries\"\n" ++
  "E --- C : \"model mapping\"\n\n" ++
  "%% Face-specific connections\n" ++
  "A@front --> B@face_0 : \"direct connection\"\n" ++
  "E@top == C@face_3 : \"inheritance\""

end Session

end SpatialDiagram
