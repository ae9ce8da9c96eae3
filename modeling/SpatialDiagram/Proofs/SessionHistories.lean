import SpatialDiagram.Proofs.Building.GraphNames
import SpatialDiagram.Session

/-!
# Histories of sessions

A history is a list of calls in turn, each of which may fail. A call leaves the
configuration alone unless it is a change that is accepted, and it leaves the
issues alone unless it is such a change or comes as far as a build. So of a
whole history only the accepted changes and the last build matter, and the next
build goes as in a new session of the present configuration.
-/

namespace SpatialDiagram

open Notation

namespace Session

/-- A call of a session. The one who calls for a build chooses the name of the graph. -/
inductive Call where
  | update (change : ConfigChange)
  | generate (id : String) (source : Value) (check : Bool)
  | record (id : String) (source : Value)
  | validate (source : Value)
  | parse (source : Value)

/-- What a call of a session can return. -/
inductive Answer where
  | config (c : Config)
  | graph (g : Graph)
  | record (v : Value)
  | verdict (v : Verdict)
  | diagram (d : Diagram)

/-- Gives the value of a step another form. -/
def Step.map {α β : Type} (f : α → β) (step : Step α) : Step β :=
  { trace := do
      let a ← step.trace
      return f a
    session := step.session }

/-- What a session does at a call. -/
def perform (s : Session) : Call → Step Answer
  | .update change => (s.update change).map .config
  | .generate id source check => (s.generate id source check).map .graph
  | .record id source => (s.record id source).map .record
  | .validate source => Step.map .verdict { trace := Session.validate source, session := s }
  | .parse source => Step.map .diagram { trace := Diagram.parse source, session := s }

/-- The session after some calls in turn, whether they fail or not. -/
def run (s : Session) (calls : List Call) : Session :=
  calls.foldl (fun s call => (s.perform call).session) s

@[simp] theorem run_nil (s : Session) : s.run [] = s := rfl

/-- A history in two parts is run part by part. -/
theorem run_append (s : Session) (calls more : List Call) :
    s.run (calls ++ more) = (s.run calls).run more :=
  List.foldl_append

/-- The change of a call that is an update and succeeds. -/
def change? (s : Session) : Call → Option ConfigChange
  | .update change => if (s.update change).trace.result.isOk then some change else none
  | _ => none

/-- The changes of those updates of a history that succeed, in order. -/
def accepted (s : Session) : List Call → List ConfigChange
  | [] => []
  | call :: calls => (s.change? call).toList ++ ((s.perform call).session).accepted calls

/-- The diagram that a call hands to the builder, and the name for its graph. -/
def Call.built? : Call → Option (String × Diagram)
  | .generate id source check => (diagramOf source check).result.toOption.map (id, ·)
  | .record id source => (diagramOf source false).result.toOption.map (id, ·)
  | _ => none

/-- The last call of a history that comes as far as a build, if no change is accepted after it. -/
def IsLastBuild (s : Session) (calls : List Call) (c : Config) (id : String) (d : Diagram) : Prop :=
  ∃ before call after, calls = before ++ call :: after ∧ call.built? = some (id, d) ∧
    (s.run before).config = c ∧ (∀ later ∈ after, later.built? = none) ∧
    (s.run (before ++ [call])).accepted after = []

/-- Two sessions answer every call for a build alike: the same name gives the same trace, and
different names give the same failure or graphs that differ in their names only. -/
structure BuildsLike (s t : Session) : Prop where
  trace : ∀ id source check, (s.generate id source check).trace = (t.generate id source check).trace
  graph : ∀ id id' source check, (s.generate id source check).trace.result =
    (t.generate id' source check).trace.result.map (Graph.named id)
  record : ∀ id id' source, (s.record id source).trace.result =
    (t.generate id' source false).trace.result.map fun g => (g.named id).toValue

/-! ## One call -/

/-- A build goes by the configuration of the session, which is also that of its builder. -/
theorem trace_generate (s : Session) (id : String) (source : Value) (check : Bool) :
    (s.generate id source check).trace = diagramOf source check >>= Build.run id s.config := by
  cases h : (diagramOf source check).result <;>
    simp [generate, Builder.build, s.builds, bind, Trace.andThen, h]

/-- A build does not change the configuration. -/
theorem config_generate (s : Session) (id : String) (source : Value) (check : Bool) :
    (s.generate id source check).session.config = s.config := by
  rw [generate]
  cases (diagramOf source check).result <;> rfl

/-- A session keeps the issues of its last build, also of one that failed half-way. -/
theorem issues_generate (s : Session) (id : String) (source : Value) (check : Bool) :
    (s.generate id source check).session.issues =
      match (diagramOf source check).result with
      | .ok d => (Build.run id s.config d).issues
      | .error _ => s.issues := by
  cases h : (diagramOf source check).result <;>
    simp [generate, issues, Builder.build, s.builds, h]

theorem result_update (s : Session) (change : ConfigChange) :
    (s.update change).trace.result = (changed s.config change).result := by
  have htrace (t : Trace Config) (text : Config → String) :
      (do let c ← t; Trace.log .debug sessionLogger (text c); return c : Trace Config).result =
        t.result := by
    rw [Trace.result_bind]
    cases t.result <;> rfl
  rw [update]
  cases h : (changed s.config change).result <;> exact (htrace _ _).trans h

/-- A change that is refused leaves the session as it is. -/
theorem session_update_of_error {s : Session} {change : ConfigChange} {f : Failure}
    (h : (s.update change).trace.result = .error f) : (s.update change).session = s := by
  rw [result_update] at h
  rw [update, h]

/-- A change that is accepted leaves nothing of the session but the new configuration. -/
theorem session_update_of_ok {s : Session} {change : ConfigChange} {c : Config}
    (h : (s.update change).trace.result = .ok c) : (s.update change).session = { config := c } := by
  rw [result_update] at h
  rw [update, h]

/-- A call makes its change, if it has an accepted one, and no other. -/
theorem config_perform (s : Session) (call : Call) :
    (s.change? call).toList.foldlM (fun c change => (changed c change).result) s.config =
      .ok (s.perform call).session.config := by
  cases call with
  | update change =>
      cases h : (s.update change).trace.result with
      | error f =>
          simp [change?, h, Except.isOk, Except.toBool, perform, Step.map,
            session_update_of_error h, pure, Except.pure]
      | ok c =>
          have hchanged := result_update s change
          rw [h] at hchanged
          simp [change?, h, Except.isOk, Except.toBool, perform, Step.map,
            session_update_of_ok h, ← hchanged]
  | generate id source check =>
      exact congrArg Except.ok (config_generate s id source check).symm
  | record id source => exact congrArg Except.ok (config_generate s id source false).symm
  | validate source => rfl
  | parse source => rfl

/-- A call that comes as far as a build leaves its issues, an accepted change none, and any other
call those that there were. -/
theorem issues_perform (s : Session) (call : Call) :
    (s.perform call).session.issues =
      match call.built? with
      | some (id, d) => (Build.run id s.config d).issues
      | none => if (s.change? call).isSome then [] else s.issues := by
  have hbuilt (id : String) (source : Value) (check : Bool) :
      (s.generate id source check).session.issues =
        match (diagramOf source check).result.toOption.map (id, ·) with
        | some (id, d) => (Build.run id s.config d).issues
        | none => s.issues := by
    rw [issues_generate]
    cases (diagramOf source check).result <;> rfl
  cases call with
  | update change =>
      cases h : (s.update change).trace.result with
      | error f =>
          simp [change?, h, Except.isOk, Except.toBool, perform, Step.map,
            session_update_of_error h, Call.built?]
      | ok c =>
          simp [change?, h, Except.isOk, Except.toBool, perform, Step.map,
            session_update_of_ok h, Call.built?, issues]
  | generate id source check => exact hbuilt id source check
  | record id source => exact hbuilt id source false
  | validate source => rfl
  | parse source => rfl

/-! ## Histories -/

/-- What a history in two parts accepts is accepted part by part. -/
theorem accepted_append (s : Session) (calls more : List Call) :
    s.accepted (calls ++ more) = s.accepted calls ++ (s.run calls).accepted more := by
  induction calls generalizing s with
  | nil => rfl
  | cons call calls ih =>
      rw [List.cons_append, accepted, accepted, ih, List.append_assoc]
      rfl

/-- The configuration after a history is the first one with all accepted changes made in turn. -/
theorem config_run (s : Session) (calls : List Call) :
    (s.accepted calls).foldlM (fun c change => (changed c change).result) s.config =
      .ok (s.run calls).config := by
  induction calls generalizing s with
  | nil => rfl
  | cons call calls ih =>
      rw [accepted, List.foldlM_append, config_perform]
      exact ih _

/-- The last build of a history is that of its last call, or else the last call is neither a build
nor an accepted change and the last build lies before it. -/
theorem isLastBuild_concat_iff {s : Session} {calls : List Call} {call : Call} {c : Config}
    {id : String} {d : Diagram} :
    s.IsLastBuild (calls ++ [call]) c id d ↔
      (call.built? = some (id, d) ∧ (s.run calls).config = c) ∨
        (call.built? = none ∧ (s.run calls).change? call = none ∧ s.IsLastBuild calls c id d) := by
  constructor
  · rintro ⟨before, last, after, heq, hbuilt, hconfig, hquiet, haccepted⟩
    rcases List.eq_nil_or_concat after with rfl | ⟨rest, later, rfl⟩
    · obtain ⟨rfl, hlast⟩ := List.append_inj' heq rfl
      obtain rfl := List.singleton_inj.mp hlast
      exact .inl ⟨hbuilt, hconfig⟩
    · rw [List.concat_eq_append, ← List.cons_append, ← List.append_assoc] at heq
      obtain ⟨rfl, hlast⟩ := List.append_inj' heq rfl
      obtain rfl := List.singleton_inj.mp hlast
      rw [List.concat_eq_append, accepted_append, List.append_eq_nil_iff, ← run_append,
        List.append_assoc] at haccepted
      obtain ⟨hrest, hlater⟩ := haccepted
      refine .inr ⟨hquiet call (by simp), ?_, before, last, rest, rfl, hbuilt, hconfig,
        fun later hlater => hquiet later (by simp [hlater]), hrest⟩
      simpa [accepted] using hlater
  · rintro (⟨hbuilt, hconfig⟩ | ⟨hbuilt, hchange, hbefore⟩)
    · exact ⟨calls, call, [], rfl, hbuilt, hconfig, by simp, rfl⟩
    · obtain ⟨before, last, rest, rfl, hlast, hconfig, hquiet, hrest⟩ := hbefore
      refine ⟨before, last, rest ++ [call], by simp, hlast, hconfig, ?_, ?_⟩
      · intro later hlater
        rcases List.mem_append.mp hlater with hlater | hlater
        · exact hquiet later hlater
        · exact List.mem_singleton.mp hlater ▸ hbuilt
      · rw [accepted_append, hrest, ← run_append, List.append_assoc]
        simpa [accepted] using hchange

/-- In the end a new session has the issues of the last build, or none. -/
theorem issues_run (c : Config) (calls : List Call) :
    let s : Session := { config := c }
    (∀ c' id d, s.IsLastBuild calls c' id d → (s.run calls).issues = (Build.run id c' d).issues) ∧
      ((¬ ∃ c' id d, s.IsLastBuild calls c' id d) → (s.run calls).issues = []) := by
  intro s
  induction calls using List.reverseRecOn with
  | nil =>
      refine ⟨?_, fun _ => rfl⟩
      rintro c' id d ⟨before, call, after, heq, -⟩
      simp at heq
  | append_singleton calls call ih =>
      obtain ⟨hlast, hnone⟩ := ih
      have hissues := issues_perform (s.run calls) call
      have hrun : s.run (calls ++ [call]) = ((s.run calls).perform call).session := run_append ..
      rw [hrun, hissues]
      simp only [isLastBuild_concat_iff]
      cases hbuilt : call.built? with
      | some built =>
          obtain ⟨id, d⟩ := built
          refine ⟨?_, fun h => absurd ⟨_, id, d, .inl ⟨rfl, rfl⟩⟩ h⟩
          rintro c' id' d' (⟨heq, rfl⟩ | ⟨heq, -⟩)
          · cases heq
            rfl
          · cases heq
      | none =>
          cases hchange : (s.run calls).change? call with
          | some change => simp
          | none =>
              simp only [reduceCtorEq, false_and, true_and, false_or, Option.isSome_none,
                Bool.false_eq_true, if_false]
              exact ⟨hlast, hnone⟩

/-- A session builds as a fresh one with its configuration does. -/
theorem buildsLike_fresh (s : Session) : s.BuildsLike { config := s.config } := by
  have hgraph (id id' : String) (source : Value) (check : Bool) :
      (s.generate id source check).trace.result =
        (Session.generate { config := s.config } id' source check).trace.result.map
          (Graph.named id) := by
    rw [trace_generate, trace_generate]
    exact Trace.result_bind_map_right _ fun d => Build.result_run_named id id' s.config d
  refine ⟨fun id source check => by rw [trace_generate, trace_generate], hgraph, ?_⟩
  intro id id' source
  have htrace : (s.record id source).trace.result =
      (s.generate id source false).trace.result.map Graph.toValue := by
    rw [record, Trace.result_bind]
    cases (s.generate id source false).trace.result <;> rfl
  rw [htrace, hgraph id id']
  cases (Session.generate { config := s.config } id' source false).trace.result <;> rfl

/-- The configuration after a history is the first one with the accepted changes made to it, the
issues are those of the last build, and every build goes as in a new session of that
configuration. An update that fails leaves a session as it was. -/
theorem run_from_fresh (c : Config) (calls : List Call) :
    let s : Session := { config := c }
    (s.accepted calls).foldlM (fun c change => (changed c change).result) c =
        .ok (s.run calls).config ∧
      (∀ change f, ((s.run calls).update change).trace.result = .error f →
        ((s.run calls).update change).session = s.run calls) ∧
      (∀ c' id d, s.IsLastBuild calls c' id d →
        (s.run calls).issues = (Build.run id c' d).issues) ∧
      ((¬ ∃ c' id d, s.IsLastBuild calls c' id d) → (s.run calls).issues = []) ∧
      (s.run calls).BuildsLike { config := (s.run calls).config } := by
  intro s
  obtain ⟨hlast, hnone⟩ := issues_run c calls
  exact ⟨config_run s calls, fun _ _ => session_update_of_error, hlast, hnone,
    buildsLike_fresh (s.run calls)⟩

/-- The build notes a scale that it cannot read and then fails on an opacity. Neither a partial
document that is no mapping nor a source that is no text changes anything after that. -/
theorem run_from_fresh_failures :
    let text := "A[Function: f] \x7bscale: high\x7d\nB[Function: g] \x7bopacity: high\x7d"
    let s : Session := {}
    let grid : Config := { algorithm := .grid }
    let calls : List Call := [.update (.replace grid), .generate "g" (.str text) false,
      .update (.merge (.str "layout")), .generate "h" (.int 5) true]
    s.accepted calls = [.replace grid] ∧ (s.run calls).config = grid ∧
      (s.run calls).issues.map Issue.code = ["INVALID_SCALE"] := by
  intro text s grid calls
  let d : Diagram :=
    { nodes := [{ id := "A", category := .function, name := "f", delimiter := .square
                  properties := ⟨[("scale", .str "high")]⟩, line := 1 },
        { id := "B", category := .function, name := "g", delimiter := .square
          properties := ⟨[("opacity", .str "high")]⟩, line := 2 }] }
  have hlines : SourceLine.ofText text.toList =
      [⟨1, "A[Function: f] \x7bscale: high\x7d".toList⟩,
        ⟨2, "B[Function: g] \x7bopacity: high\x7d".toList⟩] := by decide
  have hd : (Diagram.parse (.str text)).result = .ok d := by
    rw [Diagram.parse_of_no_block hlines (by decide)]
    rfl
  have hbuilt : Call.built? (.generate "g" (.str text) false) = some ("g", d) := by
    rw [Call.built?, diagramOf, Trace.result_bind, hd]
    rfl
  have hlast : s.IsLastBuild calls grid "g" d := by
    refine ⟨[.update (.replace grid)], _, _, rfl, hbuilt, rfl, ?_, rfl⟩
    simp only [List.mem_cons, List.not_mem_nil, or_false, forall_eq_or_imp, forall_eq]
    exact ⟨rfl, rfl⟩
  have haccepted : s.accepted calls = [.replace grid] := rfl
  have hrun := run_from_fresh {} calls
  have hconfig := hrun.1
  rw [haccepted] at hconfig
  refine ⟨haccepted, (Except.ok.inj hconfig).symm, ?_⟩
  rw [hrun.2.2.1 grid "g" d hlast]
  rfl

end Session

end SpatialDiagram
