import ForgeData.Interleaving.Protocol
import ForgeData.Runs.Executor

/-!
# The life of a run

The protocol that `localRun` keeps to. A phase says how far the run has got: not yet started, between
two stages, inside a stage, closing the rows of the stages that will not be performed any more, or
ended and about to be marked. Everything that is shown about interleaved executions of the executor is
shown about these phases.

A second protocol, on the level of stage work, says that the pipeline asks for the work of the planned
stages in their order.
-/

namespace ForgeData

open Python Interleaving

/-! ## The order of the work -/

/-- The next piece of work belongs to the next of the remaining stages. -/
def WorkNext : Protocol Work (fun _ ↦ String) (List StageName) :=
  fun remaining w _ remaining' ↦ remaining = w.stage :: remaining'

/-- A pipeline returns when no stage remains, and raises only under the condition. -/
def BodyEnd (raises : Prop) {α : Type} : Except PyException α → List StageName → Prop
  | .ok _, remaining => remaining = []
  | .error _, _ => raises

/-- The pipeline asks for the work of exactly these stages, in this order. -/
abbrev Conforms (raises : Prop) (body : PipelineBody (Except PyException String))
    (remaining : List StageName) : Prop :=
  body.Follows WorkNext (BodyEnd raises) remaining

theorem conforms_sharedBody {raises : Prop} (request : PipelineRunRequest)
    (normalizationIds : Dict String String) :
    Conforms raises (sharedBody request normalizationIds)
      [.synchronization, .cleaning, .transformation, .qc, .package] := by
  intro sync
  refine ⟨_, rfl, fun cleaning ↦ ⟨_, rfl, fun xform ↦ ⟨_, rfl, fun qc ↦ ⟨_, rfl, fun package ↦ ?_⟩⟩⟩⟩
  exact ⟨_, rfl, rfl⟩

/-- What is left to do after the streams: the shared stages. -/
private def StreamsEnd (raises : Prop) : Except PyException (Dict String String) →
    List StageName → Prop
  | .ok _, remaining => remaining = planStages []
  | .error _, _ => raises

theorem follows_streamsBody (registered : List String) (request : PipelineRunRequest)
    (sessionId : String) (files : List StreamFile) (normalizationIds : Dict String String) :
    (streamsBody registered request sessionId files normalizationIds).Follows WorkNext
      (StreamsEnd (∃ f ∈ files, f.sensorType ∉ registered))
      (planStages (files.map StreamFile.sensorType)) := by
  induction files generalizing normalizationIds with
  | nil => exact rfl
  | cons f files ih =>
    rw [streamsBody, streamBody]
    split
    · next hf => exact ⟨f, List.mem_cons_self .., hf⟩
    · intro ingestion
      refine ⟨_, rfl, fun validation ↦ ⟨_, rfl, fun integrity ↦ ⟨_, rfl, fun norm ↦ ⟨_, rfl, ?_⟩⟩⟩⟩
      refine (ih _).mono fun r remaining hr ↦ ?_
      rcases r with e | ids
      · obtain ⟨f', hf', hreg⟩ := hr
        exact ⟨f', List.mem_cons_of_mem f hf', hreg⟩
      · exact hr

/-- **The pipeline performs the planned stages in order**, and raises only for a sensor type that is
not registered. -/
theorem conforms_pipelineBody (registered : List String) (request : PipelineRunRequest)
    (sessionId : String) (files : List StreamFile) :
    Conforms (∃ f ∈ files, f.sensorType ∉ registered)
      (pipelineBody registered request sessionId files)
      (planStages (files.map StreamFile.sensorType)) := by
  refine (follows_streamsBody registered request sessionId files Dict.empty).andThen ?_ ?_
  · rintro ids remaining rfl
    exact conforms_sharedBody request ids
  · exact fun e remaining hr ↦ hr

theorem conforms_of_accepted {registered : List String} {request : PipelineRunRequest}
    {files : List StreamFile} (haccepted : Accepted registered request files) (sessionId : String) :
    Conforms False (pipelineBody registered request sessionId files)
      (planStages (files.map StreamFile.sensorType)) := by
  refine (conforms_pipelineBody registered request sessionId files).mono fun a remaining ha ↦ ?_
  rcases a with exc | packageId
  · obtain ⟨f, hf, hunknown⟩ := ha
    exact absurd (mem_registered_of_accepted haccepted f hf) hunknown
  · exact ha

/-! ## Phases -/

/-- What a stage works with: its planned place, its row and its work, and what comes after it. -/
structure StageFrame where
  ids : Dict StageName String
  stage : StageName
  w : Work
  k : String → PipelineBody (Except PyException String)
  remaining : List StageName

/-- How far a stage has got. -/
inductive StageStep where
  /-- The heartbeat is written; the boundary check comes next. -/
  | beat
  /-- The boundary check has passed; the run row is written next. -/
  | passed
  | current
  | started
  | working
  | returned (out : StageOutput)
  | counting (recordsTotal : ℕ) (out : StageOutput)
  | recording (out : StageOutput)
  | cancelling
  | failing (failure : StageFailure)

/-- How far a run has got. -/
inductive Phase where
  | queued
  /-- The run was found cancelled before it was started. -/
  | cancelledEarly
  | found
  | starting
  | boundary (c : StageFrame)
  | inStage (c : StageFrame) (stageRunId : String) (step : StageStep)
  /-- The row `stageRunId` and those of the stages in `remaining` are still to be closed. -/
  | closing (ids : Dict StageName String) (exit : StageExit) (stageRunId : String)
      (remaining : List StageName)
  | ended (result : Except StageExit String)
  | done

/-- The phase in which the pipeline goes on with what is left of it. -/
def arrive (ids : Dict StageName String) :
    PipelineBody (Except PyException String) → List StageName → Phase
  | .pure (.ok packageId), _ => .ended (.ok packageId)
  | .pure (.error exc), _ => .ended (.error (.raised exc))
  | .call _ _, [] => .ended (.error (.raised popError))
  | .call w k, stage :: remaining => .boundary ⟨ids, stage, w, k, remaining⟩

/-- The phase in which the remaining rows are closed. -/
def closeFrom (ids : Dict StageName String) (exit : StageExit) : List StageName → Phase
  | [] => .ended (.error exit)
  | stage :: remaining =>
    match ids.get? stage with
    | none => .ended (.error (.raised (keyError stage)))
    | some stageRunId => .closing ids exit stageRunId remaining

theorem arrive_ne_done (ids : Dict StageName String)
    (p : PipelineBody (Except PyException String)) (remaining : List StageName) :
    arrive ids p remaining ≠ .done := by
  rcases p with (exc | packageId) | _
  · exact nofun
  · exact nofun
  · cases remaining <;> exact nofun

theorem closeFrom_ne_done (ids : Dict StageName String) (exit : StageExit)
    (remaining : List StageName) : closeFrom ids exit remaining ≠ .done := by
  cases remaining with
  | nil => exact nofun
  | cons stage remaining =>
    rw [closeFrom]
    split <;> exact nofun

/-- The steps of a stage after the boundary check. -/
inductive StageNext (runId : String) (c : StageFrame) (stageRunId : String) :
    StageStep → (o : RunOp) → o.Ans → StageStep → Prop
  | observed : StageNext runId c stageRunId .beat (.check runId) true .cancelling
  | passed : StageNext runId c stageRunId .beat (.check runId) false .passed
  | current : StageNext runId c stageRunId .passed (.updateCurrentStage runId c.stage) () .current
  | start : StageNext runId c stageRunId .current (.startStage stageRunId) () .started
  | begin : StageNext runId c stageRunId .started (.beginWork c.w) () .working
  | returned (out : StageOutput) :
    StageNext runId c stageRunId .working (.endWork c.w) (.returned out) (.returned out)
  | interrupted :
    StageNext runId c stageRunId .working (.endWork c.w) .cancellationRequested .cancelling
  | blocked (code message : String) :
    StageNext runId c stageRunId .working (.endWork c.w) (.governance code message)
      (.failing ⟨c.stage.text, code, message⟩)
  | raised (exc : PyException) :
    StageNext runId c stageRunId .working (.endWork c.w) (.raised exc)
      (.failing (normalizeStageError c.stage.text exc))
  | complete {out : StageOutput} (h : out.recordsTotal = none) :
    StageNext runId c stageRunId (.returned out) (.completeStage stageRunId out) () (.recording out)
  | completeCounting {out : StageOutput} {recordsTotal : ℕ} (h : out.recordsTotal = some recordsTotal) :
    StageNext runId c stageRunId (.returned out) (.completeStage stageRunId out) ()
      (.counting recordsTotal out)
  | count {out : StageOutput} {recordsTotal : ℕ} :
    StageNext runId c stageRunId (.counting recordsTotal out)
      (.updateRecordsTotal stageRunId recordsTotal) () (.recording out)

/-- The protocol of a run, for a pipeline with its planned stages. -/
inductive Next (runId : String) (body : PipelineBody (Except PyException String))
    (plannedStages : List StageName) : Phase → (o : RunOp) → o.Ans → Phase → Prop
  | notFound : Next runId body plannedStages .queued (.getRun runId) none .done
  | foundCancelled {row : RunRow} (h : row.status = .cancelRequested) :
    Next runId body plannedStages .queued (.getRun runId) (some row) .cancelledEarly
  | found {row : RunRow} (h : row.status ≠ .cancelRequested) :
    Next runId body plannedStages .queued (.getRun runId) (some row) .found
  | cancelEarly (a : Except RunError Unit) :
    Next runId body plannedStages .cancelledEarly (.markCancelled runId) a .done
  | refused (executorId : String) (e : RunError) :
    Next runId body plannedStages .found (.markRunning runId executorId) (.error e) .done
  | accepted (executorId : String) :
    Next runId body plannedStages .found (.markRunning runId executorId) (.ok ()) .starting
  | notCreated (e : RunError) :
    Next runId body plannedStages .starting (.createAllStageRuns runId plannedStages) (.error e)
      (.ended (.error (.raised insertError)))
  | created (ids : Dict StageName String) :
    Next runId body plannedStages .starting (.createAllStageRuns runId plannedStages) (.ok ids)
      (arrive ids body plannedStages)
  | lost {c : StageFrame} (h : c.ids.get? c.stage = none) :
    Next runId body plannedStages (.boundary c) (.touchHeartbeat runId) ()
      (.ended (.error (.raised (keyError c.stage))))
  | beat {c : StageFrame} {stageRunId : String} (h : c.ids.get? c.stage = some stageRunId) :
    Next runId body plannedStages (.boundary c) (.touchHeartbeat runId) ()
      (.inStage c stageRunId .beat)
  | stage {c : StageFrame} {stageRunId : String} {step step' : StageStep} {o : RunOp} {a : o.Ans}
      (h : StageNext runId c stageRunId step o a step') :
    Next runId body plannedStages (.inStage c stageRunId step) o a (.inStage c stageRunId step')
  | record {c : StageFrame} {stageRunId : String} (out : StageOutput) :
    Next runId body plannedStages (.inStage c stageRunId (.recording out))
      (.recordArtifact runId c.stage c.w.artifactType out.artifactId) ()
      (arrive c.ids (c.k out.artifactId) c.remaining)
  | cancelStage {c : StageFrame} {stageRunId : String} :
    Next runId body plannedStages (.inStage c stageRunId .cancelling) (.cancelStage stageRunId) ()
      (closeFrom c.ids .cancellationRequested c.remaining)
  | failStage {c : StageFrame} {stageRunId : String} (failure : StageFailure) :
    Next runId body plannedStages (.inStage c stageRunId (.failing failure))
      (.failStage stageRunId failure.code failure.message) ()
      (closeFrom c.ids (.failed failure) c.remaining)
  | skip (ids : Dict StageName String) (failure : StageFailure) (stageRunId : String)
      (remaining : List StageName) :
    Next runId body plannedStages (.closing ids (.failed failure) stageRunId remaining)
      (.skipStage stageRunId) () (closeFrom ids (.failed failure) remaining)
  | cancel (ids : Dict StageName String) (stageRunId : String) (remaining : List StageName) :
    Next runId body plannedStages (.closing ids .cancellationRequested stageRunId remaining)
      (.cancelStage stageRunId) () (closeFrom ids .cancellationRequested remaining)
  | markCompleted (packageId : String) (a : Except RunError Unit) :
    Next runId body plannedStages (.ended (.ok packageId)) (.markCompleted runId) a .done
  | markCancelled (a : Except RunError Unit) :
    Next runId body plannedStages (.ended (.error .cancellationRequested)) (.markCancelled runId) a
      .done
  | markFailed (exit : StageExit) (errorCode errorMessage : String) (a : Except RunError Unit) :
    Next runId body plannedStages (.ended (.error exit))
      (.markFailed runId errorCode errorMessage) a .done

theorem Next.ne_done {runId : String} {body : PipelineBody (Except PyException String)}
    {plannedStages : List StageName} {q q' : Phase} {o : RunOp} {a : o.Ans}
    (h : Next runId body plannedStages q o a q') : q ≠ .done := by
  cases h <;> exact nofun

/-! ## Phases of a conforming pipeline -/

/-- What is left of the pipeline asks for the remaining stages. -/
def Phase.Conforming (raises : Prop) : Phase → Prop
  | .boundary c | .inStage c _ _ => c.w.stage = c.stage ∧ ∀ a, Conforms raises (c.k a) c.remaining
  | _ => True

theorem conforming_arrive {raises : Prop} {ids : Dict StageName String}
    {p : PipelineBody (Except PyException String)} {remaining : List StageName}
    (h : Conforms raises p remaining) : (arrive ids p remaining).Conforming raises := by
  rcases p with (exc | packageId) | ⟨w, k⟩
  · trivial
  · trivial
  · cases remaining with
    | nil => trivial
    | cons stage remaining =>
      refine ⟨?_, fun a ↦ ?_⟩
      · obtain ⟨_, hnext, -⟩ := h ""
        exact (List.cons.inj hnext).1.symm
      · obtain ⟨_, hnext, hk⟩ := h a
        rwa [(List.cons.inj hnext).2]

theorem conforming_closeFrom {raises : Prop} {ids : Dict StageName String} {exit : StageExit}
    {remaining : List StageName} : (closeFrom ids exit remaining).Conforming raises := by
  cases remaining with
  | nil => trivial
  | cons stage remaining =>
    rw [closeFrom]
    split <;> trivial

theorem Next.conforming {raises : Prop} {runId : String}
    {body : PipelineBody (Except PyException String)} {plannedStages : List StageName}
    {q q' : Phase} {o : RunOp} {a : o.Ans} (h : Next runId body plannedStages q o a q')
    (hbody : Conforms raises body plannedStages) (hq : q.Conforming raises) :
    q'.Conforming raises := by
  cases h with
  | created ids => exact conforming_arrive hbody
  | record out => exact conforming_arrive (hq.2 out.artifactId)
  | cancelStage | failStage | skip | cancel => exact conforming_closeFrom
  | beat => exact hq
  | stage => exact hq
  | notFound | foundCancelled | found | cancelEarly | refused | accepted | notCreated | lost
  | markCompleted | markCancelled | markFailed => trivial

theorem run_invariant {Env Q α : Type} {maxRuns : ℕ} {env : Env → RunDb → RunDb → Prop}
    {next : Protocol RunOp RunOp.Ans Q} {fin : α → Q → Prop}
    {J : Q → RunHistory Env → RunDb → Prop}
    (hown : ∀ {q h db i o a q' db'}, J q h db → next q o a q' → o.run maxRuns i db = (a, db') →
      J q' (h ++ [⟨.own o a, db, db'⟩]) db')
    (henv : ∀ {q h db e db'}, J q h db → env e db db' → J q (h ++ [⟨.env e, db, db'⟩]) db')
    {p p' : RunProg α} {q : Q} {h t : RunHistory Env} {db db' : RunDb}
    (hp : p.Follows next fin q) (hJ : J q h db)
    (hexec : Exec (runSystem maxRuns env) p db t p' db') :
    ∃ q', J q' (h ++ t) db' ∧ p'.Follows next fin q' := by
  refine hp.invariant (fun hJ hnext hsem ↦ ?_) henv hJ hexec
  obtain ⟨i, hrun⟩ := hsem
  exact hown hJ hnext hrun

/-! ## The programs follow the protocol -/

/-- The phase after an exception inside a stage: the remaining rows are closed, unless it is neither
a stage failure nor the cancellation. -/
def exitPhase (ids : Dict StageName String) : StageExit → List StageName → Phase
  | .raised exc, _ => .ended (.error (.raised exc))
  | exit, remaining => closeFrom ids exit remaining

section

variable {runId : String} {body : PipelineBody (Except PyException String)}
  {plannedStages : List StageName}

theorem follows_runStage (c : StageFrame) :
    (runStage runId c.ids c.stage c.w).Follows (Next runId body plannedStages)
      (fun r q ↦ match r with
        | .ok artifactId => q = arrive c.ids (c.k artifactId) c.remaining
        | .error exit => q = exitPhase c.ids exit c.remaining)
      (.boundary c) := by
  rintro ⟨⟩
  rcases hid : c.ids.get? c.stage with _ | stageRunId
  · exact ⟨_, .lost hid, rfl⟩
  refine ⟨_, .beat hid, fun cancelled ↦ ?_⟩
  cases cancelled with
  | true =>
    exact ⟨_, .stage .observed, fun _ ↦ ⟨_, .cancelStage, rfl⟩⟩
  | false =>
    refine ⟨_, .stage .passed, fun _ ↦ ⟨_, .stage .current, fun _ ↦ ⟨_, .stage .start, fun _ ↦
      ⟨_, .stage .begin, fun outcome ↦ ?_⟩⟩⟩⟩
    cases outcome with
    | returned out =>
      refine ⟨_, .stage (.returned out), fun _ ↦ ?_⟩
      rcases htotal : out.recordsTotal with _ | recordsTotal
      · exact ⟨_, .stage (.complete htotal), fun _ ↦ ⟨_, .record out, rfl⟩⟩
      · exact ⟨_, .stage (.completeCounting htotal), fun _ ↦ ⟨_, .stage .count, fun _ ↦
          ⟨_, .record out, rfl⟩⟩⟩
    | cancellationRequested =>
      exact ⟨_, .stage .interrupted, fun _ ↦ ⟨_, .cancelStage, rfl⟩⟩
    | governance code message =>
      exact ⟨_, .stage (.blocked code message), fun _ ↦ ⟨_, .failStage _, rfl⟩⟩
    | raised exc =>
      exact ⟨_, .stage (.raised exc), fun _ ↦ ⟨_, .failStage _, rfl⟩⟩

theorem follows_runBody (ids : Dict StageName String)
    (p : PipelineBody (Except PyException String)) (remaining : List StageName) :
    (runBody runId ids p remaining).Follows (Next runId body plannedStages)
      (fun r q ↦ match r.1 with
        | .ok packageId => q = .ended (.ok packageId)
        | .error exit => q = exitPhase ids exit r.2)
      (arrive ids p remaining) := by
  induction p generalizing remaining with
  | pure r => cases r <;> exact rfl
  | call w k ih =>
    cases remaining with
    | nil => exact rfl
    | cons stage remaining =>
      rw [runBody]
      refine Prog.Follows.bind (follows_runStage ⟨ids, stage, w, k, remaining⟩) fun r q hq ↦ ?_
      rcases r with exit | artifactId
      · exact hq
      · subst hq
        exact ih artifactId remaining

theorem follows_closeRemaining {close : String → RunProg Unit} {ids : Dict StageName String}
    {exit : StageExit}
    (hclose : ∀ stageRunId remaining, (close stageRunId).Follows (Next runId body plannedStages)
      (fun _ q ↦ q = closeFrom ids exit remaining) (.closing ids exit stageRunId remaining))
    (remaining : List StageName) :
    (closeRemaining close ids exit remaining).Follows (Next runId body plannedStages)
      (fun e q ↦ q = .ended (.error e)) (closeFrom ids exit remaining) := by
  induction remaining with
  | nil => exact rfl
  | cons stage remaining ih =>
    rw [closeRemaining, closeFrom]
    rcases hid : ids.get? stage with _ | stageRunId
    · exact rfl
    · refine Prog.Follows.bind (hclose stageRunId remaining) fun _ q hq ↦ ?_
      rwa [hq]

theorem follows_skipRemaining (ids : Dict StageName String) (failure : StageFailure)
    (remaining : List StageName) :
    (skipRemaining ids (.failed failure) remaining).Follows (Next runId body plannedStages)
      (fun e q ↦ q = .ended (.error e)) (closeFrom ids (.failed failure) remaining) := by
  rw [skipRemaining]
  refine follows_closeRemaining (fun stageRunId rest ↦ ?_) remaining
  exact fun _ ↦ ⟨_, .skip ids failure stageRunId rest, rfl⟩

theorem follows_cancelRemaining (ids : Dict StageName String) (remaining : List StageName) :
    (cancelRemaining ids .cancellationRequested remaining).Follows (Next runId body plannedStages)
      (fun e q ↦ q = .ended (.error e)) (closeFrom ids .cancellationRequested remaining) := by
  rw [cancelRemaining]
  refine follows_closeRemaining (fun stageRunId rest ↦ ?_) remaining
  exact fun _ ↦ ⟨_, .cancel ids stageRunId rest, rfl⟩

/-- **`execute` follows the protocol**, for the pipeline and the stages planned from the files. -/
theorem follows_execute (registered : List String) (request : PipelineRunRequest)
    (files : List StreamFile) (freshSession : String) :
    (execute registered runId request files freshSession).Follows
      (Next runId (pipelineBody registered request (sessionIdOf request freshSession) files)
        (planStages (files.map StreamFile.sensorType)))
      (fun r q ↦ q = .ended r) .starting := by
  rw [execute, Prog.bind_eq, Prog.op_bind]
  intro created
  rcases created with e | ids
  · exact ⟨_, .notCreated e, rfl⟩
  refine ⟨_, .created ids, Prog.Follows.bind (follows_runBody ids _ _) fun r q hq ↦ ?_⟩
  obtain ⟨exit | packageId, remaining⟩ := r
  · rw [show q = exitPhase ids exit remaining from hq]
    cases exit with
    | failed failure =>
      exact (follows_skipRemaining ids failure remaining).bind fun exit q hq ↦ hq
    | cancellationRequested =>
      exact (follows_cancelRemaining ids remaining).bind fun exit q hq ↦ hq
    | raised exc => exact rfl
  · exact hq

/-- **`localRun` follows the protocol.** -/
theorem follows_localRun (registered : List String) (executorId : String)
    (request : PipelineRunRequest) (files : List StreamFile) (freshSession : String) :
    (localRun registered runId executorId request files freshSession).Follows
      (Next runId (pipelineBody registered request (sessionIdOf request freshSession) files)
        (planStages (files.map StreamFile.sensorType)))
      (fun _ q ↦ q = .done) .queued := by
  rw [localRun, Prog.bind_eq, Prog.op_bind]
  intro current
  rcases current with _ | row
  · exact ⟨_, .notFound, rfl⟩
  by_cases hrow : row.status = .cancelRequested
  · refine ⟨_, .foundCancelled hrow, ?_⟩
    simp only [if_pos hrow]
    exact fun a ↦ ⟨_, .cancelEarly a, rfl⟩
  · refine ⟨_, .found hrow, ?_⟩
    simp only [if_neg hrow]
    intro a
    rcases a with e | ⟨⟩
    · exact ⟨_, .refused executorId e, rfl⟩
    · refine ⟨_, .accepted executorId,
        (follows_execute registered request files freshSession).bind fun r q hq ↦ ?_⟩
      subst hq
      rcases r with (failure | _ | exc) | packageId
      · exact fun a ↦ ⟨_, .markFailed _ _ _ a, rfl⟩
      · exact fun a ↦ ⟨_, .markCancelled a, rfl⟩
      · exact fun a ↦ ⟨_, .markFailed _ _ _ a, rfl⟩
      · exact fun a ↦ ⟨_, .markCompleted packageId a, rfl⟩

end

end ForgeData
