import ForgeData.Runs.StreamPaths
import ForgeData.Runs.SuccessfulRuns

/-!
# Does every stream get into the package?

The normalization ids are collected in a dictionary under the sensor types, so of two streams with
one sensor type only the later reaches synchronization. A completed run has joined all its streams
exactly when the sensor types are pairwise different; the exception are requests that synchronization
refuses anyway, whose runs are never completed.
-/

namespace ForgeData

open Python Interleaving

/-- In the work that returned, synchronization was given exactly one normalization id for every
stream, made from the stream's own file, and its artifact went into a package. -/
structure AllStreamsJoined {Env : Type} (request : PipelineRunRequest) (sessionId : String)
    (files : List StreamFile) (t : RunHistory Env) : Prop where
  packaged : ∃ ids, Packaged request (returnedWorks t) ids
  own : ∀ ids syncId, (Work.synchronize request ids, syncId) ∈ returnedWorks t →
    List.Forall₂ (OwnNormalization request sessionId (returnedWorks t)) files ids.values

/-! ## What a completed run has done -/

/-- What is kept while the run is executed. -/
structure Joining (r : String) (fin : Except PyException String → List (Work × String) → Prop)
    (q : Phase) (h : RunHistory (String × Input)) (db : RunDb) : Prop where
  status : PhaseStatus q (db.runStatus r)
  remembers : q.Remembers fin (returnedWorks h)
  returnable : ∀ p ∈ returnedWorks h, p.1.Returnable
  completed : q = .done → db.runStatus r = some .completed →
    ∃ packageId, fin (.ok packageId) (returnedWorks h)

section

variable {maxRuns : ℕ} {i : Input} {r : String} {body : PipelineBody (Except PyException String)}
  {planned : List StageName} {fin : Except PyException String → List (Work × String) → Prop}
  {q q' : Phase} {o : RunOp} {a : o.Ans} {h : RunHistory (String × Input)} {db db' : RunDb}

/-- Only a pipeline that has returned completes the run. -/
theorem Next.ended_of_completed (hnext : Next r body planned q o a q') (hq : q' = .done)
    (hst : PhaseStatus q (db.runStatus r)) (hrun : o.run maxRuns i db = (a, db'))
    (hcompleted : db'.runStatus r = some .completed) : ∃ packageId, q = .ended (.ok packageId) := by
  have hne := hst.ne_completed hnext.ne_done
  cases hnext with
  | markCompleted packageId => exact ⟨packageId, rfl⟩
  | notFound =>
    rw [RunOp.runStatus_of_quiet hrun trivial] at hcompleted
    exact absurd hcompleted hne
  | refused executorId e =>
    rw [(RunDb.of_markStatus_eq_error hrun).2] at hcompleted
    exact absurd hcompleted hne
  | cancelEarly | markCancelled | markFailed =>
    exact absurd hcompleted (RunDb.runStatus_ne_of_markStatus hrun (by decide) hne)
  | foundCancelled | found | accepted | notCreated | lost | beat | stage => cases hq
  | created | record => exact (arrive_ne_done _ _ _ hq).elim
  | cancelStage | failStage | skip | cancel => exact (closeFrom_ne_done _ _ _ hq).elim

theorem returnable_of_run {p : Work × String} (hrun : o.run maxRuns i db = (a, db'))
    (hp : p ∈ returnedWork (.own o a : Event _ _ (String × Input))) : p.1.Returnable := by
  cases o with
  | endWork w =>
    cases a with
    | returned out =>
      obtain rfl := Option.some.inj hp
      exact i.returnable w out (congrArg Prod.fst hrun)
    | cancellationRequested | governance | raised => cases hp
  | _ => cases hp

theorem Joining.own (hJ : Joining r fin q h db) (hnext : Next r body planned q o a q')
    (hbody : body.Follows Remember fin []) (hrun : o.run maxRuns i db = (a, db')) :
    Joining r fin q' (h ++ [⟨.own o a, db, db'⟩]) db' := by
  refine ⟨hJ.status.own hnext hrun, ?_, ?_, fun hq hcompleted ↦ ?_⟩
  · rw [returnedWorks_append_singleton]
    exact hnext.remembers hbody hJ.remembers
  · rw [returnedWorks_append_singleton, List.forall_mem_append]
    exact ⟨hJ.returnable, fun p hp ↦ returnable_of_run hrun (Option.mem_toList.1 hp)⟩
  · obtain ⟨packageId, rfl⟩ := hnext.ended_of_completed hq hJ.status hrun hcompleted
    refine ⟨packageId, ?_⟩
    rw [returnedWorks_append_singleton]
    have hfin : fin (.ok packageId) (returnedWorks h) := hJ.remembers
    cases hnext with
    | markCompleted => simpa [returnedWork] using hfin

theorem Joining.env {e : String × Input} (hJ : Joining r fin q h db) (henv : CancelEnv e db db') :
    Joining r fin q (h ++ [⟨.env e, db, db'⟩]) db' := by
  have hworks : returnedWorks (h ++ [⟨.env e, db, db'⟩]) = returnedWorks h := by
    rw [returnedWorks_append_singleton]
    exact List.append_nil _
  refine ⟨hJ.status.env henv, ?_, ?_, fun hq hcompleted ↦ ?_⟩
  · rw [hworks]
    exact hJ.remembers
  · rw [hworks]
    exact hJ.returnable
  · rw [hworks]
    refine hJ.completed hq ?_
    rcases henv.runStatus r with heq | ⟨-, hnew⟩
    · rwa [heq] at hcompleted
    · rw [hnew] at hcompleted
      cases hcompleted

end

section

variable {maxRuns : ℕ} {registered : List String} {r executorId : String}
  {request : PipelineRunRequest} {files : List StreamFile} {freshSession : String}

/-- **What a completed run has done**: the pipeline has gone its path to the end, and synchronization
has accepted what it was given. -/
theorem pathEnd_of_completed {db db' : RunDb} {t : RunHistory (String × Input)}
    {result : Except RunError Unit} (hqueued : db.runStatus r = some .queued)
    (hexec : Exec (runSystem maxRuns CancelEnv)
      (localRun registered r executorId request files freshSession) db t (.pure result) db')
    (hcompleted : db'.runStatus r = some .completed) :
    (∃ packageId, PathEnd request (sessionIdOf request freshSession) files (.ok packageId)
      (returnedWorks t)) ∧ ∀ p ∈ returnedWorks t, p.1.Returnable := by
  have hbody := follows_pipelineBody_remember registered request (sessionIdOf request freshSession) files
  have hstart : Joining r (PathEnd request (sessionIdOf request freshSession) files) .queued [] db :=
    ⟨.inl hqueued, rfl, List.forall_mem_nil _, nofun⟩
  obtain ⟨q, hJ, hq⟩ := run_invariant (fun hJ hnext hrun ↦ hJ.own hnext hbody hrun) Joining.env
    (follows_localRun registered executorId request files freshSession) hstart hexec
  exact ⟨hJ.completed hq hcompleted, hJ.returnable⟩

theorem mem_keys_normalizationIds {normIds : List String} {k : String}
    (hlen : files.length = normIds.length) :
    k ∈ (Dict.ofPairs ((files.map StreamFile.sensorType).zip normIds)).keys ↔
      k ∈ files.map StreamFile.sensorType := by
  rw [Dict.mem_keys_ofPairs, List.map_fst_zip (by simp [hlen])]

theorem values_normalizationIds {normIds : List String} (hlen : files.length = normIds.length)
    (hnodup : (files.map StreamFile.sensorType).Nodup) :
    (Dict.ofPairs ((files.map StreamFile.sensorType).zip normIds)).values = normIds := by
  have hfst : ((files.map StreamFile.sensorType).zip normIds).map Prod.fst
      = files.map StreamFile.sensorType := List.map_fst_zip (by simp [hlen])
  rw [Dict.values, Dict.items_ofPairs (by rwa [hfst])]
  exact List.map_snd_zip (by simp [hlen])

variable (files) in
theorem perm_keys_normalizationIds {normIds : List String} (hlen : files.length = normIds.length) :
    (Dict.ofPairs ((files.map StreamFile.sensorType).zip normIds)).keys.Perm
      (files.map StreamFile.sensorType).dedup :=
  (List.perm_ext_iff_of_nodup (Dict.keys_nodup _) (List.nodup_dedup _)).2 fun k ↦ by
    rw [mem_keys_normalizationIds hlen, List.mem_dedup]

theorem allStreamsJoined_of_nodup {Env : Type} {t : RunHistory Env} {sessionId packageId : String}
    (hpath : PathEnd request sessionId files (.ok packageId) (returnedWorks t))
    (hnodup : (files.map StreamFile.sensorType).Nodup) :
    AllStreamsJoined request sessionId files t := by
  obtain ⟨normIds, hown, hpackaged, honly⟩ := hpath
  refine ⟨⟨_, hpackaged⟩, fun ids syncId hsync ↦ ?_⟩
  have hids := honly _ hsync rfl
  cases hids
  rwa [values_normalizationIds hown.length_eq hnodup]

theorem validateRequestShape_of_pathEnd {answered : List (Work × String)}
    {sessionId packageId : String}
    (hpath : PathEnd request sessionId files (.ok packageId) answered)
    (hreturnable : ∀ p ∈ answered, p.1.Returnable) :
    validateRequestShape request.synchronization (files.map StreamFile.sensorType).dedup
      = .ok () := by
  obtain ⟨normIds, hown, ⟨_, -, -, -, -, hsync, -⟩, -⟩ := hpath
  exact (validateRequestShape_eq_ok_congr (perm_keys_normalizationIds files hown.length_eq)).1
    (hreturnable _ hsync)

theorem nodup_of_allStreamsJoined {Env : Type} {t : RunHistory Env} {sessionId packageId : String}
    (hpath : PathEnd request sessionId files (.ok packageId) (returnedWorks t))
    (hjoined : AllStreamsJoined request sessionId files t) :
    (files.map StreamFile.sensorType).Nodup := by
  obtain ⟨normIds, hown, ⟨_, -, -, -, -, hsync, -⟩, -⟩ := hpath
  have hlen := (hjoined.own _ _ hsync).length_eq
  have hperm := perm_keys_normalizationIds files hown.length_eq
  have hdedup : (files.map StreamFile.sensorType).dedup.length
      = (files.map StreamFile.sensorType).length := by
    rw [← hperm.length_eq, List.length_map, hlen, Dict.keys, Dict.values, List.length_map,
      List.length_map]
  exact List.dedup_eq_self.1 ((List.dedup_sublist _).eq_of_length hdedup)

end

/-- The run tables with one queued run. -/
def queuedDb (r : String) : RunDb where
  pipelineRuns := Dict.empty.set r
    { runType := "pipeline", status := .queued, createdAt := "2026-01-01T00:00:00+00:00",
      requestJson := "\x7b\x7d", configHash := "" }
  stageRuns := Dict.empty
  runArtifacts := []
  runEvents := []

theorem runStatus_queuedDb (r : String) : (queuedDb r).runStatus r = some .queued := by
  rw [RunDb.runStatus, RunDb.getRun, queuedDb, Dict.get?_set_self]
  rfl

/-- **Which requests lose a stream.** Every completed run of an accepted request has joined all its
streams exactly when their sensor types are pairwise different, or synchronization refuses the
request that names each sensor type once, so that no run is completed. -/
theorem allStreamsJoined_iff {registered : List String} {r : String} {request : PipelineRunRequest}
    {files : List StreamFile} (haccepted : Accepted registered request files) :
    (∀ maxRuns executorId freshSession db t result db', db.runStatus r = some .queued →
      Exec (runSystem maxRuns CancelEnv)
        (localRun registered r executorId request files freshSession) db t (.pure result) db' →
      db'.runStatus r = some .completed →
      AllStreamsJoined request (sessionIdOf request freshSession) files t) ↔
      (files.map StreamFile.sensorType).Nodup ∨
        validateRequestShape request.synchronization (files.map StreamFile.sensorType).dedup
          ≠ .ok () := by
  have hregistered := mem_registered_of_accepted haccepted
  constructor
  · intro hall
    by_contra hcond
    rw [not_or, not_not] at hcond
    obtain ⟨hdup, hshape⟩ := hcond
    have hsucceeds : Succeeds successInput
        (pipelineBody registered request (sessionIdOf request "") files) := by
      refine succeeds_streamsBody hregistered fun ids hkeys ↦ ?_
      refine (validateRequestShape_eq_ok_congr ?_).2 hshape
      refine (List.perm_ext_iff_of_nodup ids.keys_nodup (List.nodup_dedup _)).2 fun k ↦ ?_
      rw [hkeys k, List.mem_dedup]
      exact or_iff_right List.not_mem_nil
    obtain ⟨t, result, db', hexec, hcompleted⟩ := exists_completed 1 ""
      (conforms_of_accepted haccepted _) hsucceeds successInput_fresh_injective
      (runStatus_queuedDb r) rfl
    obtain ⟨⟨packageId, hpath⟩, -⟩ :=
      pathEnd_of_completed (runStatus_queuedDb r) hexec hcompleted
    exact hdup (nodup_of_allStreamsJoined hpath
      (hall 1 "" "" _ t result db' (runStatus_queuedDb r) hexec hcompleted))
  · intro hcond maxRuns executorId freshSession db t result db' hqueued hexec hcompleted
    obtain ⟨⟨packageId, hpath⟩, hreturnable⟩ := pathEnd_of_completed hqueued hexec hcompleted
    rcases hcond with hnodup | hrefused
    · exact allStreamsJoined_of_nodup hpath hnodup
    · exact absurd (validateRequestShape_of_pathEnd hpath hreturnable) hrefused

/-! ## A stream that is lost -/

/-- A request with two streams of one sensor type and a third one. -/
def imuTwiceGpsRequest : PipelineRunRequest :=
  { imuRequest with streams := [⟨"imu", []⟩, ⟨"imu", []⟩, ⟨"gps", []⟩] }

/-- Their files. -/
def imuTwiceGpsFiles : List StreamFile :=
  [⟨"imu", "left.csv", none, []⟩, ⟨"imu", "right.csv", none, []⟩, ⟨"gps", "gps.csv", none, []⟩]

theorem accepted_imuTwiceGps : Accepted ["gps", "imu"] imuTwiceGpsRequest imuTwiceGpsFiles :=
  ⟨by decide, by decide⟩

theorem allStreamsJoined_iff_imuTwiceGps :
    (∀ maxRuns executorId freshSession db t result db', db.runStatus "run_1" = some .queued →
      Exec (runSystem maxRuns CancelEnv)
        (localRun ["gps", "imu"] "run_1" executorId imuTwiceGpsRequest imuTwiceGpsFiles freshSession)
        db t (.pure result) db' →
      db'.runStatus "run_1" = some .completed →
      AllStreamsJoined imuTwiceGpsRequest (sessionIdOf imuTwiceGpsRequest freshSession)
        imuTwiceGpsFiles t) ↔
      (imuTwiceGpsFiles.map StreamFile.sensorType).Nodup ∨
        validateRequestShape imuTwiceGpsRequest.synchronization
          (imuTwiceGpsFiles.map StreamFile.sensorType).dedup ≠ .ok () :=
  allStreamsJoined_iff accepted_imuTwiceGps

/-- The run of that request, with services that all return. -/
def imuTwiceGpsPoint : Point RunOp RunOp.Ans RunDb (String × Input) (Except RunError Unit) :=
  runTurns 1 (List.replicate 140 (.own successInput))
    (localRun ["gps", "imu"] "run_1" "host:1" imuTwiceGpsRequest imuTwiceGpsFiles "0")
    (queuedDb "run_1")

/-- The run is completed, and the first stream has not reached synchronization. -/
theorem stream_lost :
    Accepted ["gps", "imu"] imuTwiceGpsRequest imuTwiceGpsFiles ∧
      (queuedDb "run_1").runStatus "run_1" = some .queued ∧
      ∃ t result db', Exec (runSystem 1 CancelEnv)
        (localRun ["gps", "imu"] "run_1" "host:1" imuTwiceGpsRequest imuTwiceGpsFiles "0")
        (queuedDb "run_1") t (.pure result) db' ∧
        db'.runStatus "run_1" = some .completed ∧
        ¬ AllStreamsJoined imuTwiceGpsRequest (sessionIdOf imuTwiceGpsRequest "0")
          imuTwiceGpsFiles t := by
  have hexec := exec_runTurns 1 (List.replicate 140 (.own successInput))
    (localRun ["gps", "imu"] "run_1" "host:1" imuTwiceGpsRequest imuTwiceGpsFiles "0")
    (queuedDb "run_1")
  have hcompleted : imuTwiceGpsPoint.state.runStatus "run_1" = some .completed := by
    decide +kernel
  rw [← imuTwiceGpsPoint, Prog.eq_pure_of_result?
    (by decide +kernel : imuTwiceGpsPoint.rest.result? = some (.ok ()))] at hexec
  refine ⟨accepted_imuTwiceGps, runStatus_queuedDb _, _, _, _, hexec, hcompleted, fun hjoined ↦ ?_⟩
  obtain ⟨⟨packageId, hpath⟩, -⟩ := pathEnd_of_completed (runStatus_queuedDb _) hexec hcompleted
  exact absurd (nodup_of_allStreamsJoined hpath hjoined) (by decide)

end ForgeData
