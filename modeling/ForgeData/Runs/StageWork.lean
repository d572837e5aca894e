import ForgeData.Python.Dict
import Mathlib.Data.List.Dedup
import ForgeData.Runs.Request

/-!
# The work of a stage and how it ends

The executor hands each stage service its inputs and gets back an artifact or an exception. Work is
named here by what is handed over, so that the history of a run shows which artifact was made from
which. Exceptions are kept as far as the error adapter looks at them.
-/

namespace ForgeData

open Python

/-! ## Work -/

/-- One call of a stage service, with what the executor hands over. -/
inductive Work where
  | ingest (f : StreamFile) (sessionId : String) (request : PipelineRunRequest)
  | validate (ingestionId sensorType : String)
  | integrity (ingestionId sensorType : String)
  | normalize (ingestionId sensorType : String) (f : StreamFile)
  | synchronize (request : PipelineRunRequest) (normalizationIds : Dict String String)
  | clean (request : PipelineRunRequest) (synchronizationId : String)
  | transform (request : PipelineRunRequest) (cleaningId : String)
  | qc (request : PipelineRunRequest) (transformationId : String)
  | package (request : PipelineRunRequest) (transformationId qcId : String)

/-- The stage that the work belongs to. -/
def Work.stage : Work → StageName
  | ingest f _ _ => .stream .ingestion f.sensorType
  | validate _ sensorType => .stream .validation sensorType
  | integrity _ sensorType => .stream .integrity sensorType
  | normalize _ sensorType _ => .stream .normalization sensorType
  | synchronize _ _ => .synchronization
  | clean _ _ => .cleaning
  | transform _ _ => .transformation
  | qc _ _ => .qc
  | package _ _ _ => .package

/-- The artifact type that `_do_ingest`, `_do_validate` and their siblings return. -/
def Work.artifactType (w : Work) : String := w.stage.base

/-- What the work of a stage returns besides its artifact type. -/
structure StageOutput where
  artifactId : String
  recordsProcessed : ℕ
  recordsTotal : Option ℕ
  bytesProcessed : Option ℕ
  deriving DecidableEq, Repr

/-! ## Exceptions -/

/-- An exception, as far as it is looked at: the module and name of its class, and its text. -/
structure PyException where
  moduleName : String
  className : String
  text : String
  deriving DecidableEq, Repr

/-- `StageFailure`. -/
structure StageFailure where
  stage : String
  code : String
  message : String
  deriving DecidableEq, Repr

/-- `_STAGE_PACKAGE_PREFIX`. -/
def stagePackagePrefix : List (String × String) :=
  [("ingestion", "app.ingestion."), ("validation", "app.validation."),
    ("integrity", "app.integrity."), ("normalization", "app.normalization."),
    ("synchronization", "app.synchronization."), ("cleaning", "app.cleaning."),
    ("transformation", "app.transformation."), ("qc", "app.qc."), ("package", "app.packaging.")]

/-- `stage.split(":", 1)[0]`. -/
def baseStage (stage : String) : String := String.ofList (stage.toList.takeWhile (· ≠ ':'))

/-- `normalize_stage_error`: an exception from the stage's own package is reported under its class
name, any other one as an internal error. -/
def normalizeStageError (stage : String) (exc : PyException) : StageFailure :=
  let internal : StageFailure :=
    ⟨stage, "INTERNAL_STAGE_ERROR", "An internal error occurred while executing this stage"⟩
  match stagePackagePrefix.lookup (baseStage stage) with
  | none => internal
  | some pkg =>
    if pkg.toList.isPrefixOf exc.moduleName.toList then
      ⟨stage, exc.className, if exc.text = "" then exc.className else exc.text⟩
    else internal

/-- How the call of a stage service ends. -/
inductive StageOutcome where
  | returned (out : StageOutput)
  /-- `RunCancellationRequested`. -/
  | cancellationRequested
  /-- One of the four errors of the upstream gate, with its code and text. -/
  | governance (code message : String)
  /-- Any other exception. -/
  | raised (exc : PyException)
  deriving DecidableEq, Repr

/-! ## The shape check of synchronization -/

/-- `InvalidSyncConfigurationError`. -/
def invalidSyncConfigurationError (text : String) : PyException :=
  ⟨"app.synchronization.timeline", "InvalidSyncConfigurationError", text⟩

/-- `DuplicateStreamNameError` and `ReferenceStreamNotFoundError`. -/
def synchronizationError (className text : String) : PyException :=
  ⟨"app.synchronization.service", className, text⟩

/-- The last check of `_validate_request_shape`: a tolerance, if there is one, is not negative. -/
def validateMaxTimeDelta (cfg : PipelineSynchronizationConfig) : Except PyException Unit :=
  match cfg.maxTimeDeltaMs with
  | none => .ok ()
  | some delta =>
    if delta < 0 then
      .error (invalidSyncConfigurationError
        "alignment.max_time_delta_ms must not be negative")
    else .ok ()

/-- `_validate_request_shape`, of the request that `_do_synchronize` builds: its streams are named
by the keys of the dictionary, and the duplicate check is made on these names. -/
def validateRequestShape (cfg : PipelineSynchronizationConfig) (names : List String) :
    Except PyException Unit :=
  if names.length < 2 then
    .error (invalidSyncConfigurationError
      s!"At least 2 streams are required for multimodal synchronization, got {names.length}")
  else if ¬ names.Nodup then
    .error (synchronizationError "DuplicateStreamNameError"
      ("Duplicate stream name(s): "
        ++ listRepr (names.filter fun n ↦ 1 < names.count n).dedup.mergeSort))
  else
    match cfg.referenceMode with
    | .unknown mode =>
      .error (invalidSyncConfigurationError s!"Unknown reference.mode '{mode}'")
    | .stream =>
      let stream := cfg.referenceStream.getD ""
      if stream = "" then
        .error (invalidSyncConfigurationError
          "reference.stream is required when reference.mode='stream'")
      else if stream ∉ names then
        .error (synchronizationError "ReferenceStreamNotFoundError"
          s!"reference.stream '{stream}' is not among the declared streams {listRepr names}")
      else validateMaxTimeDelta cfg
    | .fixedRate =>
      if cfg.frequencyHz.isNone then
        .error (invalidSyncConfigurationError
          "reference.frequency_hz is required when reference.mode='fixed_rate'")
      else validateMaxTimeDelta cfg

/-- The reference of the alignment is one that the request can have. -/
def ReferenceAllowed (cfg : PipelineSynchronizationConfig) (names : List String) : Prop :=
  match cfg.referenceMode with
  | .unknown _ => False
  | .stream => cfg.referenceStream.getD "" ≠ "" ∧ cfg.referenceStream.getD "" ∈ names
  | .fixedRate => cfg.frequencyHz.isSome

/-- **Which requests pass the shape check.** -/
theorem validateRequestShape_eq_ok_iff {cfg : PipelineSynchronizationConfig} {names : List String} :
    validateRequestShape cfg names = .ok () ↔ 2 ≤ names.length ∧ names.Nodup ∧
      ReferenceAllowed cfg names ∧ validateMaxTimeDelta cfg = .ok () := by
  rw [validateRequestShape, ReferenceAllowed]
  split
  · next hlen => exact ⟨nofun, fun h ↦ absurd h.1 (by omega)⟩
  · next hlen =>
    split
    · next hdup => exact ⟨nofun, fun h ↦ absurd h.2.1 hdup⟩
    · next hdup =>
      rw [not_not] at hdup
      rw [Nat.not_lt] at hlen
      rcases cfg.referenceMode with _ | _ | mode
      · dsimp only
        split
        · next hempty => exact ⟨nofun, fun h ↦ absurd hempty h.2.2.1.1⟩
        · next hempty =>
          split
          · next hmem => exact ⟨nofun, fun h ↦ absurd h.2.2.1.2 hmem⟩
          · next hmem =>
            exact ⟨fun h ↦ ⟨hlen, hdup, ⟨hempty, not_not.1 hmem⟩, h⟩, fun h ↦ h.2.2.2⟩
      · dsimp only
        split
        · next hnone =>
          refine ⟨nofun, fun h ↦ absurd h.2.2.1 ?_⟩
          rw [Option.isNone_iff_eq_none.1 hnone]
          exact nofun
        · next hsome =>
          exact ⟨fun h ↦ ⟨hlen, hdup, Option.isSome_iff_ne_none.2 (by simpa using hsome), h⟩, fun h ↦ h.2.2.2⟩
      · exact ⟨nofun, fun h ↦ h.2.2.1.elim⟩

theorem validateRequestShape_eq_ok_congr {cfg : PipelineSynchronizationConfig}
    {names names' : List String} (h : names.Perm names') :
    validateRequestShape cfg names = .ok () ↔ validateRequestShape cfg names' = .ok () := by
  have href : ReferenceAllowed cfg names ↔ ReferenceAllowed cfg names' := by
    rw [ReferenceAllowed, ReferenceAllowed]
    split
    · rfl
    · rw [h.mem_iff]
    · rfl
  rw [validateRequestShape_eq_ok_iff, validateRequestShape_eq_ok_iff, h.length_eq, h.nodup_iff, href]

/-- Work can only return if the stage service does not refuse it outright. -/
def Work.Returnable : Work → Prop
  | synchronize request normalizationIds =>
    validateRequestShape request.synchronization normalizationIds.keys = .ok ()
  | _ => True

end ForgeData
