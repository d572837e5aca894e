import ForgeData.Runs.StateMachine

/-!
# Run requests and the stages of a run

A request names its streams by sensor type; the run performs four stages for every stream and five
shared stages after them. The work of a stage is done by a stage service that is not looked into
here: what the executor sees of it is the artifact it returns or the exception it raises. One check
of the synchronization service is kept, since it decides whether two streams of one sensor type can
get through.
-/

namespace ForgeData

/-! ## The request -/

/-- `PipelineStreamConfig`. -/
structure PipelineStreamConfig where
  sensorType : String
  sourceUnits : List (String × String)
  deriving DecidableEq, Repr

/-- `ReferenceConfig.mode`; any other text is refused by the synchronization service. -/
inductive ReferenceMode where
  | stream
  | fixedRate
  | unknown (mode : String)
  deriving DecidableEq, Repr

/-- `PipelineSynchronizationConfig`: the fields that the request shape check reads. -/
structure PipelineSynchronizationConfig where
  referenceMode : ReferenceMode
  referenceStream : Option String
  frequencyHz : Option Float
  maxTimeDeltaMs : Option Float

/-- `PipelineRunRequest`. -/
structure PipelineRunRequest where
  sessionId : Option String
  customerId : Option String
  deviceId : Option String
  streams : List PipelineStreamConfig
  synchronization : PipelineSynchronizationConfig

/-- `StreamFile`: one uploaded file, with the sensor type of its stream. -/
structure StreamFile where
  sensorType : String
  filename : String
  contentType : Option String
  sourceUnits : List (String × String)
  deriving DecidableEq, Repr

/-- A Python list of texts, as a format string shows it. -/
def listRepr (l : List String) : String :=
  "[" ++ String.intercalate ", " (l.map fun s ↦ "'" ++ s ++ "'") ++ "]"

/-- `validate_request`, against the sensor types of the plugin registry. -/
def validateRequest (registered : List String) (request : PipelineRunRequest) :
    Except RunError Unit :=
  if request.streams = [] then
    .error (.invalidPipelineConfig "A pipeline run requires at least one stream")
  else
    match request.streams.find? fun stream ↦ stream.sensorType ∉ registered with
    | some stream => .error (.invalidPipelineConfig
        s!"Unknown sensor_type '{stream.sensorType}'. Available: {listRepr registered.mergeSort}")
    | none => .ok ()

/-- The stream files of an accepted request: the route takes one file for each stream, in order. -/
structure Accepted (registered : List String) (request : PipelineRunRequest)
    (files : List StreamFile) : Prop where
  valid : validateRequest registered request = .ok ()
  sensorTypes : files.map StreamFile.sensorType
    = request.streams.map PipelineStreamConfig.sensorType

theorem mem_registered_of_accepted {registered : List String} {request : PipelineRunRequest}
    {files : List StreamFile} (h : Accepted registered request files) :
    ∀ f ∈ files, f.sensorType ∈ registered := by
  intro f hf
  have hvalid := h.valid
  rw [validateRequest] at hvalid
  split at hvalid
  · cases hvalid
  · split at hvalid
    · cases hvalid
    · next hnone =>
      have hmem := List.mem_map_of_mem (f := StreamFile.sensorType) hf
      rw [h.sensorTypes, List.mem_map] at hmem
      obtain ⟨stream, hstream, heq⟩ := hmem
      simpa [heq] using List.find?_eq_none.1 hnone stream hstream

/-! ## The stages -/

/-- The four stages performed for every stream. -/
inductive StreamStage where
  | ingestion
  | validation
  | integrity
  | normalization
  deriving DecidableEq, Repr

/-- The name of a stage: a key of `_stage_run_ids`. -/
inductive StageName where
  | stream (stage : StreamStage) (sensorType : String)
  | synchronization
  | cleaning
  | transformation
  | qc
  | package
  deriving DecidableEq, Repr

namespace StageName

/-- What stands before the colon of the stage's text. -/
def base : StageName → String
  | stream .ingestion _ => "ingestion"
  | stream .validation _ => "validation"
  | stream .integrity _ => "integrity"
  | stream .normalization _ => "normalization"
  | synchronization => "synchronization"
  | cleaning => "cleaning"
  | transformation => "transformation"
  | qc => "qc"
  | package => "package"

/-- The text stored in `pipeline_stage_runs.stage`. -/
def text : StageName → String
  | stream stage sensorType => (stream stage sensorType).base ++ ":" ++ sensorType
  | s => s.base

theorem text_injective : Function.Injective text := by
  intro a b h
  replace h := congrArg String.toList h
  cases a with
  | stream k s =>
    cases b with
    | stream k' s' => cases k <;> cases k' <;> simp_all [text, base, String.toList_inj]
    | _ => cases k <;> simp [text, base] at h
  | _ =>
    cases b with
    | stream k' s' => cases k' <;> simp [text, base] at h
    | _ => simp [text, base] at h ⊢

end StageName

/-- `plan_stages`. -/
def planStages (sensorTypes : List String) : List StageName :=
  (sensorTypes.flatMap fun sensorType ↦
    [.stream .ingestion sensorType, .stream .validation sensorType,
      .stream .integrity sensorType, .stream .normalization sensorType])
  ++ [.synchronization, .cleaning, .transformation, .qc, .package]

theorem stream_mem_planStages_iff {stage : StreamStage} {sensorType : String}
    {sensorTypes : List String} :
    .stream stage sensorType ∈ planStages sensorTypes ↔ sensorType ∈ sensorTypes := by
  cases stage <;> simp [planStages]

theorem nodup_planStages_iff {sensorTypes : List String} :
    (planStages sensorTypes).Nodup ↔ sensorTypes.Nodup := by
  induction sensorTypes with
  | nil => simp [planStages]
  | cons sensorType rest ih =>
    have hcons : planStages (sensorType :: rest)
        = .stream .ingestion sensorType :: .stream .validation sensorType ::
          .stream .integrity sensorType :: .stream .normalization sensorType ::
          planStages rest := rfl
    simp [hcons, ih, stream_mem_planStages_iff]

end ForgeData
