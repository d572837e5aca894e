import ForgeData.Runs.CancelRequests
import ForgeData.Runs.StageOrder

/-!
# Where the normalization ids come from

A third protocol for the pipeline: its phases are the work that was answered so far. It tells, of the
answered work, which normalization ids synchronization is given: the one of each stream, under its
sensor type, a later stream taking the place of an earlier one.

The phases of a run carry the rest of the pipeline, so what holds of the answered work when the
pipeline returns holds of the history of every run that has ended well.
-/

namespace ForgeData

open Python Interleaving

/-! ## The answered work -/

/-- The work is remembered with its answer. -/
def Remember : Protocol Work (fun _ ↦ String) (List (Work × String)) :=
  fun answered w a answered' ↦ answered' = answered ++ [(w, a)]

/-- The id was made from the stream's own file: by normalizing what ingesting the file returned. -/
def OwnNormalization (request : PipelineRunRequest) (sessionId : String)
    (answered : List (Work × String)) (f : StreamFile) (normId : String) : Prop :=
  ∃ ingestionId, (.ingest f sessionId request, ingestionId) ∈ answered ∧
    (.normalize ingestionId f.sensorType f, normId) ∈ answered

/-- The artifact of synchronization became part of a package. -/
def Packaged (request : PipelineRunRequest) (answered : List (Work × String))
    (ids : Dict String String) : Prop :=
  ∃ syncId cleaningId xformId qcId packageId,
    (.synchronize request ids, syncId) ∈ answered ∧
    (.clean request syncId, cleaningId) ∈ answered ∧
    (.transform request cleaningId, xformId) ∈ answered ∧
    (.qc request xformId, qcId) ∈ answered ∧
    (.package request xformId qcId, packageId) ∈ answered

/-- What the loop over the streams has added to the answered work, and the ids it returns. -/
private def StreamsPath (request : PipelineRunRequest) (sessionId : String)
    (files : List StreamFile) (ids : Dict String String) (before : List (Work × String)) :
    Except PyException (Dict String String) → List (Work × String) → Prop
  | .ok ids', answered => before ⊆ answered ∧
      (∀ p ∈ answered, p ∈ before ∨ p.1.stage ≠ .synchronization) ∧
      ∃ normIds, List.Forall₂ (OwnNormalization request sessionId answered) files normIds ∧
        ids' = ((files.map StreamFile.sensorType).zip normIds).foldl (fun d p ↦ d.set p.1 p.2) ids
  | .error _, _ => True

/-- What holds of the answered work when the pipeline returns. -/
def PathEnd (request : PipelineRunRequest) (sessionId : String) (files : List StreamFile) :
    Except PyException String → List (Work × String) → Prop
  | .ok _, answered => ∃ normIds,
      List.Forall₂ (OwnNormalization request sessionId answered) files normIds ∧
      Packaged request answered (Dict.ofPairs ((files.map StreamFile.sensorType).zip normIds)) ∧
      ∀ p ∈ answered, p.1.stage = .synchronization →
        p.1 = .synchronize request (Dict.ofPairs ((files.map StreamFile.sensorType).zip normIds))
  | .error _, _ => True

theorem OwnNormalization.mono {request : PipelineRunRequest} {sessionId normId : String}
    {answered answered' : List (Work × String)} {f : StreamFile}
    (h : OwnNormalization request sessionId answered f normId) (hsub : answered ⊆ answered') :
    OwnNormalization request sessionId answered' f normId := by
  obtain ⟨ingestionId, hingest, hnormalize⟩ := h
  exact ⟨ingestionId, hsub hingest, hsub hnormalize⟩

theorem follows_streamsBody_remember (registered : List String) (request : PipelineRunRequest)
    (sessionId : String) (files : List StreamFile) (ids : Dict String String)
    (before : List (Work × String)) :
    (streamsBody registered request sessionId files ids).Follows Remember
      (StreamsPath request sessionId files ids before) before := by
  induction files generalizing ids before with
  | nil => exact ⟨List.Subset.refl _, fun _ hp ↦ .inl hp, [], .nil, rfl⟩
  | cons f files ih =>
    rw [streamsBody, streamBody]
    split
    · trivial
    intro ingestion
    refine ⟨_, rfl, fun validation ↦ ⟨_, rfl, fun integrity ↦ ⟨_, rfl, fun norm ↦ ⟨_, rfl, ?_⟩⟩⟩⟩
    refine (ih _ _).mono fun r answered hr ↦ ?_
    rcases r with e | ids'
    · trivial
    obtain ⟨hsub, honly, normIds, hown, hids⟩ := hr
    refine ⟨fun p hp ↦ hsub (by simp [hp]), fun p hp ↦ ?_, norm :: normIds, .cons ?_ hown, hids⟩
    · rcases honly p hp with hbefore | hstage
      · simp only [List.mem_append, List.mem_singleton] at hbefore
        rcases hbefore with (((hbefore | rfl) | rfl) | rfl) | rfl
        · exact .inl hbefore
        all_goals
          right
          rintro ⟨⟩
      · exact .inr hstage
    · exact ⟨ingestion, hsub (by simp), hsub (by simp)⟩

/-- **The path of the pipeline**: what synchronization is given. -/
theorem follows_pipelineBody_remember (registered : List String) (request : PipelineRunRequest)
    (sessionId : String) (files : List StreamFile) :
    (pipelineBody registered request sessionId files).Follows Remember
      (PathEnd request sessionId files) [] := by
  refine (follows_streamsBody_remember registered request sessionId files Dict.empty []).andThen ?_ ?_
  · rintro ids before ⟨-, honly, normIds, hown, rfl⟩ syncId
    refine ⟨_, rfl, fun cleaning ↦ ⟨_, rfl, fun xform ↦ ⟨_, rfl, fun qc ↦ ⟨_, rfl, fun package ↦
      ⟨_, rfl, normIds, ?_, ⟨syncId, cleaning, xform, qc, package, ?_⟩, fun p hp hstage ↦ ?_⟩⟩⟩⟩⟩
    · exact hown.imp fun f normId h ↦ h.mono fun p hp ↦ by simp [hp]
    · simp [Dict.ofPairs]
    · simp only [List.mem_append, List.mem_singleton] at hp
      rcases hp with ((((hp | rfl) | rfl) | rfl) | rfl) | rfl
      · exact ((honly p hp).resolve_left List.not_mem_nil hstage).elim
      · rfl
      · cases hstage
      · cases hstage
      · cases hstage
      · cases hstage
  · exact fun _ _ _ ↦ trivial

/-! ## The work of a run -/

/-- How the rest of the pipeline goes on from the answered work. -/
def Phase.Remembers (fin : Except PyException String → List (Work × String) → Prop) :
    Phase → List (Work × String) → Prop
  | .boundary c, answered => ∀ a, (c.k a).Follows Remember fin (answered ++ [(c.w, a)])
  | .inStage c _ (.returned out), answered | .inStage c _ (.counting _ out), answered
  | .inStage c _ (.recording out), answered => (c.k out.artifactId).Follows Remember fin answered
  | .inStage c _ _, answered => ∀ a, (c.k a).Follows Remember fin (answered ++ [(c.w, a)])
  | .ended (.ok packageId), answered => fin (.ok packageId) answered
  | .queued, answered | .cancelledEarly, answered | .found, answered | .starting, answered =>
    answered = []
  | _, _ => True

theorem remembers_arrive {fin : Except PyException String → List (Work × String) → Prop}
    {ids : Dict StageName String} {p : PipelineBody (Except PyException String)}
    {remaining : List StageName} {answered : List (Work × String)}
    (h : p.Follows Remember fin answered) : (arrive ids p remaining).Remembers fin answered := by
  rcases p with (exc | packageId) | ⟨w, k⟩
  · trivial
  · exact h
  · cases remaining with
    | nil => trivial
    | cons stage remaining =>
      intro a
      obtain ⟨_, rfl, hk⟩ := h a
      exact hk

theorem remembers_closeFrom {fin : Except PyException String → List (Work × String) → Prop}
    {ids : Dict StageName String} {exit : StageExit} {remaining : List StageName}
    {answered : List (Work × String)} : (closeFrom ids exit remaining).Remembers fin answered := by
  cases remaining with
  | nil => trivial
  | cons stage remaining =>
    rw [closeFrom]
    split <;> trivial

/-- **The executor's steps carry the path along.** -/
theorem Next.remembers {Env : Type} {fin : Except PyException String → List (Work × String) → Prop}
    {r : String} {body : PipelineBody (Except PyException String)} {planned : List StageName}
    {q q' : Phase} {o : RunOp} {a : o.Ans} {answered : List (Work × String)}
    (hnext : Next r body planned q o a q') (hbody : body.Follows Remember fin [])
    (hq : q.Remembers fin answered) :
    q'.Remembers fin (answered ++ (returnedWork (.own o a : Event _ _ Env)).toList) := by
  cases hnext with
  | stage hstep =>
    cases hstep with
    | returned out => exact hq out.artifactId
    | observed | passed | current | start | begin | interrupted | blocked | raised | complete
    | completeCounting | count =>
      simp only [returnedWork, Option.toList_none, List.append_nil]
      exact hq
  | created =>
    obtain rfl : answered = [] := hq
    exact remembers_arrive hbody
  | record out =>
    simp only [returnedWork, Option.toList_none, List.append_nil]
    exact remembers_arrive hq
  | cancelStage | failStage | skip | cancel => exact remembers_closeFrom
  | foundCancelled | found | accepted | beat =>
    simp only [returnedWork, Option.toList_none, List.append_nil]
    exact hq
  | notFound | cancelEarly | refused | notCreated | lost | markCompleted | markCancelled
  | markFailed => trivial

end ForgeData
