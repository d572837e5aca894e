import ForgeData.Runs.Lifecycle

/-!
# Counting boundary checks and stage work

What a history shows of the progress of a run: the boundary checks that passed, the stage services
that were called and the calls that ended. The phase says how these counts are related, and how many
checks are still to be passed if the run is to complete.
-/

namespace ForgeData

open Python Interleaving

variable {Env : Type}

/-- The boundary check of the run that lets it go on. -/
def isPassedCheck (r : String) : Event RunOp RunOp.Ans Env → Bool
  | .own (.check r') cancelled => r' = r && !cancelled
  | _ => false

/-- A stage service is called. -/
def isBeginWork : Event RunOp RunOp.Ans Env → Bool
  | .own (.beginWork _) _ => true
  | _ => false

/-- The call of a stage service ends. -/
def isEndWork : Event RunOp RunOp.Ans Env → Bool
  | .own (.endWork _) _ => true
  | _ => false

/-- The number of boundary checks that the run has passed. -/
def checksPassed (r : String) (t : RunHistory Env) : ℕ := t.countP fun x ↦ isPassedCheck r x.event

/-- The number of stage services that were called. -/
def worksStarted (t : RunHistory Env) : ℕ := t.countP fun x ↦ isBeginWork x.event

/-- The number of calls that ended. -/
def worksEnded (t : RunHistory Env) : ℕ := t.countP fun x ↦ isEndWork x.event

theorem checksPassed_append (r : String) (t t' : RunHistory Env) :
    checksPassed r (t ++ t') = checksPassed r t + checksPassed r t' := List.countP_append

theorem worksStarted_append (t t' : RunHistory Env) :
    worksStarted (t ++ t') = worksStarted t + worksStarted t' := List.countP_append

theorem worksEnded_append (t t' : RunHistory Env) :
    worksEnded (t ++ t') = worksEnded t + worksEnded t' := List.countP_append

@[simp] theorem checksPassed_singleton (r : String) (x : RunStep Env) :
    checksPassed r [x] = if isPassedCheck r x.event then 1 else 0 := by
  rw [checksPassed, List.countP_singleton]

@[simp] theorem worksStarted_singleton (x : RunStep Env) :
    worksStarted [x] = if isBeginWork x.event then 1 else 0 := by
  rw [worksStarted, List.countP_singleton]

@[simp] theorem worksEnded_singleton (x : RunStep Env) :
    worksEnded [x] = if isEndWork x.event then 1 else 0 := by
  rw [worksEnded, List.countP_singleton]

/-- How many checks have passed for stages whose service has not been called yet. -/
def Phase.toStart : Phase → ℕ
  | .inStage _ _ .passed | .inStage _ _ .current | .inStage _ _ .started => 1
  | _ => 0

/-- How many checks have passed for stages whose service has not ended yet. -/
def Phase.toEnd : Phase → ℕ
  | .inStage _ _ .passed | .inStage _ _ .current | .inStage _ _ .started
  | .inStage _ _ .working => 1
  | _ => 0

/-- How many checks are still to be passed if the run, planned with so many stages, is to complete;
`none` if it cannot complete any more. -/
def Phase.left (planned : ℕ) : Phase → Option ℕ
  | .queued | .found | .starting => some planned
  | .boundary c | .inStage c _ .beat => some (c.remaining.length + 1)
  | .inStage _ _ .cancelling | .inStage _ _ (.failing _) => none
  | .inStage c _ _ => some c.remaining.length
  | .ended (.ok _) => some 0
  | _ => none

theorem left_closeFrom (planned : ℕ) (ids : Dict StageName String) (exit : StageExit)
    (remaining : List StageName) : (closeFrom ids exit remaining).left planned = none := by
  cases remaining with
  | nil => rfl
  | cons stage remaining =>
    rw [closeFrom]
    split <;> rfl

theorem left_arrive {raises : Prop} {planned : ℕ} {ids : Dict StageName String}
    {p : PipelineBody (Except PyException String)} {remaining : List StageName}
    (h : Conforms raises p remaining) :
    ∀ l ∈ (arrive ids p remaining).left planned, l = remaining.length := by
  rcases p with (exc | packageId) | ⟨w, k⟩
  · exact fun l hl ↦ (nomatch hl)
  · rintro l ⟨⟩
    rw [show remaining = [] from h, List.length_nil]
  · cases remaining with
    | nil => exact fun l hl ↦ (nomatch hl)
    | cons stage remaining =>
      rintro l ⟨⟩
      rfl

theorem toStart_arrive (ids : Dict StageName String) (p : PipelineBody (Except PyException String))
    (remaining : List StageName) : (arrive ids p remaining).toStart = 0 := by
  rcases p with (exc | packageId) | _
  · rfl
  · rfl
  · cases remaining <;> rfl

theorem toEnd_arrive (ids : Dict StageName String) (p : PipelineBody (Except PyException String))
    (remaining : List StageName) : (arrive ids p remaining).toEnd = 0 := by
  rcases p with (exc | packageId) | _
  · rfl
  · rfl
  · cases remaining <;> rfl

theorem toStart_closeFrom (ids : Dict StageName String) (exit : StageExit)
    (remaining : List StageName) : (closeFrom ids exit remaining).toStart = 0 := by
  cases remaining with
  | nil => rfl
  | cons stage remaining =>
    rw [closeFrom]
    split <;> rfl

theorem toEnd_closeFrom (ids : Dict StageName String) (exit : StageExit)
    (remaining : List StageName) : (closeFrom ids exit remaining).toEnd = 0 := by
  cases remaining with
  | nil => rfl
  | cons stage remaining =>
    rw [closeFrom]
    split <;> rfl

section

variable {raises : Prop} {r : String} {body : PipelineBody (Except PyException String)}
  {plannedStages : List StageName} {q q' : Phase} {o : RunOp} {a : o.Ans}

theorem Next.toStart (Env : Type) (h : Next r body plannedStages q o a q') :
    (if isPassedCheck r (.own o a : Event _ _ Env) then 1 else 0) + q.toStart
      = (if isBeginWork (.own o a : Event _ _ Env) then 1 else 0) + q'.toStart := by
  cases h with
  | created | record => rw [toStart_arrive]; rfl
  | cancelStage | failStage | skip | cancel => rw [toStart_closeFrom]; rfl
  | stage hstep => cases hstep <;> simp [isPassedCheck, isBeginWork, Phase.toStart]
  | notFound | foundCancelled | found | cancelEarly | refused | accepted | notCreated | lost | beat
  | markCompleted | markCancelled | markFailed => rfl

theorem Next.toEnd (Env : Type) (h : Next r body plannedStages q o a q') :
    (if isPassedCheck r (.own o a : Event _ _ Env) then 1 else 0) + q.toEnd
      = (if isEndWork (.own o a : Event _ _ Env) then 1 else 0) + q'.toEnd := by
  cases h with
  | created | record => rw [toEnd_arrive]; rfl
  | cancelStage | failStage | skip | cancel => rw [toEnd_closeFrom]; rfl
  | stage hstep => cases hstep <;> simp [isPassedCheck, isEndWork, Phase.toEnd]
  | notFound | foundCancelled | found | cancelEarly | refused | accepted | notCreated | lost | beat
  | markCompleted | markCancelled | markFailed => rfl

/-- A passed check is one less to pass. -/
theorem Next.left (Env : Type) (h : Next r body plannedStages q o a q') (hq : q.Conforming raises)
    (hbody : Conforms raises body plannedStages) :
    ∀ l ∈ q'.left plannedStages.length,
      (if isPassedCheck r (.own o a : Event _ _ Env) then 1 else 0) + l
        ∈ q.left plannedStages.length := by
  cases h with
  | created ids =>
    intro l hl
    rw [left_arrive hbody l hl]
    simp [isPassedCheck, Phase.left]
  | record out =>
    intro l hl
    rw [left_arrive (hq.2 out.artifactId) l hl]
    simp [isPassedCheck, Phase.left]
  | cancelStage | failStage | skip | cancel =>
    rw [left_closeFrom]
    exact fun l hl ↦ (nomatch hl)
  | stage hstep =>
    cases hstep <;> simp [isPassedCheck, Phase.left, Nat.add_comm]
  | found | accepted | beat =>
    rintro l ⟨⟩
    simp [isPassedCheck, Phase.left]
  | notFound | foundCancelled | cancelEarly | refused | notCreated | lost
  | markCompleted | markCancelled | markFailed => exact fun l hl ↦ (nomatch hl)

end

/-- **How the counts of a history are related in each phase.** -/
structure Counted (raises : Prop) (r : String) (planned : ℕ) (q : Phase) (h : RunHistory Env) :
    Prop where
  conforming : q.Conforming raises
  started : worksStarted h + q.toStart = checksPassed r h
  ended : worksEnded h + q.toEnd = checksPassed r h
  left : ∀ l ∈ q.left planned, checksPassed r h + l = planned

theorem Counted.env {raises : Prop} {r : String} {planned : ℕ} {q : Phase} {h : RunHistory Env}
    {e : Env} {db db' : RunDb} (hJ : Counted raises r planned q h) :
    Counted raises r planned q (h ++ [⟨.env e, db, db'⟩]) := by
  refine ⟨hJ.conforming, ?_, ?_, ?_⟩ <;>
    simp only [worksStarted_append, worksEnded_append, checksPassed_append, worksStarted_singleton,
      worksEnded_singleton, checksPassed_singleton]
  · exact hJ.started
  · exact hJ.ended
  · exact hJ.left

theorem Counted.own {raises : Prop} {r : String} {body : PipelineBody (Except PyException String)}
    {plannedStages : List StageName} {q q' : Phase} {o : RunOp} {a : o.Ans} {h : RunHistory Env}
    {db db' : RunDb} (hJ : Counted raises r plannedStages.length q h)
    (hbody : Conforms raises body plannedStages) (hnext : Next r body plannedStages q o a q') :
    Counted raises r plannedStages.length q' (h ++ [⟨.own o a, db, db'⟩]) := by
  have hstart := hnext.toStart Env
  have hend := hnext.toEnd Env
  have hleft := hnext.left Env hJ.conforming hbody
  refine ⟨hnext.conforming hbody hJ.conforming, ?_, ?_, fun l hl ↦ ?_⟩ <;>
    simp only [worksStarted_append, worksEnded_append, checksPassed_append, worksStarted_singleton,
      worksEnded_singleton, checksPassed_singleton]
  · have := hJ.started
    omega
  · have := hJ.ended
    omega
  · have := hJ.left _ (hleft l hl)
    omega

end ForgeData
