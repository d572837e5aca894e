import ForgeData.Runs.Lifecycle

/-!
# The stages that were worked on

Which stage services a history shows to have been called and to have returned. At every point of an
execution both are an initial part of the plan, and the phase says which part.
-/

namespace ForgeData

open Python Interleaving

variable {Env : Type}

/-- The work that is started by the step. -/
def startedWork : Event RunOp RunOp.Ans Env → Option Work
  | .own (.beginWork w) _ => some w
  | _ => none

/-- The work that returns in the step, with the artifact it returns. -/
def returnedWork : Event RunOp RunOp.Ans Env → Option (Work × String)
  | .own (.endWork w) (.returned out) => some (w, out.artifactId)
  | _ => none

/-- The stages whose service was called, in order. -/
def startedStages (t : RunHistory Env) : List StageName :=
  t.filterMap fun x ↦ (startedWork x.event).map Work.stage

/-- The work that returned, in order, with its artifacts. -/
def returnedWorks (t : RunHistory Env) : List (Work × String) :=
  t.filterMap fun x ↦ returnedWork x.event

/-- The stages whose service returned, in order. -/
def returnedStages (t : RunHistory Env) : List StageName :=
  (returnedWorks t).map fun p ↦ p.1.stage

theorem startedStages_append_singleton (t : RunHistory Env) (x : RunStep Env) :
    startedStages (t ++ [x])
      = startedStages t ++ ((startedWork x.event).map Work.stage).toList := by
  rw [startedStages, List.filterMap_append, ← startedStages]
  rcases h : startedWork x.event with _ | w <;> simp [h]

theorem returnedWorks_append_singleton (t : RunHistory Env) (x : RunStep Env) :
    returnedWorks (t ++ [x]) = returnedWorks t ++ (returnedWork x.event).toList := by
  rw [returnedWorks, List.filterMap_append, ← returnedWorks]
  rcases h : returnedWork x.event with _ | w <;> simp [h]

theorem returnedStages_append_singleton (t : RunHistory Env) (x : RunStep Env) :
    returnedStages (t ++ [x])
      = returnedStages t ++ ((returnedWork x.event).map fun p ↦ p.1.stage).toList := by
  rw [returnedStages, returnedWorks_append_singleton, List.map_append, ← returnedStages]
  rcases returnedWork x.event with _ | w <;> rfl

/-- How the started and the returned stages are related to the plan in each phase. -/
def InOrder (planned : List StageName) : Phase → List StageName → List StageName → Prop
  | .queued, started, returned | .cancelledEarly, started, returned | .found, started, returned
  | .starting, started, returned => started = [] ∧ returned = []
  | .boundary c, started, returned | .inStage c _ .beat, started, returned
  | .inStage c _ .passed, started, returned | .inStage c _ .current, started, returned
  | .inStage c _ .started, started, returned =>
    returned ++ c.stage :: c.remaining = planned ∧ started = returned
  | .inStage c _ .working, started, returned | .inStage c _ (.failing _), started, returned =>
    returned ++ c.stage :: c.remaining = planned ∧ started = returned ++ [c.stage]
  | .inStage c _ .cancelling, started, returned =>
    returned ++ c.stage :: c.remaining = planned ∧
      (started = returned ∨ started = returned ++ [c.stage])
  | .inStage c _ (.returned _), started, returned
  | .inStage c _ (.counting _ _), started, returned
  | .inStage c _ (.recording _), started, returned =>
    (∃ before, returned = before ++ [c.stage]) ∧ returned ++ c.remaining = planned ∧
      started = returned
  | .closing .., started, returned | .ended _, started, returned | .done, started, returned =>
    started <+: planned ∧ returned <+: started

theorem inOrder_arrive {planned remaining returned : List StageName} {ids : Dict StageName String}
    {p : PipelineBody (Except PyException String)} (h : returned ++ remaining = planned) :
    InOrder planned (arrive ids p remaining) returned returned := by
  have hinitial : returned <+: planned := ⟨remaining, h⟩
  rcases p with (exc | packageId) | _
  · exact ⟨hinitial, List.prefix_rfl⟩
  · exact ⟨hinitial, List.prefix_rfl⟩
  · cases remaining with
    | nil => exact ⟨hinitial, List.prefix_rfl⟩
    | cons stage remaining => exact ⟨h, rfl⟩

theorem inOrder_closeFrom {planned remaining started returned : List StageName}
    {ids : Dict StageName String} {exit : StageExit} (hstarted : started <+: planned)
    (hreturned : returned <+: started) :
    InOrder planned (closeFrom ids exit remaining) started returned := by
  cases remaining with
  | nil => exact ⟨hstarted, hreturned⟩
  | cons stage remaining =>
    rw [closeFrom]
    split <;> exact ⟨hstarted, hreturned⟩

/-- **The executor's own steps keep the order.** -/
theorem Next.inOrder {raises : Prop} {r : String} {body : PipelineBody (Except PyException String)}
    {planned : List StageName} {q q' : Phase} {o : RunOp} {a : o.Ans}
    {started returned : List StageName} (h : Next r body planned q o a q')
    (hconforming : q.Conforming raises) (hq : InOrder planned q started returned) :
    InOrder planned q'
      (started ++ ((startedWork (.own o a : Event _ _ Env)).map Work.stage).toList)
      (returned ++ ((returnedWork (.own o a : Event _ _ Env)).map fun p ↦ p.1.stage).toList) := by
  cases h with
  | notFound | cancelEarly | refused | notCreated =>
    obtain ⟨rfl, rfl⟩ := hq
    exact ⟨List.nil_prefix, List.prefix_rfl⟩
  | created ids =>
    obtain ⟨rfl, rfl⟩ := hq
    exact inOrder_arrive (List.nil_append _)
  | lost hid =>
    obtain ⟨hplan, rfl⟩ := hq
    simp only [startedWork, returnedWork, Option.map_none, Option.toList_none, List.append_nil]
    exact ⟨⟨_, hplan⟩, List.prefix_rfl⟩
  | stage hstep =>
    cases hstep with
    -- a stage starts: it is the next one of the plan
    | begin =>
      obtain ⟨hplan, rfl⟩ := hq
      simp only [startedWork, returnedWork, Option.map_none, Option.toList_none, List.append_nil,
        Option.map_some, Option.toList_some, hconforming.1]
      exact ⟨hplan, rfl⟩
    -- and when it returns, the stages started are those returned
    | returned out =>
      obtain ⟨hplan, rfl⟩ := hq
      simp only [startedWork, returnedWork, Option.map_none, Option.toList_none, List.append_nil,
        Option.map_some, Option.toList_some, hconforming.1]
      exact ⟨⟨_, rfl⟩, by rw [List.append_assoc, List.singleton_append, hplan], rfl⟩
    | observed =>
      simp only [startedWork, returnedWork, Option.map_none, Option.toList_none, List.append_nil]
      exact ⟨hq.1, .inl hq.2⟩
    | interrupted =>
      simp only [startedWork, returnedWork, Option.map_none, Option.toList_none, List.append_nil]
      exact ⟨hq.1, .inr hq.2⟩
    | passed | current | start | blocked | raised | complete | completeCounting | count =>
      simp only [startedWork, returnedWork, Option.map_none, Option.toList_none, List.append_nil]
      exact hq
  | record out =>
    obtain ⟨-, hplan, rfl⟩ := hq
    simp only [startedWork, returnedWork, Option.map_none, Option.toList_none, List.append_nil]
    exact inOrder_arrive hplan
  -- cancellation can be noticed before the stage has started its work, or after
  | cancelStage =>
    obtain ⟨hplan, hstarted⟩ := hq
    simp only [startedWork, returnedWork, Option.map_none, Option.toList_none, List.append_nil]
    rcases hstarted with rfl | rfl
    · exact inOrder_closeFrom ⟨_, hplan⟩ List.prefix_rfl
    · exact inOrder_closeFrom ⟨_, by rw [List.append_assoc, List.singleton_append, hplan]⟩
        (List.prefix_append _ _)
  | failStage failure =>
    obtain ⟨hplan, rfl⟩ := hq
    simp only [startedWork, returnedWork, Option.map_none, Option.toList_none, List.append_nil]
    exact inOrder_closeFrom ⟨_, by rw [List.append_assoc, List.singleton_append, hplan]⟩
      (List.prefix_append _ _)
  | skip | cancel =>
    simp only [startedWork, returnedWork, Option.map_none, Option.toList_none, List.append_nil]
    exact inOrder_closeFrom hq.1 hq.2
  | foundCancelled | found | accepted | beat | markCompleted | markCancelled | markFailed =>
    simp only [startedWork, returnedWork, Option.map_none, Option.toList_none, List.append_nil]
    exact hq

end ForgeData
