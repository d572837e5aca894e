import Mathlib.Data.List.Basic
import Mathlib.Tactic.Common

/-!
# Run and stage state machines

The two transition tables of the run subsystem and the checks made against them. A finished run is
never started again: the three terminal statuses have no successor.
-/

namespace ForgeData

inductive RunStatus where
  | queued
  | running
  | completed
  | failed
  | cancelRequested
  | cancelled
  deriving DecidableEq, Repr

namespace RunStatus

/-- The value stored in `pipeline_runs.status`. -/
def value : RunStatus → String
  | queued => "queued"
  | running => "running"
  | completed => "completed"
  | failed => "failed"
  | cancelRequested => "cancel_requested"
  | cancelled => "cancelled"

/-- `_RUN_TRANSITIONS`. -/
def transitions : RunStatus → List RunStatus
  | queued => [running, failed, cancelRequested]
  | running => [completed, failed, cancelRequested]
  | cancelRequested => [cancelled, completed, failed]
  | completed => []
  | failed => []
  | cancelled => []

/-- `RUN_TERMINAL_STATUSES`. -/
def Terminal (s : RunStatus) : Prop := s = completed ∨ s = failed ∨ s = cancelled

instance : DecidablePred Terminal := fun _ ↦ inferInstanceAs (Decidable (_ ∨ _))

/-- The statuses that occupy a slot of local execution capacity. -/
def Active (s : RunStatus) : Prop := s = queued ∨ s = running ∨ s = cancelRequested

instance : DecidablePred Active := fun _ ↦ inferInstanceAs (Decidable (_ ∨ _))

theorem terminal_iff_transitions_eq_nil {s : RunStatus} : s.Terminal ↔ s.transitions = [] := by
  cases s <;> decide

theorem terminal_iff_not_active {s : RunStatus} : s.Terminal ↔ ¬ s.Active := by
  cases s <;> decide

end RunStatus

inductive RunError where
  | runNotFound (message : String)
  | invalidRunTransition (message : String)
  | runCapacityExceeded (limit current : ℕ)
  | invalidPipelineConfig (message : String)
  /-- A primary key that is already taken. -/
  | integrityError
  deriving DecidableEq, Repr

def validateRunTransition (previous new : RunStatus) : Except RunError Unit :=
  if new ∈ previous.transitions then .ok ()
  else .error (.invalidRunTransition
    s!"{previous.value} -> {new.value} is not an allowed run transition")

inductive StageStatus where
  | pending
  | running
  | completed
  | failed
  | skipped
  | cancelled
  deriving DecidableEq, Repr

/-- `_STAGE_TRANSITIONS`. -/
def StageStatus.transitions : StageStatus → List StageStatus
  | pending => [running, skipped, cancelled]
  | running => [completed, failed, cancelled]
  | completed => []
  | failed => []
  | skipped => []
  | cancelled => []

/-- A stage row that is neither pending nor running. -/
def StageStatus.Closed (s : StageStatus) : Prop := s ≠ .pending ∧ s ≠ .running

instance : DecidablePred StageStatus.Closed := fun _ ↦ inferInstanceAs (Decidable (_ ∧ _))

end ForgeData
