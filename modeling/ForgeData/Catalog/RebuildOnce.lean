import ForgeData.Catalog.RebuildExecutor
import ForgeData.Catalog.Writes
import ForgeData.Interleaving.PoolProtocol

/-!
# Executions of one plan side by side

A call of `execute_rebuild` looks the plan up, recomputes its fingerprint, takes the lock, goes through
the steps, releases the lock, and only then removes the plan. Nothing is checked again under the lock.
So two calls that have both looked the plan up execute it one after the other, and a scan between the
check and the lock goes unnoticed.

The steps of a plan are run at most once, and never against another catalog, exactly if whoever gets the
lock still finds the plan stored, nobody else is between the lock and the removal, and the fingerprint is
still the one that the call has checked.
-/

namespace ForgeData

open Python Interleaving

/-- The operations on plans and on the locks of selective rebuilds. -/
def CatalogOp.OnPlans : CatalogOp → Prop
  | buildPlan .. | storePlan _ | getPlan _ | discardPlan _ => True
  | acquireRebuildLock _ | releaseRebuildLock _ => True
  | _ => False

/-- The artifact whose lock is granted by an operation with this answer. -/
def CatalogOp.locked : (o : CatalogOp) → o.Ans → Option ArtifactKey
  | .acquireRebuildLock old, .ok () => some old
  | _, _ => none

/-- `fingerprint_now`. -/
def CatalogState.fingerprintNow (sha : Json → String) (s : CatalogState) (plan : RebuildPlan) :
    Except CatalogError String :=
  (s.db.buildPlan sha plan.old plan.new).map RebuildPlan.fingerprint

/-- Calls of `execute_rebuild`, and programs that leave plans and rebuild locks alone: scans, full
rebuilds, and all others. -/
inductive RebuildParty : CatalogProg Unit → Prop
  | executeRebuild (planId : String) (configs : Dict String Json) :
      RebuildParty (executeRebuild planId configs).discard
  | other {p : CatalogProg Unit} : (p.Performs fun o ↦ ¬ o.OnPlans) → RebuildParty p

/-- Where a call of `execute_rebuild` is. -/
inductive RebuildPhase where
  | idle
  /-- The plan was found. -/
  | looked (planId : String) (plan : RebuildPlan)
  /-- The recomputed fingerprint is that of the plan. -/
  | checked (planId : String) (plan : RebuildPlan)
  /-- The lock was granted. -/
  | holding (planId : String) (plan : RebuildPlan)
  | released (planId : String)
  | ended

/-- Which operation a call performs in which phase. -/
inductive RebuildNext : Protocol CatalogOp CatalogOp.Ans RebuildPhase
  | other {o : CatalogOp} {a : o.Ans} : ¬ o.OnPlans → RebuildNext .idle o a .idle
  | getPlan (planId : String) (plan : RebuildPlan) :
      RebuildNext .idle (.getPlan planId) (some plan) (.looked planId plan)
  | planMissing (planId : String) : RebuildNext .idle (.getPlan planId) none .ended
  | check {planId : String} {plan current : RebuildPlan} : current.fingerprint = plan.fingerprint →
      RebuildNext (.looked planId plan) (.buildPlan plan.old plan.new) (.ok current)
        (.checked planId plan)
  | stale {planId : String} {plan : RebuildPlan} (a : Except CatalogError RebuildPlan) :
      RebuildNext (.looked planId plan) (.buildPlan plan.old plan.new) a .ended
  | lock {planId : String} {plan : RebuildPlan} :
      RebuildNext (.checked planId plan) (.acquireRebuildLock plan.old) (.ok ())
        (.holding planId plan)
  | busy {planId : String} {plan : RebuildPlan} (e : CatalogError) :
      RebuildNext (.checked planId plan) (.acquireRebuildLock plan.old) (.error e) .ended
  | work {planId : String} {plan : RebuildPlan} {o : CatalogOp} {a : o.Ans} : ¬ o.OnPlans →
      RebuildNext (.holding planId plan) o a (.holding planId plan)
  | release {planId : String} {plan : RebuildPlan} :
      RebuildNext (.holding planId plan) (.releaseRebuildLock plan.old) () (.released planId)
  | discard {planId : String} : RebuildNext (.released planId) (.discardPlan planId) () .ended

/-! ## The calls keep to the protocol -/

theorem performs_executeStep (configs : Dict String Json) (st : ExecutorState) (step : PlanStep) :
    (executeStep configs st step).Performs fun o ↦ ¬ o.OnPlans := by
  rw [executeStep]
  split
  · trivial
  split
  · trivial
  refine .bind (.bind ?_ fun request ↦ ?_) fun result ↦ ?_
  · rw [readRequest]
    split
    · exact ⟨id, fun _ ↦ trivial⟩
    · trivial
  · cases request
    · trivial
    · exact ⟨id, fun _ ↦ trivial⟩
  · cases result with
    | error e => trivial
    | ok newId =>
      refine .bind ⟨id, fun row ↦ ⟨id, fun _ ↦ trivial⟩⟩ fun written ↦ ?_
      cases written <;> trivial

theorem RebuildPlan.performs_execute (plan : RebuildPlan) (configs : Dict String Json) :
    (plan.execute configs).Performs fun o ↦ ¬ o.OnPlans :=
  .bind (Prog.Performs.foldlM (performs_executeStep configs) _ _) fun _ ↦ trivial

theorem follows_of_not_onPlans {α : Type} {p : CatalogProg α} {q : RebuildPhase}
    (hq : ∀ o a, ¬ CatalogOp.OnPlans o → RebuildNext q o a q)
    (hp : p.Performs fun o ↦ ¬ o.OnPlans) : p.Follows RebuildNext (fun _ q' ↦ q' = q) q := by
  induction p with
  | pure a => rfl
  | call o k ih => exact fun a ↦ ⟨q, hq o a hp.1, ih a (hp.2 a)⟩

/-- **A call of `execute_rebuild` keeps to its protocol.** -/
theorem follows_rebuildNext (planId : String) (configs : Dict String Json) :
    (executeRebuild planId configs).Follows RebuildNext (fun _ _ ↦ True) .idle := by
  refine Prog.follows_op_bind.2 fun stored ↦ ?_
  rcases stored with _ | plan
  · exact ⟨.ended, .planMissing planId, trivial⟩
  refine ⟨.looked planId plan, .getPlan planId plan, Prog.follows_op_bind.2 fun current ↦ ?_⟩
  rcases current with e | current
  · exact ⟨.ended, .stale _, trivial⟩
  by_cases hfingerprint : current.fingerprint ≠ plan.fingerprint
  · refine ⟨.ended, .stale _, ?_⟩
    simp only [if_pos hfingerprint]
    trivial
  refine ⟨.checked planId plan, .check (not_not.1 hfingerprint), ?_⟩
  simp only [if_neg hfingerprint]
  refine Prog.follows_op_bind.2 fun locked ↦ ?_
  rcases locked with e | _
  · refine ⟨.ended, .busy e, ?_⟩
    cases e <;> trivial
  · exact ⟨.holding planId plan, .lock, (follows_of_not_onPlans (fun _ _ ↦ .work)
      (plan.performs_execute configs)).bind fun results q hq ↦ hq ▸
        fun _ ↦ ⟨.released planId, .release, fun _ ↦ ⟨.ended, .discard, trivial⟩⟩⟩

theorem RebuildParty.follows {p : CatalogProg Unit} (hp : RebuildParty p) :
    p.Follows RebuildNext (fun _ _ ↦ True) .idle := by
  cases hp with
  | executeRebuild planId configs =>
    exact (follows_rebuildNext planId configs).bind fun _ _ _ ↦ trivial
  | other hp => exact (follows_of_not_onPlans (fun _ _ ↦ .other) hp).mono fun _ _ _ ↦ trivial

/-! ## What the steps of a run show -/

variable {sha : Json → String} {s s' s₀ : CatalogState} {t : List CatalogStep} {i : ℕ}
  {planId : String} {plan : RebuildPlan}

/-- The step finds the plan stored under the id. -/
def LooksUp (planId : String) (plan : RebuildPlan) (x : CatalogStep) : Prop :=
  x.op = .getPlan planId ∧ x.before.plans.get? planId = some plan

/-- With this step a call that has looked the plan up gets the lock, and goes on to its steps. -/
def StartsPlan (t : List CatalogStep) (x : CatalogStep) (planId : String) (plan : RebuildPlan) : Prop :=
  x.op.locked x.ans = some plan.old ∧ ∃ y ∈ t, y.thread = x.thread ∧ LooksUp planId plan y

/-- Some call has started the steps of the plan. -/
def Started (t : List CatalogStep) (planId : String) : Prop :=
  ∃ t₁ x t₂ plan, t = t₁ ++ x :: t₂ ∧ StartsPlan t₁ x planId plan

theorem Started.append (h : Started t planId) (t' : List CatalogStep) : Started (t ++ t') planId := by
  obtain ⟨t₁, x, t₂, plan, rfl, hstart⟩ := h
  exact ⟨t₁, x, t₂ ++ t', plan, by simp, hstart⟩

theorem Started.of_getElem {n : ℕ} (hn : n < t.length) (h : StartsPlan (t.take n) t[n] planId plan) :
    Started t planId := by
  refine ⟨t.take n, t[n], t.drop (n + 1), plan, ?_, h⟩
  rw [← List.drop_eq_getElem_cons hn, List.take_append_drop]

/-- The thread has looked up this plan, and no other. -/
structure HasPlan (i : ℕ) (t : List CatalogStep) (planId : String) (plan : RebuildPlan) : Prop where
  found : ∃ x ∈ t, x.thread = i ∧ LooksUp planId plan x
  unique : ∀ x ∈ t, x.thread = i → ∀ planId' plan', LooksUp planId' plan' x →
    planId' = planId ∧ plan' = plan

/-- The thread has recomputed the fingerprint, and found that of the plan whenever it did. -/
structure HasChecked (sha : Json → String) (i : ℕ) (t : List CatalogStep) (plan : RebuildPlan) :
    Prop where
  checked : ∃ x ∈ t, x.thread = i ∧ x.op = .buildPlan plan.old plan.new
  agrees : ∀ x ∈ t, x.thread = i → x.op = .buildPlan plan.old plan.new →
    x.before.fingerprintNow sha plan = .ok plan.fingerprint

/-- What holds of a thread in its phase. -/
def RebuildPhase.Holds (sha : Json → String) (i : ℕ) (t : List CatalogStep) : RebuildPhase → Prop
  | .idle => ∀ x ∈ t, x.thread = i → ¬ x.op.OnPlans
  | .looked planId plan =>
    HasPlan i t planId plan ∧ ∀ x ∈ t, x.thread = i → ∀ old new, x.op ≠ .buildPlan old new
  | .checked planId plan => HasPlan i t planId plan ∧ HasChecked sha i t plan
  | .holding planId _ | .released planId => Started t planId
  | .ended => True

/-- Steps of other threads do not matter. -/
theorem RebuildPhase.Holds.append {q : RebuildPhase} {x : CatalogStep} (h : q.Holds sha i t)
    (hx : x.thread ≠ i) : q.Holds sha i (t ++ [x]) := by
  have hall : ∀ {P : CatalogStep → Prop}, (∀ y ∈ t, y.thread = i → P y) →
      ∀ y ∈ t ++ [x], y.thread = i → P y := by
    intro P hP y hy hthread
    rcases List.mem_append.1 hy with hy | hy
    · exact hP y hy hthread
    · exact (hx (List.mem_singleton.1 hy ▸ hthread)).elim
  have hsome : ∀ {P : CatalogStep → Prop}, (∃ y ∈ t, y.thread = i ∧ P y) →
      ∃ y ∈ t ++ [x], y.thread = i ∧ P y := by
    rintro P ⟨y, hy, hP⟩
    exact ⟨y, List.mem_append_left _ hy, hP⟩
  cases q with
  | idle => exact hall h
  | looked planId plan => exact ⟨⟨hsome h.1.found, hall h.1.unique⟩, hall h.2⟩
  | checked planId plan =>
    exact ⟨⟨hsome h.1.found, hall h.1.unique⟩, ⟨hsome h.2.checked, hall h.2.agrees⟩⟩
  | holding planId plan => exact Started.append h _
  | released planId => exact Started.append h _
  | ended => trivial

theorem forall_own_append {P : CatalogStep → Prop} {x : CatalogStep}
    (h : ∀ y ∈ t, y.thread = i → P y) (hx : P x) : ∀ y ∈ t ++ [x], y.thread = i → P y := by
  intro y hy hthread
  rcases List.mem_append.1 hy with hy | hy
  · exact h y hy hthread
  · exact List.mem_singleton.1 hy ▸ hx

/-- **A step of a call** leads to what holds in its next phase. -/
theorem RebuildPhase.Holds.next {o : CatalogOp} {a : o.Ans} {q q' : RebuildPhase}
    (h : q.Holds sha i t) (hnext : RebuildNext q o a q') (hsem : CatalogSem sha o s a s') :
    q'.Holds sha i (t ++ [⟨i, o, a, s, s'⟩]) := by
  cases hnext with
  | other ho => exact forall_own_append h ho
  | getPlan planId plan =>
    obtain ⟨_, hrun⟩ := hsem
    have hstored : s.plans.get? planId = some plan := congrArg Prod.fst hrun
    refine ⟨⟨⟨_, List.mem_append_right _ (List.mem_singleton_self _), rfl, rfl, hstored⟩,
      forall_own_append (fun x hx hi planId' plan' hlook ↦ ?_) fun planId' plan' hlook ↦ ?_⟩,
      forall_own_append (fun x hx hi old new ho ↦ ?_) nofun⟩
    · exact (h x hx hi (hlook.1 ▸ trivial)).elim
    · obtain rfl : planId = planId' := CatalogOp.getPlan.inj hlook.1
      exact ⟨rfl, Option.some.inj (hlook.2.symm.trans hstored)⟩
    · exact h x hx hi (ho ▸ trivial)
  | planMissing planId => trivial
  | @check planId plan current hfingerprint =>
    obtain ⟨_, hrun⟩ := hsem
    have hbuild : s.db.buildPlan sha plan.old plan.new = .ok current := congrArg Prod.fst hrun
    refine ⟨⟨?_, forall_own_append h.1.unique nofun⟩,
      ⟨⟨_, List.mem_append_right _ (List.mem_singleton_self _), rfl, rfl⟩,
        forall_own_append (fun x hx hi ho ↦ (h.2 x hx hi _ _ ho).elim) fun _ ↦ ?_⟩⟩
    · obtain ⟨x, hx, hfound⟩ := h.1.found
      exact ⟨x, List.mem_append_left _ hx, hfound⟩
    · rw [CatalogState.fingerprintNow, hbuild, ← hfingerprint]
      rfl
  | stale | busy | discard => trivial
  | lock =>
    obtain ⟨x, hx, hi, hlook⟩ := h.1.found
    exact ⟨t, _, [], _, rfl, rfl, x, hx, hi, hlook⟩
  | work _ => exact Started.append h _
  | release => exact Started.append h _

/-! ## The stored plans -/

theorem CatalogInput.transact_plans {α : Type} {i : CatalogInput}
    {result : Except CatalogError (α × CatalogDb)} {answer : Except CatalogError α}
    (h : i.transact s result = (answer, s')) : s'.plans = s.plans := by
  rcases CatalogInput.transact_cases h with ⟨_, _, _, _, _, rfl⟩ | ⟨-, rfl⟩ <;> rfl

/-- Plans are stored by `build_rebuild_plan` and removed by `discard_plan`. -/
theorem CatalogSem.plans {o : CatalogOp} {a : o.Ans} (h : CatalogSem sha o s a s')
    (hstore : ∀ plan, o ≠ .storePlan plan) (hdiscard : ∀ planId, o ≠ .discardPlan planId) :
    s'.plans = s.plans := by
  obtain ⟨i, hrun⟩ := h
  cases o with
  | storePlan plan => exact (hstore plan rfl).elim
  | discardPlan planId => exact (hdiscard planId rfl).elim
  | changeGovernance | changeVersionGovernance =>
    simp only [CatalogOp.run] at hrun
    split at hrun
    · cases hrun
      rfl
    · exact CatalogInput.transact_plans hrun
  | markSuperseded | createDataset | createDatasetVersion => exact CatalogInput.transact_plans hrun
  | scan | rebuildIndex =>
    simp only [CatalogOp.run] at hrun
    split at hrun <;> cases hrun <;> rfl
  | acquireIndexLock | acquireRebuildLock =>
    simp only [CatalogOp.run] at hrun
    split at hrun
    · cases hrun
      rfl
    · split at hrun <;> cases hrun <;> rfl
  | _ =>
    cases hrun
    rfl

theorem RebuildNext.plans {o : CatalogOp} {a : o.Ans} {q q' : RebuildPhase}
    (hnext : RebuildNext q o a q') (hsem : CatalogSem sha o s a s') (planId : String) :
    s'.plans.get? planId = if o = .discardPlan planId then none else s.plans.get? planId := by
  by_cases hdiscard : ∃ planId', o = .discardPlan planId'
  · obtain ⟨planId', rfl⟩ := hdiscard
    obtain ⟨_, hrun⟩ := hsem
    cases hrun
    simp only [Dict.get?_erase, CatalogOp.discardPlan.injEq, eq_comm]
  · rw [if_neg fun h ↦ hdiscard ⟨planId, h⟩, hsem.plans (fun plan hplan ↦ ?_)
      fun planId' h ↦ hdiscard ⟨planId', h⟩]
    subst hplan
    cases hnext with
    | other ho => exact ho trivial
    | work ho => exact ho trivial

/-- What holds of the callers wherever they have got to. -/
structure RebuildsHold (sha : Json → String) (s₀ : CatalogState) (phase : ℕ → RebuildPhase)
    (t : List CatalogStep) (s : CatalogState) : Prop where
  phases : ∀ i, (phase i).Holds sha i t
  kept : ∀ planId plan, s.plans.get? planId = some plan → s₀.plans.get? planId = some plan
  removed : ∀ planId, (∃ x ∈ t, x.op = .discardPlan planId) → s.plans.get? planId = none
  gone : ∀ planId, s.plans.get? planId = none →
    s₀.plans.get? planId = none ∨ ∃ x ∈ t, x.op = .discardPlan planId
  looked : ∀ x ∈ t, ∀ planId plan, LooksUp planId plan x → s₀.plans.get? planId = some plan
  checked : ∀ t₁ x t₂, t = t₁ ++ x :: t₂ → ∀ planId plan, StartsPlan t₁ x planId plan →
    HasChecked sha x.thread t₁ plan
  started : ∀ t₁ x t₂, t = t₁ ++ x :: t₂ → ∀ planId, x.op = .discardPlan planId → Started t₁ planId

theorem RebuildsHold.init (s : CatalogState) : RebuildsHold sha s (fun _ ↦ .idle) [] s where
  phases _ := List.forall_mem_nil _
  kept _ _ := id
  removed _ h := by simp at h
  gone _ := .inl
  looked := List.forall_mem_nil _
  checked t₁ x t₂ ht := by simp at ht
  started t₁ x t₂ ht := by simp at ht

theorem RebuildPhase.Holds.hasChecked {o : CatalogOp} {a : o.Ans} {q q' : RebuildPhase}
    (h : q.Holds sha i t) (hnext : RebuildNext q o a q')
    (hstart : StartsPlan t ⟨i, o, a, s, s'⟩ planId plan) : HasChecked sha i t plan := by
  obtain ⟨hlocked, x, hx, hi, hlook⟩ := hstart
  cases hnext with
  | lock =>
    obtain ⟨rfl, rfl⟩ := h.1.unique x hx hi planId plan hlook
    exact h.2
  | other ho | work ho =>
    cases o with
    | acquireRebuildLock old => exact (ho trivial).elim
    | _ => cases hlocked
  | _ => cases hlocked

/-- **A step of a caller.** -/
theorem RebuildsHold.step {phase : ℕ → RebuildPhase} {o : CatalogOp} {a : o.Ans} {q : RebuildPhase}
    (h : RebuildsHold sha s₀ phase t s) (hnext : RebuildNext (phase i) o a q)
    (hsem : CatalogSem sha o s a s') :
    RebuildsHold sha s₀ (Function.update phase i q) (t ++ [⟨i, o, a, s, s'⟩]) s' := by
  have hplans := hnext.plans hsem
  refine ⟨fun j ↦ ?_, fun planId plan hplan ↦ ?_, fun planId hremoved ↦ ?_, fun planId hnone ↦ ?_,
    fun x hx planId plan hlook ↦ ?_, fun t₁ x t₂ ht planId plan hstart ↦ ?_,
    fun t₁ x t₂ ht planId ho ↦ ?_⟩
  -- the caller that moved has its next phase; the others have more steps behind them
  · by_cases hji : j = i
    · subst hji
      rw [Function.update_self]
      exact (h.phases j).next hnext hsem
    · rw [Function.update_of_ne hji]
      exact (h.phases j).append (Ne.symm hji)
  · rw [hplans] at hplan
    split at hplan
    · cases hplan
    · exact h.kept planId plan hplan
  · rw [hplans]
    split
    · rfl
    · next ho =>
      obtain ⟨x, hx, hop⟩ := hremoved
      rcases List.mem_append.1 hx with hx | hx
      · exact h.removed planId ⟨x, hx, hop⟩
      · rw [List.mem_singleton.1 hx] at hop
        exact (ho hop).elim
  · rw [hplans] at hnone
    split at hnone
    · next ho => exact .inr ⟨_, List.mem_append_right _ (List.mem_singleton_self _), ho⟩
    · refine (h.gone planId hnone).imp_right ?_
      rintro ⟨x, hx, hop⟩
      exact ⟨x, List.mem_append_left _ hx, hop⟩
  · rcases List.mem_append.1 hx with hx | hx
    · exact h.looked x hx planId plan hlook
    · rw [List.mem_singleton.1 hx] at hlook
      exact h.kept planId plan hlook.2
  -- a start or a removal is an old one, or the last step
  · rcases append_singleton_eq_append_cons ht with ⟨rfl, rfl, -⟩ | ⟨t₂', -, rfl⟩
    · exact (h.phases i).hasChecked hnext hstart
    · exact h.checked t₁ x t₂' rfl planId plan hstart
  · rcases append_singleton_eq_append_cons ht with ⟨rfl, rfl, -⟩ | ⟨t₂', -, rfl⟩
    · have hphase := h.phases i
      obtain rfl : o = .discardPlan planId := ho
      generalize phase i = q₀ at hnext hphase
      cases hnext with
      | other ho => exact (ho trivial).elim
      | work ho => exact (ho trivial).elim
      | discard => exact hphase
    · exact h.started t₁ x t₂' rfl planId ho

/-! ## Once, and up to date -/

/-- No two calls run the steps of one plan. -/
def ExecutedOnce (t : List CatalogStep) : Prop :=
  ∀ t₁ x t₂, t = t₁ ++ x :: t₂ → ∀ planId plan, StartsPlan t₁ x planId plan → ¬ Started t₁ planId

/-- Whoever gets the lock for the steps of a plan holds it in a catalog with the fingerprint of the
plan. -/
def ExecutedUpToDate (sha : Json → String) (t : List CatalogStep) : Prop :=
  ∀ t₁ x t₂, t = t₁ ++ x :: t₂ → ∀ planId plan, StartsPlan t₁ x planId plan →
    x.after.fingerprintNow sha plan = .ok plan.fingerprint

/-- When a call gets the lock, its plan is still stored, and every other call that has started the plan
has removed it: none is between the lock and the removal. Unless a removed plan is stored again under its
id, both together come to this: no other call has started the plan. A look at the store under the lock
would find those that have removed it, and miss those that have not yet. -/
def PlanStored (t : List CatalogStep) : Prop :=
  ∀ t₁ x t₂, t = t₁ ++ x :: t₂ → ∀ planId plan, StartsPlan t₁ x planId plan →
    x.before.plans.get? planId ≠ none ∧
      ∀ u₁ y u₂ plan', t₁ = u₁ ++ y :: u₂ → StartsPlan u₁ y planId plan' →
        ∃ z ∈ u₂, z.op = .discardPlan planId

/-- When a call gets the lock, the fingerprint is the one that it computed for its check. -/
def FingerprintKept (sha : Json → String) (t : List CatalogStep) : Prop :=
  ∀ t₁ x t₂, t = t₁ ++ x :: t₂ → ∀ planId plan, StartsPlan t₁ x planId plan →
    ∀ y ∈ t₁, y.thread = x.thread → y.op = .buildPlan plan.old plan.new →
      x.before.fingerprintNow sha plan = y.before.fingerprintNow sha plan

theorem StartsPlan.db_eq {x : CatalogStep} (h : StartsPlan t x planId plan)
    (hsem : CatalogSem sha x.op x.before x.ans x.after) : x.after.db = x.before.db := by
  obtain ⟨i, o, a, s, s'⟩ := x
  rcases hsem.writes with hdb | hwrites
  · exact hdb
  · have hlocked := h.1
    generalize s'.db = db' at hwrites
    cases hwrites <;> cases hlocked

/-- **Executions of a plan**: in a run of calls of `execute_rebuild`, scans, full rebuilds and other
programs, every plan is executed at most once and only when it is up to date, if and only if whoever
gets the lock finds the plan still stored, nobody else between the lock and its removal, and the
fingerprint unchanged since the check. -/
theorem executedOnce_iff {qs : List (CatalogProg Unit)}
    (h : CatalogRun sha RebuildParty [] s t qs s') :
    ExecutedOnce t ∧ ExecutedUpToDate sha t ↔ PlanStored t ∧ FingerprintKept sha t := by
  have hhold : ∀ {t' qs' s''}, CatalogRun sha RebuildParty [] s t' qs' s'' →
      ∃ phase, RebuildsHold sha s phase t' s'' := fun hrun ↦
    hrun.exists_phases (J := RebuildsHold sha s) (fun _ hp ↦ hp.follows)
      (fun hJ hnext hsem ↦ hJ.step hnext hsem) (.init s)
  obtain ⟨phase, hend⟩ := hhold h
  -- taking the lock leaves the tables, so the fingerprint is the same on both sides
  have hafter : ∀ {t₁ x t₂ planId plan}, t = t₁ ++ x :: t₂ → StartsPlan t₁ x planId plan →
      x.after.fingerprintNow sha plan = x.before.fingerprintNow sha plan := by
    rintro t₁ x t₂ planId plan rfl hstart
    have hx := h.sem_of_mem x (List.mem_append_right _ (List.mem_cons_self ..))
    rw [CatalogState.fingerprintNow, hstart.db_eq hx, CatalogState.fingerprintNow]
  constructor
  · rintro ⟨honce, hupToDate⟩
    refine ⟨fun t₁ x t₂ ht planId plan hstart ↦ ⟨fun hnone ↦ ?_,
      fun u₁ y u₂ plan' hu hstart' ↦ ?_⟩, fun t₁ x t₂ ht planId plan hstart y hy hthread hop ↦ ?_⟩
    -- a plan that is gone was removed by a call that had started it, against once
    · subst ht
      obtain ⟨qs', hpre⟩ := h.exists_until
      obtain ⟨phase', hbefore⟩ := hhold hpre
      obtain ⟨y, hy, -, hlook⟩ := hstart.2
      rcases hbefore.gone planId hnone with hnone₀ | ⟨z, hz, hop⟩
      · rw [hbefore.looked y hy planId plan hlook] at hnone₀
        cases hnone₀
      · obtain ⟨v₁, v₂, rfl⟩ := List.append_of_mem hz
        exact honce _ x t₂ rfl planId plan hstart
          ((hbefore.started v₁ z v₂ rfl planId hop).append _)
    · exact (honce t₁ x t₂ ht planId plan hstart ⟨u₁, y, u₂, plan', hu, hstart'⟩).elim
    · rw [(hend.checked t₁ x t₂ ht planId plan hstart).agrees y hy hthread hop,
        ← hafter ht hstart]
      exact hupToDate t₁ x t₂ ht planId plan hstart
  · rintro ⟨hstored, hkept⟩
    refine ⟨fun t₁ x t₂ ht planId plan hstart hstarted ↦ ?_,
      fun t₁ x t₂ ht planId plan hstart ↦ ?_⟩
    -- and a second start comes after the removal of the first, when the plan is gone
    · obtain ⟨hsome, hothers⟩ := hstored t₁ x t₂ ht planId plan hstart
      obtain ⟨u₁, y, u₂, plan', rfl, hstart'⟩ := hstarted
      obtain ⟨z, hz, hop⟩ := hothers u₁ y u₂ plan' rfl hstart'
      subst ht
      obtain ⟨qs', hpre⟩ := h.exists_until
      obtain ⟨phase', hbefore⟩ := hhold hpre
      exact hsome (hbefore.removed planId
        ⟨z, List.mem_append_right _ (List.mem_cons_of_mem _ hz), hop⟩)
    · have hchecked := hend.checked t₁ x t₂ ht planId plan hstart
      obtain ⟨y, hy, hthread, hop⟩ := hchecked.checked
      rw [hafter ht hstart, hkept t₁ x t₂ ht planId plan hstart y hy hthread hop]
      exact hchecked.agrees y hy hthread hop

/-! ## Two calls on one plan -/

/-- The catalog of the recording, with a stored plan. -/
def plannedState : CatalogState :=
  ((CatalogOp.storePlan resynchronize).run (fun _ ↦ "") servingInput recordedState).2

/-- Two calls on the plan, with the turns of the two. -/
def executeBeside (turns : List ℕ) : List CatalogTurn :=
  [.start (executeRebuild "plan1" Dict.empty).discard,
    .start (executeRebuild "plan1" Dict.empty).discard] ++
    turns.map fun thread ↦ .act thread servingInput

/-- The run with these turns. -/
def executedBeside (turns : List ℕ) : PoolPoint CatalogOp CatalogOp.Ans CatalogState :=
  simulateCatalog (fun _ ↦ "") (executeBeside turns) plannedState

theorem catalogRun_executedBeside {Party : CatalogProg Unit → Prop}
    (hparty : ∀ planId configs, Party (executeRebuild planId configs).discard) (turns : List ℕ) :
    CatalogRun (fun _ ↦ "") Party [] plannedState (executedBeside turns).history
      (executedBeside turns).threads (executedBeside turns).state := by
  refine catalogRun_simulate (fun p hp ↦ ?_) plannedState
  simp only [executeBeside, List.cons_append, List.nil_append, List.mem_cons, PoolTurn.start.injEq,
    List.mem_map, reduceCtorEq, and_false, exists_false, or_false, or_self] at hp
  exact hp ▸ hparty _ _

/-- What a step finds in the store of plans. -/
def lookedUp (x : CatalogStep) : Option (String × RebuildPlan) :=
  match x.op with
  | .getPlan planId => (x.before.plans.get? planId).map (planId, ·)
  | _ => none

theorem LooksUp.lookedUp {x : CatalogStep} (h : LooksUp planId plan x) :
    lookedUp x = some (planId, plan) := by
  rw [ForgeData.lookedUp, h.1]
  exact congrArg (Option.map _) h.2

/-- The second call comes when the first one is through: it does not find the plan any more. -/
theorem executedOnce_iff_oneAfterTheOther :
    PlanStored (executedBeside [0, 0, 0, 0, 0, 0, 0, 0, 0, 1, 1, 1]).history ∧
      FingerprintKept (fun _ ↦ "")
        (executedBeside [0, 0, 0, 0, 0, 0, 0, 0, 0, 1, 1, 1]).history := by
  refine (executedOnce_iff (catalogRun_executedBeside .executeRebuild _)).1
    ⟨forall_split_iff.2 ?_, forall_split_iff.2 ?_⟩
  · have hlocked : ∀ n (hn : n <
        (executedBeside [0, 0, 0, 0, 0, 0, 0, 0, 0, 1, 1, 1]).history.length),
        ((executedBeside [0, 0, 0, 0, 0, 0, 0, 0, 0, 1, 1, 1]).history[n].op.locked
          (executedBeside [0, 0, 0, 0, 0, 0, 0, 0, 0, 1, 1, 1]).history[n].ans).isSome →
        ∀ y ∈ (executedBeside [0, 0, 0, 0, 0, 0, 0, 0, 0, 1, 1, 1]).history.take n,
          y.op.locked y.ans = none := by decide +kernel
    rintro n hn planId plan hstart ⟨t₁, y, t₂, plan', ht, hstart'⟩
    have hnone := hlocked n hn (Option.isSome_iff_exists.2 ⟨_, hstart.1⟩) y (by simp [ht])
    rw [hstart'.1] at hnone
    cases hnone
  · have hdate : ∀ n (hn : n <
        (executedBeside [0, 0, 0, 0, 0, 0, 0, 0, 0, 1, 1, 1]).history.length),
        ∀ y ∈ (executedBeside [0, 0, 0, 0, 0, 0, 0, 0, 0, 1, 1, 1]).history.take n,
          ∀ p ∈ lookedUp y, CatalogState.fingerprintNow (fun _ ↦ "")
            (executedBeside [0, 0, 0, 0, 0, 0, 0, 0, 0, 1, 1, 1]).history[n].after p.2
              = .ok p.2.fingerprint := by decide +kernel
    rintro n hn planId plan ⟨-, y, hy, -, hlook⟩
    exact hdate n hn y hy _ hlook.lookedUp

instance (x : CatalogStep) : Decidable (StartsPlan t x planId plan) :=
  inferInstanceAs (Decidable (_ = _ ∧ ∃ y ∈ t, y.thread = x.thread ∧ _ = _ ∧ _ = _))

/-- Both calls look the plan up and check it before either takes the lock: its steps are run twice. -/
theorem executedOnce_fails :
    ¬ ∀ (t : List CatalogStep) (qs : List (CatalogProg Unit)) (s' : CatalogState),
      CatalogRun (fun _ ↦ "") (fun p ↦ ∃ planId configs, p = (executeRebuild planId configs).discard)
        [] plannedState t qs s' → ExecutedOnce t := by
  intro h
  have honce := forall_split_iff.1 (h _ _ _ (catalogRun_executedBeside (fun _ _ ↦ ⟨_, _, rfl⟩)
    [0, 0, 1, 1, 0, 0, 0, 0, 0, 0, 0, 1])) 11 (by decide +kernel) "plan1" resynchronize
    (by decide +kernel)
  have hfirst : ∃ hn : 4 < ((executedBeside [0, 0, 1, 1, 0, 0, 0, 0, 0, 0, 0, 1]).history.take 11).length,
      StartsPlan (((executedBeside [0, 0, 1, 1, 0, 0, 0, 0, 0, 0, 0, 1]).history.take 11).take 4)
        ((executedBeside [0, 0, 1, 1, 0, 0, 0, 0, 0, 0, 0, 1]).history.take 11)[4] "plan1"
        resynchronize := ⟨by decide +kernel, by decide +kernel⟩
  obtain ⟨hn, hstart⟩ := hfirst
  exact honce (.of_getElem hn hstart)

end ForgeData
