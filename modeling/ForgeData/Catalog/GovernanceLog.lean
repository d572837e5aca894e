import ForgeData.Catalog.RebuildExecutor
import ForgeData.Catalog.Service
import ForgeData.Catalog.Writes
import ForgeData.Interleaving.PoolProtocol
import Mathlib.Data.List.Chain

/-!
# The log of governance changes

Every change of an artifact's governance state is recorded with the state before it and the state after
it. The log replays if these fit together and lead from active to the state that is stored now.

`set_artifact_governance` reads the state before it inside its transaction, so it always extends the log
by a fitting event. The supersession of a rebuild reads the state first and opens its transaction
afterwards. Its event fits exactly if the state that it read is still in force when it is written.
-/

namespace ForgeData

open Python Interleaving

/-- A log that leads from active to the state: each event starts where the one before it ended. -/
structure LeadsTo (log : List GovernanceEvent) (state : GovernanceState) : Prop where
  first : ∀ event ∈ log.head?, event.previousState = .active
  chained : log.IsChain fun event event' ↦ event'.previousState = event.row.state
  last : log.getLast?.elim .active (·.row.state) = state

/-- A further event fits exactly if it starts where the log has led to. -/
theorem leadsTo_concat_iff {log : List GovernanceEvent} {state : GovernanceState}
    {event : GovernanceEvent} (h : LeadsTo log state) :
    LeadsTo (log ++ [event]) event.row.state ↔ event.previousState = state := by
  have hlast := h.last
  rcases List.eq_nil_or_concat log with rfl | ⟨pre, last, rfl⟩
  · constructor
    · intro h'
      exact (h'.first event rfl).trans hlast
    · rintro rfl
      refine ⟨fun e he ↦ ?_, List.isChain_singleton _, rfl⟩
      rw [← Option.some.inj he]
      exact hlast.symm
  · rw [List.concat_eq_append] at h ⊢
    rw [List.concat_eq_append, List.getLast?_concat] at hlast
    have hjoin : (pre ++ [last] ++ [event]).IsChain (fun e e' ↦ e'.previousState = e.row.state) ↔
        event.previousState = last.row.state := by
      rw [List.isChain_append]
      simp [h.chained]
    constructor
    · intro h'
      exact (hjoin.1 h'.chained).trans hlast
    · intro hprevious
      refine ⟨fun e he ↦ h.first e ?_, hjoin.2 (hprevious.trans hlast.symm), by simp⟩
      rwa [List.head?_append_of_ne_nil _ (by simp)] at he

namespace CatalogDb

variable {db db' : CatalogDb} {k : ArtifactKey}

/-- The events of every artifact, as `list_artifact_governance_events` lists them, lead to its state,
and a row is only stored for a state other than active. -/
structure LogReplays (db : CatalogDb) : Prop where
  leads : ∀ k, LeadsTo (db.listArtifactGovernanceEvents k) (db.governanceState k)
  rows : ∀ k, ∀ row ∈ db.getArtifactGovernance k, row.state ≠ .active

theorem logReplays_empty : empty.LogReplays := by
  have hrows : ∀ k, empty.getArtifactGovernance k = none := fun _ ↦ rfl
  have hevents : ∀ k, empty.listArtifactGovernanceEvents k = [] := fun _ ↦ rfl
  refine ⟨fun k ↦ ?_, fun k row hrow ↦ ?_⟩
  · rw [hevents, governanceState, hrows]
    exact ⟨by simp, List.isChain_nil, rfl⟩
  · rw [hrows] at hrow
    cases hrow

theorem LogReplays.congr (h : db.LogReplays) (hrows : db'.artifactGovernance = db.artifactGovernance)
    (hevents : db'.artifactGovernanceEvents = db.artifactGovernanceEvents) : db'.LogReplays := by
  have hrow : ∀ k, db'.getArtifactGovernance k = db.getArtifactGovernance k :=
    fun k ↦ by rw [getArtifactGovernance, hrows, getArtifactGovernance]
  refine ⟨fun k ↦ ?_, fun k ↦ hrow k ▸ h.rows k⟩
  rw [governanceState, hrow, listArtifactGovernanceEvents, hevents]
  exact h.leads k

theorem listArtifactGovernanceEvents_setArtifactGovernance (k' : ArtifactKey)
    (previous : GovernanceState) (row : GovernanceRow) :
    (db.setArtifactGovernance k previous row).listArtifactGovernanceEvents k' =
      db.listArtifactGovernanceEvents k' ++ if k' = k then [⟨k, previous, row⟩] else [] := by
  rw [listArtifactGovernanceEvents, setArtifactGovernance, List.filter_append,
    listArtifactGovernanceEvents]
  congr 1
  by_cases hk : k' = k <;> simp [hk, eq_comm]

/-- **What a change does to the log**: it goes on replaying exactly if the state before the change is
recorded as it was. -/
theorem logReplays_setArtifactGovernance_iff {previous : GovernanceState} {row : GovernanceRow}
    (h : db.LogReplays) : (db.setArtifactGovernance k previous row).LogReplays ↔
      previous = db.governanceState k := by
  have hconcat : LeadsTo (db.listArtifactGovernanceEvents k ++ [⟨k, previous, row⟩]) row.state ↔
      previous = db.governanceState k := leadsTo_concat_iff (h.leads k)
  constructor
  · intro h'
    have hk := h'.leads k
    rw [listArtifactGovernanceEvents_setArtifactGovernance, if_pos rfl,
      governanceState_setArtifactGovernance, if_pos rfl] at hk
    exact hconcat.1 hk
  · intro hprevious
    refine ⟨fun k' ↦ ?_, fun k' row' hrow' ↦ ?_⟩
    · rw [listArtifactGovernanceEvents_setArtifactGovernance,
        governanceState_setArtifactGovernance]
      by_cases hk : k' = k
      · subst hk
        rw [if_pos rfl, if_pos rfl]
        exact hconcat.2 hprevious
      · rw [if_neg hk, if_neg hk, List.append_nil]
        exact h.leads k'
    · rw [getArtifactGovernance, setArtifactGovernance] at hrow'
      split at hrow'
      · rw [Dict.get?_erase] at hrow'
        split at hrow'
        · cases hrow'
        · exact h.rows k' row' hrow'
      · next hstate =>
        rw [Dict.get?_set] at hrow'
        split at hrow'
        · exact Option.some.inj hrow' ▸ hstate
        · exact h.rows k' row' hrow'

end CatalogDb

/-! ## What one step does to the log -/

variable {sha : Json → String} {o : CatalogOp} {s s' : CatalogState} {k : ArtifactKey}
  {previousState : GovernanceState} {newId : String}

theorem CatalogSem.logReplays {a : o.Ans} (h : CatalogSem sha o s a s')
    (ho : ∀ k previousState newId, o ≠ .markSuperseded k previousState newId)
    (hs : s.db.LogReplays) : s'.db.LogReplays := by
  rcases h.writes with hdb | hwrites
  · rwa [hdb]
  · rcases hwrites.governance with ⟨hrows, hevents⟩ | ⟨k, request, row, -, -, hdb⟩ |
      ⟨k, previousState, newId, updatedAt, hmark, -⟩
    · exact hs.congr hrows hevents
    · rw [hdb]
      exact (CatalogDb.logReplays_setArtifactGovernance_iff hs).2 rfl
    · exact absurd hmark (ho k previousState newId)

theorem CatalogSem.logReplays_iff_of_markSuperseded
    (h : CatalogSem sha (.markSuperseded k previousState newId) s (.ok ()) s')
    (hs : s.db.LogReplays) : s'.db.LogReplays ↔ previousState = s.db.governanceState k := by
  rcases h.of_markSuperseded with ⟨-, updatedAt, rfl⟩ | ⟨⟨e, he⟩, -⟩
  · exact CatalogDb.logReplays_setArtifactGovernance_iff hs
  · cases he

/-! ## The callers -/

/-- Whether the operation writes a supersession. -/
def CatalogOp.IsMarkSuperseded : CatalogOp → Prop
  | markSuperseded .. => True
  | _ => False

/-- Calls of `set_artifact_governance`, executions of rebuild plans, and programs that write neither. -/
inductive GovernanceParty : CatalogProg Unit → Prop
  | setArtifactGovernance (k : ArtifactKey) (request : CatalogDb.GovernanceRequest) :
      GovernanceParty (setArtifactGovernance k request).discard
  | execute (plan : RebuildPlan) (configs : Dict String Json) :
      GovernanceParty (plan.execute configs).discard
  | executeRebuild (planId : String) (configs : Dict String Json) :
      GovernanceParty (executeRebuild planId configs).discard
  | other {p : CatalogProg Unit} : p.Performs (fun o ↦ ¬ o.IsMarkSuperseded) → GovernanceParty p

/-- The governance state that a program has just read decides which supersession it may write. -/
inductive SupersedeNext : Protocol CatalogOp CatalogOp.Ans (Option (ArtifactKey × GovernanceState))
  | read (q : Option (ArtifactKey × GovernanceState)) (k : ArtifactKey) (row : Option GovernanceRow) :
      SupersedeNext q (.getArtifactGovernance k) row
        (some (k, row.elim .active GovernanceRow.state))
  | mark (k : ArtifactKey) (state : GovernanceState) (newId : String) (a : Except CatalogError Unit) :
      SupersedeNext (some (k, state)) (.markSuperseded k state newId) a none
  | other {q : Option (ArtifactKey × GovernanceState)} {o : CatalogOp} {a : o.Ans} :
      ¬ o.IsMarkSuperseded → SupersedeNext q o a none

variable {α : Type} {q : Option (ArtifactKey × GovernanceState)}

theorem follows_of_not_markSuperseded {p : CatalogProg α}
    (hp : p.Performs fun o ↦ ¬ o.IsMarkSuperseded) (q : Option (ArtifactKey × GovernanceState)) :
    p.Follows SupersedeNext (fun _ _ ↦ True) q :=
  hp.follows (fun _ _ _ ho ↦ ⟨none, .other ho⟩) q

theorem follows_markSuperseded (k : ArtifactKey) (newId : String) :
    (markSuperseded k newId).Follows SupersedeNext (fun _ _ ↦ True) q := fun row ↦
  ⟨_, .read q k row, fun a ↦ ⟨none, .mark k _ newId a, trivial⟩⟩

theorem performs_runStep (step : PlanStep) (resolved : Dict ArtifactKey String)
    (rawConfig : Option Json) :
    (runStep step resolved rawConfig).Performs fun o ↦ ¬ o.IsMarkSuperseded := by
  rw [runStep, Prog.andThen, readRequest]
  refine .bind ?_ fun request ↦ ?_
  · split
    · exact ⟨id, fun _ ↦ trivial⟩
    · trivial
  · cases request
    · trivial
    · exact ⟨id, fun _ ↦ trivial⟩

theorem RebuildPlan.follows_supersedeNext (plan : RebuildPlan) (configs : Dict String Json) :
    (plan.execute configs).Follows SupersedeNext (fun _ _ ↦ True) q := by
  refine .bind (.foldlM (I := fun _ _ ↦ True) (fun st step _ q _ ↦ ?_) trivial) fun _ _ _ ↦ trivial
  rw [executeStep]
  split
  · trivial
  · split
    · trivial
    · refine (follows_of_not_markSuperseded (performs_runStep ..) q).bind fun result q' _ ↦ ?_
      cases result with
      | error e => trivial
      | ok newId =>
        refine (follows_markSuperseded step.artifact newId).bind fun written q'' _ ↦ ?_
        cases written <;> trivial

theorem follows_executeRebuild (planId : String) (configs : Dict String Json) :
    (executeRebuild planId configs).Follows SupersedeNext (fun _ _ ↦ True) none := by
  refine fun stored ↦ ⟨none, .other id, ?_⟩
  rcases stored with _ | plan
  · trivial
  refine fun current ↦ ⟨none, .other id, ?_⟩
  rcases current with e | current
  · trivial
  dsimp only [Prog.pure_bind]
  split
  · trivial
  refine fun locked ↦ ⟨none, .other id, ?_⟩
  dsimp only [Prog.pure_bind]
  split
  · trivial
  · trivial
  · refine (plan.follows_supersedeNext configs).bind fun results q _ ↦ ?_
    exact fun _ ↦ ⟨none, .other id, fun _ ↦ ⟨none, .other id, trivial⟩⟩

theorem GovernanceParty.follows {p : CatalogProg Unit} (hp : GovernanceParty p) :
    p.Follows SupersedeNext (fun _ _ ↦ True) none := by
  cases hp with
  | setArtifactGovernance k request =>
    have hset : (ForgeData.setArtifactGovernance k request).Performs fun o ↦ ¬ o.IsMarkSuperseded :=
      (performs_setArtifactGovernance k request).mono (by rintro _ (rfl | rfl | rfl) <;> exact id)
    exact (follows_of_not_markSuperseded hset none).bind fun _ _ _ ↦ trivial
  | execute plan configs =>
    exact (plan.follows_supersedeNext configs).bind fun _ _ _ ↦ trivial
  | executeRebuild planId configs =>
    exact (follows_executeRebuild planId configs).bind fun _ _ _ ↦ trivial
  | other hp => exact follows_of_not_markSuperseded hp none

/-! ## Every supersession follows its read -/

/-- The thread has just read that the artifact is in the state. -/
def JustRead (i : ℕ) (t : List CatalogStep) (k : ArtifactKey) (state : GovernanceState) : Prop :=
  ∃ x ∈ (threadSteps i t).getLast?, x.op = .getArtifactGovernance k ∧
    x.after.db.governanceState k = state

theorem justRead_append_iff {i : ℕ} {t : List CatalogStep} {x : CatalogStep} {k : ArtifactKey}
    {state : GovernanceState} (hx : x.thread ≠ i) :
    JustRead i (t ++ [x]) k state ↔ JustRead i t k state := by
  rw [JustRead, threadSteps_append, threadSteps_other hx, List.append_nil, JustRead]

/-- What holds wherever a run has got to: the phase of a thread is what it has just read, and every
supersession came right after its read. -/
def ReadsFirst (phase : ℕ → Option (ArtifactKey × GovernanceState)) (t : List CatalogStep) : Prop :=
  (∀ i k state, phase i = some (k, state) → JustRead i t k state) ∧
    ∀ t₁ t₂ i k state newId a s₁ s₂,
      t = t₁ ++ ⟨i, .markSuperseded k state newId, a, s₁, s₂⟩ :: t₂ → JustRead i t₁ k state

theorem ReadsFirst.next {phase : ℕ → Option (ArtifactKey × GovernanceState)} {t : List CatalogStep}
    {i : ℕ} {a : o.Ans} (h : ReadsFirst phase t) (hnext : SupersedeNext (phase i) o a q)
    (hsem : CatalogSem sha o s a s') :
    ReadsFirst (Function.update phase i q) (t ++ [⟨i, o, a, s, s'⟩]) := by
  generalize hphase : phase i = now at hnext
  refine ⟨fun j k state hj ↦ ?_, fun t₁ t₂ j k state newId b s₁ s₂ ht ↦ ?_⟩
  · by_cases hji : j = i
    · subst hji
      rw [Function.update_self] at hj
      cases hnext with
      | read _ k' row =>
        obtain ⟨inp, hrun⟩ := hsem
        cases hrun
        cases hj
        exact ⟨_, by rw [threadSteps_append, threadSteps_own ⟨j, _, _, _, _⟩,
          List.getLast?_concat]; rfl, rfl, rfl⟩
      | mark => cases hj
      | other => cases hj
    · rw [Function.update_of_ne hji] at hj
      exact (justRead_append_iff (Ne.symm hji)).2 (h.1 j k state hj)
  · rcases append_singleton_eq_append_cons ht with ⟨rfl, hx, -⟩ | ⟨t₂', -, rfl⟩
    · cases hx
      cases hnext with
      | mark => exact h.1 _ _ _ hphase
      | other ho => exact absurd trivial ho
    · exact h.2 t₁ t₂' j k state newId b s₁ s₂ rfl

/-- **A supersession carries the state that its thread has just read.** -/
theorem justRead_of_markSuperseded {t t₁ t₂ : List CatalogStep} {qs : List (CatalogProg Unit)}
    {s₁ s₂ : CatalogState} {i : ℕ} {a : Except CatalogError Unit}
    (h : CatalogRun sha GovernanceParty [] s t qs s')
    (ht : t = t₁ ++ ⟨i, .markSuperseded k previousState newId, a, s₁, s₂⟩ :: t₂) :
    JustRead i t₁ k previousState := by
  have hstart : ReadsFirst (fun _ ↦ none) [] := ⟨by simp, by simp⟩
  obtain ⟨phase, hreads⟩ := h.exists_phases (J := fun phase t _ ↦ ReadsFirst phase t)
    (fun p hp ↦ hp.follows) ReadsFirst.next hstart
  exact hreads.2 t₁ t₂ i k previousState newId a s₁ s₂ ht

/-- If the step writes a supersession, it finds the governance state of the artifact as it was when its
thread read it. -/
def ReadInForce (t₁ : List CatalogStep) (x : CatalogStep) : Prop :=
  ∀ k ∈ markedBy x, ∀ y ∈ (threadSteps x.thread t₁).getLast?,
    y.after.db.governanceState k = x.before.db.governanceState k

instance (t₁ : List CatalogStep) : DecidablePred (ReadInForce t₁) := fun x ↦
  inferInstanceAs (Decidable (∀ k ∈ markedBy x, _))

/-- Every supersession of the run is written while the state that it read is in force. -/
def ReadsInForce (t : List CatalogStep) : Prop :=
  ∀ t₁ x t₂, t = t₁ ++ x :: t₂ → ReadInForce t₁ x

instance (t : List CatalogStep) : Decidable (ReadsInForce t) := decidable_of_iff' _ forall_split_iff

/-- **When the log replays.** Over every run of the callers that starts with a log that replays, the log
replays in every state reached if and only if no supersession is written after the state that it read
has changed. -/
theorem logReplays_iff {t : List CatalogStep} {qs : List (CatalogProg Unit)} (hs : s.db.LogReplays)
    (h : CatalogRun sha GovernanceParty [] s t qs s') :
    (s'.db.LogReplays ∧ ∀ x ∈ t, x.after.db.LogReplays) ↔ ReadsInForce t := by
  constructor
  · rintro ⟨-, hafter⟩ t₁ x t₂ ht k hk y hy
    obtain ⟨i, previousState, newId, s₁, s₂, rfl⟩ := exists_of_markedBy hk
    have hmem : (⟨i, .markSuperseded k previousState newId, .ok (), s₁, s₂⟩ : CatalogStep) ∈ t := by
      simp [ht]
    have hbefore := h.invariant_before (J := fun s ↦ s.db.LogReplays)
      (fun x hx _ ↦ hafter x hx) hs _ hmem
    have hprevious := (CatalogSem.logReplays_iff_of_markSuperseded (h.sem_of_mem _ hmem) hbefore).1
      (hafter _ hmem)
    obtain ⟨y', hy', -, hread⟩ := justRead_of_markSuperseded h ht
    rw [← hprevious, ← hread, Option.mem_unique hy hy']
  · intro hforce
    refine h.invariant (J := fun s ↦ s.db.LogReplays) (fun x hx hbefore ↦ ?_) hs
    have hsem := h.sem_of_mem x hx
    obtain ⟨i, o, a, s₁, s₂⟩ := x
    by_cases ho : o.IsMarkSuperseded
    · cases o with
      | markSuperseded k previousState newId =>
        rcases hsem.of_markSuperseded with ⟨rfl, -⟩ | ⟨-, heq⟩
        · obtain ⟨t₁, t₂, ht⟩ := List.append_of_mem hx
          obtain ⟨y, hy, -, hread⟩ := justRead_of_markSuperseded h ht
          refine (CatalogSem.logReplays_iff_of_markSuperseded hsem hbefore).2 ?_
          rw [← hread]
          exact hforce t₁ _ t₂ ht k rfl y hy
        · exact heq ▸ hbefore
      | _ => exact ho.elim
    · refine hsem.logReplays (fun k previousState newId heq ↦ ho ?_) hbefore
      rw [show o = .markSuperseded k previousState newId from heq]
      trivial

/-! ## A supersession that is overtaken -/

theorem logReplays_recordedState : recordedState.db.LogReplays := by
  have hscan : CatalogSem (fun _ ↦ "") .scan CatalogState.empty
      (CatalogOp.scan.run (fun _ ↦ "") servingInput CatalogState.empty).1 recordedState :=
    ⟨servingInput, rfl⟩
  exact hscan.logReplays nofun CatalogDb.logReplays_empty

/-- One caller marks the synchronization `s1` as invalid, and another executes the plan that makes it
again; each performs one operation whenever it stands in the list. -/
def invalidateAndRebuild (threads : List ℕ) : List CatalogTurn :=
  .start (setArtifactGovernance ⟨.synchronization, "s1"⟩
      ⟨"invalid", some "sensor fault", none, none, none⟩).discard ::
    .start (resynchronize.execute Dict.empty).discard ::
      threads.map fun i ↦ .act i servingInput

theorem governanceParty_of_start {threads : List ℕ} {p : CatalogProg Unit}
    (h : .start p ∈ invalidateAndRebuild threads) : GovernanceParty p := by
  simp only [invalidateAndRebuild, List.mem_cons, PoolTurn.start.injEq, List.mem_map, reduceCtorEq,
    and_false, exists_false, or_false] at h
  rcases h with rfl | rfl
  · exact .setArtifactGovernance _ _
  · exact .execute _ _

theorem run_invalidateAndRebuild (threads : List ℕ) :
    CatalogRun (fun _ ↦ "") GovernanceParty [] recordedState
      (simulateCatalog (fun _ ↦ "") (invalidateAndRebuild threads) recordedState).history
      (simulateCatalog (fun _ ↦ "") (invalidateAndRebuild threads) recordedState).threads
      (simulateCatalog (fun _ ↦ "") (invalidateAndRebuild threads) recordedState).state :=
  catalogRun_simulate (fun _ hp ↦ governanceParty_of_start hp) recordedState

/-- The log of a synchronization that is first invalidated and then superseded. -/
theorem logReplays_iff_superseded :
    (simulateCatalog (fun _ ↦ "") (invalidateAndRebuild [0, 1, 1, 1, 1]) recordedState).state.db
      |>.LogReplays :=
  ((logReplays_iff logReplays_recordedState (run_invalidateAndRebuild [0, 1, 1, 1, 1])).2
    (by decide +kernel)).1

/-- The change to invalid is committed between the read and the write of the supersession, whose event
then starts from active. -/
theorem log_overtaken :
    ¬ ∀ (t : List CatalogStep) (qs : List (CatalogProg Unit)) (s' : CatalogState),
      CatalogRun (fun _ ↦ "") GovernanceParty [] recordedState t qs s' → s'.db.LogReplays := by
  intro h
  have hreplays := h _ _ _ (run_invalidateAndRebuild [1, 1, 1, 0, 1])
  have hlog : ((simulateCatalog (fun _ ↦ "") (invalidateAndRebuild [1, 1, 1, 0, 1])
      recordedState).state.db.listArtifactGovernanceEvents ⟨.synchronization, "s1"⟩).map
        (fun event ↦ (event.previousState, event.row.state)) =
      [(.active, .invalid), (.active, .deprecated)] := by decide +kernel
  have hchained : (((simulateCatalog (fun _ ↦ "") (invalidateAndRebuild [1, 1, 1, 0, 1])
      recordedState).state.db.listArtifactGovernanceEvents ⟨.synchronization, "s1"⟩).map
        (fun event ↦ (event.previousState, event.row.state))).IsChain fun p q ↦ q.1 = p.2 :=
    (List.isChain_map _).2 (hreplays.leads _).chained
  rw [hlog, List.isChain_pair] at hchained
  cases hchained

end ForgeData
