import ForgeData.Catalog.Registration
import ForgeData.Catalog.SemanticVersions
import ForgeData.Catalog.Writes
import ForgeData.Interleaving.PoolProtocol

/-!
# Registrations and governance changes side by side

The gate of a registration reads the governance rows of the package and of its ancestors one after the
other, and the transaction that inserts the version follows later. So what the gate guarantees at the
moment of the insertion is this: every artifact of the lineage was not invalid when its row was read. The
insertion respects the governance exactly if none of them has become invalid since.
-/

namespace ForgeData

open Python Interleaving

/-- The package for which a version is inserted by an operation with this answer. -/
def CatalogOp.inserted : (o : CatalogOp) → o.Ans → Option ArtifactKey
  | .createDatasetVersion _ packageId _ _, .ok true => some (packageKey packageId)
  | _, _ => none

/-- Calls of `register_version` and of `set_artifact_governance`, and programs that neither register
versions nor scan. -/
inductive RegisterParty (sha : Json → String) : CatalogProg Unit → Prop
  | registerVersion (request : RegisterRequest) :
      RegisterParty sha (registerVersion sha request).discard
  | setArtifactGovernance (k : ArtifactKey) (request : CatalogDb.GovernanceRequest) :
      RegisterParty sha (setArtifactGovernance k request).discard
  | other {p : CatalogProg Unit} :
      p.Performs (fun o ↦ ¬ o.Registers ∧ ¬ o.WritesIndex) → RegisterParty sha p

/-- The protocol of the callers: a thread is none of a registration, or it is in one of its phases. -/
inductive CallerNext :
    Protocol CatalogOp CatalogOp.Ans (Option (RegisterRequest × RegisterPhase))
  | start {request : RegisterRequest} {o : CatalogOp} {a : o.Ans} {q : RegisterPhase} :
      RegisterNext request .lookingUp o a q → CallerNext none o a (some (request, q))
  | next {request : RegisterRequest} {q q' : RegisterPhase} {o : CatalogOp} {a : o.Ans} :
      RegisterNext request q o a q' → CallerNext (some (request, q)) o a (some (request, q'))
  | respond {request : RegisterRequest} {answer : Except CatalogError Bool} {o : CatalogOp}
      {a : o.Ans} : o.Reads →
      CallerNext (some (request, .answered answer)) o a (some (request, .answered answer))
  | other {o : CatalogOp} {a : o.Ans} : ¬ o.Registers → ¬ o.WritesIndex → CallerNext none o a none

theorem CatalogOp.Reads.not_writesIndex {o : CatalogOp} (h : o.Reads) : ¬ o.WritesIndex := by
  cases o with
  | scan | rebuildIndex => exact h.elim
  | _ => exact id

theorem follows_of_other {p : CatalogProg Unit}
    (hp : p.Performs fun o ↦ ¬ o.Registers ∧ ¬ o.WritesIndex) :
    p.Follows CallerNext (fun _ _ ↦ True) none := by
  induction p with
  | pure a => trivial
  | call o k ih => exact fun a ↦ ⟨none, .other hp.1.1 hp.1.2, ih a (hp.2 a)⟩

theorem follows_of_reads {α : Type} {p : CatalogProg α} (hp : p.Performs CatalogOp.Reads)
    (request : RegisterRequest) (answer : Except CatalogError Bool) :
    p.Follows CallerNext (fun _ _ ↦ True) (some (request, .answered answer)) := by
  induction p with
  | pure a => trivial
  | call o k ih => exact fun a ↦ ⟨_, .respond hp.1, ih a (hp.2 a)⟩

theorem follows_registerVersion (sha : Json → String) (request : RegisterRequest) :
    (registerVersion sha request).Follows CallerNext (fun _ _ ↦ True) none := by
  intro row
  obtain ⟨q, hnext, hrest⟩ := follows_commitVersion request row
  refine ⟨_, .start hnext, ?_⟩
  refine (hrest.map (fun q ↦ some (request, q)) fun _ _ _ _ h ↦ .next h).bind fun result q' hend ↦ ?_
  obtain ⟨q, rfl, hend⟩ := hend
  rcases result with e | created
  · trivial
  -- a call that goes on has an answer of its transaction
  cases q with
  | answered answer => exact follows_of_reads (performs_respondVersion ..) request answer
  | _ =>
    obtain ⟨e, he⟩ := hend
    cases he

theorem RegisterParty.follows {sha : Json → String} {p : CatalogProg Unit} (hp : RegisterParty sha p) :
    p.Follows CallerNext (fun _ _ ↦ True) none := by
  cases hp with
  | registerVersion request => exact (follows_registerVersion sha request).bind fun _ _ _ ↦ trivial
  | setArtifactGovernance k request =>
    refine follows_of_other (Prog.Performs.bind ((performs_setArtifactGovernance k request).mono ?_)
      fun _ ↦ trivial)
    rintro _ (rfl | rfl | rfl) <;> exact ⟨id, id⟩
  | other hp => exact follows_of_other hp

/-! ## What the gate has read -/

/-- The thread has read the governance row of the artifact, and this was the row then. -/
def HasRead (i : ℕ) (t : List CatalogStep) (k : ArtifactKey) (row : Option GovernanceRow) : Prop :=
  ∃ x ∈ t, x.thread = i ∧ x.op = .getArtifactGovernance k ∧ x.after.db.getArtifactGovernance k = row

theorem HasRead.append {i : ℕ} {t t' : List CatalogStep} {k : ArtifactKey}
    {row : Option GovernanceRow} (h : HasRead i t k row) : HasRead i (t ++ t') k row := by
  obtain ⟨x, hx, hread⟩ := h
  exact ⟨x, List.mem_append_left _ hx, hread⟩

/-- What holds of a thread in its phase: the rows it has seen were read, and the ancestors it goes
through are those of the package. -/
def PhaseHolds (s : CatalogState) (i : ℕ) (t : List CatalogStep) (request : RegisterRequest) :
    RegisterPhase → Prop
  | .lookingUp | .answered _ => True
  | .found => s.db.Registered (packageKey request.packageId)
  | .missing => False
  | .seen direct => HasRead i t (packageKey request.packageId) direct
  | .reading direct rest rows => HasRead i t (packageKey request.packageId) direct ∧
      (∀ a, s.db.Upstream a (packageKey request.packageId) → a = packageKey request.packageId ∨
        a ∈ rows.map Prod.fst ∨ a ∈ rest) ∧
      ∀ p ∈ rows, HasRead i t p.1 p.2

/-- The index is the same in both states. -/
def SameIndex (s s' : CatalogState) : Prop :=
  s'.db.artifacts = s.db.artifacts ∧ s'.db.lineageEdges = s.db.lineageEdges

namespace SameIndex

variable {s s' : CatalogState} {k a : ArtifactKey}

theorem registered_iff (h : SameIndex s s') : s'.db.Registered k ↔ s.db.Registered k := by
  rw [CatalogDb.Registered, CatalogDb.Registered, h.1]

theorem upstream_iff (h : SameIndex s s') : s'.db.Upstream a k ↔ s.db.Upstream a k := by
  have hedge : s'.db.Edge = s.db.Edge := by
    funext a k
    rw [CatalogDb.Edge, CatalogDb.Edge, h.2]
  rw [CatalogDb.Upstream, CatalogDb.Upstream, hedge]

end SameIndex

variable {sha : Json → String} {s s' : CatalogState} {i : ℕ} {t : List CatalogStep}
  {request : RegisterRequest} {q q' : RegisterPhase}

theorem CallerNext.sameIndex {q q' : Option (RegisterRequest × RegisterPhase)} {o : CatalogOp}
    {a : o.Ans} (hnext : CallerNext q o a q') (hsem : CatalogSem sha o s a s') : SameIndex s s' := by
  refine hsem.index_eq ?_
  cases hnext with
  | start h | next h => cases h <;> exact id
  | respond h => exact h.not_writesIndex
  | other _ h => exact h

theorem PhaseHolds.append (h : PhaseHolds s i t request q) (hindex : SameIndex s s')
    (t' : List CatalogStep) : PhaseHolds s' i (t ++ t') request q := by
  cases q with
  | lookingUp => trivial
  | answered => trivial
  | missing => exact h
  | found => exact hindex.registered_iff.2 h
  | seen direct => exact HasRead.append h
  | reading direct rest rows =>
    exact ⟨h.1.append, fun a hup ↦ h.2.1 a (hindex.upstream_iff.1 hup),
      fun p hp ↦ (h.2.2 p hp).append⟩

theorem hasRead_of_sem {k : ArtifactKey} {row : Option GovernanceRow}
    (h : CatalogSem sha (.getArtifactGovernance k) s row s') :
    HasRead i (t ++ [⟨i, .getArtifactGovernance k, row, s, s'⟩]) k row := by
  obtain ⟨_, hrun⟩ := h
  cases hrun
  exact ⟨_, List.mem_append_right _ (List.mem_singleton_self _), rfl, rfl, rfl⟩

/-- **A step of a registration** leads to what holds in its next phase. -/
theorem PhaseHolds.next {o : CatalogOp} {a : o.Ans} (h : PhaseHolds s i t request q)
    (hnext : RegisterNext request q o a q') (hsem : CatalogSem sha o s a s')
    (hindex : SameIndex s s') : PhaseHolds s' i (t ++ [⟨i, o, a, s, s'⟩]) request q' := by
  cases hnext with
  | getDataset | packageMissing | register => trivial
  | getPackage row =>
    obtain ⟨_, hrun⟩ := hsem
    exact hindex.registered_iff.2 (CatalogDb.registered_iff.2 ⟨row, congrArg Prod.fst hrun⟩)
  | gateMissing =>
    obtain ⟨_, hrun⟩ := hsem
    exact CatalogDb.getArtifact_eq_none_iff.1 (congrArg Prod.fst hrun) h
  | gateFound row => exact hindex.registered_iff.2 h
  | readDirect row => exact hasRead_of_sem hsem
  | ancestors direct l =>
    obtain ⟨_, hrun⟩ := hsem
    cases hrun
    refine ⟨HasRead.append h, fun a hup ↦ ?_, nofun⟩
    by_cases ha : a = packageKey request.packageId
    · exact .inl ha
    · exact .inr (.inr (CatalogDb.mem_others_upstream_iff.2 ⟨hup, ha⟩))
  | readAncestor direct k rest rows row =>
    refine ⟨h.1.append, fun a hup ↦ ?_, fun p hp ↦ ?_⟩
    · have hcases := h.2.1 a (hindex.upstream_iff.1 hup)
      rw [List.map_append, List.mem_append, List.map_singleton, List.mem_singleton]
      rw [List.mem_cons] at hcases
      tauto
    · rcases List.mem_append.1 hp with hp | hp
      · exact (h.2.2 p hp).append
      · rw [List.mem_singleton.1 hp]
        exact hasRead_of_sem hsem

/-- The gate lets a registration pass only if every row of the lineage was not invalid when it was
read. -/
theorem PhaseHolds.passed {direct : Option GovernanceRow} {rows : List (ArtifactKey × Option GovernanceRow)}
    (h : PhaseHolds s i t request (.reading direct [] rows))
    (hgate : gateOf (packageKey request.packageId) request.allowDeprecated (chainOf direct rows)
      = .ok ()) {a : ArtifactKey} (hup : s.db.Upstream a (packageKey request.packageId)) :
    ∃ row, HasRead i t a row ∧ ∀ gov ∈ row, gov.state ≠ .invalid := by
  obtain ⟨hdirect, hancestors⟩ := (gateOf_eq_ok_iff.1 hgate).1
  rcases h.2.1 a hup with rfl | ha | ha
  · refine ⟨direct, h.1, fun gov hgov hstate ↦ hdirect ?_⟩
    rw [Option.mem_def.1 hgov] at *
    exact hstate
  · obtain ⟨p, hp, rfl⟩ := List.mem_map.1 ha
    exact ⟨p.2, h.2.2 p hp, flagged_eq_nil_iff.1 hancestors p hp⟩
  · cases ha

/-! ## Insertions -/

/-- Whoever has inserted a version had read of every artifact in the lineage of the package that it was
not invalid. -/
def AllPassed (t : List CatalogStep) : Prop :=
  ∀ t₁ x t₂, t = t₁ ++ x :: t₂ → ∀ k ∈ x.op.inserted x.ans, ∀ a, x.before.db.Upstream a k →
    ∃ row, HasRead x.thread t₁ a row ∧ ∀ gov ∈ row, gov.state ≠ .invalid

theorem AllPassed.append {x : CatalogStep} (h : AllPassed t)
    (hx : ∀ k ∈ x.op.inserted x.ans, ∀ a, x.before.db.Upstream a k →
      ∃ row, HasRead x.thread t a row ∧ ∀ gov ∈ row, gov.state ≠ .invalid) :
    AllPassed (t ++ [x]) := by
  intro t₁ y t₂ ht
  rcases append_singleton_eq_append_cons ht with ⟨rfl, rfl, -⟩ | ⟨t₂', -, rfl⟩
  · exact hx
  · exact h t₁ y t₂' rfl

theorem CatalogOp.registers_of_inserted {o : CatalogOp} {a : o.Ans} {k : ArtifactKey}
    (h : k ∈ o.inserted a) : o.Registers := by
  cases o with
  | createDatasetVersion => trivial
  | _ => cases h

/-- What holds of the callers wherever they have got to. -/
structure CallersHold (s₀ : CatalogState) (phase : ℕ → Option (RegisterRequest × RegisterPhase))
    (t : List CatalogStep) (s : CatalogState) : Prop where
  sameIndex : SameIndex s₀ s
  phases : ∀ i request q, phase i = some (request, q) → PhaseHolds s i t request q
  passed : AllPassed t

/-- **A step of a caller.** -/
theorem CallersHold.step {s₀ : CatalogState} {phase : ℕ → Option (RegisterRequest × RegisterPhase)}
    {o : CatalogOp} {a : o.Ans} {q : Option (RegisterRequest × RegisterPhase)}
    (h : CallersHold s₀ phase t s) (hnext : CallerNext (phase i) o a q)
    (hsem : CatalogSem sha o s a s') :
    CallersHold s₀ (Function.update phase i q) (t ++ [⟨i, o, a, s, s'⟩]) s' := by
  have hindex := hnext.sameIndex hsem
  refine ⟨⟨hindex.1.trans h.sameIndex.1, hindex.2.trans h.sameIndex.2⟩,
    fun j request q' hj ↦ ?_, h.passed.append fun k hk b hup ↦ ?_⟩
  · by_cases hji : j = i
    · subst hji
      rw [Function.update_self] at hj
      subst hj
      generalize hphase : phase j = p at hnext
      cases hnext with
      | start hfirst => exact PhaseHolds.next (q := .lookingUp) trivial hfirst hsem hindex
      | next hlater => exact (h.phases j request _ hphase).next hlater hsem hindex
      | respond => trivial
    · rw [Function.update_of_ne hji] at hj
      exact (h.phases j request q' hj).append hindex _
  · generalize hphase : phase i = p at hnext
    cases hnext with
    | start hfirst => cases hfirst with
      | register answer hq => rcases hq with hq | ⟨_, _, hq, -⟩ <;> cases hq
      | _ => cases hk
    | @next request q q' o a hlater => cases hlater with
      | register answer hq =>
        have hphaseHolds := h.phases i request q hphase
        obtain rfl : k = packageKey request.packageId := by
          rcases answer with e | created
          · cases hk
          · cases created
            · cases hk
            · exact (Option.some.inj hk).symm
        rcases hq with rfl | ⟨direct, rows, rfl, hgate⟩
        · exact hphaseHolds.elim
        · exact hphaseHolds.passed hgate hup
      | _ => cases hk
    | respond hreads => exact (hreads.not_registers (CatalogOp.registers_of_inserted hk)).elim
    | other hother => exact (hother (CatalogOp.registers_of_inserted hk)).elim

/-- An insertion leaves the lineage and the governance of artifacts as they are. -/
theorem lineageFree_of_inserted {x : CatalogStep} {k : ArtifactKey}
    (hsem : CatalogSem sha x.op x.before x.ans x.after) (hk : k ∈ x.op.inserted x.ans) :
    x.after.db.LineageFree .invalid k ↔ x.before.db.LineageFree .invalid k := by
  have hregisters := CatalogOp.registers_of_inserted hk
  have hindex : SameIndex x.before x.after := hsem.index_eq fun hscan ↦ by
    cases ho : x.op with
    | createDatasetVersion => rw [ho] at hscan; exact hscan
    | _ => rw [ho] at hregisters; exact hregisters
  have hgovernance : x.after.db.artifactGovernance = x.before.db.artifactGovernance := by
    rcases hsem.writes with hdb | hwrites
    · rw [hdb]
    · rcases hwrites.governance with ⟨heq, -⟩ | ⟨_, _, _, ho, -⟩ | ⟨_, _, _, _, ho, -⟩
      · exact heq
      · rw [ho] at hregisters
        exact hregisters.elim
      · rw [ho] at hregisters
        exact hregisters.elim
  have hstate : ∀ a, x.after.db.governanceState a = x.before.db.governanceState a := fun a ↦ by
    rw [CatalogDb.governanceState, CatalogDb.getArtifactGovernance, hgovernance]
    rfl
  simp only [CatalogDb.LineageFree, hindex.upstream_iff, hstate]

/-- Every version that was inserted has a package without anything invalid in its lineage. -/
def InsertionsValid (t : List CatalogStep) : Prop :=
  ∀ x ∈ t, ∀ k ∈ x.op.inserted x.ans, x.after.db.LineageFree .invalid k

/-- Between the read of its row and the transaction of a registration, no artifact in the lineage of the
package has become invalid. -/
def LineageKept (t : List CatalogStep) : Prop :=
  ∀ t₁ x t₂, t = t₁ ++ x :: t₂ → ∀ k ∈ x.op.inserted x.ans, ∀ a, x.before.db.Upstream a k →
    ∀ y ∈ t₁, y.thread = x.thread → y.op = .getArtifactGovernance a →
      y.after.db.governanceState a ≠ .invalid → x.before.db.governanceState a ≠ .invalid

/-- **Registrations and governance**: in a run of registrations, governance changes and other callers
that do not scan, the versions inserted are valid if and only if no artifact in the lineage of one became
invalid after the registration had read its row. -/
theorem insertionsValid_iff {qs : List (CatalogProg Unit)} (h : CatalogRun sha (RegisterParty sha) [] s t qs s') :
    InsertionsValid t ↔ LineageKept t := by
  constructor
  · rintro hvalid t₁ x t₂ rfl k hk a hup y - - - -
    have hx : x ∈ t₁ ++ x :: t₂ := List.mem_append_right _ (List.mem_cons_self ..)
    exact (lineageFree_of_inserted (h.sem_of_mem x hx) hk).1 (hvalid x hx k hk) a hup
  · intro hkept x hx k hk
    rw [lineageFree_of_inserted (h.sem_of_mem x hx) hk]
    intro a hup
    obtain ⟨phase, hhold⟩ := h.exists_phases (J := CallersHold s) (fun _ hp ↦ hp.follows)
      (fun hJ hnext hsem ↦ hJ.step hnext hsem) ⟨⟨rfl, rfl⟩, fun _ _ _ h ↦ (nomatch h), fun t₁ x t₂ ht ↦ by simp at ht⟩
    obtain ⟨t₁, t₂, rfl⟩ := List.append_of_mem hx
    obtain ⟨row, ⟨y, hy, hthread, hop, hrow⟩, hstate⟩ := hhold.passed t₁ x t₂ rfl k hk a hup
    refine hkept t₁ x t₂ rfl k hk a hup y hy hthread hop fun hinvalid ↦ ?_
    obtain ⟨gov, hgov, hgovState⟩ := (CatalogDb.governanceState_eq_iff (by decide)).1 hinvalid
    exact hstate gov (hrow ▸ hgov) hgovState

/-! ## A package that is invalidated behind the gate -/

/-- A registration of the package beside a call that marks it invalid, with the turns of the two. -/
def registerBeside (turns : List ℕ) : List CatalogTurn :=
  [.start (registerVersion (fun _ ↦ "") (registerWalks "1.0.0")).discard,
    .start (setArtifactGovernance (packageKey "p1")
      ⟨"invalid", some "sensor fault", none, none, none⟩).discard] ++
    turns.map fun thread ↦ .act thread quietCatalogInput

/-- The package is marked invalid after the version has been inserted. -/
theorem insertionsValid_iff_registeredFirst :
    LineageKept (simulateCatalog (fun _ ↦ "") (registerBeside [0, 0, 0, 0, 0, 0, 1, 0, 0, 0, 0, 0, 0, 0])
      packagedState).history := by
  have hparty : ∀ p, .start p ∈ registerBeside [0, 0, 0, 0, 0, 0, 1, 0, 0, 0, 0, 0, 0, 0] →
      RegisterParty (fun _ ↦ "") p := by
    intro p hp
    rcases List.mem_pair.1 (PoolTurn.mem_started.2 hp) with rfl | rfl
    · exact .registerVersion _
    · exact .setArtifactGovernance _ _
  refine (insertionsValid_iff (catalogRun_simulate hparty packagedState)).1 fun x hx k hk ↦
    CatalogDb.invalid_clear_iff.1 ?_
  revert x k
  decide +kernel

/-- The package is marked invalid after the gate has read its row, and the version is inserted. -/
theorem insertionsValid_fails :
    ¬ ∀ (t : List CatalogStep) (qs : List (CatalogProg Unit)) (s' : CatalogState),
      CatalogRun (fun _ ↦ "") (fun p ↦ (∃ request, p = (registerVersion (fun _ ↦ "") request).discard) ∨
        ∃ k request, p = (setArtifactGovernance k request).discard) [] packagedState t qs s' →
      InsertionsValid t := by
  intro h
  have hparty : ∀ p, .start p ∈ registerBeside [0, 0, 0, 0, 0, 1, 0, 0] →
      (∃ request, p = (registerVersion (fun _ ↦ "") request).discard) ∨
        ∃ k request, p = (setArtifactGovernance k request).discard := by
    intro p hp
    rcases List.mem_pair.1 (PoolTurn.mem_started.2 hp) with rfl | rfl
    · exact .inl ⟨_, rfl⟩
    · exact .inr ⟨_, _, rfl⟩
  have hvalid := h _ _ _ (catalogRun_simulate hparty packagedState)
  have hclear : ∀ x ∈ (simulateCatalog (fun _ ↦ "") (registerBeside [0, 0, 0, 0, 0, 1, 0, 0])
      packagedState).history, ∀ k ∈ x.op.inserted x.ans,
        (x.after.db.verifyGovernanceChain k).directState ≠ .invalid ∧
          (x.after.db.verifyGovernanceChain k).invalidAncestors = [] :=
    fun x hx k hk ↦ CatalogDb.invalid_clear_iff.2 (hvalid x hx k hk)
  exact absurd hclear (by decide +kernel)

end ForgeData
