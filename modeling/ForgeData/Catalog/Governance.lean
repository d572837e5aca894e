import ForgeData.Catalog.LineageGraph
import ForgeData.Python.Text

/-!
# Governance

An artifact can be marked deprecated or invalid without touching its manifest, and the judgment then
gates whether it may feed new work. The state machine of these marks, the check of an artifact
together with everything upstream of it, the gate built on that check, and the status that a dataset
version derives from it.

The check reads the governance rows of the artifacts one after the other. `chainOf` is what it makes
of the rows it has read, so that the same function serves when the rows are read at different times.
-/

namespace ForgeData

open Python Graph Relation

namespace GovernanceState

/-- `GovernanceState(text)`. -/
def ofText? (text : String) : Option GovernanceState :=
  [active, deprecated, invalid].find? (·.text = text)

/-- `ALLOWED_TRANSITIONS`. -/
def allowed : GovernanceState → List GovernanceState
  | active => [active, deprecated, invalid]
  | deprecated => [deprecated, active, invalid]
  | invalid => [invalid, active, deprecated]

end GovernanceState

/-- `validate_transition`: the state that the text names. -/
def validateTransition (previous : GovernanceState) (new : String) :
    Except CatalogError GovernanceState :=
  match GovernanceState.ofText? new with
  | none => .error (.invalidGovernanceTransition previous.text new)
  | some state =>
    if state ∈ previous.allowed then .ok state
    else .error (.invalidGovernanceTransition previous.text new)

/-- `require_reason`. -/
def requireReason (reason : Option String) : Except CatalogError String :=
  match reason with
  | none => .error .governanceReasonRequired
  | some reason => if strip reason = "" then .error .governanceReasonRequired else .ok (strip reason)

/-! ## The chain check -/

structure AncestorFlag where
  artifact : ArtifactKey
  reason : String
  deriving DecidableEq, Repr

/-- `GovernanceChainResult`. -/
structure GovernanceChain where
  directState : GovernanceState
  directReason : Option String
  invalidAncestors : List AncestorFlag
  deprecatedAncestors : List AncestorFlag
  deriving DecidableEq, Repr

/-- The ancestors in the given state, in the order of their keys. -/
def flagged (state : GovernanceState) (ancestors : List (ArtifactKey × Option GovernanceRow)) :
    List AncestorFlag :=
  sortedBy (·.artifact.texts) (ancestors.filterMap fun p ↦
    (p.2.filter (·.state = state)).map fun gov ↦ ⟨p.1, gov.reason⟩)

/-- What the check makes of the rows of the artifact and of its ancestors. -/
def chainOf (direct : Option GovernanceRow)
    (ancestors : List (ArtifactKey × Option GovernanceRow)) : GovernanceChain where
  directState := direct.elim .active GovernanceRow.state
  directReason := direct.map GovernanceRow.reason
  invalidAncestors := flagged .invalid ancestors
  deprecatedAncestors := flagged .deprecated ancestors

/-- The nodes of a traversal other than its root. -/
def Traversal.others (t : Traversal) (root : ArtifactKey) : List ArtifactKey :=
  (t.nodes.map Prod.fst).filter (· ≠ root)

/-- What `enforce_upstream_gate` makes of the chain. -/
def gateOf (k : ArtifactKey) (allowDeprecated : Bool) (chain : GovernanceChain) :
    Except CatalogError Unit :=
  if chain.directState = .invalid then .error (.artifactInvalid k (chain.directReason.getD ""))
  else match chain.invalidAncestors with
  | anc :: _ => .error (.upstreamArtifactInvalid k anc.artifact anc.reason)
  | [] =>
    if allowDeprecated then .ok ()
    else if chain.directState = .deprecated then
      .error (.artifactDeprecated k (chain.directReason.getD ""))
    else match chain.deprecatedAncestors with
    | anc :: _ => .error (.upstreamArtifactDeprecated k anc.artifact anc.reason)
    | [] => .ok ()

/-- `EffectiveVersionStatus`, with the states of explicitly governed versions. -/
inductive EffectiveVersionStatus where
  | explicit (state : GovernanceState)
  | affected
  | healthy
  deriving DecidableEq, Repr

/-- The value of `status` in a response. -/
def EffectiveVersionStatus.text : EffectiveVersionStatus → String
  | explicit state => state.text
  | affected => "affected"
  | healthy => "healthy"

/-- `EffectiveVersionStatusResult`. -/
structure EffectiveStatus where
  status : EffectiveVersionStatus
  reason : Option String
  source : Option String
  deriving DecidableEq, Repr

/-- The key of a package. -/
def packageKey (packageId : String) : ArtifactKey := ⟨.package, packageId⟩

/-- The status that a version without governance of its own derives from the check of its package. -/
def derivedStatus (packageId : String) (chain : GovernanceChain) : EffectiveStatus :=
  if chain.directState = .invalid then
    ⟨.affected, chain.directReason, some (packageKey packageId).text⟩
  else match chain.invalidAncestors with
  | anc :: _ => ⟨.affected, some anc.reason, some anc.artifact.text⟩
  | [] => ⟨.healthy, none, none⟩

namespace CatalogDb

variable (db : CatalogDb)

/-- `verify_governance_chain`. -/
def verifyGovernanceChain (k : ArtifactKey) : GovernanceChain :=
  chainOf (db.getArtifactGovernance k)
    (((db.traverse k .upstream none).others k).map fun a ↦ (a, db.getArtifactGovernance a))

/-- `enforce_upstream_gate`. -/
def enforceUpstreamGate (k : ArtifactKey) (allowDeprecated : Bool) : Except CatalogError Unit :=
  match db.getArtifact k with
  | none => .ok ()
  | some _ => gateOf k allowDeprecated (db.verifyGovernanceChain k)

/-- `compute_effective_version_status`. -/
def computeEffectiveVersionStatus (version : String × String) (packageId : String) :
    EffectiveStatus :=
  match db.getDatasetVersionGovernance version with
  | some gov => ⟨.explicit gov.state, some gov.reason, some "explicit"⟩
  | none => derivedStatus packageId (db.verifyGovernanceChain (packageKey packageId))

end CatalogDb

/-! ## What the check sees -/

theorem flagged_eq_nil_iff {state : GovernanceState}
    {ancestors : List (ArtifactKey × Option GovernanceRow)} :
    flagged state ancestors = [] ↔ ∀ p ∈ ancestors, ∀ gov ∈ p.2, gov.state ≠ state := by
  simp only [flagged, List.eq_nil_iff_forall_not_mem, mem_sortedBy, List.mem_filterMap,
    Option.map_eq_some_iff, Option.filter_eq_some_iff, decide_eq_true_eq, Option.mem_def]
  constructor
  · intro h p hp gov hgov hstate
    exact h ⟨p.1, gov.reason⟩ ⟨p, hp, gov, ⟨hgov, hstate⟩, rfl⟩
  · rintro h flag ⟨p, hp, gov, ⟨hgov, hstate⟩, -⟩
    exact h p hp gov hgov hstate

/-- **When the gate passes**, in terms of the chain. -/
theorem gateOf_eq_ok_iff {k : ArtifactKey} {allowDeprecated : Bool} {chain : GovernanceChain} :
    gateOf k allowDeprecated chain = .ok () ↔
      (chain.directState ≠ .invalid ∧ chain.invalidAncestors = []) ∧
        (allowDeprecated = true ∨
          chain.directState ≠ .deprecated ∧ chain.deprecatedAncestors = []) := by
  rw [gateOf]
  split
  · next h => simp [h]
  · next h =>
    split
    · next anc l hl => simp [hl]
    · next hl =>
      simp only [hl, h, ne_eq, not_false_eq_true, true_and]
      split
      · next hallow => simp [hallow]
      · next hallow =>
        simp only [hallow, Bool.false_eq_true, false_or]
        split
        · next h' => simp [h']
        · next h' => split <;> simp [*]

/-- The gate reports an invalid artifact whenever there is one. -/
theorem isInvalid_of_gateOf {k : ArtifactKey} {allowDeprecated : Bool} {chain : GovernanceChain}
    {e : CatalogError} (h : gateOf k allowDeprecated chain = .error e) :
    e.IsInvalid ↔ ¬ (chain.directState ≠ .invalid ∧ chain.invalidAncestors = []) := by
  rw [gateOf] at h
  split at h
  · next hdirect =>
    cases h
    simp [CatalogError.IsInvalid, hdirect]
  · next hdirect =>
    split at h
    · next anc l hl =>
      cases h
      simp [CatalogError.IsInvalid, hl]
    · next hl =>
      simp only [hl, hdirect, ne_eq, not_false_eq_true, true_and, not_true_eq_false, iff_false]
      split at h
      · cases h
      split at h
      · cases h
        exact id
      split at h
      · cases h
        exact id
      · cases h

namespace CatalogDb

variable {db : CatalogDb} {k a : ArtifactKey}

theorem mem_others_upstream_iff :
    a ∈ (db.traverse k .upstream none).others k ↔ db.Upstream a k ∧ a ≠ k := by
  simp only [Traversal.others, List.mem_filter, List.mem_map, decide_eq_true_eq]
  constructor
  · rintro ⟨⟨⟨a, row⟩, hnode, rfl⟩, hne⟩
    exact ⟨(mem_nodes_upstream_iff.1 hnode).2, hne⟩
  · rintro ⟨hup, hne⟩
    refine ⟨?_, hne⟩
    obtain ⟨row, hrow⟩ := registered_iff.1
      (registered_of_transGen ((eq_or_transGen_of_reflTransGen hup).resolve_left hne)).1
    exact ⟨(a, row), mem_nodes_upstream_iff.2 ⟨hrow, hup⟩, rfl⟩

theorem governanceState_eq_iff {state : GovernanceState} (hstate : state ≠ .active) :
    db.governanceState k = state ↔ ∃ gov ∈ db.getArtifactGovernance k, gov.state = state := by
  rw [governanceState]
  rcases db.getArtifactGovernance k with _ | gov
  · simp [hstate.symm]
  · simp

/-- Nothing in the lineage of the artifact, itself included, is in the state. -/
def LineageFree (db : CatalogDb) (state : GovernanceState) (k : ArtifactKey) : Prop :=
  ∀ a, db.Upstream a k → db.governanceState a ≠ state

/-- **The check is exact**: nothing upstream is in the state, exactly if neither the artifact's own
state nor the list of ancestors shows it. -/
theorem chain_clear_iff {state : GovernanceState} (hstate : state ≠ .active) :
    ((db.verifyGovernanceChain k).directState ≠ state ∧
        flagged state (((db.traverse k .upstream none).others k).map fun a ↦
          (a, db.getArtifactGovernance a)) = []) ↔ db.LineageFree state k := by
  have hdirect : (db.verifyGovernanceChain k).directState = db.governanceState k := rfl
  rw [hdirect, flagged_eq_nil_iff]
  simp only [List.forall_mem_map, mem_others_upstream_iff]
  constructor
  · rintro ⟨hk, hothers⟩ a hup ha
    by_cases hak : a = k
    · exact hk (hak ▸ ha)
    · obtain ⟨gov, hgov, hst⟩ := (governanceState_eq_iff hstate).1 ha
      exact hothers a ⟨hup, hak⟩ gov hgov hst
  · refine fun h ↦ ⟨h k .refl, fun a ⟨hup, _⟩ gov hgov hst ↦ ?_⟩
    exact h a hup ((governanceState_eq_iff hstate).2 ⟨gov, hgov, hst⟩)

theorem invalid_clear_iff : ((db.verifyGovernanceChain k).directState ≠ .invalid ∧
    (db.verifyGovernanceChain k).invalidAncestors = []) ↔ db.LineageFree .invalid k :=
  chain_clear_iff nofun

theorem deprecated_clear_iff : ((db.verifyGovernanceChain k).directState ≠ .deprecated ∧
    (db.verifyGovernanceChain k).deprecatedAncestors = []) ↔ db.LineageFree .deprecated k :=
  chain_clear_iff nofun

/-- **The gate is exact.** It passes if and only if the artifact is not registered, or nothing in its
lineage is invalid, and nothing deprecated unless that is allowed. -/
theorem enforceUpstreamGate_eq_ok_iff {allowDeprecated : Bool} :
    db.enforceUpstreamGate k allowDeprecated = .ok () ↔ ¬ db.Registered k ∨
      db.LineageFree .invalid k ∧ (allowDeprecated = true ∨ db.LineageFree .deprecated k) := by
  rw [enforceUpstreamGate]
  split
  · next hnone => exact ⟨fun _ ↦ .inl (getArtifact_eq_none_iff.1 hnone), fun _ ↦ rfl⟩
  · next row hrow =>
    have hreg : db.Registered k := registered_iff.2 ⟨row, hrow⟩
    rw [gateOf_eq_ok_iff, invalid_clear_iff, deprecated_clear_iff,
      or_iff_right (not_not_intro hreg)]

theorem isInvalid_of_enforceUpstreamGate {allowDeprecated : Bool} {e : CatalogError}
    (h : db.enforceUpstreamGate k allowDeprecated = .error e) :
    e.IsInvalid ↔ ¬ db.LineageFree .invalid k := by
  rw [enforceUpstreamGate] at h
  split at h
  · cases h
  · rw [isInvalid_of_gateOf h, invalid_clear_iff]

/-- The gate decides exactly, and an invalid artifact takes precedence over deprecated ones wherever
they sit. -/
theorem enforceUpstreamGate_exact (db : CatalogDb) (k : ArtifactKey) (allowDeprecated : Bool) :
    (db.enforceUpstreamGate k allowDeprecated = .ok () ↔ ¬ db.Registered k ∨
      (∀ a, db.Upstream a k → db.governanceState a ≠ .invalid) ∧
        (allowDeprecated = true ∨ ∀ a, db.Upstream a k → db.governanceState a ≠ .deprecated)) ∧
    ∀ e, db.enforceUpstreamGate k allowDeprecated = .error e →
      (∃ a, db.Upstream a k ∧ db.governanceState a = .invalid) → e.IsInvalid := by
  refine ⟨enforceUpstreamGate_eq_ok_iff, fun e he ⟨a, hup, ha⟩ ↦ ?_⟩
  exact (isInvalid_of_enforceUpstreamGate he).2 fun h ↦ h a hup ha

/-! ## Changing the state of an artifact -/

/-- What a call of `set_artifact_governance` carries. -/
structure GovernanceRequest where
  newState : String
  reason : Option String
  actor : Option String
  supersededByType : Option String
  supersededById : Option String
  deriving DecidableEq, Repr

/-- The row that a change writes. -/
def GovernanceRequest.row (request : GovernanceRequest) (state : GovernanceState)
    (reason updatedAt : String) : GovernanceRow :=
  ⟨state, reason, request.actor, request.supersededByType, request.supersededById, updatedAt⟩

/-- `CatalogService.set_artifact_governance`: the reason is checked first; the rest is one
transaction. -/
def changeGovernance (db : CatalogDb) (k : ArtifactKey) (request : GovernanceRequest)
    (updatedAt : String) : Except CatalogError CatalogDb :=
  match requireReason request.reason with
  | .error e => .error e
  | .ok reason =>
    match db.getArtifact k with
    | none => .error (.governanceTargetNotFound k)
    | some _ =>
      match validateTransition (db.governanceState k) request.newState with
      | .error e => .error e
      | .ok state =>
        .ok (db.setArtifactGovernance k (db.governanceState k) (request.row state reason updatedAt))

theorem validateTransition_eq_ok_iff {previous state : GovernanceState} {new : String} :
    validateTransition previous new = .ok state ↔ state.text = new := by
  have hof : GovernanceState.ofText? new = some state ↔ state.text = new := by
    rw [GovernanceState.ofText?, List.find?_eq_some_iff_append]
    constructor
    · rintro ⟨h, -⟩
      exact of_decide_eq_true h
    · rintro rfl
      cases state
      · exact ⟨by decide, [], [.deprecated, .invalid], rfl, by decide⟩
      · exact ⟨by decide, [.active], [.invalid], rfl, by decide⟩
      · exact ⟨by decide, [.active, .deprecated], [], rfl, by decide⟩
  rw [validateTransition, ← hof]
  split
  · next h => simp [h]
  · next s h =>
    have hall : s ∈ previous.allowed := by cases previous <;> cases s <;> decide
    simp [hall, h]

/-- **What a change writes.** -/
theorem of_changeGovernance {request : GovernanceRequest} {updatedAt : String} {db' : CatalogDb}
    (h : db.changeGovernance k request updatedAt = .ok db') :
    db.Registered k ∧ ∃ state reason, state.text = request.newState ∧
      db' = db.setArtifactGovernance k (db.governanceState k)
        (request.row state reason updatedAt) := by
  rw [changeGovernance] at h
  split at h
  · cases h
  split at h
  · cases h
  · next row hrow =>
    split at h
    · cases h
    · next state hstate =>
      cases h
      exact ⟨registered_iff.2 ⟨row, hrow⟩, state, _,
        validateTransition_eq_ok_iff.1 hstate, rfl⟩

@[simp] theorem governanceState_setArtifactGovernance (k' : ArtifactKey) (previous : GovernanceState)
    (row : GovernanceRow) : (db.setArtifactGovernance k previous row).governanceState k'
      = if k' = k then row.state else db.governanceState k' := by
  by_cases hrow : row.state = .active <;> by_cases hk : k' = k <;>
    simp [governanceState, getArtifactGovernance, setArtifactGovernance, hrow, hk]

@[simp] theorem upstream_setArtifactGovernance (previous : GovernanceState) (row : GovernanceRow)
    (a b : ArtifactKey) :
    (db.setArtifactGovernance k previous row).Upstream a b ↔ db.Upstream a b := Iff.rfl

end CatalogDb

end ForgeData
