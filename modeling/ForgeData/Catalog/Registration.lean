import ForgeData.Catalog.Service
import ForgeData.Interleaving.Protocol

/-!
# The course of a registration

A registration looks up the dataset and the package, reads the governance rows of the package and of
everything upstream of it, and then performs one transaction. `RegisterNext` is its protocol up to there:
the phase after the lookups holds the rows that have been read, and the transaction is only reached when
they satisfy the gate, or when the gate did not find the package any more. What comes after the
transaction only reads.
-/

namespace ForgeData

open Python Interleaving

/-- Where a registration is. -/
inductive RegisterPhase where
  /-- The dataset and the package are being looked up. -/
  | lookingUp
  /-- The package was found. -/
  | found
  /-- The gate did not find the package. -/
  | missing
  /-- The row of the package was read. -/
  | seen (direct : Option GovernanceRow)
  /-- The ancestors are known, the first of them are read. -/
  | reading (direct : Option GovernanceRow) (rest : List ArtifactKey)
      (rows : List (ArtifactKey × Option GovernanceRow))
  /-- The transaction has answered. -/
  | answered (answer : Except CatalogError Bool)

/-- Which operation a registration performs in which phase. -/
inductive RegisterNext (request : RegisterRequest) :
    RegisterPhase → (o : CatalogOp) → o.Ans → RegisterPhase → Prop
  | getDataset (row : Option DatasetRow) :
    RegisterNext request .lookingUp (.getDataset request.datasetName) row .lookingUp
  | packageMissing :
    RegisterNext request .lookingUp (.getArtifact (packageKey request.packageId)) none .lookingUp
  | getPackage (row : ArtifactRow) :
    RegisterNext request .lookingUp (.getArtifact (packageKey request.packageId)) (some row) .found
  | gateMissing :
    RegisterNext request .found (.getArtifact (packageKey request.packageId)) none .missing
  | gateFound (row : ArtifactRow) :
    RegisterNext request .found (.getArtifact (packageKey request.packageId)) (some row) .found
  | readDirect (row : Option GovernanceRow) :
    RegisterNext request .found (.getArtifactGovernance (packageKey request.packageId)) row
      (.seen row)
  | ancestors (direct : Option GovernanceRow) (l : List ArtifactKey) :
    RegisterNext request (.seen direct) (.ancestors (packageKey request.packageId)) l
      (.reading direct l [])
  | readAncestor (direct : Option GovernanceRow) (k : ArtifactKey) (rest : List ArtifactKey)
      (rows : List (ArtifactKey × Option GovernanceRow)) (row : Option GovernanceRow) :
    RegisterNext request (.reading direct (k :: rest) rows) (.getArtifactGovernance k) row
      (.reading direct rest (rows ++ [(k, row)]))
  | register {q : RegisterPhase} (answer : Except CatalogError Bool) :
    (q = .missing ∨ ∃ direct rows, q = .reading direct [] rows ∧
      gateOf (packageKey request.packageId) request.allowDeprecated (chainOf direct rows) = .ok ()) →
    RegisterNext request q (.createDatasetVersion (request.datasetName, request.version)
      request.packageId request.description request.tags) answer (.answered answer)

/-- How a registration gets out of its transaction or fails before it, by the phase in which it ends. -/
def RegisterEnd (result : Except CatalogError Bool) : RegisterPhase → Prop
  | .answered answer => result = answer
  | _ => ∃ e, result = .error e

variable {request : RegisterRequest}

theorem follows_readGovernance (direct : Option GovernanceRow) (l : List ArtifactKey)
    (rows : List (ArtifactKey × Option GovernanceRow)) :
    (readGovernance l).Follows (RegisterNext request)
      (fun new q ↦ q = .reading direct [] (rows ++ new)) (.reading direct l rows) := by
  induction l generalizing rows with
  | nil => exact congrArg _ (List.append_nil rows).symm
  | cons k l ih =>
    refine Prog.follows_op_bind.2 fun row ↦ ⟨_, .readAncestor direct k l rows row,
      Prog.Follows.bind (ih _) fun new q hq ↦ ?_⟩
    rw [hq, List.append_assoc]
    exact rfl

/-- The gate ends with the rows that satisfy it, or with an error. -/
theorem follows_readGate :
    (readGate (packageKey request.packageId) request.allowDeprecated).Follows (RegisterNext request)
      (fun result q ↦ (∃ e, result = .error e ∧ ∀ answer, q ≠ .answered answer) ∨
        result = .ok () ∧ (q = .missing ∨ ∃ direct rows, q = .reading direct [] rows ∧
          gateOf (packageKey request.packageId) request.allowDeprecated (chainOf direct rows)
            = .ok ())) .found := by
  refine Prog.follows_op_bind.2 fun row ↦ ?_
  rcases row with _ | row
  · exact ⟨.missing, .gateMissing, .inr ⟨rfl, .inl rfl⟩⟩
  · refine ⟨.found, .gateFound row, Prog.follows_op_bind.2 fun direct ↦ ⟨.seen direct,
      .readDirect direct, Prog.follows_op_bind.2 fun l ↦ ⟨.reading direct l [], .ancestors direct l,
        Prog.Follows.bind (follows_readGovernance direct l []) fun rows q hq ↦ ?_⟩⟩⟩
    subst hq
    rcases hgate : gateOf (packageKey request.packageId) request.allowDeprecated
        (chainOf direct rows) with e | ⟨⟩
    · exact .inl ⟨e, rfl, nofun⟩
    · exact .inr ⟨rfl, .inr ⟨direct, rows, rfl, hgate⟩⟩

/-- **A registration keeps to its protocol** up to the end of its transaction. -/
theorem follows_commitVersion (request : RegisterRequest) :
    (commitVersion request).Follows (RegisterNext request) RegisterEnd .lookingUp := by
  refine Prog.follows_op_bind.2 fun dataset ↦ ⟨.lookingUp, .getDataset dataset, ?_⟩
  rcases dataset with _ | dataset
  · exact ⟨_, rfl⟩
  rcases validateSemver request.version with e | v
  · exact ⟨e, rfl⟩
  refine Prog.follows_op_bind.2 fun package ↦ ?_
  rcases package with _ | row
  · exact ⟨.lookingUp, .packageMissing, _, rfl⟩
  refine ⟨.found, .getPackage row, ?_⟩
  simp only
  split
  · refine Prog.Follows.andThen follows_readGate (fun _ q hq ↦ ?_) fun e q hq ↦ ?_
    · rcases hq with ⟨e, herror, -⟩ | ⟨-, hq⟩
      · cases herror
      · exact fun answer ↦ ⟨.answered answer, .register answer hq, rfl⟩
    · rcases hq with ⟨e', herror, hq⟩ | ⟨herror, -⟩
      · cases herror
        cases q with
        | answered answer => exact (hq answer rfl).elim
        | _ => exact ⟨e, rfl⟩
      · cases herror
  · exact ⟨_, rfl⟩

/-! ## After the transaction -/

/-- The operations that only read the tables. -/
def CatalogOp.Reads : CatalogOp → Prop
  | getArtifact _ | getArtifactGovernance _ | ancestors _ | upstream _ | getDataset _
  | getDatasetVersion _ | getDatasetVersionGovernance _ => True
  | _ => False

/-- Whether the operation registers a version. -/
def CatalogOp.Registers : CatalogOp → Prop
  | createDatasetVersion .. => True
  | _ => False

theorem CatalogOp.Reads.not_registers {o : CatalogOp} (h : o.Reads) : ¬ o.Registers := by
  cases o with
  | createDatasetVersion => exact h.elim
  | _ => exact id

theorem performs_readGovernance {P : CatalogOp → Prop} (hP : ∀ k, P (.getArtifactGovernance k))
    (l : List ArtifactKey) : (readGovernance l).Performs P := by
  induction l with
  | nil => exact trivial
  | cons k l ih => exact ⟨hP k, fun _ ↦ ih.bind fun _ ↦ trivial⟩

theorem performs_readFingerprint (sha : Json → String) (packageId : String)
    (package : Option ArtifactRow) : (readFingerprint sha packageId package).Performs CatalogOp.Reads := by
  rcases package with _ | package
  · exact trivial
  refine Prog.Performs.bind ⟨trivial, fun again ↦ ?_⟩ fun result ↦ ?_
  · rcases again with _ | again
    · exact trivial
    · exact ⟨trivial, fun nodes ↦ trivial⟩
  · rcases result with e | data
    · exact trivial
    · exact trivial

theorem performs_readEffectiveStatus (k : String × String) (packageId : String) :
    (readEffectiveStatus k packageId).Performs CatalogOp.Reads := by
  refine ⟨trivial, fun gov ↦ ?_⟩
  rcases gov with _ | gov
  · exact ⟨trivial, fun direct ↦ ⟨trivial, fun ancestors ↦
      (performs_readGovernance (fun _ ↦ trivial) ancestors).bind fun _ ↦ trivial⟩⟩
  · exact trivial

theorem performs_respondVersion (sha : Json → String) (k : String × String) (created : Bool) :
    (respondVersion sha k created).Performs CatalogOp.Reads := by
  refine ⟨trivial, fun row ↦ ?_⟩
  rcases row with _ | row
  · exact trivial
  have hresponse : (toVersionResponse sha k row).Performs CatalogOp.Reads := by
    refine ⟨trivial, fun package ↦ (performs_readFingerprint sha row.packageId package).bind ?_⟩
    rintro (e | fingerprint)
    · exact trivial
    · exact (performs_readEffectiveStatus k row.packageId).bind fun _ ↦ trivial
  refine hresponse.bind ?_
  rintro (e | response)
  · exact trivial
  · exact trivial

end ForgeData
