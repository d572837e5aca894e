import ForgeData.Python.Json
import Mathlib.Data.List.Sort
import Mathlib.Data.Prod.Lex
import Mathlib.Data.String.Basic

/-!
# Artifacts and lineage edges

The nine kinds of artifacts in the order of the pipeline, the rows the catalog keeps about them, and
the edges between them. An artifact is named by its kind and its id.
-/

namespace ForgeData

open Python

/-- `ArtifactType`. -/
inductive ArtifactType where
  | ingestion
  | validation
  | integrity
  | normalization
  | synchronization
  | cleaning
  | transformation
  | qc
  | package
  deriving DecidableEq, Repr

namespace ArtifactType

/-- The value of the enumeration member. -/
def text : ArtifactType → String
  | ingestion => "ingestion"
  | validation => "validation"
  | integrity => "integrity"
  | normalization => "normalization"
  | synchronization => "synchronization"
  | cleaning => "cleaning"
  | transformation => "transformation"
  | qc => "qc"
  | package => "package"

/-- `STAGE_RANK`. -/
def stageRank : ArtifactType → ℕ
  | ingestion => 1
  | validation => 2
  | integrity => 3
  | normalization => 4
  | synchronization => 5
  | cleaning => 6
  | transformation => 7
  | qc => 8
  | package => 9

end ArtifactType

/-- `RelationshipType`. -/
inductive RelationshipType where
  | validatedFrom
  | checkedFrom
  | normalizedFrom
  | synchronizedFrom
  | cleanedFrom
  | transformedFrom
  | qcOf
  | packagedFrom
  | approvedByQc
  deriving DecidableEq, Repr

/-- The value of the enumeration member. -/
def RelationshipType.text : RelationshipType → String
  | validatedFrom => "validated_from"
  | checkedFrom => "checked_from"
  | normalizedFrom => "normalized_from"
  | synchronizedFrom => "synchronized_from"
  | cleanedFrom => "cleaned_from"
  | transformedFrom => "transformed_from"
  | qcOf => "qc_of"
  | packagedFrom => "packaged_from"
  | approvedByQc => "approved_by_qc"

/-- The primary key of `artifacts`. -/
structure ArtifactKey where
  artifactType : ArtifactType
  artifactId : String
  deriving DecidableEq, Repr

/-- How the key is printed in messages. -/
def ArtifactKey.text (k : ArtifactKey) : String := k.artifactType.text ++ "/" ++ k.artifactId

/-- The other columns of a row of `artifacts`. The metadata is kept as the value that the stored
text denotes. -/
structure ArtifactRow where
  pipelineStage : ℕ
  status : Option String
  storageUri : Option String
  contentSha256 : Option String
  manifestUri : Option String
  manifestSha256 : Option String
  createdAt : Option String
  sessionId : Option String
  metadata : Json
  registeredAt : String
  deriving DecidableEq

/-- The row without the time of its registration. -/
def ArtifactRow.untimed (row : ArtifactRow) : ArtifactRow := { row with registeredAt := "" }

/-- A row of `lineage_edges`. All columns belong to the primary key. -/
structure EdgeRow where
  parent : ArtifactKey
  child : ArtifactKey
  relationship : RelationshipType
  deriving DecidableEq, Repr

/-! ## Orders -/

/-- `sorted(l, key=..)`. -/
def sortedBy {α β : Type} [LE β] [DecidableLE β] (key : α → β) (l : List α) : List α :=
  l.insertionSort fun a b ↦ key a ≤ key b

theorem perm_sortedBy {α β : Type} [LE β] [DecidableLE β] (key : α → β) (l : List α) :
    (sortedBy key l).Perm l := List.perm_insertionSort _ l

@[simp] theorem mem_sortedBy {α β : Type} [LE β] [DecidableLE β] {key : α → β} {l : List α} {a : α} :
    a ∈ sortedBy key l ↔ a ∈ l := (perm_sortedBy key l).mem_iff

/-- A key as a tuple of texts. -/
def ArtifactKey.texts (k : ArtifactKey) : String ×ₗ String := toLex (k.artifactType.text, k.artifactId)

/-- `_sort_key`. -/
def sortKey (k : ArtifactKey) : ℕ ×ₗ String ×ₗ String := toLex (k.artifactType.stageRank, k.texts)

/-- `ORDER BY parent_artifact_type, parent_artifact_id, relationship`. -/
def EdgeRow.byParent (e : EdgeRow) : (String ×ₗ String) ×ₗ String :=
  toLex (e.parent.texts, e.relationship.text)

/-- `ORDER BY child_artifact_type, child_artifact_id, relationship`. -/
def EdgeRow.byChild (e : EdgeRow) : (String ×ₗ String) ×ₗ String :=
  toLex (e.child.texts, e.relationship.text)

end ForgeData
