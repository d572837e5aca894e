import ForgeData.Catalog.Repository
import ForgeData.Catalog.Reproducibility
import ForgeData.Python.Digest
import ForgeData.Python.Lines
import ForgeData.Python.Paths
import ForgeData.Python.Utf8

/-!
# The artifact verifier

Verification computes checksums of the files on disk again and compares them with what the catalog and
the manifest have recorded. It finds a package by the ids, its split files and its split index by the
URIs in the manifest, and the report under its own name.
-/

namespace ForgeData

open Python

/-- `VerificationStatus`. -/
inductive VerificationStatus where
  | verified
  | missing
  | checksumMismatch
  | manifestMismatch
  deriving DecidableEq, Repr

/-- `Check`. -/
structure Check where
  name : String
  status : VerificationStatus
  detail : Option String
  deriving DecidableEq, Repr

/-- `VerificationOutcome`. -/
structure VerificationOutcome where
  status : VerificationStatus
  checks : List Check

/-- The contents of the files, by the components of their paths. -/
abbrev Disk := List String → Option (List Byte)

/-- What verification takes from the libraries: SHA-256, and the value of a file that holds JSON. -/
structure VerifierEnv where
  sha256 : List Byte → Sha256Digest
  loads : List Byte → Option Json

/-- `_PRECEDENCE`. -/
def precedence : List VerificationStatus :=
  [.missing, .checksumMismatch, .manifestMismatch, .verified]

/-- `_overall_status`. -/
def overallStatus (checks : List Check) : VerificationStatus :=
  (precedence.find? fun status ↦ checks.any (·.status = status)).getD .verified

/-- `_is_safe_path_component`. -/
def isSafePathComponent (value : String) : Bool :=
  value ≠ "" ∧ '/' ∉ value.toList ∧ '\\' ∉ value.toList ∧ value ≠ "." ∧ value ≠ ".."

namespace VerifierEnv

variable (env : VerifierEnv)

/-- `sha256_of_path`, of the contents. -/
def hexdigest (bytes : List Byte) : String := (env.sha256 bytes).1.text

/-- `compute_manifest_sha256`, of a file that is read as a text. -/
def manifestSha256 (bytes : List Byte) : Option String :=
  (Utf8.decode bytes).bind fun text ↦ (Utf8.encode (Str.universalNewlines text)).map env.hexdigest

variable (disk : Disk)

/-- `_check_manifest_bytes`. -/
def checkManifestBytes (path : List String) (expected : Option String) : Check :=
  match disk path with
  | none => ⟨"manifest_file", .missing, some ("missing: " ++ pathText path)⟩
  | some bytes =>
    match expected with
    | none => ⟨"manifest_file", .verified, none⟩
    | some sha256 =>
      if env.hexdigest bytes ≠ sha256 then
        ⟨"manifest_file", .manifestMismatch,
          some ("expected sha256=" ++ sha256 ++ ", computed=" ++ env.hexdigest bytes)⟩
      else ⟨"manifest_file", .verified, none⟩

/-- `_check_content_file`; what is expected is a value of the manifest. -/
def checkContentFile (name : String) (path : List String) (expected : Json) : Check :=
  match disk path with
  | none => ⟨name, .missing, some ("missing: " ++ pathText path)⟩
  | some bytes =>
    match expected with
    | .null => ⟨name, .verified, none⟩
    | .str sha256 =>
      if env.hexdigest bytes ≠ sha256 then
        ⟨name, .checksumMismatch,
          some ("expected sha256=" ++ sha256 ++ ", computed=" ++ env.hexdigest bytes)⟩
      else ⟨name, .verified, none⟩
    -- A digest is a text, so it differs from anything else; how that is printed is left out.
    | _ => ⟨name, .checksumMismatch, some ("computed=" ++ env.hexdigest bytes)⟩

variable (root : List String)

/-- `find_manifest` of the package store: nothing, or the value of the manifest. The outer `none` is the
exception of a manifest that cannot be read. -/
def findPackageManifest (transformationId packageId : String) : Option (Option Json) :=
  if isSafePathComponent transformationId ∧ isSafePathComponent packageId then
    match disk (root ++ [transformationId, packageId, "manifest.json"]) with
    | none => some none
    | some bytes => (env.loads bytes).map some
  else some none

/-- The checks of the split files, under the URIs of their entries. -/
def splitChecks (manifest : Json) : Option (List Check) :=
  match manifest.get? "splits" with
  | none => some []
  | some (.obj splits) => splits.mapM fun entry ↦ do
    let uri ← entry.2.getStr? "artifact_uri"
    let sha256 ← entry.2.get? "sha256"
    return env.checkContentFile disk ("split_" ++ entry.1) (uriToPath uri) sha256
  | some _ => none

/-- The check of the split index, if the manifest has one. -/
def splitIndexCheck (manifest : Json) : Option (List Check) :=
  let uri := recorded manifest "split_index_uri"
  if falsy uri then some []
  else match uri with
  | .str uri => some [env.checkContentFile disk "split_index" (uriToPath uri)
      (recorded manifest "split_index_sha256")]
  | _ => none

/-- The checks of a package whose manifest has been found. -/
def packageChecks (transformationId packageId : String) (row : ArtifactRow) (manifest : Json) :
    Option (List Check) := do
  let uri ← row.manifestUri
  let splits ← env.splitChecks disk manifest
  let index ← env.splitIndexCheck disk manifest
  return env.checkManifestBytes disk (uriToPath uri) row.manifestSha256 :: (splits ++ index ++
    [env.checkContentFile disk "package_report"
      (root ++ [transformationId, packageId, "report.json"]) (recorded manifest "report_sha256")])

/-- `_verify_package`. Only an object has fields, and only a text is a safe path component. -/
def verifyPackage (packageId : String) (row : ArtifactRow) : Option (List Check) :=
  let notFound : Check := ⟨"manifest_file", .missing, some "package manifest not found"⟩
  if isObject row.metadata then
    match recorded row.metadata "transformation_id" with
    | .str transformationId =>
      match env.findPackageManifest disk root transformationId packageId with
      | none => none
      | some none => some [notFound]
      | some (some manifest) =>
        if isObject manifest then
          env.packageChecks disk root transformationId packageId row manifest
        else none
    | transformationId => if falsy transformationId then some [notFound] else none
  else none

/-- `verify`, of a package; `none` is an exception. -/
def verify (db : CatalogDb) (packageId : String) : Option VerificationOutcome :=
  match db.getArtifact (packageKey packageId) with
  | none => some ⟨.missing, [⟨"catalog_entry", .missing, some "not registered in catalog"⟩]⟩
  | some row => (env.verifyPackage disk root packageId row).map fun checks ↦
      ⟨overallStatus checks, checks⟩

end VerifierEnv

/-! ## Verified checks -/

theorem overallStatus_eq_verified_iff {checks : List Check} :
    overallStatus checks = .verified ↔ ∀ c ∈ checks, c.status = .verified := by
  have hfail : ∀ status, status ≠ .verified → checks.any (·.status = status) = true →
      ¬∀ c ∈ checks, c.status = .verified := by
    intro status hne hany hall
    obtain ⟨c, hc, hstatus⟩ := List.any_eq_true.mp hany
    exact hne ((of_decide_eq_true hstatus).symm.trans (hall c hc))
  rw [overallStatus, precedence, List.find?_cons]
  split
  · next hmissing => exact iff_of_false nofun (hfail .missing nofun hmissing)
  next hmissing =>
  rw [List.find?_cons]
  split
  · next hchecksum => exact iff_of_false nofun (hfail .checksumMismatch nofun hchecksum)
  next hchecksum =>
  rw [List.find?_cons]
  split
  · next hmanifest => exact iff_of_false nofun (hfail .manifestMismatch nofun hmanifest)
  next hmanifest =>
  refine iff_of_true ?_ fun c hc ↦ ?_
  · rw [List.find?_cons]
    split <;> rfl
  · have hnone : ∀ status, checks.any (·.status = status) = false → c.status ≠ status :=
      fun status hany heq ↦ List.any_eq_false.mp hany c hc (decide_eq_true heq)
    rcases hstatus : c.status with _ | _ | _ | _
    · rfl
    · exact absurd hstatus (hnone _ hmissing)
    · exact absurd hstatus (hnone _ hchecksum)
    · exact absurd hstatus (hnone _ hmanifest)

namespace VerifierEnv

variable {env : VerifierEnv} {disk : Disk}

theorem hexdigest_inj {bytes bytes' : List Byte} (h : env.hexdigest bytes = env.hexdigest bytes') :
    env.sha256 bytes = env.sha256 bytes' := Subtype.ext (HexDigits.text_injective h)

/-- What lies under the path has the digest of the given contents only if it is these contents. -/
def CollisionFree (env : VerifierEnv) (disk : Disk) (path : List String) (bytes : List Byte) : Prop :=
  ∀ found, disk path = some found → env.sha256 found = env.sha256 bytes → found = bytes

theorem checkManifestBytes_verified_iff {path : List String} {bytes : List Byte}
    (h : env.CollisionFree disk path bytes) :
    (env.checkManifestBytes disk path (some (env.hexdigest bytes))).status = .verified ↔
      disk path = some bytes := by
  rw [checkManifestBytes]
  rcases hfound : disk path with _ | found
  · exact iff_of_false nofun nofun
  · simp only []
    split
    · next hne => exact iff_of_false nofun fun heq ↦ hne (by rw [Option.some.inj heq])
    · next heq => exact iff_of_true rfl (congrArg some (h found hfound (hexdigest_inj (not_not.mp heq))))

theorem checkContentFile_verified_iff {name : String} {path : List String} {bytes : List Byte}
    (h : env.CollisionFree disk path bytes) :
    (env.checkContentFile disk name path (.str (env.hexdigest bytes))).status = .verified ↔
      disk path = some bytes := by
  rw [checkContentFile]
  rcases hfound : disk path with _ | found
  · exact iff_of_false nofun nofun
  · simp only []
    split
    · next hne => exact iff_of_false nofun fun heq ↦ hne (by rw [Option.some.inj heq])
    · next heq => exact iff_of_true rfl (congrArg some (h found hfound (hexdigest_inj (not_not.mp heq))))

end VerifierEnv

end ForgeData
