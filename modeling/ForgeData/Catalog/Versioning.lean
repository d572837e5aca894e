import ForgeData.Catalog.Repository
import ForgeData.Python.Loop
import ForgeData.Python.Text
import Mathlib.Data.List.Basic

/-!
# Dataset names and versions

The two patterns that names and versions have to match, and the order of versions. A version is stored
as a text but ordered by the three numbers that the text denotes, and the pattern accepts several texts
for the same numbers: leading zeros, digits of any script, a line break at the end.
-/

namespace ForgeData

open Python

/-- `MAJOR.MINOR.PATCH`, ordered lexicographically. -/
abbrev SemVer := ℕ ×ₗ ℕ ×ₗ ℕ

/-- The characters that a dataset name may contain; it starts with one of the first kind. -/
def isNameChar (first : Bool) (c : Char) : Bool :=
  c.isAlphanum || (!first && (c == '.' || c == '_' || c == '-'))

/-- `validate_dataset_name`. -/
def validateDatasetName (name : String) : Except CatalogError Unit :=
  match dropNewline name.toList with
  | [] => .error (.invalidDatasetName name)
  | c :: rest =>
    if isNameChar true c && rest.all (isNameChar false) && rest.length ≤ 127 then .ok ()
    else .error (.invalidDatasetName name)

/-- `int(text)`, of the digits of a text. -/
def readInt (digits : List ℕ) : Except CatalogError ℕ :=
  if digits.length ≤ 4300 then .ok (ofDigits digits)
  else .error (.otherException (s!"Exceeds the limit (4300 digits) for integer string conversion: " ++
    s!"value has {digits.length} digits; use sys.set_int_max_str_digits() to increase the limit"))

/-- `validate_semver`. -/
def validateSemver (version : String) : Except CatalogError SemVer :=
  match ((dropNewline version.toList).splitOn '.').map digits? with
  | [some major, some minor, some patch] => do
    let major ← readInt major
    let minor ← readInt minor
    let patch ← readInt patch
    return toLex (major, toLex (minor, patch))
  | _ => .error (.invalidDatasetVersion version)

/-- `sort_versions`. -/
def sortVersions (versions : List String) : Except CatalogError (List String) := do
  let keys ← versions.mapM validateSemver
  return (sortedBy Prod.fst (keys.zip versions)).map Prod.snd

/-- `highest_version`. -/
def highestVersion (versions : List String) : Except CatalogError (Option String) := do
  if versions = [] then return none
  let sorted ← sortVersions versions
  return sorted.getLast?

/-- The usual way to write a version: ASCII digits without leading zeros. -/
def SemVer.text (v : SemVer) : String :=
  s!"{(ofLex v).1}.{(ofLex (ofLex v).2).1}.{(ofLex (ofLex v).2).2}"

/-- The version denotes no numbers, or is the usual way to write them. -/
def CanonicalVersion (version : String) : Prop :=
  ∀ v, validateSemver version = .ok v → version = v.text

namespace CatalogDb

variable (db : CatalogDb)

/-- `CatalogService.get_version`, with the row it is about. -/
def getVersion (k : String × String) : Except CatalogError (String × VersionRow) :=
  match db.datasets.get? k.1 with
  | none => .error (.datasetNotFound k.1)
  | some _ =>
    match db.getDatasetVersion k with
    | none => .error (.datasetVersionNotFound
        s!"No version '{k.2}' registered for dataset '{k.1}'")
    | some row => .ok (k.2, row)

/-- `CatalogService.get_latest`. -/
def getLatest (datasetName : String) : Except CatalogError (String × VersionRow) :=
  match db.datasets.get? datasetName with
  | none => .error (.datasetNotFound datasetName)
  | some _ =>
    match highestVersion ((db.listDatasetVersions datasetName).map (·.1.2)) with
    | .error e => .error e
    | .ok none => .error (.datasetVersionNotFound
        s!"Dataset '{datasetName}' has no registered versions")
    | .ok (some version) => db.getVersion (datasetName, version)

end CatalogDb

/-! ## The order of versions -/

theorem exists_mapM_validateSemver {versions : List String}
    (h : ∀ v ∈ versions, ∃ t, validateSemver v = .ok t) :
    ∃ keys, versions.mapM validateSemver = .ok keys := by
  induction versions with
  | nil => exact ⟨[], rfl⟩
  | cons v versions ih =>
    obtain ⟨t, ht⟩ := h v (List.mem_cons_self ..)
    obtain ⟨keys, hkeys⟩ := ih fun w hw ↦ h w (List.mem_cons_of_mem v hw)
    exact ⟨t :: keys, by rw [List.mapM_cons, ht, hkeys]; rfl⟩

theorem mem_zip_iff_of_mapM {versions : List String} {keys : List SemVer}
    (h : versions.mapM validateSemver = .ok keys) {t : SemVer} {v : String} :
    (t, v) ∈ keys.zip versions ↔ v ∈ versions ∧ validateSemver v = .ok t := by
  have hall := forall₂_of_mapM_eq_ok h
  clear h
  induction hall with
  | nil => simp
  | @cons w t' versions keys hw _ ih =>
    rw [List.zip_cons_cons, List.mem_cons, List.mem_cons, Prod.mk.injEq]
    constructor
    · rintro (⟨rfl, rfl⟩ | hmem)
      · exact ⟨.inl rfl, hw⟩
      · exact ⟨.inr (ih.1 hmem).1, (ih.1 hmem).2⟩
    · rintro ⟨rfl | hv, ht⟩
      · rw [hw] at ht
        exact .inl ⟨(Except.ok.inj ht).symm, rfl⟩
      · exact .inr (ih.2 ⟨hv, ht⟩)

/-- **The highest of valid versions**: one of them, and no other denotes more. -/
theorem exists_highestVersion {versions : List String} (hne : versions ≠ [])
    (h : ∀ v ∈ versions, ∃ t, validateSemver v = .ok t) :
    ∃ v ∈ versions, highestVersion versions = .ok (some v) ∧ ∃ t, validateSemver v = .ok t ∧
      ∀ w ∈ versions, ∀ t', validateSemver w = .ok t' → t' ≤ t := by
  obtain ⟨keys, hkeys⟩ := exists_mapM_validateSemver h
  have hsorted : (sortedBy Prod.fst (keys.zip versions)).Pairwise fun p q ↦ p.1 ≤ q.1 :=
    List.pairwise_insertionSort (fun p q : SemVer × String ↦ p.1 ≤ q.1) (keys.zip versions)
  have hmem : ∀ t v, (t, v) ∈ sortedBy Prod.fst (keys.zip versions) ↔
      v ∈ versions ∧ validateSemver v = .ok t := fun t v ↦ by
    rw [mem_sortedBy, mem_zip_iff_of_mapM hkeys]
  have heq : highestVersion versions
      = .ok ((sortedBy Prod.fst (keys.zip versions)).map Prod.snd).getLast? := by
    rw [highestVersion, if_neg hne, sortVersions, hkeys]
    rfl
  generalize sortedBy Prod.fst (keys.zip versions) = sorted at hsorted hmem heq
  rcases List.eq_nil_or_concat sorted with rfl | ⟨front, ⟨t, v⟩, rfl⟩
  · obtain ⟨v, hv⟩ := List.exists_mem_of_ne_nil versions hne
    obtain ⟨t, ht⟩ := h v hv
    exact (List.not_mem_nil ((hmem t v).2 ⟨hv, ht⟩)).elim
  · rw [List.concat_eq_append] at hsorted hmem heq
    obtain ⟨hv, ht⟩ := (hmem t v).1 (by simp)
    refine ⟨v, hv, by rw [heq]; simp, t, ht, fun w hw t' ht' ↦ ?_⟩
    rcases List.mem_append.1 ((hmem t' w).2 ⟨hw, ht'⟩) with hfront | hlast
    · exact (List.pairwise_append.1 hsorted).2.2 _ hfront _ (List.mem_singleton_self _)
    · cases List.mem_singleton.1 hlast
      exact le_refl _

end ForgeData
