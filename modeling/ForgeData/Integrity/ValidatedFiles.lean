import ForgeData.Integrity.Reports
import ForgeData.Synchronization.CanonicalTimestamps
import ForgeData.Validation.PassedFiles

/-!
# Integrity after validation

In a file that passed validation every timestamp has a time zone, so that the order of the timestamps can
always be told. An integrity run can then only raise on an integer that is too large for a float. If it does
not fail, the timestamps are in order, and no check of a field has found an error.
-/

namespace ForgeData

namespace Integrity

open Python
open Validation (ConformsTo ValueText evaluatorOf)
open Normalization (instant? instant?_eq_some_iff isValid_iff_isSome_instant?)

variable {R : Type}

/-! ## Timestamps that have passed -/

/-- The instant of the timestamp of a record. -/
def instantOf (record : Record R) : Option ℤ :=
  match record.get (Str.ofString "timestamp") with
  | .str text => instant? text
  | _ => none

theorem instantOf_eq_some_iff {record : Record R} {e : ℤ} :
    instantOf record = some e ↔
      ∃ text, record.get (Str.ofString "timestamp") = .str text ∧ instant? text = some e := by
  rw [instantOf]
  rcases record.get (Str.ofString "timestamp") with _ | _ | _ | _ | text | _ | _
  case str => simp
  all_goals simp

/-- The field is a timestamp that every record has. -/
def IsTimestampField (schema : SchemaDefinition) (field : Str) : Prop :=
  schema.fields.get? field = some ⟨.datetime, true, false⟩

theorem exists_instant_of_conforms [FloatText R] {schema : SchemaDefinition} {type : FileType}
    {record : Record R} (h : ConformsTo (evaluatorOf schema type) record) {field : Str}
    (hfield : IsTimestampField schema field) :
    ∃ text e, record.get field = .str text ∧ instant? text = some e := by
  have hmem := Dict.get?_eq_some_iff.mp hfield
  obtain ⟨value, hvalue⟩ := Dict.mem_keys_iff.mp (h.required _ hmem rfl)
  have haccepts := h.accepted _ hmem value hvalue
  rw [Validation.AcceptsValue] at haccepts
  split at haccepts
  · cases haccepts
  · rw [if_pos rfl] at haccepts
    obtain ⟨text, rfl, hvalid⟩ := haccepts
    rw [isValid_iff_isSome_instant?] at hvalid
    obtain ⟨e, he⟩ := Option.isSome_iff_exists.mp hvalid
    exact ⟨text, e, Record.get_of_mem (Dict.get?_eq_some_iff.mp hvalue), he⟩

/-! ## One record -/

/-- The checker has seen a last timestamp at this instant, or none. -/
def SeenLast (checker : TimestampSequenceChecker) (last : Option ℤ) : Prop :=
  checker.fieldName = Str.ofString "timestamp" ∧
    match checker.previousValue with
    | none => last = none
    | some previous => ∃ offset, previous.tzinfo = some offset ∧ last = some (previous.instant offset)

/-- **The order of timestamps can be told**: with time zones the check does not raise, and it finds an error
where the timestamp goes backward. -/
theorem exists_check {checker : TimestampSequenceChecker} {last : Option ℤ} (hseen : SeenLast checker last)
    {recordNumber : ℕ} {record : Record R} {e : ℤ} (he : instantOf record = some e) :
    ∃ issues after, checker.check recordNumber record = some (issues, after) ∧ SeenLast after (some e) ∧
      ((∀ issue ∈ issues, issue.isError = false) → ∀ before ∈ last, before ≤ e) := by
  obtain ⟨text, htext, he⟩ := instantOf_eq_some_iff.mp he
  obtain ⟨current, offset, hparse, htz, rfl⟩ := instant?_eq_some_iff.mp he
  obtain ⟨hname, hprevious⟩ := hseen
  have hcurrent : parseTimestamp (record.get checker.fieldName) = some current := by
    rw [hname, htext]
    exact hparse
  rw [TimestampSequenceChecker.check, hcurrent]
  dsimp only
  rcases hlast : checker.previousValue with _ | previous
  · rw [hlast] at hprevious
    refine ⟨_, _, rfl, ⟨hname, offset, htz, rfl⟩, fun _ before hbefore ↦ ?_⟩
    rw [hprevious] at hbefore
    cases hbefore
  · rw [hlast] at hprevious
    obtain ⟨offset', htz', rfl⟩ := hprevious
    have hcompare : compareDatetimes current previous =
        some (compare (current.instant offset) (previous.instant offset')) := by
      rw [compareDatetimes, htz, htz']
    dsimp only
    rw [hcompare]
    rcases horder : compare (current.instant offset) (previous.instant offset') with _ | _ | _
    · refine ⟨_, _, rfl, ⟨hname, offset, htz, rfl⟩, fun herrors ↦ ?_⟩
      have herror := herrors _ (List.mem_singleton_self _)
      exact Bool.noConfusion herror
    · refine ⟨_, _, rfl, ⟨hname, offset, htz, rfl⟩, fun _ before hbefore ↦ ?_⟩
      rw [← Option.some.inj hbefore]
      exact (compare_eq_iff_eq.mp horder).ge
    · refine ⟨_, _, rfl, ⟨hname, offset, htz, rfl⟩, fun _ before hbefore ↦ ?_⟩
      rw [← Option.some.inj hbefore]
      exact (compare_gt_iff_gt.mp horder).le

/-! ## All records -/

/-- The instants of records, in order. -/
def instantsOf (l : List (ℕ × Record R)) : List ℤ := l.filterMap fun p ↦ instantOf p.2

/-- No check of a field has found an error in the record. -/
def NoFieldError (checks : FieldChecks R) (p : ℕ × Record R) : Prop :=
  ∃ issues, checks p.1 p.2 = some issues ∧ ∀ issue ∈ issues, issue.isError = false

/-- **One pass over records with instants**: an integer is too large, or every record has its issues. If
none of them is an error, the timestamps do not go backward. -/
theorem streamIssues_of_instants {checks : FieldChecks R} {l : List (ℕ × Record R)}
    (hl : ∀ p ∈ l, ∃ e, instantOf p.2 = some e) {checker : TimestampSequenceChecker} {last : Option ℤ}
    (hseen : SeenLast checker last) :
    (streamIssues checks checker l = .error .overflowError ∧ ∃ p ∈ l, checks p.1 p.2 = none) ∨
      ∃ records after, streamIssues checks checker l = .ok (records, after) ∧
        records.length = l.length ∧
        ((∀ issue ∈ records.flatten, issue.isError = false) →
          (last.toList ++ instantsOf l).Pairwise (· ≤ ·) ∧ ∀ p ∈ l, NoFieldError checks p) := by
  induction l generalizing checker last with
  | nil =>
    refine .inr ⟨[], checker, rfl, rfl, fun _ ↦ ⟨?_, List.forall_mem_nil _⟩⟩
    rcases last with _ | before
    · exact .nil
    · exact List.pairwise_singleton _ _
  | cons p l ih =>
    obtain ⟨⟨e, he⟩, hl⟩ := List.forall_mem_cons.mp hl
    rw [streamIssues, recordIssues]
    rcases hchecks : checks p.1 p.2 with _ | issues
    · exact .inl ⟨rfl, p, List.mem_cons_self, hchecks⟩
    obtain ⟨timestampIssues, after, hcheck, hafter, horder⟩ := exists_check hseen he
    dsimp only
    rw [hcheck]
    dsimp only
    rcases ih hl hafter with ⟨hraise, q, hq, hnone⟩ | ⟨records, final, hok, hlength, hrest⟩
    · rw [hraise]
      exact .inl ⟨rfl, q, List.mem_cons_of_mem _ hq, hnone⟩
    · rw [hok]
      refine .inr ⟨_, _, rfl, congrArg Nat.succ hlength, fun herrors ↦ ?_⟩
      rw [List.flatten_cons] at herrors
      obtain ⟨hrecord, hrecords⟩ := List.forall_mem_append.mp herrors
      obtain ⟨hissues, htimestamps⟩ := List.forall_mem_append.mp hrecord
      obtain ⟨hpairwise, hfields⟩ := hrest hrecords
      have hinstants : instantsOf (p :: l) = e :: instantsOf l := by
        rw [instantsOf, List.filterMap_cons, he]
        rfl
      rw [hinstants]
      refine ⟨?_, List.forall_mem_cons.mpr ⟨⟨issues, hchecks, hissues⟩, hfields⟩⟩
      rcases last with _ | before
      · exact hpairwise
      · -- the last timestamp is not after this one, and this one not after the rest
        have hle := horder htimestamps before rfl
        refine List.pairwise_cons.mpr ⟨List.forall_mem_cons.mpr ⟨hle, fun e' he' ↦ ?_⟩, hpairwise⟩
        exact hle.trans ((List.pairwise_cons.mp hpairwise).1 e' he')

/-! ## The file -/

/-- The report is one that the later stages accept. -/
def IntegrityReport.Accepted (report : IntegrityReport R) : Prop := report.status ≠ .failed

theorem accepted_reportOf_iff {maxIssues : ℤ} {records : List (List (IntegrityIssue R))} :
    (reportOf maxIssues records).Accepted ↔ ∀ issue ∈ allIssues records, issue.isError = false := by
  rw [IntegrityReport.Accepted, reportOf]
  dsimp only
  constructor
  · intro h issue hissue
    by_contra herror
    rw [if_pos (List.any_eq_true.mpr ⟨issue, hissue, (Bool.not_eq_false _).mp herror⟩)] at h
    exact h rfl
  · intro h
    rw [if_neg]
    · split
      · exact IntegrityStatus.noConfusion
      · exact IntegrityStatus.noConfusion
    · rw [List.any_eq_true]
      rintro ⟨issue, hissue, herror⟩
      rw [h issue hissue] at herror
      cases herror

/-- What an integrity run over a file that passed validation can come to: an integer is too large for a
float, or there is a report about all records; if that report is accepted, the timestamps are in order and
no check has found an error. -/
def Outcome [FloatText R] (maxIssues : ℤ) (checks : FieldChecks R) (type : FileType) (bytes : List Byte)
    (records : List (ℕ × Record R)) : Prop :=
  (run maxIssues checks type bytes = .error .overflowError ∧ ∃ p ∈ records, checks p.1 p.2 = none) ∨
    ∃ report, run maxIssues checks type bytes = .ok report ∧
      report.counts.checkedRecords = records.length ∧
      report.counts.passedRecords + report.counts.failedRecords = records.length ∧
      (report.Accepted →
        (instantsOf records).Pairwise (· ≤ ·) ∧ ∀ p ∈ records, NoFieldError checks p)

theorem outcome_of_instants [FloatText R] (maxIssues : ℤ) (checks : FieldChecks R) {type : FileType}
    {bytes : List Byte} {records : List (ℕ × Record R)} (hread : iterRecords type bytes = ⟨records, none⟩)
    (hinstants : ∀ p ∈ records, ∃ e, instantOf p.2 = some e) :
    Outcome maxIssues checks type bytes records := by
  have hseen : SeenLast {} none := ⟨rfl, rfl⟩
  have hyields : (iterRecords type bytes).yields = records := congrArg Gen.yields hread
  have hraised : (iterRecords (R := R) type bytes).raised = none := congrArg Gen.raised hread
  rw [← hyields] at hinstants ⊢
  rcases streamIssues_of_instants hinstants hseen with
    ⟨hraise, hnone⟩ | ⟨issues, after, hok, hlength, hclean⟩
  · exact .inl ⟨run_of_streamIssues_error hraise, hnone⟩
  · refine .inr ⟨_, run_of_streamIssues hok hraised, hlength, ?_, fun haccepted ↦ ?_⟩
    · rw [← hlength]
      exact passed_add_failed_countsOf issues
    · refine hclean fun issue hissue ↦ accepted_reportOf_iff.mp haccepted issue ?_
      exact List.mem_append_left _ hissue

/-- **Integrity runs over exactly the validated records.** -/
theorem outcome_of_passes [ValueText R] {maxErrors : ℤ} {schema : Validation.RegisteredSchema}
    {manifest : Record R} {type : FileType} {bytes : List Byte} {n : ℕ}
    (hpasses : Validation.Passes maxErrors schema manifest type bytes n)
    (hfield : IsTimestampField schema.toSchemaDefinition (Str.ofString "timestamp")) (maxIssues : ℤ)
    (checks : FieldChecks R) :
    ∃ records : List (ℕ × Record R), iterRecords type bytes = ⟨records, none⟩ ∧ records.length = n ∧
      (∀ p ∈ records, ConformsTo (evaluatorOf schema.toSchemaDefinition type) p.2) ∧
      Outcome maxIssues checks type bytes records := by
  obtain ⟨-, hnoIssues⟩ := Validation.passes_iff_noIssues.mp hpasses
  obtain ⟨records, hstrict, -, hconform, hlength⟩ := Validation.noIssues_iff.mp hnoIssues
  have hread := Validation.iterRecords_of_strictRecords hstrict
  refine ⟨records, hread, hlength, hconform, outcome_of_instants maxIssues checks hread fun p hp ↦ ?_⟩
  obtain ⟨text, e, htext, he⟩ := exists_instant_of_conforms (hconform p hp) hfield
  exact ⟨e, instantOf_eq_some_iff.mpr ⟨text, htext, he⟩⟩

end Integrity

end ForgeData
