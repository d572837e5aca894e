import ForgeData.Integrity.Checkers

/-!
# Integrity reports are exact

A checker counts the issues of a file while it goes through it, keeps the first so many, and tells records
with errors from records without. What the service reports is read here off the list of all issues.
-/

namespace ForgeData

namespace Integrity

open Python

variable {R : Type}

/-! ## Accumulated issues -/

/-- The issue is an error. -/
def IntegrityIssue.isError (issue : IntegrityIssue R) : Bool := issue.severity = .error

/-- The accumulator that has seen exactly these issues. -/
def collected (maxIssues : ℤ) (issues : List (IntegrityIssue R)) : IntegrityIssueAccumulator R where
  maxIssues := maxIssues
  issues := issues.take maxIssues.toNat
  errorCount := issues.countP IntegrityIssue.isError
  warningCount := issues.countP (!·.isError)
  issuesTruncated := maxIssues.toNat < issues.length

theorem count_collected (maxIssues : ℤ) (issues : List (IntegrityIssue R)) (issue : IntegrityIssue R) :
    (collected maxIssues issues).count issue.severity =
      { collected maxIssues issues with
        errorCount := (issues ++ [issue]).countP IntegrityIssue.isError
        warningCount := (issues ++ [issue]).countP (!·.isError) } := by
  rw [List.countP_append, List.countP_append, List.countP_singleton, List.countP_singleton,
    IntegrityIssueAccumulator.count.eq_def, IntegrityIssue.isError]
  rcases issue.severity with _ | _ <;> rfl

theorem add_collected (maxIssues : ℤ) (issues : List (IntegrityIssue R)) (issue : IntegrityIssue R) :
    (collected maxIssues issues).add issue = collected maxIssues (issues ++ [issue]) := by
  have hroom : ((issues.take maxIssues.toNat).length : ℤ) < maxIssues ↔
      issues.length < maxIssues.toNat := by
    rw [List.length_take]
    omega
  have hlonger : (issues ++ [issue]).length = issues.length + 1 := by
    rw [List.length_append, List.length_singleton]
  rw [IntegrityIssueAccumulator.add, count_collected]
  by_cases hlt : issues.length < maxIssues.toNat
  · -- everything has been kept so far
    refine (if_pos (hroom.mpr hlt)).trans ?_
    rw [collected, collected, List.take_of_length_le hlt.le,
      List.take_of_length_le (hlonger.le.trans hlt), hlonger, decide_eq_false hlt.not_gt,
      decide_eq_false (Nat.not_lt.mpr hlt)]
  · refine (if_neg (mt hroom.mp hlt)).trans ?_
    rw [collected, collected, List.take_append_of_le_length (not_lt.mp hlt), hlonger,
      decide_eq_true (Nat.lt_succ_of_le (not_lt.mp hlt))]

theorem addAll_collected (maxIssues : ℤ) (before issues : List (IntegrityIssue R)) :
    (collected maxIssues before).addAll issues = collected maxIssues (before ++ issues) := by
  rw [IntegrityIssueAccumulator.addAll]
  induction issues generalizing before with
  | nil => rw [List.foldl_nil, List.append_nil]
  | cons issue issues ih =>
    rw [List.foldl_cons, add_collected, ih, List.append_assoc, List.singleton_append]

/-! ## All issues of a file -/

/-- The issues of each record, and the checker of timestamps after them. -/
def streamIssues (checks : FieldChecks R) :
    TimestampSequenceChecker → List (ℕ × Record R) →
      Except IntegrityFailure (List (List (IntegrityIssue R)) × TimestampSequenceChecker)
  | timestampChecker, [] => .ok ([], timestampChecker)
  | timestampChecker, p :: l =>
    match recordIssues checks timestampChecker p with
    | .error e => .error e
    | .ok (issues, timestampChecker) =>
      (streamIssues checks timestampChecker l).map fun rest ↦ (issues :: rest.1, rest.2)

/-- The issues of each record of a file. -/
def fileIssues [FloatText R] (checks : FieldChecks R) (type : FileType) (bytes : List Byte) :
    Except IntegrityFailure (List (List (IntegrityIssue R))) :=
  match streamIssues checks {} (iterRecords type bytes).yields, (iterRecords (R := R) type bytes).raised with
  | .error e, _ => .error e
  | .ok _, some e => .error (.read e)
  | .ok (records, _), none => .ok records

/-- The records of these issues, counted. -/
def countsOf (records : List (List (IntegrityIssue R))) : IntegrityRecordCounts where
  totalRecords := records.length
  checkedRecords := records.length
  passedRecords := records.countP (!·.any IntegrityIssue.isError)
  failedRecords := records.countP (·.any IntegrityIssue.isError)

theorem passed_add_failed_countsOf (records : List (List (IntegrityIssue R))) :
    (countsOf records).passedRecords + (countsOf records).failedRecords = records.length := by
  rw [List.length_eq_countP_add_countP (fun issues : List (IntegrityIssue R) ↦
    issues.any IntegrityIssue.isError), add_comm]
  refine congrArg _ (List.countP_congr fun issues _ ↦ ?_)
  rw [Bool.not_eq_true', decide_eq_true_eq, Bool.not_eq_true]

/-- How far a checker is that has found these issues. -/
def stateOf (maxIssues : ℤ) (records : List (List (IntegrityIssue R)))
    (timestampChecker : TimestampSequenceChecker) : StreamState R where
  counts := countsOf records
  accumulator := collected maxIssues records.flatten
  timestampChecker := timestampChecker

theorem record_stateOf (maxIssues : ℤ) (records : List (List (IntegrityIssue R)))
    (before after : TimestampSequenceChecker) (issues : List (IntegrityIssue R)) :
    (stateOf maxIssues records before).record issues after = stateOf maxIssues (records ++ [issues]) after := by
  have hflatten : (records ++ [issues]).flatten = records.flatten ++ issues := by
    rw [List.flatten_append, List.flatten_singleton]
  rw [StreamState.record, stateOf, stateOf, addAll_collected, hflatten, countsOf, countsOf,
    List.length_append, List.length_singleton, List.countP_append, List.countP_append,
    List.countP_singleton, List.countP_singleton]
  have herror : (issues.any fun issue ↦ decide (issue.severity = .error)) =
      issues.any IntegrityIssue.isError := rfl
  rw [herror]
  rcases issues.any IntegrityIssue.isError with _ | _ <;> rfl

theorem foldlM_streamStep (checks : FieldChecks R) (maxIssues : ℤ)
    (records : List (List (IntegrityIssue R))) (timestampChecker : TimestampSequenceChecker)
    (l : List (ℕ × Record R)) :
    l.foldlM (streamStep checks) (stateOf maxIssues records timestampChecker) =
      (streamIssues checks timestampChecker l).map fun rest ↦
        stateOf maxIssues (records ++ rest.1) rest.2 := by
  induction l generalizing records timestampChecker with
  | nil =>
    rw [List.foldlM_nil, streamIssues]
    exact congrArg (fun records ↦ Except.ok (stateOf maxIssues records timestampChecker))
      (List.append_nil records).symm
  | cons p l ih =>
    have hchecker : (stateOf maxIssues records timestampChecker).timestampChecker = timestampChecker := rfl
    rw [List.foldlM_cons, streamStep, hchecker, streamIssues]
    rcases recordIssues checks timestampChecker p with e | ⟨issues, after⟩
    · rfl
    · refine Eq.trans (b := l.foldlM (streamStep checks)
        ((stateOf maxIssues records timestampChecker).record issues after)) rfl ?_
      rw [record_stateOf, ih]
      dsimp only
      rcases streamIssues checks after l with e | rest
      · rfl
      · exact congrArg (fun records ↦ Except.ok (stateOf maxIssues records rest.2))
          (List.append_assoc ..)

theorem start_eq_stateOf (maxIssues : ℤ) :
    ({ accumulator := { maxIssues } } : StreamState R) = stateOf maxIssues [] {} := by
  rw [stateOf, List.flatten_nil, collected, List.take_nil]
  rfl

/-! ## The report -/

/-- All issues of a file with these issues in its records. -/
def allIssues (records : List (List (IntegrityIssue R))) : List (IntegrityIssue R) :=
  records.flatten ++ if records = [] then [emptyDataset] else []

/-- The report about a file with these issues in its records. -/
def reportOf (maxIssues : ℤ) (records : List (List (IntegrityIssue R))) : IntegrityReport R where
  status :=
    if (allIssues records).any IntegrityIssue.isError then .failed
    else if allIssues records = [] then .passed
    else .passedWithWarnings
  counts := countsOf records
  warningCount := (allIssues records).countP (!·.isError)
  errorCount := (allIssues records).countP IntegrityIssue.isError
  issues := (allIssues records).take maxIssues.toNat
  issuesTruncated := maxIssues.toNat < (allIssues records).length

theorem status_collected (maxIssues : ℤ) (issues : List (IntegrityIssue R)) :
    (if (collected maxIssues issues).errorCount > 0 then IntegrityStatus.failed
      else if (collected maxIssues issues).warningCount > 0 then .passedWithWarnings else .passed) =
    if issues.any IntegrityIssue.isError then .failed
    else if issues = [] then .passed else .passedWithWarnings := by
  have herrors : (collected maxIssues issues).errorCount > 0 ↔ issues.any IntegrityIssue.isError = true := by
    rw [List.any_eq_true]
    exact List.countP_pos_iff
  have hwarnings : (collected maxIssues issues).warningCount > 0 ↔ ∃ a ∈ issues, (!a.isError) = true :=
    List.countP_pos_iff
  by_cases herror : issues.any IntegrityIssue.isError = true
  · rw [if_pos (herrors.mpr herror), if_pos herror]
  rw [if_neg (mt herrors.mp herror), if_neg herror]
  by_cases hnil : issues = []
  · rw [if_pos hnil, if_neg]
    rw [hwarnings, hnil]
    rintro ⟨a, ha, -⟩
    exact List.not_mem_nil ha
  · rw [if_neg hnil, if_pos]
    -- no issue is an error, so that the first one is a warning
    obtain ⟨a, ha⟩ := List.exists_mem_of_ne_nil _ hnil
    refine hwarnings.mpr ⟨a, ha, ?_⟩
    rw [Bool.not_eq_true', ← Bool.not_eq_true]
    exact fun h ↦ herror (List.any_eq_true.mpr ⟨a, ha, h⟩)

theorem accumulator_stateOf (maxIssues : ℤ) (records : List (List (IntegrityIssue R)))
    (after : TimestampSequenceChecker) :
    (if (stateOf maxIssues records after).counts.totalRecords = 0 then
        (stateOf maxIssues records after).accumulator.add emptyDataset
      else (stateOf maxIssues records after).accumulator) = collected maxIssues (allIssues records) := by
  have htotal : (stateOf maxIssues records after).counts.totalRecords = 0 ↔ records = [] :=
    List.length_eq_zero_iff
  rw [allIssues]
  by_cases hnil : records = []
  · rw [if_pos (htotal.mpr hnil), if_pos hnil]
    exact add_collected ..
  · rw [if_neg (mt htotal.mp hnil), if_neg hnil, List.append_nil]
    rfl

section Run

variable [FloatText R] {maxIssues : ℤ} {checks : FieldChecks R} {type : FileType} {bytes : List Byte}

theorem run_of_streamIssues_error {e : IntegrityFailure}
    (h : streamIssues checks {} (iterRecords type bytes).yields = .error e) :
    run maxIssues checks type bytes = .error e := by
  rw [run, checkStream, start_eq_stateOf, foldlM_streamStep, h]
  rfl

theorem run_of_raised {issues : List (List (IntegrityIssue R)) × TimestampSequenceChecker} {e : ReadError}
    (h : streamIssues checks {} (iterRecords type bytes).yields = .ok issues)
    (hraised : (iterRecords (R := R) type bytes).raised = some e) :
    run maxIssues checks type bytes = .error (.read e) := by
  rw [run, checkStream, start_eq_stateOf, foldlM_streamStep, h, hraised]
  rfl

theorem run_of_streamIssues {records : List (List (IntegrityIssue R))} {after : TimestampSequenceChecker}
    (h : streamIssues checks {} (iterRecords type bytes).yields = .ok (records, after))
    (hraised : (iterRecords (R := R) type bytes).raised = none) :
    run maxIssues checks type bytes = .ok (reportOf maxIssues records) := by
  rw [run, checkStream, start_eq_stateOf, foldlM_streamStep, h, hraised]
  refine congrArg Except.ok ?_
  beta_reduce
  rw [accumulator_stateOf maxIssues ([] ++ records) after, status_collected]
  rfl

/-- **An integrity report is exact**: whatever the cap, it counts all errors and warnings of the file, and
the records with and without errors; it keeps the first issues in order and says whether some are missing.
It fails exactly if there is an error, also in a file without records. -/
theorem run_eq (maxIssues : ℤ) (checks : FieldChecks R) (type : FileType) (bytes : List Byte) :
    run maxIssues checks type bytes = (fileIssues checks type bytes).map (reportOf maxIssues) := by
  rw [fileIssues]
  rcases hissues : streamIssues checks {} (iterRecords type bytes).yields with e | ⟨records, after⟩
  · exact run_of_streamIssues_error hissues
  rcases hraised : (iterRecords (R := R) type bytes).raised with _ | e
  · exact run_of_streamIssues hissues hraised
  · exact run_of_raised hissues hraised

end Run

end Integrity

end ForgeData
