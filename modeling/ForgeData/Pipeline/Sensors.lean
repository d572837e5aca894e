import ForgeData.Pipeline.StageGates

/-!
# The sensors of the repository

The schemas, normalization profiles and integrity checks of the IMU, GPS and force/torque sensors. They fit
together: every number of a schema is checked, no alias is a name of the schema, and only numbers have units.
-/

namespace ForgeData

namespace Pipeline

open Python Normalization
open Integrity (FieldChecks NoFieldError)
open Validation (Passes RegisteredSchema ValueText)

/-! ## Schemas -/

/-- The fields of a sensor: a timestamp, numbers that are required and numbers that are not, and a device. -/
def sensorFields (required optional : List String) : List (Str × FieldDefinition) :=
  (Str.ofString "timestamp", ⟨.datetime, true, false⟩) ::
    (required.map (fun name ↦ (Str.ofString name, ⟨.float, true, false⟩)) ++
      optional.map (fun name ↦ (Str.ofString name, ⟨.float, false, true⟩)) ++
      [(Str.ofString "device_id", ⟨.string, false, true⟩)])

/-- The schema of a sensor. -/
def sensorSchema (name : String) (required optional : List String) : RegisteredSchema where
  schemaName := Str.ofString name
  schemaVersion := Str.ofString "1.0.0"
  fields := Dict.ofPairs (sensorFields required optional)
  allowExtraFields := false
  metadataRequirements := Dict.ofPairs [(Str.ofString "sensor_type", Str.ofString name)]

/-- `schemas/imu_v1.json`. -/
def imuSchema : RegisteredSchema :=
  sensorSchema "imu" ["accel_x", "accel_y", "accel_z"] ["gyro_x", "gyro_y", "gyro_z"]

/-- `schemas/gps_v1.json`. -/
def gpsSchema : RegisteredSchema := sensorSchema "gps" ["latitude", "longitude"] ["altitude", "speed"]

/-- `schemas/force_torque_v1.json`. -/
def forceTorqueSchema : RegisteredSchema :=
  sensorSchema "force_torque" ["force_x", "force_y", "force_z", "torque_x", "torque_y", "torque_z"] []

/-! ## Units -/

/-- A dictionary of texts. -/
def textDict (l : List (String × String)) : Dict Str Str :=
  Dict.ofPairs (l.map fun p ↦ (Str.ofString p.1, Str.ofString p.2))

section Units

variable (R : Type) [PyFloat R]

/-- A dimension with its factors. -/
def dimensionOf (name canonicalUnit : String) (factors : List (String × R)) : Str × UnitDimension R :=
  (Str.ofString name, ⟨Str.ofString name, Str.ofString canonicalUnit,
    Dict.ofPairs (factors.map fun p ↦ (Str.ofString p.1, p.2))⟩)

/-- The literal `1.0`. -/
def one : R := PyFloat.ofDecimal 1 0

/-- `FEET_TO_METERS`. -/
def feetToMeters : R := PyFloat.ofDecimal 3048 4

/-- `LBF_TO_NEWTONS`. -/
def lbfToNewtons : R := PyFloat.ofDecimal 44482216152605 13

/-- `ACCELERATION`. -/
def acceleration : Str × UnitDimension R :=
  dimensionOf R "acceleration" "m/s^2" [("m/s^2", one R), ("g", PyFloat.ofDecimal 980665 5)]

/-- `ANGULAR_VELOCITY`. -/
def angularVelocity : Str × UnitDimension R :=
  dimensionOf R "angular_velocity" "rad/s" [("rad/s", one R),
    ("deg/s", PyFloat.ofDecimal 3141592653589793 15 / PyFloat.ofDecimal 180 0)]

/-- `ALTITUDE`. -/
def altitude : Str × UnitDimension R :=
  dimensionOf R "altitude" "m" [("m", one R), ("ft", feetToMeters R)]

/-- `SPEED`. -/
def speed : Str × UnitDimension R :=
  dimensionOf R "speed" "m/s" [("m/s", one R), ("km/h", PyFloat.ofDecimal 1000 0 / PyFloat.ofDecimal 3600 0),
    ("mph", PyFloat.ofDecimal 44704 5)]

/-- `FORCE`. -/
def force : Str × UnitDimension R :=
  dimensionOf R "force" "N" [("N", one R), ("kN", PyFloat.ofDecimal 1000 0), ("lbf", lbfToNewtons R)]

/-- `TORQUE`. -/
def torque : Str × UnitDimension R :=
  dimensionOf R "torque" "N·m" [("N*m", one R), ("N·m", one R), ("mN*m", PyFloat.ofDecimal 1 3),
    ("mN·m", PyFloat.ofDecimal 1 3), ("lbf*ft", lbfToNewtons R * feetToMeters R),
    ("lbf·ft", lbfToNewtons R * feetToMeters R)]

end Units

/-! ## Profiles -/

/-- The aliases of `IMU_CANONICAL_V1`. -/
def imuAliases : Dict Str Str :=
  textDict [("Accel X", "accel_x"), ("Accel Y", "accel_y"), ("Accel Z", "accel_z"), ("acc_x", "accel_x"),
    ("acc_y", "accel_y"), ("acc_z", "accel_z"), ("ax", "accel_x"), ("ay", "accel_y"), ("az", "accel_z"),
    ("Gyro X", "gyro_x"), ("Gyro Y", "gyro_y"), ("Gyro Z", "gyro_z"), ("gx", "gyro_x"), ("gy", "gyro_y"),
    ("gz", "gyro_z")]

/-- The dimensions of the fields of an IMU. -/
def imuFieldDimensions : Dict Str Str :=
  textDict [("accel_x", "acceleration"), ("accel_y", "acceleration"), ("accel_z", "acceleration"),
    ("gyro_x", "angular_velocity"), ("gyro_y", "angular_velocity"), ("gyro_z", "angular_velocity")]

/-- The aliases of `GPS_CANONICAL_V1`. -/
def gpsAliases : Dict Str Str :=
  textDict [("lat", "latitude"), ("lon", "longitude"), ("lng", "longitude"), ("alt", "altitude")]

/-- The dimensions of the fields of a GPS. -/
def gpsFieldDimensions : Dict Str Str := textDict [("altitude", "altitude"), ("speed", "speed")]

/-- The aliases of `FORCE_TORQUE_CANONICAL_V1`. -/
def forceTorqueAliases : Dict Str Str :=
  textDict [("fx", "force_x"), ("fy", "force_y"), ("fz", "force_z"), ("tx", "torque_x"), ("ty", "torque_y"),
    ("tz", "torque_z")]

/-- The dimensions of the fields of a force/torque sensor. -/
def forceTorqueFieldDimensions : Dict Str Str :=
  textDict [("force_x", "force"), ("force_y", "force"), ("force_z", "force"), ("torque_x", "torque"),
    ("torque_y", "torque"), ("torque_z", "torque")]

section Profiles

variable (R : Type) [PyFloat R]

/-- `IMU_CANONICAL_V1`. -/
def imuProfile : NormalizationProfile R where
  fieldAliases := imuAliases
  fieldDimensions := imuFieldDimensions
  dimensions := Dict.ofPairs [acceleration R, angularVelocity R]

/-- `GPS_CANONICAL_V1`. -/
def gpsProfile : NormalizationProfile R where
  fieldAliases := gpsAliases
  fieldDimensions := gpsFieldDimensions
  dimensions := Dict.ofPairs [altitude R, speed R]

/-- `FORCE_TORQUE_CANONICAL_V1`. -/
def forceTorqueProfile : NormalizationProfile R where
  fieldAliases := forceTorqueAliases
  fieldDimensions := forceTorqueFieldDimensions
  dimensions := Dict.ofPairs [force R, torque R]

end Profiles

/-! ## What the checks find -/

section Checks

variable {R : Type}

theorem noFieldError_of_all {checks : List (FieldChecks R)} {p : ℕ × Record R}
    (h : NoFieldError (FieldChecks.all checks) p) {check : FieldChecks R} (hcheck : check ∈ checks) :
    NoFieldError check p := by
  obtain ⟨issues, hissues, hclean⟩ := h
  obtain ⟨each, heach, rfl⟩ := Option.map_eq_some_iff.mp hissues
  clear hissues
  induction checks generalizing each with
  | nil => exact absurd hcheck List.not_mem_nil
  | cons first checks ih =>
    rw [List.mapM_cons] at heach
    obtain ⟨firstIssues, hfirst, heach⟩ := Option.bind_eq_some_iff.mp heach
    obtain ⟨rest, hrest, heach⟩ := Option.bind_eq_some_iff.mp heach
    rw [← Option.some.inj heach, List.flatten_cons] at hclean
    obtain ⟨hfirstClean, hrestClean⟩ := List.forall_mem_append.mp hclean
    rcases List.mem_cons.mp hcheck with rfl | hcheck
    · exact ⟨firstIssues, hfirst, hfirstClean⟩
    · exact ih hcheck rest hrest hrestClean

variable [ValueText R]

theorem exists_finite_of_checkNumber {recordNumber : ℕ} {field : Str} {rawValue : Value R}
    {check : R → List (Integrity.IntegrityIssue R)} {issues : List (Integrity.IntegrityIssue R)}
    (h : Integrity.checkNumber recordNumber field rawValue check = some issues)
    (hclean : ∀ issue ∈ issues, issue.isError = false) :
    ∃ value, toFloat rawValue = some value ∧ ∀ x ∈ value, FloatText.isFinite x = true := by
  obtain ⟨value, hvalue, rfl⟩ := Option.map_eq_some_iff.mp h
  refine ⟨value, hvalue, fun x hx ↦ ?_⟩
  obtain rfl := Option.mem_def.mp hx
  by_contra hfinite
  rw [Option.elim_some, Integrity.checkFinite, if_neg hfinite, Option.elim_some] at hclean
  have herror := hclean _ (List.mem_singleton_self _)
  cases herror

theorem checksField_all {checks : List (FieldChecks R)} {check : FieldChecks R} (hcheck : check ∈ checks)
    {field : Str} (h : ChecksField check field) : ChecksField (FieldChecks.all checks) field :=
  fun p hp ↦ h p (noFieldError_of_all hp hcheck)

theorem checksField_checkOptional (field : String) (check : ℕ → R → List (Integrity.IntegrityIssue R)) :
    ChecksField (Integrity.checkOptional field check) (Str.ofString field) := by
  rintro p ⟨issues, hissues, hclean⟩
  rw [Integrity.checkOptional] at hissues
  split at hissues
  · exact exists_finite_of_checkNumber hissues hclean
  · next habsent =>
    -- a field that is absent is no number
    have hnone : p.2.get? (Str.ofString field) = none := by
      rw [Dict.contains, Bool.not_eq_true, Option.isSome_eq_false_iff, Option.isNone_iff_eq_none] at habsent
      exact habsent
    rw [Record.get, Dict.getD, hnone]
    exact ⟨none, rfl, fun x hx ↦ absurd hx (Option.not_mem_none x)⟩

variable [PyFloat R]

theorem checksField_checkRange (field label : String) (code : Integrity.IntegrityErrorCode) (lower upper : R) :
    ChecksField (Integrity.checkRange field label code lower upper) (Str.ofString field) := by
  rintro p ⟨issues, hissues, hclean⟩
  exact exists_finite_of_checkNumber hissues hclean

theorem checksField_checkAxis (threshold label : String) (code : Integrity.IntegrityErrorCode)
    (limit : Option R) (field : String) :
    ChecksField (Integrity.checkAxis threshold label code limit field) (Str.ofString field) := by
  rintro p ⟨issues, hissues, hclean⟩
  exact exists_finite_of_checkNumber hissues hclean

theorem checksField_gps (limits : Integrity.GpsLimits R) :
    ∀ name ∈ ["latitude", "longitude", "altitude", "speed"],
      ChecksField (Integrity.gpsChecks limits) (Str.ofString name) := by
  intro name hname
  rw [Integrity.gpsChecks]
  simp only [List.mem_cons, List.not_mem_nil, or_false] at hname
  rcases hname with rfl | rfl | rfl | rfl
  · have hmem : Integrity.checkLatitude limits ∈ [Integrity.checkLatitude limits,
        Integrity.checkLongitude limits, Integrity.checkSpeed, Integrity.checkAltitude] := by simp
    exact checksField_all hmem (checksField_checkRange _ _ _ _ _)
  · have hmem : Integrity.checkLongitude limits ∈ [Integrity.checkLatitude limits,
        Integrity.checkLongitude limits, Integrity.checkSpeed, Integrity.checkAltitude] := by simp
    exact checksField_all hmem (checksField_checkRange _ _ _ _ _)
  · have hmem : Integrity.checkAltitude ∈ [Integrity.checkLatitude limits,
        Integrity.checkLongitude limits, Integrity.checkSpeed, Integrity.checkAltitude] := by simp
    exact checksField_all hmem (checksField_checkOptional _ _)
  · have hmem : Integrity.checkSpeed ∈ [Integrity.checkLatitude limits,
        Integrity.checkLongitude limits, Integrity.checkSpeed, Integrity.checkAltitude] := by simp
    exact checksField_all hmem (checksField_checkOptional _ _)

theorem checksField_imu (thresholds : Integrity.ImuThresholds R) :
    ∀ name ∈ ["accel_x", "accel_y", "accel_z"] ++ ["gyro_x", "gyro_y", "gyro_z"],
      ChecksField (Integrity.imuChecks thresholds) (Str.ofString name) := by
  intro name hname
  rcases List.mem_append.mp hname with hname | hname
  · exact checksField_all (List.mem_append_left _ (List.mem_map_of_mem hname)) (checksField_checkAxis _ _ _ _ _)
  · exact checksField_all (List.mem_append_right _ (List.mem_map_of_mem hname)) (checksField_checkAxis _ _ _ _ _)

theorem checksField_forceTorque (thresholds : Integrity.ForceTorqueThresholds R) :
    ∀ name ∈ ["force_x", "force_y", "force_z"] ++ ["torque_x", "torque_y", "torque_z"],
      ChecksField (Integrity.forceTorqueChecks thresholds) (Str.ofString name) := by
  intro name hname
  rcases List.mem_append.mp hname with hname | hname
  · exact checksField_all (List.mem_append_left _ (List.mem_map_of_mem hname)) (checksField_checkAxis _ _ _ _ _)
  · exact checksField_all (List.mem_append_right _ (List.mem_map_of_mem hname)) (checksField_checkAxis _ _ _ _ _)

end Checks

/-! ## The sensors fit -/

/-- The names of a sensor's fields, its aliases and its units go together. -/
structure NamesFit (required optional : List String) (aliases fieldDimensions : Dict Str Str) : Prop where
  nodup : ((sensorFields required optional).map Prod.fst).Nodup
  aliases : ∀ field ∈ (sensorFields required optional).map Prod.fst, aliases.get? field = none
  numeric : ∀ field ∈ fieldDimensions.keys, ∀ p ∈ sensorFields required optional, p.1 = field →
    p.2.type = .float

section Fits

variable {R : Type} [FloatText R]

theorem sensorFits_of_names {name : String} {required optional : List String}
    {profile : NormalizationProfile R} {checks : FieldChecks R}
    (hnames : NamesFit required optional profile.fieldAliases profile.fieldDimensions)
    (htimestamp : profile.timestampField = Str.ofString "timestamp")
    (hchecks : ∀ name ∈ required ++ optional, ChecksField checks (Str.ofString name)) :
    SensorFits (sensorSchema name required optional).toSchemaDefinition profile checks := by
  have hitems : (sensorSchema name required optional).fields.items = sensorFields required optional :=
    Dict.items_ofPairs hnames.nodup
  have hkeys : (sensorSchema name required optional).fields.keys =
      (sensorFields required optional).map Prod.fst := congrArg (List.map Prod.fst) hitems
  have hlookup {field : Str} {definition : FieldDefinition} :
      (sensorSchema name required optional).fields.get? field = some definition ↔
        (field, definition) ∈ sensorFields required optional := by
    rw [Dict.get?_eq_some_iff, hitems]
  refine ⟨htimestamp, hlookup.mpr List.mem_cons_self, rfl, fun p hp hne ↦ ?_, ?_, ?_, ?_⟩
  -- the fields are the timestamp, the numbers, required or not, and the device
  · rw [hitems, sensorFields] at hp
    rcases List.mem_cons.mp hp with rfl | hp
    · exact absurd rfl hne
    rcases List.mem_append.mp hp with hp | hp
    · rcases List.mem_append.mp hp with hp | hp
      · obtain ⟨number, hnumber, rfl⟩ := List.mem_map.mp hp
        exact .inl ⟨rfl, fun _ ↦ rfl, hchecks number (List.mem_append_left _ hnumber)⟩
      · obtain ⟨number, hnumber, rfl⟩ := List.mem_map.mp hp
        exact .inl ⟨rfl, fun h ↦ absurd h Bool.false_ne_true, hchecks number (List.mem_append_right _ hnumber)⟩
    · rw [List.mem_singleton.mp hp]
      exact .inr ⟨rfl, rfl⟩
  · rw [hkeys]
    exact hnames.aliases
  · exact fun field hfield definition hdefinition ↦
      hnames.numeric field hfield (field, definition) (hlookup.mp hdefinition) rfl
  · rw [hkeys]
    intro field hfield
    obtain ⟨p, hp, rfl⟩ := List.mem_map.mp hfield
    rw [sensorFields] at hp
    rcases List.mem_cons.mp hp with rfl | hp
    · exact Utf8.encodable_ofString _
    rcases List.mem_append.mp hp with hp | hp
    · rcases List.mem_append.mp hp with hp | hp
      · obtain ⟨number, -, rfl⟩ := List.mem_map.mp hp
        exact Utf8.encodable_ofString _
      · obtain ⟨number, -, rfl⟩ := List.mem_map.mp hp
        exact Utf8.encodable_ofString _
    · rw [List.mem_singleton.mp hp]
      exact Utf8.encodable_ofString _

end Fits

theorem namesFit_imu : NamesFit ["accel_x", "accel_y", "accel_z"] ["gyro_x", "gyro_y", "gyro_z"] imuAliases
    imuFieldDimensions :=
  ⟨by decide +kernel, by decide +kernel, by decide +kernel⟩

theorem namesFit_gps : NamesFit ["latitude", "longitude"] ["altitude", "speed"] gpsAliases
    gpsFieldDimensions :=
  ⟨by decide +kernel, by decide +kernel, by decide +kernel⟩

theorem namesFit_forceTorque :
    NamesFit ["force_x", "force_y", "force_z", "torque_x", "torque_y", "torque_z"] [] forceTorqueAliases
      forceTorqueFieldDimensions :=
  ⟨by decide +kernel, by decide +kernel, by decide +kernel⟩

section Sensors

variable {R : Type} [ValueText R] [PyFloat R]

theorem sensorFits_imu (thresholds : Integrity.ImuThresholds R) :
    SensorFits imuSchema.toSchemaDefinition (imuProfile R) (Integrity.imuChecks thresholds) :=
  sensorFits_of_names namesFit_imu rfl (checksField_imu thresholds)

theorem sensorFits_gps (limits : Integrity.GpsLimits R) :
    SensorFits gpsSchema.toSchemaDefinition (gpsProfile R) (Integrity.gpsChecks limits) :=
  sensorFits_of_names namesFit_gps rfl (checksField_gps limits)

theorem sensorFits_forceTorque (thresholds : Integrity.ForceTorqueThresholds R) :
    SensorFits forceTorqueSchema.toSchemaDefinition (forceTorqueProfile R)
      (Integrity.forceTorqueChecks thresholds) :=
  sensorFits_of_names namesFit_forceTorque rfl (by
    rw [List.append_nil]
    exact checksField_forceTorque thresholds)

end Sensors

/-! ## A position -/

/-- The order of the floats that are numbers. -/
def BitFloat.rank : BitFloat → ℤ
  | .negInf => -1
  | .zero | .nan => 0
  | .one => 1
  | .inf => 2

/-- Zero and one as in IEEE 754, and every other number that is not one of the two as an infinity. -/
instance : PyFloat BitFloat where
  add
    | .zero, x | x, .zero => x
    | _, _ => .nan
  sub
    | x, .zero => x
    | .zero, .one | .zero, .inf => .negInf
    | .one, .one => .zero
    | _, _ => .nan
  mul := Mul.mul
  div
    | x, .one => x
    | _, _ => .nan
  intCast n := if n = 0 then .zero else if n = 1 then .one else if n < 0 then .negInf else .inf
  lt x y := x ≠ .nan ∧ y ≠ .nan ∧ BitFloat.rank x < BitFloat.rank y
  le x y := x ≠ .nan ∧ y ≠ .nan ∧ BitFloat.rank x ≤ BitFloat.rank y
  decidableLT x y := inferInstanceAs (Decidable (x ≠ .nan ∧ y ≠ .nan ∧ BitFloat.rank x < BitFloat.rank y))
  decidableLE x y := inferInstanceAs (Decidable (x ≠ .nan ∧ y ≠ .nan ∧ BitFloat.rank x ≤ BitFloat.rank y))
  ofDecimal m e := if m = 0 then .zero else if m = 10 ^ e then .one else .inf
  toInt? := FloatText.integer?
  toText
    | .zero => "0.0"
    | .one => "1.0"
    | .nan => "nan"
    | .inf => "inf"
    | .negInf => "-inf"

/-- Texts of the small floats; no other value and no exception is printed. -/
instance : ValueText BitFloat where
  reprValue
    | .float x => FloatText.repr x
    | .str s => CodePoint.ofChar '\'' :: (s ++ [CodePoint.ofChar '\''])
    | .int n => encodeInt n
    | _ => []
  jsonErrorText _ := []

instance : StripsText BitFloat where
  ofStr?_strip s x h := by
    have hread (text : Str) (htext : text.strip = text) (hs : s = text) : s.strip = s := by rw [hs, htext]
    have hstrip : s.strip = s := by
      simp only [FloatText.ofStr?] at h
      split at h
      · next hs => exact hs.elim (hread _ (by decide +kernel)) (hread _ (by decide +kernel))
      split at h
      · next hs => exact hs.elim (hread _ (by decide +kernel)) (hread _ (by decide +kernel))
      split at h
      · next hs => exact hread _ (by decide +kernel) hs
      split at h
      · next hs => exact hread _ (by decide +kernel) hs
      split at h
      · next hs => exact hread _ (by decide +kernel) hs
      · cases h
    rw [hstrip]
    exact h

/-- A CSV file with three positions, the last of them at the given time. -/
def positions (last : String) : List Byte :=
  (Utf8.encode (Str.ofString "timestamp,latitude,longitude\n2024-01-01T00:00:00Z,0,1\n" ++
    Str.ofString "2024-01-01T01:00:01+01:00,0,1\n" ++ Str.ofString last ++ Str.ofString ",0,1\n")).getD []

/-- A time of year 9999 that is in year 10000 in UTC. -/
def overflowingTime : String := "9999-12-31T23:59:59-01:00"

/-- The manifest of the positions. -/
def positionManifest : Record BitFloat :=
  Dict.ofPairs [(Str.ofString "sensor_type", .str (Str.ofString "gps"))]

/-- The units of a GPS. -/
def positionUnits : Dict Str Str := textDict [("altitude", "m"), ("speed", "m/s")]

theorem exists_eq_ok {ε α β : Type} {f : α → β} {x : Except ε α} {b : β} (h : x.toOption.map f = some b) :
    ∃ a, x = .ok a ∧ f a = b := by
  rcases x with e | a
  · cases h
  · exact ⟨a, rfl, Option.some.inj h⟩

theorem passes_positions {last : String} (hlast : last = "2024-01-01T00:00:02Z" ∨ last = overflowingTime) :
    Passes 100 gpsSchema positionManifest .csv (positions last) 3 := by
  have hreport : (Validation.validate 100 gpsSchema positionManifest .csv (positions last)).toOption.map
      (fun report ↦ (decide (report.status = .passed), report.summary.recordsChecked)) =
      some (true, 3) := by
    rcases hlast with rfl | rfl <;> decide +kernel
  obtain ⟨report, hok, heq⟩ := exists_eq_ok hreport
  obtain ⟨hstatus, hn⟩ := Prod.mk.inj heq
  exact ⟨report, hok, of_decide_eq_true hstatus, hn⟩

theorem exists_accepted_positions {last : String}
    (hlast : last = "2024-01-01T00:00:02Z" ∨ last = overflowingTime) :
    ∃ report : Integrity.IntegrityReport BitFloat,
      Integrity.run 100 (Integrity.gpsChecks {}) .csv (positions last) = .ok report ∧ report.Accepted := by
  have hreport : (Integrity.run (R := BitFloat) 100 (Integrity.gpsChecks {}) .csv
      (positions last)).toOption.map (fun report ↦ decide (report.status = .failed)) = some false := by
    rcases hlast with rfl | rfl <;> decide +kernel
  obtain ⟨report, hok, hstatus⟩ := exists_eq_ok hreport
  exact ⟨report, hok, of_decide_eq_false hstatus⟩

theorem exists_init_positions : ∃ normalizer : RecordNormalizer BitFloat,
    RecordNormalizer.init gpsSchema.toSchemaDefinition (gpsProfile BitFloat) positionUnits =
      .ok normalizer := by
  have hinit : (RecordNormalizer.init gpsSchema.toSchemaDefinition (gpsProfile BitFloat)
      positionUnits).toOption.map (fun _ ↦ ()) = some () := by decide +kernel
  obtain ⟨normalizer, hok, -⟩ := exists_eq_ok hinit
  exact ⟨normalizer, hok⟩

/-- The gates let both files through. The first is normalized and read back, and the second makes
normalization raise at its last record. -/
theorem gates_suffice_positions : ∃ normalizer : RecordNormalizer BitFloat,
    Synchronizable (fun _ ↦ []) .csv gpsSchema.toSchemaDefinition normalizer (Str.ofString "timestamp")
        (positions "2024-01-01T00:00:02Z") 3 ∧
      Overflows (fun _ ↦ []) .csv normalizer (positions overflowingTime) := by
  obtain ⟨normalizer, hinit⟩ := exists_init_positions
  have hgates {last : String} (hlast : last = "2024-01-01T00:00:02Z" ∨ last = overflowingTime) :
      Synchronizable (fun _ ↦ []) .csv gpsSchema.toSchemaDefinition normalizer (Str.ofString "timestamp")
          (positions last) 3 ∨ Overflows (fun _ ↦ []) .csv normalizer (positions last) := by
    obtain ⟨report, hrun, haccepted⟩ := exists_accepted_positions hlast
    exact (gates_suffice (fun _ ↦ []) (fun _ ↦ List.forall_mem_nil _) (sensorFits_gps {})
      (passes_positions hlast) hrun haccepted hinit).2
  have hends (last : String) {ok : Bool} (h : (RecordNormalizer.init gpsSchema.toSchemaDefinition
      (gpsProfile BitFloat) positionUnits).toOption.map (fun normalizer ↦
        (writeStagedArtifact (fun _ ↦ []) .csv normalizer (positions last)).isOk) = some ok) :
      (writeStagedArtifact (fun _ ↦ []) .csv normalizer (positions last)).isOk = ok := by
    rw [hinit] at h
    exact Option.some.inj h
  refine ⟨normalizer, (hgates (.inl rfl)).resolve_right ?_, (hgates (.inr rfl)).resolve_left ?_⟩
  · rintro ⟨before, p, after, -, -, hraised⟩
    have hok := hends "2024-01-01T00:00:02Z" (show _ = some true by decide +kernel)
    rw [hraised] at hok
    exact Bool.false_ne_true hok
  · rintro ⟨normalized, artifact, -, hwritten, -⟩
    have hok := hends overflowingTime (show _ = some false by decide +kernel)
    rw [hwritten] at hok
    exact Bool.false_ne_true hok.symm

end Pipeline

end ForgeData
