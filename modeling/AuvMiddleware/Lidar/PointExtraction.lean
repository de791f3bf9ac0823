import AuvMiddleware.Lidar.RecordBounds
import Mathlib.Data.List.Find
import Mathlib.Data.List.Nodup

/-!
# The points of a message and the arrays made of them (sick_scan_source.cpp:20-50, 197-252,
sick_cloud_source.cpp:21-44, 163-203)

A message declares its fields by name, with an offset that is unsigned; the code keeps an offset
as an `int`, and takes a negative one for a missing field.
-/

namespace AuvMiddleware.Lidar

/-! ### What a message says -/

def rangeName : Bytes := ascii ['r', 'a', 'n', 'g', 'e']
def azimuthName : Bytes := ascii ['a', 'z', 'i', 'm', 'u', 't', 'h']
def elevationName : Bytes := ascii ['e', 'l', 'e', 'v', 'a', 't', 'i', 'o', 'n']
def echoName : Bytes := ascii ['e', 'c', 'h', 'o']
def intensityName : Bytes := ascii ['i', 'n', 't', 'e', 'n', 's', 'i', 't', 'y']

/-- Where a field lies in a point record, if the message carries it. -/
def fieldOffset (fields : List PointField) (name : Bytes) : Option ℕ :=
  (fields.find? fun f => decide (f.name = name)).map fun f => f.offset.toNat

def intensityField (fields : List PointField) : Option ℕ :=
  (fieldOffset fields (ascii ['i'])).or (fieldOffset fields intensityName)

namespace PointCloudMsg
variable (msg : PointCloudMsg) (memory : ℕ → Byte)

def byteAt (i offset : ℕ) : Byte := memory (i * msg.pointStep.toNat + offset)

def floatAt (i offset : ℕ) : F32 :=
  (readFieldFloat memory (i * msg.pointStep.toNat + offset)).value

/-- The points without an echo field, or with a zero in it. -/
def pointsOfEcho (echo : Option ℕ) : List ℕ :=
  (List.range msg.numPoints).filter fun i =>
    echo.all fun offset => decide ((msg.byteAt memory i offset).val = 0)

def firstEchoes : List ℕ := msg.pointsOfEcho memory (fieldOffset msg.fields echoName)

def column (points : List ℕ) (offset : Option ℕ) : List F32 :=
  offset.elim [] fun offset => points.map fun i => msg.floatAt memory i offset

end PointCloudMsg

structure ScanOf.Extracts {F : Type} (ofBits : F32 → F) (msg : PointCloudMsg)
    (memory : ℕ → Byte) (scan : ScanOf F) : Prop where
  ranges : scan.ranges =
    (msg.column memory (msg.firstEchoes memory) (fieldOffset msg.fields rangeName)).map ofBits
  intensities : scan.intensities =
    (msg.column memory (msg.firstEchoes memory) (intensityField msg.fields)).map ofBits

structure PointCloud.Extracts (msg : PointCloudMsg) (memory : ℕ → Byte) (cloud : PointCloud) :
    Prop where
  ranges : cloud.ranges =
    msg.column memory (msg.firstEchoes memory) (fieldOffset msg.fields rangeName)
  azimuths : cloud.azimuths =
    msg.column memory (msg.firstEchoes memory) (fieldOffset msg.fields azimuthName)
  elevations : cloud.elevations =
    msg.column memory (msg.firstEchoes memory) (fieldOffset msg.fields elevationName)
  intensities : cloud.intensities =
    msg.column memory (msg.firstEchoes memory) (intensityField msg.fields)

/-! ### What the code sees of it -/

/-- An offset that is still itself as an `int`. -/
def seenOffset (fields : List PointField) (name : Bytes) : Option ℕ :=
  (fieldOffset fields name).filter fun offset => decide (offset < 2 ^ 31)

def seenIntensity (fields : List PointField) : Option ℕ :=
  (seenOffset fields (ascii ['i'])).or (seenOffset fields intensityName)

def PointCloudMsg.seenEchoes (msg : PointCloudMsg) (memory : ℕ → Byte) : List ℕ :=
  msg.pointsOfEcho memory (seenOffset msg.fields echoName)

theorem toInt_toInt32 (v : UInt32) :
    v.toInt32.toInt = if v.toNat < 2 ^ 31 then (v.toNat : ℤ) else (v.toNat : ℤ) - 2 ^ 32 := by
  have hv := v.toNat_lt
  have hbits : v.toInt32.toInt = v.toBitVec.toInt := rfl
  have hnat : v.toBitVec.toNat = v.toNat := rfl
  rw [hbits, BitVec.toInt_eq_toNat_cond, hnat]
  split <;> split <;> omega

/-- What `find_field_offset` returns: the offset the code sees, or something negative. -/
theorem findFieldOffset_cases (fields : List PointField) (name : Bytes) :
    (seenOffset fields name = none ∧ findFieldOffset fields name < 0) ∨
      ∃ offset : ℕ, seenOffset fields name = some offset ∧
        findFieldOffset fields name = offset := by
  unfold seenOffset fieldOffset findFieldOffset
  cases fields.find? fun f => decide (f.name = name) with
  | none => exact .inl ⟨rfl, by decide⟩
  | some f =>
    have hf := f.offset.toNat_lt
    dsimp only [Option.map_some]
    rw [toInt_toInt32]
    by_cases hlow : f.offset.toNat < 2 ^ 31
    · exact .inr ⟨f.offset.toNat, if_pos (decide_eq_true hlow), if_pos hlow⟩
    · refine .inl ⟨if_neg (by simpa using hlow), ?_⟩
      rw [if_neg hlow]
      omega

theorem findIntensityOffset_cases (fields : List PointField) :
    (seenIntensity fields = none ∧ findIntensityOffset fields < 0) ∨
      ∃ offset : ℕ, seenIntensity fields = some offset ∧
        findIntensityOffset fields = offset := by
  unfold seenIntensity findIntensityOffset
  rcases findFieldOffset_cases fields (ascii ['i']) with ⟨hnone, hneg⟩ | ⟨offset, hsome, heq⟩
  · dsimp only
    rw [hnone, if_neg (Int.not_le.mpr hneg)]
    exact findFieldOffset_cases fields intensityName
  · refine .inr ⟨offset, by rw [hsome, Option.some_or], ?_⟩
    dsimp only
    rw [heq, if_pos (Int.natCast_nonneg offset)]

/-! ### What the loops collect -/

/-- One field of each point kept, read where the code reads it. -/
def RecordLayout.column (layout : RecordLayout) (memory : ℕ → Byte) (msg : PointCloudMsg)
    (offset : ℤ) : List F32 :=
  (layout.kept memory msg).map fun i => (readFieldFloat memory (msg.point i + offset.toNat)).value

def RecordLayout.optional (layout : RecordLayout) (memory : ℕ → Byte) (msg : PointCloudMsg)
    (offset : ℤ) : List F32 :=
  if 0 ≤ offset then layout.column memory msg offset else []

section Loops
variable (memory : ℕ → Byte) (msg : PointCloudMsg)

theorem pushCloudPoint_columns (point : ℕ) (offset : CloudOffsets) (out : CloudArrays) :
    let float := fun o : ℤ => (readFieldFloat memory (point + o.toNat)).value
    let next := (pushCloudPoint memory point offset out).value
    next.ranges = out.ranges ++ [float offset.range] ∧
      next.azimuths = out.azimuths ++ [float offset.azimuth] ∧
      next.elevations = out.elevations ++ [float offset.elevation] ∧
      next.intensities = if 0 ≤ offset.intensity then
        out.intensities ++ [float offset.intensity] else out.intensities := by
  unfold pushCloudPoint
  dsimp only
  by_cases hi : 0 ≤ offset.intensity
  · simp [hi]
  · simp [hi]

theorem pushScanPoint_columns {F : Type} (A : FloatArith F) (point : ℕ) (offset : ScanOffsets)
    (out : ScanArrays F) :
    let float := fun o : ℤ => A.ofBits (readFieldFloat memory (point + o.toNat)).value
    let next := (pushScanPoint A memory point offset out).value
    next.ranges = out.ranges ++ [float offset.range] ∧
      next.intensities = if 0 ≤ offset.intensity then
        out.intensities ++ [float offset.intensity] else out.intensities := by
  unfold pushScanPoint
  dsimp only
  by_cases hi : 0 ≤ offset.intensity
  · simp only [if_pos hi, Reads.bind_value]
    split <;> simp
  · simp only [if_neg hi, Reads.bind_value]
    split <;> simp

section OneArray
variable {β γ : Type} {layout : RecordLayout} {turn push : β → ℕ → Reads β} {array : β → List γ}
  {ofBits : F32 → γ} {offset : ℤ} {start : β}

/-- A loop over the records that appends one field of every point it does not skip. -/
theorem column_of_loop
    (hturn : ∀ b i, turn b i = otherEcho memory (msg.point i) layout.echo >>= fun skip =>
      if skip then pure b else push b i)
    (hpush : ∀ b i, array (push b i).value =
      array b ++ [ofBits (readFieldFloat memory (msg.point i + offset.toNat)).value])
    (hstart : array start = []) :
    array ((List.range msg.numPoints).foldlM turn start).value =
      (layout.column memory msg offset).map ofBits := by
  have hstep : ∀ b i, array (turn b i).value =
      if layout.keeps memory (msg.point i) then
        array b ++ [ofBits (readFieldFloat memory (msg.point i + offset.toNat)).value]
      else array b := by
    intro b i
    rw [hturn, Reads.bind_value]
    unfold RecordLayout.keeps
    cases (otherEcho memory (msg.point i) layout.echo).value with
    | true => rfl
    | false => exact hpush b i
  refine (Reads.foldlM_column hstep _ start).trans ?_
  rw [hstart, List.nil_append]
  exact List.map_map.symm

theorem optional_of_loop
    (hturn : ∀ b i, turn b i = otherEcho memory (msg.point i) layout.echo >>= fun skip =>
      if skip then pure b else push b i)
    (hpush : ∀ b i, array (push b i).value =
      if 0 ≤ offset then
        array b ++ [ofBits (readFieldFloat memory (msg.point i + offset.toNat)).value]
      else array b)
    (hstart : array start = []) :
    array ((List.range msg.numPoints).foldlM turn start).value =
      (layout.optional memory msg offset).map ofBits := by
  unfold RecordLayout.optional
  by_cases hi : 0 ≤ offset
  · simp only [if_pos hi] at hpush ⊢
    exact column_of_loop memory msg hturn hpush hstart
  · simp only [if_neg hi] at hpush ⊢
    have hsame : ∀ b i, array (turn b i).value = array b := by
      intro b i
      rw [hturn, Reads.bind_value]
      cases (otherEcho memory (msg.point i) layout.echo).value with
      | true => rfl
      | false => exact hpush b i
    rw [Reads.foldlM_value]
    exact List.foldlRecOn (motive := fun b => array b = []) _ _ hstart
      fun b hb i _ => (hsame b i).trans hb

end OneArray

theorem readCloudPoints_columns (offset : CloudOffsets) :
    let out := (readCloudPoints memory msg.pointStep.toNat offset msg.numPoints).value
    out.ranges = (cloudLayout offset).column memory msg offset.range ∧
      out.azimuths = (cloudLayout offset).column memory msg offset.azimuth ∧
      out.elevations = (cloudLayout offset).column memory msg offset.elevation ∧
      out.intensities = (cloudLayout offset).optional memory msg offset.intensity := by
  have hpush := fun out i => pushCloudPoint_columns memory (msg.point i) offset out
  have hturn : ∀ out i, readCloudPoint memory msg.pointStep.toNat offset out i =
      otherEcho memory (msg.point i) (cloudLayout offset).echo >>= fun skip =>
        if skip then pure out else pushCloudPoint memory (msg.point i) offset out :=
    fun _ _ => rfl
  have hid : ∀ l : List F32, l.map id = l := List.map_id
  refine ⟨?_, ?_, ?_, ?_⟩
  · rw [← hid (RecordLayout.column ..)]
    exact column_of_loop memory msg hturn (fun out i => (hpush out i).1) rfl
  · rw [← hid (RecordLayout.column ..)]
    exact column_of_loop memory msg hturn (fun out i => (hpush out i).2.1) rfl
  · rw [← hid (RecordLayout.column ..)]
    exact column_of_loop memory msg hturn (fun out i => (hpush out i).2.2.1) rfl
  · rw [← hid (RecordLayout.optional ..)]
    exact optional_of_loop memory msg hturn (fun out i => (hpush out i).2.2.2) rfl

theorem readScanPoints_columns {F : Type} (A : FloatArith F) (offset : ScanOffsets) :
    let out := (readScanPoints A memory msg.pointStep.toNat offset msg.numPoints).value
    out.ranges = ((scanLayout offset).column memory msg offset.range).map A.ofBits ∧
      out.intensities =
        ((scanLayout offset).optional memory msg offset.intensity).map A.ofBits := by
  have hpush := fun out i => pushScanPoint_columns memory A (msg.point i) offset out
  have hturn : ∀ out i, readScanPoint A memory msg.pointStep.toNat offset out i =
      otherEcho memory (msg.point i) (scanLayout offset).echo >>= fun skip =>
        if skip then pure out else pushScanPoint A memory (msg.point i) offset out :=
    fun _ _ => rfl
  exact ⟨column_of_loop memory msg hturn (fun out i => (hpush out i).1) rfl,
    optional_of_loop memory msg hturn (fun out i => (hpush out i).2) rfl⟩

end Loops

theorem toCloud_columns {cfg : CloudConfig} {msg : PointCloudMsg} {lastStampNs : ℤ}
    {cloud : PointCloud} (h : (toCloud cfg msg lastStampNs).result = .ok (some cloud)) :
    let offset := cloudOffsets msg.fields
    let layout := cloudLayout offset
    ∃ memory, msg.buffer = some memory ∧ cloud.ranges = layout.column memory msg offset.range ∧
      cloud.azimuths = layout.column memory msg offset.azimuth ∧
      cloud.elevations = layout.column memory msg offset.elevation ∧
      cloud.intensities = layout.optional memory msg offset.intensity ∧
      cloud.stampNs = Int64.ofInt (stampNs msg).value := by
  revert h
  unfold toCloud
  refine checks_cases (P := fun c => c.result = .ok (some cloud) → _)
    (fun h => by cases h) (fun h => by cases h) (fun memory hbuffer h => ?_)
  cases h
  obtain ⟨hranges, hazimuths, helevations, hintensities⟩ :=
    readCloudPoints_columns memory msg (cloudOffsets msg.fields)
  exact ⟨memory, hbuffer, hranges, hazimuths, helevations, hintensities, rfl⟩

theorem toScan_columns {F : Type} {A : FloatArith F} {cfg : ScanConfig} {msg : ScanMsg}
    {lastStampNs : ℤ} {scan : ScanOf F}
    (h : (toScan A cfg msg lastStampNs).result = .ok (some scan)) :
    let offset := scanOffsets msg.fields
    let layout := scanLayout offset
    ∃ memory, msg.buffer = some memory ∧
      scan.ranges = (layout.column memory msg.toPointCloudMsg offset.range).map A.ofBits ∧
      scan.intensities =
        (layout.optional memory msg.toPointCloudMsg offset.intensity).map A.ofBits ∧
      scan.stampNs = Int64.ofInt (stampNs msg.toPointCloudMsg).value := by
  revert h
  unfold toScan
  refine checks_cases (P := fun c => c.result = .ok (some scan) → _)
    (fun h => by cases h) (fun h => by cases h) (fun memory hbuffer h => ?_)
  cases h
  obtain ⟨hranges, hintensities⟩ :=
    readScanPoints_columns memory msg.toPointCloudMsg A (scanOffsets msg.fields)
  exact ⟨memory, hbuffer, hranges, hintensities, rfl⟩

/-! ### Where the code reads -/

section Unreduced
variable {msg : PointCloudMsg} {memory : ℕ → Byte} {layout : RecordLayout}

theorem PointCloudMsg.point_eq (h : msg.numPoints * msg.pointStep.toNat < 2 ^ 64) {i : ℕ}
    (hi : i < msg.numPoints) : msg.point i = i * msg.pointStep.toNat :=
  Nat.mod_eq_of_lt ((Nat.mul_le_mul_right _ hi.le).trans_lt h)

theorem kept_eq (h : msg.numPoints * msg.pointStep.toNat < 2 ^ 64)
    (hecho : layout.echo = findFieldOffset msg.fields echoName) :
    layout.kept memory msg = msg.seenEchoes memory := by
  refine List.filter_congr fun i hi => ?_
  unfold RecordLayout.keeps otherEcho
  rw [msg.point_eq h (List.mem_range.mp hi), hecho]
  rcases findFieldOffset_cases msg.fields echoName with ⟨hnone, hneg⟩ | ⟨offset, hsome, heq⟩
  · rw [hnone, if_neg (Int.not_le.mpr hneg)]
    rfl
  · rw [hsome, heq, if_pos (Int.natCast_nonneg offset)]
    show (!decide (msg.byteAt memory i offset ≠ 0)) =
      decide ((msg.byteAt memory i offset).val = 0)
    rw [decide_not, Bool.not_not]
    exact decide_eq_decide.mpr Fin.ext_iff

theorem column_eq (h : msg.numPoints * msg.pointStep.toNat < 2 ^ 64)
    (hecho : layout.echo = findFieldOffset msg.fields echoName) (offset : ℕ) :
    layout.column memory msg offset =
      msg.column memory (msg.seenEchoes memory) (some offset) := by
  unfold RecordLayout.column
  rw [kept_eq h hecho]
  refine List.map_congr_left fun i hi => ?_
  rw [msg.point_eq h (List.mem_range.mp (List.mem_filter.mp hi).1)]
  rfl

theorem required_eq (h : msg.numPoints * msg.pointStep.toNat < 2 ^ 64)
    (hecho : layout.echo = findFieldOffset msg.fields echoName) {name : Bytes}
    (hname : 0 ≤ findFieldOffset msg.fields name) :
    layout.column memory msg (findFieldOffset msg.fields name) =
      msg.column memory (msg.seenEchoes memory) (fieldOffset msg.fields name) := by
  rcases findFieldOffset_cases msg.fields name with ⟨-, hneg⟩ | ⟨offset, hsome, heq⟩
  · omega
  · rw [heq, column_eq h hecho, (Option.filter_eq_some_iff.mp hsome).1]

theorem optional_eq (h : msg.numPoints * msg.pointStep.toNat < 2 ^ 64)
    (hecho : layout.echo = findFieldOffset msg.fields echoName) :
    layout.optional memory msg (findIntensityOffset msg.fields) =
      msg.column memory (msg.seenEchoes memory) (seenIntensity msg.fields) := by
  unfold RecordLayout.optional
  rcases findIntensityOffset_cases msg.fields with ⟨hnone, hneg⟩ | ⟨offset, hsome, heq⟩
  · rw [hnone, if_neg (Int.not_le.mpr hneg)]
    rfl
  · rw [hsome, heq, if_pos (Int.natCast_nonneg offset), column_eq h hecho]

end Unreduced

/-! ### When the code sees what the message says -/

/-- An echo field too far out for an `int` marks no point. -/
def PointCloudMsg.EchoSeen (msg : PointCloudMsg) (memory : ℕ → Byte) : Prop :=
  ∀ offset ∈ fieldOffset msg.fields echoName, 2 ^ 31 ≤ offset →
    ∀ i < msg.numPoints, (msg.byteAt memory i offset).val = 0

/-- An intensity field too far out has no point to give a value to, or the field that is read in its
place has the same values. -/
def PointCloudMsg.IntensitySeen {β : Type} (ofBits : F32 → β) (msg : PointCloudMsg)
    (memory : ℕ → Byte) : Prop :=
  ∀ offset ∈ intensityField msg.fields, 2 ^ 31 ≤ offset →
    match seenOffset msg.fields intensityName with
    | none => msg.firstEchoes memory = []
    | some other => ∀ i ∈ msg.firstEchoes memory,
        ofBits (msg.floatAt memory i other) = ofBits (msg.floatAt memory i offset)

section Seen
variable {msg : PointCloudMsg} {memory : ℕ → Byte}

theorem seenOffset_eq {fields : List PointField} {name : Bytes} {offset : ℕ}
    (h : fieldOffset fields name = some offset) :
    seenOffset fields name = if offset < 2 ^ 31 then some offset else none := by
  unfold seenOffset
  rw [h, Option.filter_some]
  by_cases hlow : offset < 2 ^ 31
  · rw [if_pos hlow, if_pos (decide_eq_true hlow)]
  · rw [if_neg hlow, if_neg (by simpa using hlow)]

theorem seenOffset_none {fields : List PointField} {name : Bytes}
    (h : fieldOffset fields name = none) : seenOffset fields name = none := by
  unfold seenOffset
  rw [h, Option.filter_none]

theorem seenIntensity_eq {fields : List PointField} {offset : ℕ}
    (h : intensityField fields = some offset) :
    seenIntensity fields =
      if offset < 2 ^ 31 then some offset else seenOffset fields intensityName := by
  unfold intensityField at h
  unfold seenIntensity
  cases hi : fieldOffset fields (ascii ['i']) with
  | none =>
    rw [hi, Option.none_or] at h
    rw [seenOffset_none hi, Option.none_or, seenOffset_eq h]
    split <;> rfl
  | some first =>
    rw [hi, Option.some_or] at h
    cases h
    rw [seenOffset_eq hi]
    split
    · rfl
    · rw [Option.none_or]

theorem seenIntensity_none {fields : List PointField} (h : intensityField fields = none) :
    seenIntensity fields = none := by
  obtain ⟨hi, hname⟩ := Option.or_eq_none_iff.mp h
  unfold seenIntensity
  rw [seenOffset_none hi, seenOffset_none hname, Option.none_or]

theorem far_some_iff {offset : ℕ} {p : ℕ → Prop} :
    (∀ o ∈ some offset, 2 ^ 31 ≤ o → p o) ↔ (2 ^ 31 ≤ offset → p offset) := by
  simp only [Option.mem_def, Option.some.injEq, forall_eq']

/-- As many points kept as the message has of the first echo: the echo field was seen. -/
theorem echoSeen_iff_length :
    (msg.seenEchoes memory).length = (msg.firstEchoes memory).length ↔ msg.EchoSeen memory := by
  unfold PointCloudMsg.EchoSeen PointCloudMsg.seenEchoes PointCloudMsg.firstEchoes
  cases hecho : fieldOffset msg.fields echoName with
  | none =>
    rw [seenOffset_none hecho]
    exact iff_of_true rfl (fun offset hoffset => by cases hoffset)
  | some offset =>
    rw [seenOffset_eq hecho, far_some_iff]
    by_cases hlow : offset < 2 ^ 31
    · rw [if_pos hlow]
      exact iff_of_true rfl fun hfar => absurd hlow (Nat.not_lt.mpr hfar)
    · have hall : msg.pointsOfEcho memory none = List.range msg.numPoints :=
        List.filter_eq_self.mpr fun _ _ => rfl
      rw [if_neg hlow, hall, eq_comm, forall_prop_of_true (Nat.le_of_not_lt hlow)]
      unfold PointCloudMsg.pointsOfEcho
      rw [List.length_filter_eq_length_iff]
      simp only [Option.all_some, decide_eq_true_eq, List.mem_range]

theorem seenEchoes_eq (h : msg.EchoSeen memory) : msg.seenEchoes memory = msg.firstEchoes memory := by
  unfold PointCloudMsg.seenEchoes PointCloudMsg.firstEchoes
  cases hecho : fieldOffset msg.fields echoName with
  | none => rw [seenOffset_none hecho]
  | some offset =>
    rw [seenOffset_eq hecho]
    by_cases hlow : offset < 2 ^ 31
    · rw [if_pos hlow]
    · rw [if_neg hlow]
      refine List.filter_congr fun i hi => ?_
      have hzero := h offset hecho (Nat.le_of_not_lt hlow) i (List.mem_range.mp hi)
      exact (decide_eq_true hzero).symm

theorem intensitySeen_iff {β : Type} (ofBits : F32 → β) :
    (msg.column memory (msg.firstEchoes memory) (seenIntensity msg.fields)).map ofBits =
        (msg.column memory (msg.firstEchoes memory) (intensityField msg.fields)).map ofBits ↔
      msg.IntensitySeen ofBits memory := by
  unfold PointCloudMsg.IntensitySeen
  cases hfield : intensityField msg.fields with
  | none =>
    rw [seenIntensity_none hfield]
    exact iff_of_true rfl (fun offset hoffset => by cases hoffset)
  | some offset =>
    rw [seenIntensity_eq hfield, far_some_iff]
    by_cases hlow : offset < 2 ^ 31
    · rw [if_pos hlow]
      exact iff_of_true rfl fun hfar => absurd hlow (Nat.not_lt.mpr hfar)
    · rw [if_neg hlow, forall_prop_of_true (Nat.le_of_not_lt hlow)]
      cases seenOffset msg.fields intensityName with
      | none =>
        simp only [PointCloudMsg.column, Option.elim_none, Option.elim_some, List.map_nil,
          List.map_map, eq_comm (a := ([] : List β)), List.map_eq_nil_iff]
      | some other =>
        simp only [PointCloudMsg.column, Option.elim_some, List.map_map, List.map_inj_left,
          Function.comp_apply]

variable (msg memory) in
/-- One column shows the points kept, and with them the intensities. -/
theorem columns_iff {β : Type} (ofBits : F32 → β) (offset : ℕ) :
    ((msg.column memory (msg.seenEchoes memory) (some offset)).map ofBits =
        (msg.column memory (msg.firstEchoes memory) (some offset)).map ofBits ∧
      (msg.column memory (msg.seenEchoes memory) (seenIntensity msg.fields)).map ofBits =
        (msg.column memory (msg.firstEchoes memory) (intensityField msg.fields)).map ofBits) ↔
      msg.EchoSeen memory ∧ msg.IntensitySeen ofBits memory := by
  constructor
  · intro ⟨hcolumn, hintensities⟩
    have hlength := congrArg List.length hcolumn
    simp only [PointCloudMsg.column, Option.elim_some, List.length_map] at hlength
    have hecho := echoSeen_iff_length.mp hlength
    rw [seenEchoes_eq hecho] at hintensities
    exact ⟨hecho, (intensitySeen_iff ofBits).mp hintensities⟩
  · intro ⟨hecho, hintensity⟩
    rw [seenEchoes_eq hecho]
    exact ⟨rfl, (intensitySeen_iff ofBits).mpr hintensity⟩

theorem fieldOffset_of_required {fields : List PointField} {name : Bytes}
    (h : 0 ≤ findFieldOffset fields name) : ∃ offset, fieldOffset fields name = some offset := by
  rcases findFieldOffset_cases fields name with ⟨-, hneg⟩ | ⟨offset, hsome, -⟩
  · omega
  · exact ⟨offset, (Option.filter_eq_some_iff.mp hsome).1⟩

end Seen

/-! ### Both conversions -/

theorem Converted.Inside.unreduced {α : Type} {c : Converted α} {msg : PointCloudMsg} {out : α}
    (h : c.Inside msg) (hout : c.result = .ok (some out)) :
    msg.numPoints * msg.pointStep.toNat < 2 ^ 64 := by
  refine (h.records ?_).trans_lt msg.dataSize.toNat_lt
  rw [hout]
  simp

theorem scan_extracts_iff {F : Type} {A : FloatArith F} {cfg : ScanConfig} {msg : ScanMsg}
    {lastStampNs : ℤ} {scan : ScanOf F} {memory : ℕ → Byte}
    (h : (toScan A cfg msg lastStampNs).result = .ok (some scan))
    (hinside : (toScan A cfg msg lastStampNs).Inside msg.toPointCloudMsg)
    (hmemory : msg.buffer = some memory) :
    scan.Extracts A.ofBits msg.toPointCloudMsg memory ↔
      msg.EchoSeen memory ∧ msg.IntensitySeen A.ofBits memory := by
  have hproduct := hinside.unreduced h
  have haccepts := (toScan_converts A cfg msg lastStampNs).accepted.mp (by rw [h]; simp)
  have hrange : 0 ≤ findFieldOffset msg.fields rangeName :=
    haccepts.1 (scanOffsets msg.fields).range (by simp [scanLayout])
  obtain ⟨memory', hmemory', hranges, hintensities, -⟩ := toScan_columns h
  cases hmemory.symm.trans hmemory'
  obtain ⟨offset, hoffset⟩ := fieldOffset_of_required hrange
  have hcolumns := columns_iff msg.toPointCloudMsg memory A.ofBits offset
  rw [← hoffset] at hcolumns
  rw [← hcolumns]
  have hr : scan.ranges = (msg.column memory (msg.seenEchoes memory)
      (fieldOffset msg.fields rangeName)).map A.ofBits :=
    hranges.trans (congrArg (List.map A.ofBits) (required_eq hproduct rfl hrange))
  have hi := hintensities.trans (congrArg (List.map A.ofBits) (optional_eq hproduct rfl))
  rw [← hr, ← hi]
  exact ⟨fun hx => ⟨hx.ranges, hx.intensities⟩, fun hx => ⟨hx.1, hx.2⟩⟩

theorem cloud_extracts_iff {cfg : CloudConfig} {msg : PointCloudMsg} {lastStampNs : ℤ}
    {cloud : PointCloud} {memory : ℕ → Byte}
    (h : (toCloud cfg msg lastStampNs).result = .ok (some cloud))
    (hinside : (toCloud cfg msg lastStampNs).Inside msg) (hmemory : msg.buffer = some memory) :
    cloud.Extracts msg memory ↔ msg.EchoSeen memory ∧ msg.IntensitySeen id memory := by
  have hproduct := hinside.unreduced h
  have haccepts := (toCloud_converts cfg msg lastStampNs).accepted.mp (by rw [h]; simp)
  have hrange : 0 ≤ findFieldOffset msg.fields rangeName :=
    haccepts.1 (cloudOffsets msg.fields).range (by simp [cloudLayout])
  have hazimuth : 0 ≤ findFieldOffset msg.fields azimuthName :=
    haccepts.1 (cloudOffsets msg.fields).azimuth (by simp [cloudLayout])
  have helevation : 0 ≤ findFieldOffset msg.fields elevationName :=
    haccepts.1 (cloudOffsets msg.fields).elevation (by simp [cloudLayout])
  obtain ⟨memory', hmemory', hranges, hazimuths, helevations, hintensities, -⟩ := toCloud_columns h
  cases hmemory.symm.trans hmemory'
  obtain ⟨offset, hoffset⟩ := fieldOffset_of_required hrange
  have hcolumns := columns_iff msg memory id offset
  rw [← hoffset] at hcolumns
  simp only [List.map_id] at hcolumns
  have hr : cloud.ranges =
      msg.column memory (msg.seenEchoes memory) (fieldOffset msg.fields rangeName) :=
    hranges.trans (required_eq hproduct rfl hrange)
  have ha : cloud.azimuths =
      msg.column memory (msg.seenEchoes memory) (fieldOffset msg.fields azimuthName) :=
    hazimuths.trans (required_eq hproduct rfl hazimuth)
  have he : cloud.elevations =
      msg.column memory (msg.seenEchoes memory) (fieldOffset msg.fields elevationName) :=
    helevations.trans (required_eq hproduct rfl helevation)
  have hi := hintensities.trans (optional_eq hproduct rfl)
  rw [← hcolumns, ← hr, ← hi]
  constructor
  · exact fun hx => ⟨hx.ranges, hx.intensities⟩
  · intro hx
    -- the points are then the right ones for the other columns too
    have hpoints := seenEchoes_eq (hcolumns.mp ⟨hr ▸ hx.1, hi ▸ hx.2⟩).1
    rw [hpoints] at ha he
    exact ⟨hx.1, ha, he, hx.2⟩

theorem findFieldOffset_perm {fields fields' : List PointField} (h : fields.Perm fields')
    (hnames : (fields.map PointField.name).Nodup) (name : Bytes) :
    findFieldOffset fields name = findFieldOffset fields' name := by
  have hfind : fields.find? (fun f => decide (f.name = name)) =
      fields'.find? fun f => decide (f.name = name) := by
    refine List.find?_eq_find?_of_perm h ?_
    intro f hf g hg
    refine List.inj_on_of_nodup_map hnames hf.1 hg.1 ?_
    rw [of_decide_eq_true hf.2, of_decide_eq_true hg.2]
  unfold findFieldOffset
  rw [hfind]

theorem findIntensityOffset_perm {fields fields' : List PointField} (h : fields.Perm fields')
    (hnames : (fields.map PointField.name).Nodup) :
    findIntensityOffset fields = findIntensityOffset fields' := by
  unfold findIntensityOffset
  simp only [findFieldOffset_perm h hnames]

theorem toScan_perm {F : Type} (A : FloatArith F) (cfg : ScanConfig) (msg : ScanMsg)
    (lastStampNs : ℤ) {fields : List PointField} (h : msg.fields.Perm fields)
    (hnames : (msg.fields.map PointField.name).Nodup) :
    toScan A cfg { msg with fields := fields } lastStampNs = toScan A cfg msg lastStampNs := by
  have hoffsets : scanOffsets fields = scanOffsets msg.fields := by
    unfold scanOffsets
    simp only [findFieldOffset_perm h hnames, findIntensityOffset_perm h hnames]
  unfold toScan stampNs
  dsimp only
  rw [hoffsets]

theorem toCloud_perm (cfg : CloudConfig) (msg : PointCloudMsg) (lastStampNs : ℤ)
    {fields : List PointField} (h : msg.fields.Perm fields)
    (hnames : (msg.fields.map PointField.name).Nodup) :
    toCloud cfg { msg with fields := fields } lastStampNs = toCloud cfg msg lastStampNs := by
  have hoffsets : cloudOffsets fields = cloudOffsets msg.fields := by
    unfold cloudOffsets
    simp only [findFieldOffset_perm h hnames, findIntensityOffset_perm h hnames]
  unfold toCloud stampNs
  dsimp only
  rw [hoffsets]

theorem scan_cloud_agree {F : Type} {A : FloatArith F} {scanCfg : ScanConfig}
    {cloudCfg : CloudConfig} {msg : ScanMsg} {lastScanNs lastCloudNs : ℤ} {scan : ScanOf F}
    {cloud : PointCloud} (hs : (toScan A scanCfg msg lastScanNs).result = .ok (some scan))
    (hc : (toCloud cloudCfg msg.toPointCloudMsg lastCloudNs).result = .ok (some cloud)) :
    scan.ranges = cloud.ranges.map A.ofBits ∧
      scan.intensities = cloud.intensities.map A.ofBits ∧ scan.stampNs = cloud.stampNs := by
  obtain ⟨memory, hmemory, hranges, hintensities, hstamp⟩ := toScan_columns hs
  obtain ⟨memory', hmemory', hranges', -, -, hintensities', hstamp'⟩ := toCloud_columns hc
  cases hmemory.symm.trans hmemory'
  rw [hranges, hintensities, hstamp, hranges', hintensities', hstamp']
  exact ⟨rfl, rfl, rfl⟩

/-- Of a message whose reads stay inside, the arrays are the points of the first echo in order
exactly when the echo and the intensity field can be seen, or could make no difference. The order of
the fields and the choice of the conversion never make one. -/
theorem points_extracted_iff {F : Type} (A : FloatArith F) (scanCfg : ScanConfig)
    (cloudCfg : CloudConfig) (msg : ScanMsg) (lastScanNs lastCloudNs : ℤ) :
    let scanned := toScan A scanCfg msg lastScanNs
    let clouded := toCloud cloudCfg msg.toPointCloudMsg lastCloudNs
    (∀ scan memory, scanned.result = .ok (some scan) → scanned.Inside msg.toPointCloudMsg →
      msg.buffer = some memory →
      (scan.Extracts A.ofBits msg.toPointCloudMsg memory ↔
        msg.EchoSeen memory ∧ msg.IntensitySeen A.ofBits memory)) ∧
    (∀ cloud memory, clouded.result = .ok (some cloud) → clouded.Inside msg.toPointCloudMsg →
      msg.buffer = some memory →
      (cloud.Extracts msg.toPointCloudMsg memory ↔
        msg.EchoSeen memory ∧ msg.IntensitySeen id memory)) ∧
    (∀ fields, msg.fields.Perm fields → (msg.fields.map PointField.name).Nodup →
      toScan A scanCfg { msg with fields := fields } lastScanNs = scanned ∧
      toCloud cloudCfg { msg.toPointCloudMsg with fields := fields } lastCloudNs = clouded) ∧
    ∀ scan cloud, scanned.result = .ok (some scan) → clouded.result = .ok (some cloud) →
      scan.ranges = cloud.ranges.map A.ofBits ∧
        scan.intensities = cloud.intensities.map A.ofBits ∧ scan.stampNs = cloud.stampNs :=
  ⟨fun _ _ h hinside hmemory => scan_extracts_iff h hinside hmemory,
    fun _ _ h hinside hmemory => cloud_extracts_iff h hinside hmemory,
    fun _ h hnames => ⟨toScan_perm A scanCfg msg lastScanNs h hnames,
      toCloud_perm cloudCfg msg.toPointCloudMsg lastCloudNs h hnames⟩,
    fun _ _ hs hc => scan_cloud_agree hs hc⟩

/-- One record of `2 ^ 31 + 1` bytes, the last of which is the echo. -/
def farEcho (echo : ℕ) : ScanMsg where
  timestampSec := 1
  timestampNsec := 0
  width := 1
  height := 1
  pointStep := 2147483649
  fields := [⟨rangeName, 0⟩, ⟨azimuthName, 4⟩, ⟨elevationName, 8⟩, ⟨ascii ['i'], 12⟩,
    ⟨echoName, 2147483648⟩]
  dataSize := 2147483649
  buffer := some fun i => if i = 2147483648 then lowByte echo else lowByte 0
  numEchos := 2

def farCloud : PointCloud where
  frameId := []
  stampNs := 1000000000
  scanTimeNs := 0
  rangeMin := 0
  rangeMax := 0
  ranges := [0]
  azimuths := [0]
  elevations := [0]
  intensities := [0]

theorem points_extracted_iff_farEcho :
    ∃ memory, (farEcho 0).buffer = some memory ∧
      (toCloud ⟨[], 0, 0⟩ (farEcho 0).toPointCloudMsg 0).result = .ok (some farCloud) ∧
      farCloud.Extracts (farEcho 0).toPointCloudMsg memory := by
  have hresult : (toCloud ⟨[], 0, 0⟩ (farEcho 0).toPointCloudMsg 0).result =
      .ok (some farCloud) := by decide
  have hinside : (toCloud ⟨[], 0, 0⟩ (farEcho 0).toPointCloudMsg 0).Inside
      (farEcho 0).toPointCloudMsg := ⟨by decide, fun _ => by decide⟩
  have hiff := (points_extracted_iff (exactArith floatValue) ⟨[], 0, 0⟩ ⟨[], 0, 0⟩ (farEcho 0)
    0 0).2.1 farCloud _ hresult hinside rfl
  refine ⟨_, rfl, hresult, hiff.mpr ⟨?_, ?_⟩⟩
  · intro offset hoffset _ i hi
    obtain rfl : i = 0 := Nat.lt_one_iff.mp hi
    have hfield : fieldOffset (farEcho 0).fields echoName = some 2147483648 := by decide
    cases hfield.symm.trans hoffset
    decide
  · intro offset hoffset hfar
    have hfield : intensityField (farEcho 0).fields = some 12 := by decide
    cases hfield.symm.trans hoffset
    omega

/-- The echo byte 1 lies where an `int` offset does not reach, and the point is kept. -/
theorem farEcho_kept :
    ∃ memory, (farEcho 1).buffer = some memory ∧
      (toCloud ⟨[], 0, 0⟩ (farEcho 1).toPointCloudMsg 0).result = .ok (some farCloud) ∧
      (toCloud ⟨[], 0, 0⟩ (farEcho 1).toPointCloudMsg 0).Inside (farEcho 1).toPointCloudMsg ∧
      (farEcho 1).firstEchoes memory = [] ∧
      ¬ farCloud.Extracts (farEcho 1).toPointCloudMsg memory := by
  refine ⟨_, rfl, by decide, ⟨by decide, fun _ => by decide⟩, by decide, fun h => ?_⟩
  exact absurd h.ranges (by decide)

end AuvMiddleware.Lidar
