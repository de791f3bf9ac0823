import AuvMiddleware.Lidar.VendorScan
import Mathlib.Data.List.Pairwise

/-!
# What a conversion reads of a message (sick_scan_source.cpp:197-248, sick_cloud_source.cpp:163-199)

`to_scan` and `to_cloud` differ in the fields they ask for. Both check whole records against the
buffer, and read each field at its own offset.
-/

namespace AuvMiddleware.Lidar

def PointCloudMsg.numPoints (msg : PointCloudMsg) : ℕ := msg.width.toNat * msg.height.toNat

/-- Where the code looks for point `i`. -/
def PointCloudMsg.point (msg : PointCloudMsg) (i : ℕ) : ℕ := i * msg.pointStep.toNat % 2 ^ 64

/-- The offsets a conversion reads at: the echo byte, the fields it cannot do without, and the
intensity; a negative offset is a missing field. -/
structure RecordLayout where
  echo : ℤ
  required : List ℤ
  intensity : ℤ

def scanLayout (offset : ScanOffsets) : RecordLayout where
  echo := offset.echo
  required := [offset.range, offset.azimuth]
  intensity := offset.intensity

def cloudLayout (offset : CloudOffsets) : RecordLayout where
  echo := offset.echo
  required := [offset.range, offset.azimuth, offset.elevation]
  intensity := offset.intensity

namespace RecordLayout

def floats (layout : RecordLayout) : List ℤ :=
  layout.required ++ if 0 ≤ layout.intensity then [layout.intensity] else []

def keeps (layout : RecordLayout) (memory : ℕ → Byte) (point : ℕ) : Bool :=
  !(otherEcho memory point layout.echo).value

def pointReads (layout : RecordLayout) (memory : ℕ → Byte) (point : ℕ) : List (ℕ × ℕ) :=
  (if 0 ≤ layout.echo then [(point + layout.echo.toNat, 1)] else []) ++
    if layout.keeps memory point then
      layout.floats.map fun offset => (point + offset.toNat, 4)
    else []

def Accepts (layout : RecordLayout) (msg : PointCloudMsg) : Prop :=
  (∀ offset ∈ layout.required, 0 ≤ offset) ∧ msg.buffer.isSome = true ∧ msg.pointStep ≠ 0 ∧
    msg.numPoints * msg.pointStep.toNat % 2 ^ 64 ≤ msg.dataSize.toNat

instance (layout : RecordLayout) (msg : PointCloudMsg) : Decidable (layout.Accepts msg) :=
  inferInstanceAs (Decidable (_ ∧ _))

def recordReads (layout : RecordLayout) (msg : PointCloudMsg) : List (ℕ × ℕ) :=
  match msg.buffer with
  | none => []
  | some memory =>
    if layout.Accepts msg ∧ msg.numPoints ≤ kMaxFloats then
      (List.range msg.numPoints).flatMap fun i => layout.pointReads memory (msg.point i)
    else []

end RecordLayout

/-! ### Both conversions read records -/

theorem otherEcho_log (memory : ℕ → Byte) (point : ℕ) (offset : ℤ) :
    (otherEcho memory point offset).log =
      if 0 ≤ offset then [(point + offset.toNat, 1)] else [] := by
  unfold otherEcho
  split <;> rfl

/-- A turn of either loop: skip the point by its echo, or read its fields. -/
theorem skipOrPush_log {α : Type} {layout : RecordLayout} {memory : ℕ → Byte} {point : ℕ}
    {push : Reads α} (h : push.log = layout.floats.map fun offset => (point + offset.toNat, 4))
    (out : α) :
    (do if ← otherEcho memory point layout.echo then pure out else push : Reads α).log =
      layout.pointReads memory point := by
  unfold RecordLayout.pointReads RecordLayout.keeps
  rw [Reads.bind_log, otherEcho_log]
  cases (otherEcho memory point layout.echo).value with
  | true => rfl
  | false => exact congrArg (_ ++ ·) h

theorem pushCloudPoint_log (memory : ℕ → Byte) (point : ℕ) (offset : CloudOffsets)
    (out : CloudArrays) :
    (pushCloudPoint memory point offset out).log =
      (cloudLayout offset).floats.map fun o => (point + o.toNat, 4) := by
  unfold pushCloudPoint RecordLayout.floats cloudLayout
  dsimp only
  by_cases hi : 0 ≤ offset.intensity
  · simp [hi, readFieldFloat]
  · simp [hi, readFieldFloat]

theorem pushScanPoint_log {F : Type} (A : FloatArith F) (memory : ℕ → Byte) (point : ℕ)
    (offset : ScanOffsets) (out : ScanArrays F) :
    (pushScanPoint A memory point offset out).log =
      (scanLayout offset).floats.map fun o => (point + o.toNat, 4) := by
  unfold pushScanPoint RecordLayout.floats scanLayout
  dsimp only
  by_cases hi : 0 ≤ offset.intensity
  · simp only [hi, if_true, Reads.bind_log]
    split <;> simp [readFieldFloat]
  · simp only [hi, if_false, Reads.bind_log]
    split <;> simp [readFieldFloat]

theorem readCloudPoints_log (memory : ℕ → Byte) (pointStep : ℕ) (offset : CloudOffsets)
    (numPoints : ℕ) :
    (readCloudPoints memory pointStep offset numPoints).log =
      (List.range numPoints).flatMap fun i =>
        (cloudLayout offset).pointReads memory (i * pointStep % 2 ^ 64) := by
  unfold readCloudPoints
  refine Reads.foldlM_log (fun out i => ?_) _ _
  exact skipOrPush_log (pushCloudPoint_log memory (i * pointStep % 2 ^ 64) offset out) out

theorem readScanPoints_log {F : Type} (A : FloatArith F) (memory : ℕ → Byte) (pointStep : ℕ)
    (offset : ScanOffsets) (numPoints : ℕ) :
    (readScanPoints A memory pointStep offset numPoints).log =
      (List.range numPoints).flatMap fun i =>
        (scanLayout offset).pointReads memory (i * pointStep % 2 ^ 64) := by
  unfold readScanPoints
  refine Reads.foldlM_log (fun out i => ?_) _ _
  exact skipOrPush_log (pushScanPoint_log A memory (i * pointStep % 2 ^ 64) offset out) out

/-- What the checks let through, and what is read then. -/
structure RecordLayout.Converts {α : Type} (layout : RecordLayout) (msg : PointCloudMsg)
    (c : Converted α) : Prop where
  accepted : c.result ≠ .ok none ↔ layout.Accepts msg
  reads : c.reads = layout.recordReads msg

namespace RecordLayout.Converts
variable {α : Type} {layout : RecordLayout} {msg : PointCloudMsg} {c : Converted α}

theorem of_refused (h : ¬ layout.Accepts msg) (hc : c.result = .ok none ∧ c.reads = []) :
    layout.Converts msg c := by
  refine ⟨iff_of_false (fun hne => hne hc.1) h, hc.2.trans ?_⟩
  unfold RecordLayout.recordReads
  split
  · rfl
  · rw [if_neg (fun hboth => h hboth.1)]

theorem of_checks {missing : Prop} [Decidable missing]
    (hmissing : ¬ missing ↔ ∀ offset ∈ layout.required, 0 ≤ offset)
    {refused tooLong : Converted α} {convert : (ℕ → Byte) → Converted α}
    (hrefused : refused.result = .ok none ∧ refused.reads = [])
    (htooLong : tooLong.result ≠ .ok none ∧ tooLong.reads = [])
    (hconvert : ∀ memory, (convert memory).result ≠ .ok none ∧ (convert memory).reads =
      (List.range msg.numPoints).flatMap fun i => layout.pointReads memory (msg.point i)) :
    layout.Converts msg
      (if missing then refused
      else
        match msg.buffer with
        | none => refused
        | some memory =>
          if msg.pointStep = 0 then refused
          else if msg.dataSize.toNat < msg.numPoints * msg.pointStep.toNat % 2 ^ 64 then refused
          else if kMaxFloats < msg.numPoints then tooLong
          else convert memory) := by
  have accepts_iff : layout.Accepts msg ↔ ∃ memory, msg.Passes missing memory := by
    constructor
    · intro ⟨hrequired, hbuffer, hstep, hsize⟩
      obtain ⟨memory, hmemory⟩ := Option.isSome_iff_exists.mp hbuffer
      exact ⟨memory, hmissing.mpr hrequired, hmemory, hstep, hsize⟩
    · intro ⟨memory, hp⟩
      exact ⟨hmissing.mp hp.fields, by rw [hp.buffer]; rfl, hp.pointStep, hp.dataSize⟩
  refine checks_split (P := layout.Converts msg) ?_ ?_ ?_
  · intro hnone
    exact of_refused (fun ha => absurd (accepts_iff.mp ha) (not_exists.mpr hnone)) hrefused
  · intro memory hp hlong
    refine ⟨iff_of_true htooLong.1 (accepts_iff.mpr ⟨memory, hp⟩), htooLong.2.trans ?_⟩
    simp only [recordReads, hp.buffer]
    rw [if_neg (fun hboth => absurd hlong (Nat.not_lt.mpr hboth.2))]
  · intro memory hp hshort
    have haccepts := accepts_iff.mpr ⟨memory, hp⟩
    refine ⟨iff_of_true (hconvert memory).1 haccepts, (hconvert memory).2.trans ?_⟩
    simp only [recordReads, hp.buffer]
    rw [if_pos ⟨haccepts, hshort⟩]

end RecordLayout.Converts

theorem toCloud_converts (cfg : CloudConfig) (msg : PointCloudMsg) (lastStampNs : ℤ) :
    (cloudLayout (cloudOffsets msg.fields)).Converts msg (toCloud cfg msg lastStampNs) := by
  unfold toCloud
  refine .of_checks (by simp [cloudLayout]) ⟨rfl, rfl⟩ ⟨by simp, rfl⟩
    (fun memory => ⟨by simp, ?_⟩)
  exact readCloudPoints_log memory _ _ _

theorem toScan_converts {F : Type} (A : FloatArith F) (cfg : ScanConfig) (msg : ScanMsg)
    (lastStampNs : ℤ) :
    (scanLayout (scanOffsets msg.fields)).Converts msg.toPointCloudMsg
      (toScan A cfg msg lastStampNs) := by
  unfold toScan
  refine .of_checks (by simp [scanLayout]) ⟨rfl, rfl⟩ ⟨by simp, rfl⟩
    (fun memory => ⟨by simp, ?_⟩)
  exact readScanPoints_log A memory _ _ _

/-! ### When every read stays inside -/

/-- Every byte read is one of the message's, and a message that is not refused has room for all
its records. -/
structure Converted.Inside {α : Type} (c : Converted α) (msg : PointCloudMsg) : Prop where
  reads : ∀ r ∈ c.reads, r.1 + r.2 ≤ msg.dataSize.toNat
  records : c.result ≠ .ok none → msg.numPoints * msg.pointStep.toNat ≤ msg.dataSize.toNat

namespace RecordLayout

def EchoInside (layout : RecordLayout) (msg : PointCloudMsg) (i : ℕ) : Prop :=
  0 ≤ layout.echo → msg.point i + layout.echo.toNat + 1 ≤ msg.dataSize.toNat

def FloatsInside (layout : RecordLayout) (msg : PointCloudMsg) (i : ℕ) : Prop :=
  ∀ offset ∈ layout.floats, msg.point i + offset.toNat + 4 ≤ msg.dataSize.toNat

def kept (layout : RecordLayout) (memory : ℕ → Byte) (msg : PointCloudMsg) : List ℕ :=
  (List.range msg.numPoints).filter fun i => layout.keeps memory (msg.point i)

/-- The echo of the last point and the fields of the last point kept end inside the buffer. -/
def LastInside (layout : RecordLayout) (msg : PointCloudMsg) (memory : ℕ → Byte) : Prop :=
  (0 < msg.numPoints → layout.EchoInside msg (msg.numPoints - 1)) ∧
    ∀ i ∈ (layout.kept memory msg).getLast?, layout.FloatsInside msg i

/-- What the size check leaves open: the product it compares is not reduced, and the records it
lets through hold their own fields, as far as the last of them shows. -/
def Fits (layout : RecordLayout) (msg : PointCloudMsg) : Prop :=
  layout.Accepts msg →
    msg.numPoints * msg.pointStep.toNat < 2 ^ 64 ∧
      (msg.numPoints ≤ kMaxFloats → ∀ memory ∈ msg.buffer, layout.LastInside msg memory)

theorem pointReads_inside_iff (layout : RecordLayout) (msg : PointCloudMsg) (memory : ℕ → Byte)
    (i : ℕ) :
    (∀ r ∈ layout.pointReads memory (msg.point i), r.1 + r.2 ≤ msg.dataSize.toNat) ↔
      layout.EchoInside msg i ∧
        (layout.keeps memory (msg.point i) = true → layout.FloatsInside msg i) := by
  unfold pointReads EchoInside FloatsInside
  rw [List.forall_mem_append]
  refine and_congr ?_ ?_
  · by_cases hecho : 0 ≤ layout.echo
    · simp [hecho]
    · simp [hecho]
  · by_cases hkeeps : layout.keeps memory (msg.point i) = true
    · simp [hkeeps]
    · simp [hkeeps]

theorem recordReads_inside_iff {layout : RecordLayout} {msg : PointCloudMsg} {memory : ℕ → Byte}
    (hbuffer : msg.buffer = some memory) (haccepts : layout.Accepts msg)
    (hlong : msg.numPoints ≤ kMaxFloats) :
    (∀ r ∈ layout.recordReads msg, r.1 + r.2 ≤ msg.dataSize.toNat) ↔
      (∀ i < msg.numPoints, layout.EchoInside msg i) ∧
        ∀ i ∈ layout.kept memory msg, layout.FloatsInside msg i := by
  simp only [recordReads, hbuffer]
  rw [if_pos ⟨haccepts, hlong⟩, List.forall_mem_flatMap]
  simp only [pointReads_inside_iff, kept, List.mem_filter, List.mem_range]
  constructor
  · exact fun h => ⟨fun i hi => (h i hi).1, fun i hi => (h i hi.1).2 hi.2⟩
  · exact fun h i hi => ⟨h.1 i hi, fun hkeeps => h.2 i ⟨hi, hkeeps⟩⟩

end RecordLayout

theorem PointCloudMsg.point_mono {msg : PointCloudMsg}
    (h : msg.numPoints * msg.pointStep.toNat < 2 ^ 64) {i j : ℕ} (hij : i ≤ j)
    (hj : j < msg.numPoints) : msg.point i ≤ msg.point j := by
  have hi := Nat.mul_le_mul_right msg.pointStep.toNat hij
  have hlast := Nat.mul_le_mul_right msg.pointStep.toNat hj.le
  unfold PointCloudMsg.point
  rw [Nat.mod_eq_of_lt (by omega), Nat.mod_eq_of_lt (by omega)]
  exact hi

theorem RecordLayout.lastInside_iff {layout : RecordLayout} {msg : PointCloudMsg}
    (h : msg.numPoints * msg.pointStep.toNat < 2 ^ 64) (memory : ℕ → Byte) :
    layout.LastInside msg memory ↔
      (∀ i < msg.numPoints, layout.EchoInside msg i) ∧
        ∀ i ∈ layout.kept memory msg, layout.FloatsInside msg i := by
  have hlt : ∀ i ∈ layout.kept memory msg, i < msg.numPoints :=
    fun i hi => List.mem_range.mp (List.mem_filter.mp hi).1
  refine and_congr ⟨fun hlast i hi => ?_, fun hall hpos => ?_⟩ ⟨fun hlast i hi => ?_, ?_⟩
  · intro hecho
    have hmono := PointCloudMsg.point_mono h (Nat.le_sub_one_of_lt hi) (by omega)
    have := hlast (by omega) hecho
    omega
  · exact hall _ (by omega)
  · intro offset ho
    -- the indices kept are in ascending order
    have hne := List.ne_nil_of_mem hi
    have hsorted : (layout.kept memory msg).Pairwise (· ≤ ·) :=
      (List.pairwise_le_range).filter _
    have hmono := PointCloudMsg.point_mono h (hsorted.rel_getLast hi)
      (hlt _ (List.getLast_mem hne))
    have := hlast _ (List.getLast?_eq_some_getLast hne) offset ho
    omega
  · exact fun hall i hi => hall i (List.mem_of_getLast? hi)

/-- Fields that end inside their own record are enough for the last one too. -/
theorem RecordLayout.fits_of_fields {layout : RecordLayout} {msg : PointCloudMsg}
    (hproduct : msg.numPoints * msg.pointStep.toNat < 2 ^ 64)
    (hecho : 0 ≤ layout.echo → layout.echo.toNat + 1 ≤ msg.pointStep.toNat)
    (hfloats : ∀ offset ∈ layout.floats, offset.toNat + 4 ≤ msg.pointStep.toNat) :
    layout.Fits msg := by
  intro haccepts
  refine ⟨hproduct, fun _ memory _ => (lastInside_iff hproduct memory).mpr ?_⟩
  have hsize := haccepts.2.2.2
  rw [Nat.mod_eq_of_lt hproduct] at hsize
  have hrecord : ∀ i < msg.numPoints, msg.point i + msg.pointStep.toNat ≤ msg.dataSize.toNat := by
    intro i hi
    have hend := Nat.mul_le_mul_right msg.pointStep.toNat (Nat.succ_le_of_lt hi)
    rw [Nat.succ_mul] at hend
    have hpoint := Nat.mod_le (i * msg.pointStep.toNat) (2 ^ 64)
    unfold PointCloudMsg.point
    omega
  constructor
  · intro i hi he
    have := hrecord i hi
    have := hecho he
    omega
  · intro i hi offset ho
    have := hrecord i (List.mem_range.mp (List.mem_filter.mp hi).1)
    have := hfloats offset ho
    omega

theorem RecordLayout.Converts.inside_iff {α : Type} {layout : RecordLayout} {msg : PointCloudMsg}
    {c : Converted α} (h : layout.Converts msg c) : c.Inside msg ↔ layout.Fits msg := by
  by_cases haccepts : layout.Accepts msg
  · obtain ⟨memory, hbuffer⟩ := Option.isSome_iff_exists.mp haccepts.2.1
    have hreads : msg.numPoints * msg.pointStep.toNat < 2 ^ 64 →
        ((∀ r ∈ c.reads, r.1 + r.2 ≤ msg.dataSize.toNat) ↔
          (msg.numPoints ≤ kMaxFloats → layout.LastInside msg memory)) := by
      intro hproduct
      rw [h.reads, layout.lastInside_iff hproduct]
      by_cases hlong : msg.numPoints ≤ kMaxFloats
      · simpa [hlong] using RecordLayout.recordReads_inside_iff hbuffer haccepts hlong
      · simp [RecordLayout.recordReads, hbuffer, hlong]
    have hsize := msg.dataSize.toNat_lt
    have hchecked := haccepts.2.2.2
    constructor
    · rintro ⟨hinside, hrecords⟩ -
      have hproduct := (hrecords (h.accepted.mpr haccepts)).trans_lt hsize
      refine ⟨hproduct, fun hlong memory' hbuffer' => ?_⟩
      cases hbuffer.symm.trans hbuffer'
      exact (hreads hproduct).mp hinside hlong
    · intro hfits
      obtain ⟨hproduct, hlast⟩ := hfits haccepts
      refine ⟨(hreads hproduct).mpr fun hlong => hlast hlong memory hbuffer, fun _ => ?_⟩
      rwa [Nat.mod_eq_of_lt hproduct] at hchecked
  · refine iff_of_true ⟨fun r hr => ?_, fun hne => absurd (h.accepted.mp hne) haccepts⟩
      (fun ha => absurd ha haccepts)
    rw [h.reads] at hr
    unfold RecordLayout.recordReads at hr
    split at hr
    · cases hr
    · rw [if_neg (fun hboth => haccepts hboth.1)] at hr
      cases hr

/-- A conversion stays inside a message exactly when the last record shows that it does. -/
theorem conversions_inside_iff {F : Type} (A : FloatArith F) (scanCfg : ScanConfig)
    (cloudCfg : CloudConfig) (msg : ScanMsg) (lastScanNs lastCloudNs : ℤ) :
    (toScan A scanCfg msg lastScanNs).Inside msg.toPointCloudMsg ∧
        (toCloud cloudCfg msg.toPointCloudMsg lastCloudNs).Inside msg.toPointCloudMsg ↔
      (scanLayout (scanOffsets msg.fields)).Fits msg.toPointCloudMsg ∧
        (cloudLayout (cloudOffsets msg.fields)).Fits msg.toPointCloudMsg :=
  and_congr (toScan_converts A scanCfg msg lastScanNs).inside_iff
    (toCloud_converts cloudCfg msg.toPointCloudMsg lastCloudNs).inside_iff

/-- One record of four bytes, with fields at 0, 4 and 8. -/
def shortRecord : ScanMsg where
  timestampSec := 1
  timestampNsec := 0
  width := 1
  height := 1
  pointStep := 4
  fields := [⟨ascii ['r', 'a', 'n', 'g', 'e'], 0⟩,
    ⟨ascii ['a', 'z', 'i', 'm', 'u', 't', 'h'], 4⟩,
    ⟨ascii ['e', 'l', 'e', 'v', 'a', 't', 'i', 'o', 'n'], 8⟩]
  dataSize := 4
  buffer := some fun _ => lowByte 0
  numEchos := 1

theorem shortRecord_overread :
    (4, 4) ∈ (toScan (exactArith floatValue) ⟨[], 0, 0⟩ shortRecord 0).reads ∧
    (8, 4) ∈ (toCloud ⟨[], 0, 0⟩ shortRecord.toPointCloudMsg 0).reads ∧
    ¬ ((toScan (exactArith floatValue) ⟨[], 0, 0⟩ shortRecord 0).Inside shortRecord.toPointCloudMsg ∧
      (toCloud ⟨[], 0, 0⟩ shortRecord.toPointCloudMsg 0).Inside shortRecord.toPointCloudMsg) := by
  have hread : (4, 4) ∈ (toScan (exactArith floatValue) ⟨[], 0, 0⟩ shortRecord 0).reads := by decide
  refine ⟨hread, by decide, fun h => ?_⟩
  exact absurd (h.1.reads _ hread) (by decide)

end AuvMiddleware.Lidar
