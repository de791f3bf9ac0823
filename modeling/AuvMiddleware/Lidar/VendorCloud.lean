import AuvMiddleware.Base
import AuvMiddleware.Lib.Int64Ops
import AuvMiddleware.Lidar.Cloud

/-!
# Vendor messages and their conversion to clouds (sick_cloud_source.cpp:21-44, 163-215)

A message says how many bytes its buffer holds and where in each point record a field lies. Nothing
in the language stops a read behind the buffer, so a read takes its bytes from the memory that
begins at the buffer, and is written down with its index and width.
-/

namespace AuvMiddleware.Lidar

/-- `SickScanPointFieldMsg`; the name up to its terminator. -/
structure PointField where
  name : Bytes
  offset : UInt32
  deriving DecidableEq

/-- What the code reads of a `SickScanPointCloudMsg`. `buffer` is the memory from the data pointer
on, of which `dataSize` bytes belong to the message; a null pointer is `none`. -/
structure PointCloudMsg where
  timestampSec : UInt32
  timestampNsec : UInt32
  width : UInt32
  height : UInt32
  pointStep : UInt32
  fields : List PointField
  dataSize : UInt64
  buffer : Option (ℕ → Byte)

def findFieldOffset (fields : List PointField) (name : Bytes) : ℤ :=
  match fields.find? fun f => decide (f.name = name) with
  | some f => f.offset.toInt32.toInt
  | none => -1

def findIntensityOffset (fields : List PointField) : ℤ :=
  let offset := findFieldOffset fields (ascii ['i'])
  if 0 ≤ offset then offset
  else findFieldOffset fields (ascii ['i', 'n', 't', 'e', 'n', 's', 'i', 't', 'y'])

/-! ### Reading point records -/

/-- A value read from a buffer, with the index and width of every read. -/
structure Reads (α : Type) where
  value : α
  log : List (ℕ × ℕ) := []

namespace Reads

instance : Monad Reads where
  pure a := { value := a }
  bind x f := { value := (f x.value).value, log := x.log ++ (f x.value).log }

@[simp] theorem pure_value {α : Type} (a : α) : (pure a : Reads α).value = a := rfl

@[simp] theorem bind_value {α β : Type} (x : Reads α) (f : α → Reads β) :
    (x >>= f).value = (f x.value).value := rfl

@[simp] theorem pure_log {α : Type} (a : α) : (pure a : Reads α).log = [] := rfl

@[simp] theorem bind_log {α β : Type} (x : Reads α) (f : α → Reads β) :
    (x >>= f).log = x.log ++ (f x.value).log := rfl

theorem foldlM_value {α β : Type} (f : β → α → Reads β) (l : List α) (b : β) :
    (l.foldlM f b).value = l.foldl (fun b a => (f b a).value) b := by
  induction l generalizing b with
  | nil => rfl
  | cons a l ih => exact ih (f b a).value

/-- A loop that appends to one array for some of its turns, and leaves it alone in the others. -/
theorem foldlM_column {α β γ : Type} {f : β → α → Reads β} {column : β → List γ} {p : α → Bool}
    {v : α → γ}
    (h : ∀ b a, column (f b a).value = if p a then column b ++ [v a] else column b)
    (l : List α) (b : β) : column (l.foldlM f b).value = column b ++ (l.filter p).map v := by
  induction l generalizing b with
  | nil => exact (List.append_nil _).symm
  | cons a l ih =>
    rw [List.foldlM_cons, bind_value, ih, h, List.filter_cons]
    split
    · rw [List.map_cons, List.append_assoc, List.singleton_append]
    · rfl

/-- Where a step reads does not depend on what was collected before it. -/
theorem foldlM_log {α β : Type} {f : β → α → Reads β} {log : α → List (ℕ × ℕ)}
    (h : ∀ b a, (f b a).log = log a) (l : List α) (b : β) : (l.foldlM f b).log = l.flatMap log := by
  induction l generalizing b with
  | nil => rfl
  | cons a l ih => rw [List.foldlM_cons, bind_log, h, ih, List.flatMap_cons]

end Reads

def readFieldInt8 (memory : ℕ → Byte) (index : ℕ) : Reads Byte :=
  { value := memory index, log := [(index, 1)] }

def readFieldFloat (memory : ℕ → Byte) (index : ℕ) : Reads F32 where
  value := BitVec.ofNat 32
    (ofLe32 (memory index) (memory (index + 1)) (memory (index + 2)) (memory (index + 3)))
  log := [(index, 4)]

structure CloudOffsets where
  range : ℤ
  azimuth : ℤ
  elevation : ℤ
  intensity : ℤ
  echo : ℤ

structure CloudArrays where
  ranges : List F32 := []
  azimuths : List F32 := []
  elevations : List F32 := []
  intensities : List F32 := []

/-- `offset_echo >= 0 && read_field<std::int8_t>(point, offset_echo) != 0`. -/
def otherEcho (memory : ℕ → Byte) (point : ℕ) (offset : ℤ) : Reads Bool :=
  if 0 ≤ offset then do
    let echo ← readFieldInt8 memory (point + offset.toNat)
    pure (decide (echo ≠ 0))
  else
    pure false

def pushCloudPoint (memory : ℕ → Byte) (point : ℕ) (offset : CloudOffsets) (out : CloudArrays) :
    Reads CloudArrays := do
  let range ← readFieldFloat memory (point + offset.range.toNat)
  let azimuth ← readFieldFloat memory (point + offset.azimuth.toNat)
  let elevation ← readFieldFloat memory (point + offset.elevation.toNat)
  let out := { out with
    ranges := out.ranges ++ [range]
    azimuths := out.azimuths ++ [azimuth]
    elevations := out.elevations ++ [elevation] }
  if 0 ≤ offset.intensity then
    let intensity ← readFieldFloat memory (point + offset.intensity.toNat)
    pure { out with intensities := out.intensities ++ [intensity] }
  else
    pure out

/-- One turn of the loop in `to_cloud` (`sick_cloud_source.cpp:185-199`); the pointer arithmetic
is modulo `2 ^ 64`. -/
def readCloudPoint (memory : ℕ → Byte) (pointStep : ℕ) (offset : CloudOffsets)
    (out : CloudArrays) (i : ℕ) : Reads CloudArrays := do
  let point := i * pointStep % 2 ^ 64
  if ← otherEcho memory point offset.echo then
    pure out
  else
    pushCloudPoint memory point offset out

def readCloudPoints (memory : ℕ → Byte) (pointStep : ℕ) (offset : CloudOffsets)
    (numPoints : ℕ) : Reads CloudArrays :=
  (List.range numPoints).foldlM (readCloudPoint memory pointStep offset) {}

/-! ### to_cloud -/

def kMaxPlausibleScanTimeNs : ℤ := 5000000000

/-- `std::vector<float>::max_size()`; `reserve` refuses more with `std::length_error`. -/
def kMaxFloats : ℕ := 2 ^ 61 - 1

def stampNs (msg : PointCloudMsg) : Checked ℤ := do
  let sec ← Checked.int64 (msg.timestampSec.toNat * 1000000000)
  Checked.int64 (sec + msg.timestampNsec.toNat)

def scanTimeNs (stamp previous : ℤ) : Checked ℤ := do
  let delta ← Checked.int64 (stamp - previous)
  pure (if 0 < previous ∧ 0 < delta ∧ delta ≤ kMaxPlausibleScanTimeNs then delta else 0)

/-- What one conversion leaves: its result, `last_stamp_ns`, whether arithmetic on stamps
overflowed, and the reads from the buffer. -/
structure Converted (α : Type) where
  result : Except Exn (Option α)
  lastStampNs : ℤ
  overflow : Bool := false
  reads : List (ℕ × ℕ) := []

/-- The fields of `SickCloudSource::Config` that outlive the constructor. -/
structure CloudConfig where
  frameId : Bytes
  rangeMin : F32
  rangeMax : F32

def cloudOffsets (fields : List PointField) : CloudOffsets where
  range := findFieldOffset fields (ascii ['r', 'a', 'n', 'g', 'e'])
  azimuth := findFieldOffset fields (ascii ['a', 'z', 'i', 'm', 'u', 't', 'h'])
  elevation := findFieldOffset fields (ascii ['e', 'l', 'e', 'v', 'a', 't', 'i', 'o', 'n'])
  intensity := findIntensityOffset fields
  echo := findFieldOffset fields (ascii ['e', 'c', 'h', 'o'])

/-- `SickCloudSource::Impl::to_cloud` (`sick_cloud_source.cpp:163-215`); `none` is false. -/
def toCloud (cfg : CloudConfig) (msg : PointCloudMsg) (lastStampNs : ℤ) : Converted PointCloud :=
  let offset := cloudOffsets msg.fields
  let refused : Converted PointCloud := { result := .ok none, lastStampNs := lastStampNs }
  if offset.range < 0 ∨ offset.azimuth < 0 ∨ offset.elevation < 0 then refused
  else
    match msg.buffer with
    | none => refused
    | some memory =>
      if msg.pointStep = 0 then refused
      else
        let numPoints := msg.width.toNat * msg.height.toNat
        -- the product is reduced before it is compared
        if msg.dataSize.toNat < numPoints * msg.pointStep.toNat % 2 ^ 64 then refused
        else if kMaxFloats < numPoints then
          { refused with result := .error (.logicError "vector::reserve") }
        else
          let out := readCloudPoints memory msg.pointStep.toNat offset numPoints
          let stamp := stampNs msg
          let scanTime := scanTimeNs stamp.value lastStampNs
          { result := .ok (some {
              frameId := cfg.frameId
              stampNs := Int64.ofInt stamp.value
              scanTimeNs := Int64.ofInt scanTime.value
              rangeMin := cfg.rangeMin
              rangeMax := cfg.rangeMax
              ranges := out.value.ranges
              azimuths := out.value.azimuths
              elevations := out.value.elevations
              intensities := out.value.intensities })
            lastStampNs := stamp.value
            overflow := stamp.overflow || scanTime.overflow
            reads := out.log }

structure PointCloudMsg.Passes (msg : PointCloudMsg) (missing : Prop) (memory : ℕ → Byte) :
    Prop where
  fields : ¬ missing
  buffer : msg.buffer = some memory
  pointStep : msg.pointStep ≠ 0
  dataSize : msg.width.toNat * msg.height.toNat * msg.pointStep.toNat % 2 ^ 64 ≤
    msg.dataSize.toNat

section Checks
variable {α : Type} {P : Converted α → Prop} {msg : PointCloudMsg} {missing : Prop}
  [Decidable missing] {refused tooLong : Converted α} {convert : (ℕ → Byte) → Converted α}

/-- The checks in their order: a message is refused when it does not pass, else it has too many
points to reserve for, or it is read. -/
theorem checks_split (hrefused : (∀ memory, ¬ msg.Passes missing memory) → P refused)
    (htooLong : ∀ memory, msg.Passes missing memory →
      kMaxFloats < msg.width.toNat * msg.height.toNat → P tooLong)
    (hconvert : ∀ memory, msg.Passes missing memory →
      msg.width.toNat * msg.height.toNat ≤ kMaxFloats → P (convert memory)) :
    P (if missing then refused
      else
        match msg.buffer with
        | none => refused
        | some memory =>
          if msg.pointStep = 0 then refused
          else if msg.dataSize.toNat <
              msg.width.toNat * msg.height.toNat * msg.pointStep.toNat % 2 ^ 64 then refused
          else if kMaxFloats < msg.width.toNat * msg.height.toNat then tooLong
          else convert memory) := by
  by_cases hm : missing
  · rw [if_pos hm]
    exact hrefused fun _ hp => hp.fields hm
  rw [if_neg hm]
  cases hbuffer : msg.buffer with
  | none =>
    refine hrefused fun memory hp => ?_
    cases hbuffer.symm.trans hp.buffer
  | some memory =>
    dsimp only
    by_cases hstep : msg.pointStep = 0
    · rw [if_pos hstep]
      exact hrefused fun _ hp => hp.pointStep hstep
    rw [if_neg hstep]
    by_cases hsize : msg.dataSize.toNat <
        msg.width.toNat * msg.height.toNat * msg.pointStep.toNat % 2 ^ 64
    · rw [if_pos hsize]
      exact hrefused fun _ hp => absurd hsize (Nat.not_lt.mpr hp.dataSize)
    rw [if_neg hsize]
    have hpasses : msg.Passes missing memory := ⟨hm, hbuffer, hstep, Nat.le_of_not_lt hsize⟩
    by_cases hlong : kMaxFloats < msg.width.toNat * msg.height.toNat
    · rw [if_pos hlong]
      exact htooLong memory hpasses hlong
    · rw [if_neg hlong]
      exact hconvert memory hpasses (Nat.le_of_not_lt hlong)

theorem checks_cases (hrefused : P refused) (htooLong : P tooLong)
    (hconvert : ∀ memory, msg.buffer = some memory → P (convert memory)) :
    P (if missing then refused
      else
        match msg.buffer with
        | none => refused
        | some memory =>
          if msg.pointStep = 0 then refused
          else if msg.dataSize.toNat <
              msg.width.toNat * msg.height.toNat * msg.pointStep.toNat % 2 ^ 64 then refused
          else if kMaxFloats < msg.width.toNat * msg.height.toNat then tooLong
          else convert memory) :=
  checks_split (fun _ => hrefused) (fun _ _ _ => htooLong)
    fun memory hpasses _ => hconvert memory hpasses.buffer

end Checks

/-! ### The arrays stay parallel -/

/-- One entry of each array for every point; intensities may be missing altogether. -/
def PointCloud.WellFormed (cloud : PointCloud) : Prop :=
  cloud.azimuths.length = cloud.ranges.length ∧ cloud.elevations.length = cloud.ranges.length ∧
    (cloud.intensities.length = 0 ∨ cloud.intensities.length = cloud.ranges.length)

instance (cloud : PointCloud) : Decidable cloud.WellFormed := inferInstanceAs (Decidable (_ ∧ _))

structure CloudArrays.Parallel (intensity : ℤ) (out : CloudArrays) : Prop where
  azimuths : out.azimuths.length = out.ranges.length
  elevations : out.elevations.length = out.ranges.length
  intensities : out.intensities.length = if 0 ≤ intensity then out.ranges.length else 0

theorem pushCloudPoint_parallel {offset : CloudOffsets} {out : CloudArrays}
    (h : out.Parallel offset.intensity) (memory : ℕ → Byte) (point : ℕ) :
    (pushCloudPoint memory point offset out).value.Parallel offset.intensity := by
  have hazimuths := h.azimuths
  have helevations := h.elevations
  have hintensities := h.intensities
  unfold pushCloudPoint
  simp only [Reads.bind_value]
  by_cases hi : 0 ≤ offset.intensity
  · rw [if_pos hi] at hintensities ⊢
    exact ⟨by simp [hazimuths], by simp [helevations], by simp [hi, hintensities]⟩
  · rw [if_neg hi] at hintensities ⊢
    exact ⟨by simp [hazimuths], by simp [helevations], by simp [hi, hintensities]⟩

theorem readCloudPoint_parallel {offset : CloudOffsets} {out : CloudArrays}
    (h : out.Parallel offset.intensity) (memory : ℕ → Byte) (pointStep i : ℕ) :
    (readCloudPoint memory pointStep offset out i).value.Parallel offset.intensity := by
  unfold readCloudPoint
  rw [Reads.bind_value]
  split
  · exact h
  · exact pushCloudPoint_parallel h memory _

theorem readCloudPoints_parallel (memory : ℕ → Byte) (pointStep : ℕ) (offset : CloudOffsets)
    (numPoints : ℕ) :
    (readCloudPoints memory pointStep offset numPoints).value.Parallel offset.intensity := by
  unfold readCloudPoints
  rw [Reads.foldlM_value]
  have hstart : ({} : CloudArrays).Parallel offset.intensity := ⟨rfl, rfl, by simp⟩
  generalize ({} : CloudArrays) = out at hstart
  induction List.range numPoints generalizing out with
  | nil => exact hstart
  | cons i points ih => exact ih _ (readCloudPoint_parallel hstart memory pointStep i)

/-- Whatever the message says and whatever lies behind its buffer, an accepted one is well
formed. -/
theorem toCloud_wellFormed {cfg : CloudConfig} {msg : PointCloudMsg} {lastStampNs : ℤ}
    {cloud : PointCloud} (h : (toCloud cfg msg lastStampNs).result = .ok (some cloud)) :
    cloud.WellFormed := by
  revert h
  unfold toCloud
  refine checks_cases (P := fun c => c.result = .ok (some cloud) → cloud.WellFormed)
    (fun h => by cases h) (fun h => by cases h) (fun memory _ h => ?_)
  cases h
  have hp := readCloudPoints_parallel memory msg.pointStep.toNat (cloudOffsets msg.fields)
    (msg.width.toNat * msg.height.toNat)
  refine ⟨hp.azimuths, hp.elevations, ?_⟩
  rw [hp.intensities]
  split
  · exact .inr rfl
  · exact .inl rfl

end AuvMiddleware.Lidar
