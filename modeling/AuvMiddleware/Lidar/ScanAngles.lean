import AuvMiddleware.Lib.EvenlySpaced
import AuvMiddleware.Lidar.RecordBounds

/-!
# Angles by index (scan.hpp:29-31, 46-50, sick_scan_source.cpp:222-290)

A scan keeps distances in the order of their arrival and no azimuths: a reader takes the angle of
sample `i` from the first angle and the step. The conversion takes the first angle to be the least
azimuth it met, and the last the greatest.
-/

namespace AuvMiddleware.Lidar

structure PolarPoint where
  range : F32
  azimuth : F32
  deriving DecidableEq

def polarPoint (memory : ℕ → Byte) (point : ℕ) (offset : ScanOffsets) : PolarPoint where
  range := (readFieldFloat memory (point + offset.range.toNat)).value
  azimuth := (readFieldFloat memory (point + offset.azimuth.toNat)).value

/-- The points of echo 0 in the order of the buffer. -/
def PointCloudMsg.keptPoints (msg : PointCloudMsg) : List PolarPoint :=
  match msg.buffer with
  | none => []
  | some memory =>
    ((scanLayout (scanOffsets msg.fields)).kept memory msg).map fun i =>
      polarPoint memory (msg.point i) (scanOffsets msg.fields)

section Exact
variable (value : F32 → ℚ)

def distances (points : List PolarPoint) : List ℚ := points.map fun p => value p.range

def azimuths (points : List PolarPoint) : List ℚ := points.map fun p => value p.azimuth

theorem exactArith_min (a b : ℚ) : (exactArith value).min a b = min a b := by
  rw [min_comm, min_def_lt]
  exact if_congr decide_eq_true_iff rfl rfl

theorem exactArith_max (a b : ℚ) : (exactArith value).max a b = max a b := by
  rw [max_def_lt]
  exact if_congr decide_eq_true_iff rfl rfl

/-! ### What the loop collects -/

structure ScanArrays.Collects (points : List PolarPoint) (out : ScanArrays ℚ) : Prop where
  ranges : out.ranges = distances value points
  havePoint : out.havePoint = !points.isEmpty
  least : points ≠ [] → IsLeast {a | a ∈ azimuths value points} out.minAzimuth
  greatest : points ≠ [] → IsGreatest {a | a ∈ azimuths value points} out.maxAzimuth

theorem pushScanPoint_value (memory : ℕ → Byte) (point : ℕ) (offset : ScanOffsets)
    (out : ScanArrays ℚ) :
    let p := polarPoint memory point offset
    let next := (pushScanPoint (exactArith value) memory point offset out).value
    next.ranges = out.ranges ++ [value p.range] ∧ next.havePoint = true ∧
      next.minAzimuth =
        (if out.havePoint then min out.minAzimuth (value p.azimuth) else value p.azimuth) ∧
      next.maxAzimuth =
        (if out.havePoint then max out.maxAzimuth (value p.azimuth) else value p.azimuth) := by
  unfold pushScanPoint polarPoint
  dsimp only
  simp only [Reads.bind_value, exactArith_min, exactArith_max]
  by_cases hi : 0 ≤ offset.intensity
  · simp only [if_pos hi]
    cases hpoint : out.havePoint with
    | false => simp [exactArith]
    | true => simp [exactArith]
  · simp only [if_neg hi]
    cases hpoint : out.havePoint with
    | false => simp [exactArith]
    | true => simp [exactArith]

theorem azimuths_append (points : List PolarPoint) (p : PolarPoint) :
    {a | a ∈ azimuths value (points ++ [p])} = {a | a ∈ azimuths value points} ∪ {value p.azimuth} := by
  ext a
  simp [azimuths, or_comm, eq_comm]

variable {value}

theorem ScanArrays.Collects.push {points : List PolarPoint} {out : ScanArrays ℚ}
    (h : out.Collects value points) (memory : ℕ → Byte) (point : ℕ) (offset : ScanOffsets) :
    (pushScanPoint (exactArith value) memory point offset out).value.Collects value
      (points ++ [polarPoint memory point offset]) := by
  obtain ⟨hranges, hpoint, hmin, hmax⟩ := pushScanPoint_value value memory point offset out
  have hsingle := azimuths_append value points (polarPoint memory point offset)
  cases points with
  | nil =>
    have hstart : out.havePoint = false := h.havePoint
    rw [hstart] at hmin hmax
    refine ⟨?_, hpoint, fun _ => ?_, fun _ => ?_⟩
    · rw [hranges, h.ranges]
      rfl
    · rw [hmin]
      simp [azimuths]
    · rw [hmax]
      simp [azimuths]
  | cons first points =>
    have hstart : out.havePoint = true := h.havePoint
    rw [hstart] at hmin hmax
    refine ⟨?_, hpoint, fun _ => ?_, fun _ => ?_⟩
    · rw [hranges, h.ranges, distances, distances, List.map_append]
      rfl
    · rw [hmin, hsingle]
      exact (h.least (List.cons_ne_nil _ _)).union isLeast_singleton
    · rw [hmax, hsingle]
      exact (h.greatest (List.cons_ne_nil _ _)).union isGreatest_singleton

theorem readScanPoint_collects {points : List PolarPoint} {out : ScanArrays ℚ}
    (h : out.Collects value points) (memory : ℕ → Byte) (pointStep : ℕ) (offset : ScanOffsets)
    (i : ℕ) :
    (readScanPoint (exactArith value) memory pointStep offset out i).value.Collects value
      (points ++
        if (scanLayout offset).keeps memory (i * pointStep % 2 ^ 64) then
          [polarPoint memory (i * pointStep % 2 ^ 64) offset]
        else []) := by
  unfold readScanPoint RecordLayout.keeps scanLayout
  rw [Reads.bind_value]
  cases (otherEcho memory (i * pointStep % 2 ^ 64) offset.echo).value with
  | true => exact (List.append_nil points).symm ▸ h
  | false => exact h.push memory (i * pointStep % 2 ^ 64) offset

theorem foldl_readScanPoint_collects {points : List PolarPoint} {out : ScanArrays ℚ}
    (h : out.Collects value points) (memory : ℕ → Byte) (pointStep : ℕ) (offset : ScanOffsets)
    (indices : List ℕ) :
    (indices.foldl (fun out i =>
      (readScanPoint (exactArith value) memory pointStep offset out i).value) out).Collects value
      (points ++ (indices.filter fun i =>
        (scanLayout offset).keeps memory (i * pointStep % 2 ^ 64)).map fun i =>
          polarPoint memory (i * pointStep % 2 ^ 64) offset) := by
  induction indices generalizing points out with
  | nil => simpa using h
  | cons i indices ih =>
    have hnext := ih (readScanPoint_collects h memory pointStep offset i)
    rw [List.foldl_cons]
    by_cases hkeeps : (scanLayout offset).keeps memory (i * pointStep % 2 ^ 64) = true
    · rw [if_pos hkeeps, List.append_assoc] at hnext
      rw [List.filter_cons, if_pos hkeeps]
      exact hnext
    · rw [if_neg hkeeps, List.append_nil] at hnext
      rw [List.filter_cons, if_neg hkeeps]
      exact hnext

variable (value) in
theorem readScanPoints_collects (memory : ℕ → Byte) (pointStep : ℕ) (offset : ScanOffsets)
    (numPoints : ℕ) :
    (readScanPoints (exactArith value) memory pointStep offset numPoints).value.Collects value
      (((List.range numPoints).filter fun i =>
        (scanLayout offset).keeps memory (i * pointStep % 2 ^ 64)).map fun i =>
          polarPoint memory (i * pointStep % 2 ^ 64) offset) := by
  have hstart : ({ minAzimuth := 0, maxAzimuth := 0 } : ScanArrays ℚ).Collects value [] :=
    ⟨rfl, rfl, fun hne => absurd rfl hne, fun hne => absurd rfl hne⟩
  unfold readScanPoints
  rw [Reads.foldlM_value]
  exact foldl_readScanPoint_collects hstart memory pointStep offset _

/-! ### The scan that comes of it -/

variable (value) in
structure ScanOf.Summarises (points : List PolarPoint) (scan : ScanOf ℚ) : Prop where
  ranges : scan.ranges = distances value points
  least : points ≠ [] → IsLeast {a | a ∈ azimuths value points} scan.angleMin
  greatest : points ≠ [] → IsGreatest {a | a ∈ azimuths value points} scan.angleMax
  increment : 1 < points.length →
    scan.angleIncrement = (scan.angleMax - scan.angleMin) / (points.length - 1 : ℕ)

theorem toScan_summarises {cfg : ScanConfig} {msg : ScanMsg} {lastStampNs : ℤ} {scan : ScanOf ℚ}
    (h : (toScan (exactArith value) cfg msg lastStampNs).result = .ok (some scan)) :
    scan.Summarises value msg.keptPoints := by
  revert h
  unfold toScan
  refine checks_cases (P := fun c => c.result = .ok (some scan) → scan.Summarises value _)
    (fun h => by cases h) (fun h => by cases h) (fun memory hbuffer h => ?_)
  cases h
  have hpoints : msg.keptPoints =
      ((scanLayout (scanOffsets msg.fields)).kept memory msg.toPointCloudMsg).map fun i =>
        polarPoint memory (msg.point i) (scanOffsets msg.fields) := by
    simp only [PointCloudMsg.keptPoints, hbuffer]
  have hout := readScanPoints_collects value memory msg.pointStep.toNat
    (scanOffsets msg.fields) (msg.width.toNat * msg.height.toNat)
  rw [hpoints]
  refine ⟨hout.ranges, hout.least, hout.greatest, fun hlong => ?_⟩
  have hsize := congrArg List.length hout.ranges
  rw [distances, List.length_map] at hsize
  dsimp only
  rw [if_pos (hlong.trans_eq hsize.symm), hsize]
  rfl

end Exact

/-! ### When an index gives the azimuth -/

/-- What a reader of the scan is told about its angles. -/
structure AnglesByIndex (value : F32 → ℚ) (points : List PolarPoint) (scan : ScanOf ℚ) : Prop where
  ranges : scan.ranges = distances value points
  first : ∀ p ∈ points.head?, scan.angleMin = value p.azimuth
  last : ∀ p ∈ points.getLast?, scan.angleMax = value p.azimuth
  sample : ∀ i, ∀ p ∈ points[i]?, scan.angleOf (exactArith value) i = value p.azimuth

/-- Points spaced evenly are found by their index exactly when their azimuths do not descend. -/
theorem angles_by_index_iff {value : F32 → ℚ} {cfg : ScanConfig} {msg : ScanMsg} {lastStampNs : ℤ}
    {scan : ScanOf ℚ} {d : ℚ}
    (h : (toScan (exactArith value) cfg msg lastStampNs).result = .ok (some scan))
    (htwo : 2 ≤ msg.keptPoints.length) (hspaced : EvenlySpaced d (azimuths value msg.keptPoints)) :
    AnglesByIndex value msg.keptPoints scan ↔ 0 ≤ d := by
  obtain ⟨hranges, hleast, hgreatest, hincrement⟩ := toScan_summarises h
  generalize msg.keptPoints = points at *
  have hne : points ≠ [] := List.ne_nil_of_length_pos (by omega)
  have hlength : (azimuths value points).length = points.length := List.length_map ..
  have hfirst := List.head?_eq_some_head hne
  have hfinal := List.getLast?_eq_some_getLast hne
  have hhead : (azimuths value points).head? = some (value (points.head hne).azimuth) := by
    rw [azimuths, List.head?_map, hfirst, Option.map_some]
  have hlast : (azimuths value points).getLast? = some (value (points.getLast hne).azimuth) := by
    rw [azimuths, List.getLast?_map, hfinal, Option.map_some]
  constructor
  · intro hangles
    rw [← hangles.first _ hfirst] at hhead
    exact hspaced.step_nonneg (by omega) hhead (hleast hne)
  · intro hd
    have hmin := (hleast hne).unique (hspaced.isLeast_head hd hhead)
    have hmax := (hgreatest hne).unique (hspaced.isGreatest_getLast hd hhead hlast)
    have hstep := hincrement (by omega)
    rw [hmin, hmax, ← hlength, hspaced.step_eq (by omega) hhead hlast] at hstep
    refine ⟨hranges, fun p hp => ?_, fun p hp => ?_, fun i p hp => ?_⟩
    · cases hfirst.symm.trans hp
      exact hmin
    · cases hfinal.symm.trans hp
      exact hmax
    · have hazimuth : (azimuths value points)[i]? = some (value p.azimuth) := by
        rw [azimuths, List.getElem?_map, Option.mem_def.mp hp, Option.map_some]
      rw [hspaced.getElem?_eq hhead hazimuth, ← hmin, ← hstep]
      rfl

/-- Three records of echo, range and azimuth; the second is of another echo. -/
def sweep (first last : Bytes) : ScanMsg where
  timestampSec := 1
  timestampNsec := 0
  width := 3
  height := 1
  pointStep := 9
  fields := [⟨ascii ['e', 'c', 'h', 'o'], 0⟩, ⟨ascii ['r', 'a', 'n', 'g', 'e'], 1⟩,
    ⟨ascii ['a', 'z', 'i', 'm', 'u', 't', 'h'], 5⟩]
  dataSize := 27
  buffer := some fun i =>
    (bytes [0, 0, 0, 128, 63] ++ first ++ bytes [1, 0, 0, 0, 0, 0, 0, 0, 0] ++
      bytes [0, 0, 0, 0, 64] ++ last).getD i (lowByte 0)
  numEchos := 2

/-- Azimuths 0 and 1. -/
def risingSweep : ScanMsg := sweep (bytes [0, 0, 0, 0]) (bytes [0, 0, 128, 63])

/-- Azimuths 1 and 0. -/
def fallingSweep : ScanMsg := sweep (bytes [0, 0, 128, 63]) (bytes [0, 0, 0, 0])

def sweepScan : ScanOf ℚ where
  frameId := []
  stampNs := 1000000000
  scanTimeNs := 0
  timeIncrementNs := 0
  angleMin := 0
  angleMax := 1
  angleIncrement := 1
  rangeMin := 0
  rangeMax := 0
  echoIndex := 0
  echoCount := 2
  ranges := [1, 2]
  intensities := []

theorem angles_by_index_rising : AnglesByIndex floatValue risingSweep.keptPoints sweepScan := by
  have haccepted : (toScan (exactArith floatValue) ⟨[], 0, 0⟩ risingSweep 0).result =
      .ok (some sweepScan) := by decide +kernel
  have hspaced : EvenlySpaced 1 (azimuths floatValue risingSweep.keptPoints) := by decide +kernel
  exact (angles_by_index_iff haccepted (by decide +kernel) hspaced).mpr (by decide +kernel)

theorem fallingSweep_swapped :
    (toScan (exactArith floatValue) ⟨[], 0, 0⟩ fallingSweep 0).result = .ok (some sweepScan) ∧
    EvenlySpaced (-1) (azimuths floatValue fallingSweep.keptPoints) ∧
    fallingSweep.keptPoints.length = 2 ∧
    ¬ AnglesByIndex floatValue fallingSweep.keptPoints sweepScan := by
  refine ⟨by decide +kernel, by decide +kernel, by decide +kernel, fun h => ?_⟩
  have hfirst := h.first ⟨0x3f800000#32, 0x3f800000#32⟩ (by decide +kernel)
  exact absurd hfirst (by decide +kernel)

end AuvMiddleware.Lidar
