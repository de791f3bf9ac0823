import AuvMiddleware.Lidar.VendorCloud
import Mathlib.Data.Rat.Defs

/-!
# Vendor messages and their conversion to scans (sick_scan_source.cpp:195-297, scan.hpp:46-50)
-/

namespace AuvMiddleware.Lidar

/-- The vendor's message as far as `to_scan` reads it. -/
structure ScanMsg extends PointCloudMsg where
  numEchos : Int32

/-- The `float` operations of the conversion; `ofBits` is the value of a pattern. -/
structure FloatArith (F : Type) where
  ofBits : F32 → F
  ofCount : ℕ → F
  zero : F
  lt : F → F → Bool
  add : F → F → F
  sub : F → F → F
  mul : F → F → F
  div : F → F → F

namespace FloatArith
variable {F : Type} (A : FloatArith F)

/-- `std::min`, which keeps its first argument unless the second is smaller. -/
def min (a b : F) : F := if A.lt b a then b else a

def max (a b : F) : F := if A.lt a b then b else a

end FloatArith

def floatValue (bits : F32) : ℚ :=
  let exponent : ℕ := bits.toNat / 2 ^ 23 % 2 ^ 8
  let fraction : ℕ := bits.toNat % 2 ^ 23
  let magnitude : ℚ :=
    if exponent = 0 then mkRat fraction (2 ^ 149)
    else mkRat ((2 ^ 23 + fraction) * 2 ^ exponent) (2 ^ 150)
  if bits.toNat < 2 ^ 31 then magnitude else -magnitude

/-- Arithmetic without rounding, on the values of the patterns. -/
def exactArith (value : F32 → ℚ) : FloatArith ℚ where
  ofBits := value
  ofCount n := n
  zero := 0
  lt a b := decide (a < b)
  add a b := a + b
  sub a b := a - b
  mul a b := a * b
  div a b := a / b

/-- `angle_of` (`scan.hpp:48-50`). -/
def ScanOf.angleOf {F : Type} (A : FloatArith F) (scan : ScanOf F) (i : ℕ) : F :=
  A.add scan.angleMin (A.mul (A.ofCount i) scan.angleIncrement)

/-- The fields of `SickScanSource::Config` that outlive the constructor. -/
structure ScanConfig where
  frameId : Bytes
  rangeMin : F32
  rangeMax : F32

structure ScanOffsets where
  range : ℤ
  azimuth : ℤ
  intensity : ℤ
  echo : ℤ

def scanOffsets (fields : List PointField) : ScanOffsets where
  range := findFieldOffset fields (ascii ['r', 'a', 'n', 'g', 'e'])
  azimuth := findFieldOffset fields (ascii ['a', 'z', 'i', 'm', 'u', 't', 'h'])
  intensity := findIntensityOffset fields
  echo := findFieldOffset fields (ascii ['e', 'c', 'h', 'o'])

/-- What the loop fills; `minAzimuth` and `maxAzimuth` mean nothing before the first point. -/
structure ScanArrays (F : Type) where
  ranges : List F := []
  intensities : List F := []
  minAzimuth : F
  maxAzimuth : F
  havePoint : Bool := false

section Loop
variable {F : Type} (A : FloatArith F) (memory : ℕ → Byte)

def pushScanPoint (point : ℕ) (offset : ScanOffsets) (out : ScanArrays F) :
    Reads (ScanArrays F) := do
  let range ← readFieldFloat memory (point + offset.range.toNat)
  let azimuth ← readFieldFloat memory (point + offset.azimuth.toNat)
  let azimuth := A.ofBits azimuth
  let out := { out with ranges := out.ranges ++ [A.ofBits range] }
  let out ←
    if 0 ≤ offset.intensity then do
      let intensity ← readFieldFloat memory (point + offset.intensity.toNat)
      pure { out with intensities := out.intensities ++ [A.ofBits intensity] }
    else
      pure out
  if out.havePoint then
    pure { out with
      minAzimuth := A.min out.minAzimuth azimuth
      maxAzimuth := A.max out.maxAzimuth azimuth }
  else
    pure { out with minAzimuth := azimuth, maxAzimuth := azimuth, havePoint := true }

/-- One turn of the loop in `to_scan` (`sick_scan_source.cpp:226-248`). -/
def readScanPoint (pointStep : ℕ) (offset : ScanOffsets) (out : ScanArrays F) (i : ℕ) :
    Reads (ScanArrays F) := do
  let point := i * pointStep % 2 ^ 64
  if ← otherEcho memory point offset.echo then
    pure out
  else
    pushScanPoint A memory point offset out

def readScanPoints (pointStep : ℕ) (offset : ScanOffsets) (numPoints : ℕ) :
    Reads (ScanArrays F) :=
  (List.range numPoints).foldlM (readScanPoint A memory pointStep offset)
    { minAzimuth := A.zero, maxAzimuth := A.zero }

end Loop

/-- `SickScanSource::Impl::to_scan` (`sick_scan_source.cpp:197-297`); `none` is false. -/
def toScan {F : Type} (A : FloatArith F) (cfg : ScanConfig) (msg : ScanMsg) (lastStampNs : ℤ) :
    Converted (ScanOf F) :=
  let offset := scanOffsets msg.fields
  let refused : Converted (ScanOf F) := { result := .ok none, lastStampNs := lastStampNs }
  if offset.range < 0 ∨ offset.azimuth < 0 then refused
  else
    match msg.buffer with
    | none => refused
    | some memory =>
      if msg.pointStep = 0 then refused
      else
        let numPoints := msg.width.toNat * msg.height.toNat
        -- the product is reduced before it is compared
        if msg.dataSize.toNat < numPoints * msg.pointStep.toNat % 2 ^ 64 then refused
        else if kMaxFloats < numPoints then
          { refused with result := .error (.logicError "vector::reserve") }
        else
          let out := readScanPoints A memory msg.pointStep.toNat offset numPoints
          let size := out.value.ranges.length
          let stamp := stampNs msg.toPointCloudMsg
          let scanTime := scanTimeNs stamp.value lastStampNs
          { result := .ok (some {
              frameId := cfg.frameId
              stampNs := Int64.ofInt stamp.value
              scanTimeNs := Int64.ofInt scanTime.value
              timeIncrementNs := if size = 0 then 0 else Int64.ofInt (scanTime.value.tdiv size)
              angleMin := out.value.minAzimuth
              angleMax := out.value.maxAzimuth
              angleIncrement :=
                if 1 < size then
                  A.div (A.sub out.value.maxAzimuth out.value.minAzimuth) (A.ofCount (size - 1))
                else A.zero
              rangeMin := A.ofBits cfg.rangeMin
              rangeMax := A.ofBits cfg.rangeMax
              echoIndex := 0
              echoCount := if 0 < msg.numEchos then msg.numEchos.toUInt32.toUInt8 else 1
              ranges := out.value.ranges
              intensities := out.value.intensities })
            lastStampNs := stamp.value
            overflow := stamp.overflow || scanTime.overflow
            reads := out.log }

end AuvMiddleware.Lidar
