import AuvMiddleware.Lib.Bytes
import Mathlib.Data.Int.Notation

/-!
# Scans and their wire message (scan.hpp, scan_codec.cpp, lidar_scan.proto)
-/

namespace AuvMiddleware.Lidar

/-- A `float` as its binary32 pattern; recording, querying and framing only copy it. -/
abbrev F32 := BitVec 32

/-- One revolution (`scan.hpp:23-45`), over the type of its `float` fields. -/
structure ScanOf (F : Type) where
  frameId : Bytes
  stampNs : Int64
  scanTimeNs : Int64
  timeIncrementNs : Int64
  angleMin : F
  angleMax : F
  angleIncrement : F
  rangeMin : F
  rangeMax : F
  echoIndex : UInt8
  echoCount : UInt8
  ranges : List F
  intensities : List F
  deriving DecidableEq

abbrev Scan := ScanOf F32

def Scan.fresh : Scan where
  frameId := []
  stampNs := 0
  scanTimeNs := 0
  timeIncrementNs := 0
  angleMin := 0
  angleMax := 0
  angleIncrement := 0
  rangeMin := 0
  rangeMax := 0
  echoIndex := 0
  echoCount := 1
  ranges := []
  intensities := []

/-- The message `proto::LidarScan`; proto3 has no 8-bit integers. -/
structure LidarScan where
  frameId : Bytes := []
  stampNs : Int64 := 0
  scanTimeNs : Int64 := 0
  timeIncrementNs : Int64 := 0
  angleMin : F32 := 0
  angleMax : F32 := 0
  angleIncrement : F32 := 0
  rangeMin : F32 := 0
  rangeMax : F32 := 0
  echoIndex : UInt32 := 0
  echoCount : UInt32 := 0
  ranges : List F32 := []
  intensities : List F32 := []
  deriving DecidableEq

/-- `to_proto` (`scan_codec.cpp:7-32`): overwrites `out` field by field. -/
def toProto (scan : Scan) (out : LidarScan) : LidarScan :=
  let out := { out with frameId := scan.frameId, stampNs := scan.stampNs }
  let out := { out with scanTimeNs := scan.scanTimeNs, timeIncrementNs := scan.timeIncrementNs }
  let out := { out with angleMin := scan.angleMin, angleMax := scan.angleMax }
  let out := { out with angleIncrement := scan.angleIncrement }
  let out := { out with rangeMin := scan.rangeMin, rangeMax := scan.rangeMax }
  let out := { out with echoIndex := scan.echoIndex.toUInt32, echoCount := scan.echoCount.toUInt32 }
  let out := { out with ranges := [] }
  let out := { out with ranges := out.ranges ++ scan.ranges }
  let out := { out with intensities := [] }
  { out with intensities := out.intensities ++ scan.intensities }

/-- `from_proto` (`scan_codec.cpp:34-58`); the echo fields keep their low eight bits. -/
def fromProto (msg : LidarScan) : Scan :=
  { Scan.fresh with
    frameId := msg.frameId
    stampNs := msg.stampNs
    scanTimeNs := msg.scanTimeNs
    timeIncrementNs := msg.timeIncrementNs
    angleMin := msg.angleMin
    angleMax := msg.angleMax
    angleIncrement := msg.angleIncrement
    rangeMin := msg.rangeMin
    rangeMax := msg.rangeMax
    echoIndex := msg.echoIndex.toUInt8
    echoCount := msg.echoCount.toUInt8
    ranges := msg.ranges
    intensities := msg.intensities }

theorem toProto_reuse (scan : Scan) (out : LidarScan) : toProto scan out = toProto scan {} := rfl

theorem fromProto_toProto (scan : Scan) (out : LidarScan) : fromProto (toProto scan out) = scan := by
  simp [fromProto, toProto]

/-! ### Protobuf -/

/-- What the code uses of the protobuf runtime. `parseFromString` clears its target before it
merges, so what the target ends as is a function of the bytes; on failure it holds whatever
was merged before the error. -/
structure Protobuf where
  serializeAsString : LidarScan → Bytes
  parseFromString : Bytes → Bool × LidarScan

namespace Protobuf

/-- Protobuf's parse undoes its serialise on the message of `scan`. -/
structure Undoes (P : Protobuf) (scan : Scan) : Prop where
  parse : P.parseFromString (P.serializeAsString (toProto scan {})) = (true, toProto scan {})
  size : (P.serializeAsString (toProto scan {})).length < 2 ^ 31

instance (P : Protobuf) (scan : Scan) : Decidable (P.Undoes scan) :=
  decidable_of_iff
    (P.parseFromString (P.serializeAsString (toProto scan {})) = (true, toProto scan {}) ∧
      (P.serializeAsString (toProto scan {})).length < 2 ^ 31)
    ⟨fun h => ⟨h.1, h.2⟩, fun h => ⟨h.parse, h.size⟩⟩

def bytesOf (P : Protobuf) (scan : Scan) : Bytes := P.serializeAsString (toProto scan {})

theorem bytesOf_eq (P : Protobuf) (scan : Scan) (out : LidarScan) :
    P.serializeAsString (toProto scan out) = P.bytesOf scan := by
  rw [bytesOf, toProto_reuse]

theorem Undoes.parse_bytesOf {P : Protobuf} {scan : Scan} (h : P.Undoes scan) :
    P.parseFromString (P.bytesOf scan) = (true, toProto scan {}) := h.parse

theorem Undoes.size_bytesOf {P : Protobuf} {scan : Scan} (h : P.Undoes scan) :
    (P.bytesOf scan).length < 2 ^ 31 := h.size

end Protobuf
end AuvMiddleware.Lidar
