import AuvMiddleware.Lib.ProtoReference
import AuvMiddleware.Lidar.Scan

/-!
# The generated code of LidarScan (lidar_scan.pb.cc)

The serialiser and the parser that `protoc` made, over the calls they make of the protobuf runtime.
Scalar fields that equal their default are left out; the generated test for floats also leaves out
a negative zero.
-/

namespace AuvMiddleware.Lidar
open ProtoRuntime

section Generated

variable (R : ProtoRuntime)

/-- `_InternalSerialize` (`lidar_scan.pb.cc:309`): the fields in tag order. -/
def LidarScan.serialize (m : LidarScan) : Bytes :=
  R.putString 1 m.frameId ++ R.putInt64 2 m.stampNs ++ R.putInt64 3 m.scanTimeNs ++
  R.putInt64 4 m.timeIncrementNs ++ R.putFloat 5 m.angleMin ++ R.putFloat 6 m.angleMax ++
  R.putFloat 7 m.angleIncrement ++ R.putFloat 8 m.rangeMin ++ R.putFloat 9 m.rangeMax ++
  R.putUInt32 10 m.echoIndex ++ R.putUInt32 11 m.echoCount ++ R.putPacked 12 m.ranges ++
  R.putPacked 13 m.intensities

/-- One field after its tag (`lidar_scan.pb.cc:187`); repeated floats come packed or one by one. -/
def LidarScan.mergeField (m : LidarScan) (tag : ℕ) (bs : Bytes) : Option (LidarScan × Bytes) :=
  match tag with
  | 10 => R.stringField bs fun s => { m with frameId := s }
  | 16 => valueField R.readVarint64 bs fun v => { m with stampNs := v.toInt64 }
  | 24 => valueField R.readVarint64 bs fun v => { m with scanTimeNs := v.toInt64 }
  | 32 => valueField R.readVarint64 bs fun v => { m with timeIncrementNs := v.toInt64 }
  | 45 => valueField R.loadFloat bs fun x => { m with angleMin := x }
  | 53 => valueField R.loadFloat bs fun x => { m with angleMax := x }
  | 61 => valueField R.loadFloat bs fun x => { m with angleIncrement := x }
  | 69 => valueField R.loadFloat bs fun x => { m with rangeMin := x }
  | 77 => valueField R.loadFloat bs fun x => { m with rangeMax := x }
  | 80 => valueField R.readVarint32 bs fun v => { m with echoIndex := v }
  | 88 => valueField R.readVarint32 bs fun v => { m with echoCount := v }
  | 98 => valueField R.packedFloatParser bs fun xs => { m with ranges := m.ranges ++ xs }
  | 101 => valueField R.loadFloat bs fun x => { m with ranges := m.ranges ++ [x] }
  | 106 => valueField R.packedFloatParser bs fun xs => { m with intensities := m.intensities ++ xs }
  | 109 => valueField R.loadFloat bs fun x => { m with intensities := m.intensities ++ [x] }
  | _ => R.unusual 0 m tag bs

/-- `SerializeAsString` and `ParseFromString` of the generated class. -/
def LidarScan.protobuf : Protobuf where
  serializeAsString m := R.serializeAsString (m.serialize R)
  parseFromString bs := R.internalParse (LidarScan.mergeField R) bs {}

end Generated

/-- The generated code over a runtime that can be evaluated. -/
def wireFormat : Protobuf := LidarScan.protobuf reference

example : wireFormat.Undoes { Scan.fresh with stampNs := -7, ranges := [5, 6] } := by decide

end AuvMiddleware.Lidar
