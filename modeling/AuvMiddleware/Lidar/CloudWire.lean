import AuvMiddleware.Lidar.Cloud
import AuvMiddleware.Lidar.WireFormat

/-!
# The generated code of LidarPointCloud (lidar_point_cloud.proto)

The nine fields, written and read as `lidar_scan.pb.cc` does those of a scan.
-/

namespace AuvMiddleware.Lidar
open ProtoRuntime

section Generated

variable (R : ProtoRuntime)

def LidarPointCloud.serialize (m : LidarPointCloud) : Bytes :=
  R.putString 1 m.frameId ++ R.putInt64 2 m.stampNs ++ R.putInt64 3 m.scanTimeNs ++
  R.putFloat 4 m.rangeMin ++ R.putFloat 5 m.rangeMax ++ R.putPacked 6 m.ranges ++
  R.putPacked 7 m.azimuths ++ R.putPacked 8 m.elevations ++ R.putPacked 9 m.intensities

def LidarPointCloud.mergeField (m : LidarPointCloud) (tag : ℕ) (bs : Bytes) :
    Option (LidarPointCloud × Bytes) :=
  match tag with
  | 10 => R.stringField bs fun s => { m with frameId := s }
  | 16 => valueField R.readVarint64 bs fun v => { m with stampNs := v.toInt64 }
  | 24 => valueField R.readVarint64 bs fun v => { m with scanTimeNs := v.toInt64 }
  | 37 => valueField R.loadFloat bs fun x => { m with rangeMin := x }
  | 45 => valueField R.loadFloat bs fun x => { m with rangeMax := x }
  | 50 => valueField R.packedFloatParser bs fun xs => { m with ranges := m.ranges ++ xs }
  | 53 => valueField R.loadFloat bs fun x => { m with ranges := m.ranges ++ [x] }
  | 58 => valueField R.packedFloatParser bs fun xs => { m with azimuths := m.azimuths ++ xs }
  | 61 => valueField R.loadFloat bs fun x => { m with azimuths := m.azimuths ++ [x] }
  | 66 => valueField R.packedFloatParser bs fun xs => { m with elevations := m.elevations ++ xs }
  | 69 => valueField R.loadFloat bs fun x => { m with elevations := m.elevations ++ [x] }
  | 74 => valueField R.packedFloatParser bs fun xs => { m with intensities := m.intensities ++ xs }
  | 77 => valueField R.loadFloat bs fun x => { m with intensities := m.intensities ++ [x] }
  | _ => R.unusual 0 m tag bs

def LidarPointCloud.protobuf : CloudProtobuf where
  serializeAsString m := R.serializeAsString (m.serialize R)
  parseFromString bs := R.internalParse (LidarPointCloud.mergeField R) bs {}

end Generated

def cloudWireFormat : CloudProtobuf := LidarPointCloud.protobuf reference

end AuvMiddleware.Lidar
