import AuvMiddleware.Lidar.Scan

/-!
# Point clouds and their wire message (point_cloud.hpp, cloud_codec.cpp, lidar_point_cloud.proto)
-/

namespace AuvMiddleware.Lidar

/-- One frame (`point_cloud.hpp:26-40`), an entry of each array for every point. -/
structure PointCloud where
  frameId : Bytes
  stampNs : Int64
  scanTimeNs : Int64
  rangeMin : F32
  rangeMax : F32
  ranges : List F32
  azimuths : List F32
  elevations : List F32
  intensities : List F32
  deriving DecidableEq

def PointCloud.fresh : PointCloud where
  frameId := []
  stampNs := 0
  scanTimeNs := 0
  rangeMin := 0
  rangeMax := 0
  ranges := []
  azimuths := []
  elevations := []
  intensities := []

def PointCloud.size (cloud : PointCloud) : ℕ := cloud.ranges.length

structure LidarPointCloud where
  frameId : Bytes := []
  stampNs : Int64 := 0
  scanTimeNs : Int64 := 0
  rangeMin : F32 := 0
  rangeMax : F32 := 0
  ranges : List F32 := []
  azimuths : List F32 := []
  elevations : List F32 := []
  intensities : List F32 := []
  deriving DecidableEq

/-- `copy_floats` (`cloud_codec.cpp:14-18`): `Clear`, then `Add` one by one. -/
def copyFloats (source target : List F32) : List F32 := target.take 0 ++ source

/-- `to_proto` (`cloud_codec.cpp:22-33`): overwrites `out` field by field. -/
def PointCloud.toProto (cloud : PointCloud) (out : LidarPointCloud) : LidarPointCloud :=
  let out := { out with frameId := cloud.frameId, stampNs := cloud.stampNs }
  let out := { out with scanTimeNs := cloud.scanTimeNs }
  let out := { out with rangeMin := cloud.rangeMin, rangeMax := cloud.rangeMax }
  let out := { out with ranges := copyFloats cloud.ranges out.ranges }
  let out := { out with azimuths := copyFloats cloud.azimuths out.azimuths }
  let out := { out with elevations := copyFloats cloud.elevations out.elevations }
  { out with intensities := copyFloats cloud.intensities out.intensities }

def PointCloud.fromProto (msg : LidarPointCloud) : PointCloud :=
  { PointCloud.fresh with
    frameId := msg.frameId
    stampNs := msg.stampNs
    scanTimeNs := msg.scanTimeNs
    rangeMin := msg.rangeMin
    rangeMax := msg.rangeMax
    ranges := msg.ranges
    azimuths := msg.azimuths
    elevations := msg.elevations
    intensities := msg.intensities }

/-- What the code uses of the protobuf runtime for clouds, as `Protobuf` does for scans. -/
structure CloudProtobuf where
  serializeAsString : LidarPointCloud → Bytes
  parseFromString : Bytes → Bool × LidarPointCloud

end AuvMiddleware.Lidar
