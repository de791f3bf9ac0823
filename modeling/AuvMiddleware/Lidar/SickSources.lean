import AuvMiddleware.Base
import AuvMiddleware.Lidar.CloudSources
import AuvMiddleware.Lidar.VendorScan

/-!
# The two sources over the vendor's driver (sick_scan_source.hpp, sick_cloud_source.hpp)
-/

namespace AuvMiddleware.Lidar

/-- `SickScanSource::Config`. -/
structure SickScanConfig where
  hostname : String := "192.168.0.1"
  udpReceiverIp : String := ""
  launchFile : String := ""
  cloudName : String := "cloud_polar_unstructured_fullframe"
  frameId : Bytes := ascii "picoscan150".toList
  queueCapacity : ℕ := 8
  rangeMin : F32 := 0x3D4CCCCD
  rangeMax : F32 := 0x42F00000

/-- `SickCloudSource::Config`. -/
structure SickCloudConfig extends SickScanConfig where
  frameId := ascii "multiscan136".toList
  queueCapacity := 4
  udpPort : Int32 := 0
  imuUdpPort : Int32 := 0

/-- What both constructors check first; `launchFiles` is what the text names. -/
def checkConfig (name launchFiles : String) (cfg : SickScanConfig) : Except Exn ℕ+ :=
  if cfg.hostname = "" then
    .error (.runtimeError (name ++ ": Config::hostname is empty"))
  else if cfg.udpReceiverIp = "" then
    .error (.runtimeError (name ++ ": Config::udp_receiver_ip is empty -- it must be THIS " ++
      "machine's IP address on the sensor's subnet (find it with: ip -4 addr show). The sensor " ++
      "pushes scan data to that address over UDP; without it the start handshake fails."))
  else if cfg.launchFile = "" then
    .error (.runtimeError (name ++ ": Config::launch_file is empty -- it must be the path to " ++
      "sick_scan_xd's " ++ launchFiles))
  else if h : 0 < cfg.queueCapacity then .ok ⟨cfg.queueCapacity, h⟩
  else .error (.runtimeError (name ++ ": Config::queue_capacity must be at least 1"))

def SickScanConfig.check : SickScanConfig → Except Exn ℕ+ :=
  checkConfig "SickScanSource" "launch/sick_picoscan.launch"

def SickCloudConfig.check (cfg : SickCloudConfig) : Except Exn ℕ+ :=
  checkConfig "SickCloudSource" "launch/sick_multiscan.launch (or sick_picoscan.launch)"
    cfg.toSickScanConfig

def SickScanConfig.launchArgs (cfg : SickScanConfig) : String :=
  cfg.launchFile ++ " hostname:=" ++ cfg.hostname ++ " udp_receiver_ip:=" ++ cfg.udpReceiverIp ++
    " custom_pointclouds:=" ++ cfg.cloudName

def SickCloudConfig.launchArgs (cfg : SickCloudConfig) : String :=
  let args := cfg.toSickScanConfig.launchArgs
  let args := if cfg.udpPort ≠ 0 then args ++ " udp_port:=" ++ toString cfg.udpPort else args
  if cfg.imuUdpPort ≠ 0 then args ++ " imu_udp_port:=" ++ toString cfg.imuUdpPort else args

structure SickScanSource (F : Type) where
  cfg : ScanConfig
  queue : SensorQueue (ScanOf F)
  lastStampNs : ℤ := 0
  overflow : Bool := false

/-- `SickScanSource::Impl::enqueue` (`sick_scan_source.cpp:179-193`) on a vendor message; what the
conversion throws goes through. -/
def SickScanSource.enqueue {F : Type} (A : FloatArith F) (msg : ScanMsg) (s : SickScanSource F) :
    Except Exn Unit × SickScanSource F :=
  let converted := toScan A s.cfg msg s.lastStampNs
  let s := { s with
    lastStampNs := converted.lastStampNs, overflow := s.overflow || converted.overflow }
  match converted.result with
  | .error e => (.error e, s)
  | .ok none => (.ok (), s)
  | .ok (some scan) => (.ok (), { s with queue := s.queue.enqueue scan })

inductive SickKind where
  | scan
  | cloud
  deriving DecidableEq

inductive SickConfig where
  | scan (cfg : SickScanConfig)
  | cloud (cfg : SickCloudConfig)

namespace SickConfig

def kind : SickConfig → SickKind
  | .scan _ => .scan
  | .cloud _ => .cloud

def name : SickConfig → String
  | .scan _ => "SickScanSource"
  | .cloud _ => "SickCloudSource"

def check : SickConfig → Except Exn ℕ+
  | .scan cfg => cfg.check
  | .cloud cfg => cfg.check

def launchArgs : SickConfig → String
  | .scan cfg => cfg.launchArgs
  | .cloud cfg => cfg.launchArgs

end SickConfig

/-- What the driver's thread and a poll share. -/
inductive SickSource (F : Type) where
  | scan (s : SickScanSource F)
  | cloud (s : SickCloudSource)

namespace SickSource

variable {F : Type}

def create (queueCapacity : ℕ+) : SickConfig → SickSource F
  | .scan cfg => .scan
      { cfg := ⟨cfg.frameId, cfg.rangeMin, cfg.rangeMax⟩, queue := { capacity := queueCapacity } }
  | .cloud cfg => .cloud
      { cfg := ⟨cfg.frameId, cfg.rangeMin, cfg.rangeMax⟩, queue := { capacity := queueCapacity } }

def enqueue (A : FloatArith F) (msg : ScanMsg) : SickSource F → Except Exn Unit × SickSource F
  | .scan s => ((s.enqueue A msg).1, .scan (s.enqueue A msg).2)
  | .cloud s => ((s.enqueue msg.toPointCloudMsg).1, .cloud (s.enqueue msg.toPointCloudMsg).2)

/-- `poll_scan` and `poll_cloud` at the end of their wait. -/
def poll : SickSource F → SickSource F
  | .scan s => .scan { s with queue := s.queue.poll.2 }
  | .cloud s => .cloud { s with queue := s.queue.poll.2 }

end SickSource

end AuvMiddleware.Lidar
