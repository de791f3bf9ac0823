import AuvMiddleware.Lib.Call
import AuvMiddleware.Lib.Script
import AuvMiddleware.Lib.Runs
import AuvMiddleware.Lib.Bytes
import AuvMiddleware.Lib.InStream
import AuvMiddleware.Lib.SnapshotConn
import AuvMiddleware.Lib.Decimal
import AuvMiddleware.Lib.Framing
import AuvMiddleware.Lib.FieldStream
import AuvMiddleware.Lib.ProtoRuntime
import AuvMiddleware.Lib.ProtoReference
import AuvMiddleware.Base
import AuvMiddleware.Lidar.Scan
import AuvMiddleware.Lidar.WireFormat
import AuvMiddleware.Lidar.CloudWire
import AuvMiddleware.Lidar.Recorder
import AuvMiddleware.Lidar.Reader
import AuvMiddleware.Lidar.ReaderSpec
import AuvMiddleware.Lidar.Store
import AuvMiddleware.Lidar.LiveReader
import AuvMiddleware.Lidar.ReaderHistory
import AuvMiddleware.Lidar.PowerLoss
import AuvMiddleware.Mw.Replier
import AuvMiddleware.Lidar.QueryWire
import AuvMiddleware.Lidar.QueryFraming
import AuvMiddleware.Lidar.QueryServer
import AuvMiddleware.Lidar.QueryAnswers
import AuvMiddleware.Lidar.QueryServing
import AuvMiddleware.Lidar.QueryClient
import AuvMiddleware.Lidar.QueryHandling
import AuvMiddleware.Lidar.RequestProgress
import AuvMiddleware.Lidar.RecentWindow
import AuvMiddleware.Lidar.CommandGrammar
import AuvMiddleware.Lib.Int64Ops
import AuvMiddleware.Mw.Executor
import AuvMiddleware.Mw.ExecutorCalls
import AuvMiddleware.Mw.Schedule
import AuvMiddleware.Mw.Isolation
import AuvMiddleware.Mw.ScheduleBounds
import AuvMiddleware.Mw.Lifecycle
import AuvMiddleware.Mw.Unwinding
import AuvMiddleware.Mw.Ownership
import AuvMiddleware.Lib.Exchange
import AuvMiddleware.Mw.Requester
import AuvMiddleware.Mw.RequestReply
import AuvMiddleware.Mw.LoopbackChannel
import AuvMiddleware.Mw.SeededBearer
import AuvMiddleware.Mw.BearerArithmetic
import AuvMiddleware.Mw.RequestFailures
import AuvMiddleware.Mw.HighWater
import AuvMiddleware.Mw.Subscriber
import AuvMiddleware.Mw.GapDetection
import AuvMiddleware.Lidar.SensorQueue
import AuvMiddleware.Lidar.LiveStream
import AuvMiddleware.Lidar.TopicIsolation
import AuvMiddleware.Lidar.VendorCloud
import AuvMiddleware.Lidar.VendorScan
import AuvMiddleware.Lidar.RecordBounds
import AuvMiddleware.Lidar.PointExtraction
import AuvMiddleware.Lib.EvenlySpaced
import AuvMiddleware.Lidar.ScanAngles
import AuvMiddleware.Lidar.RevolutionTiming
import AuvMiddleware.Lidar.CloudSources
import AuvMiddleware.Lidar.Service
import AuvMiddleware.Lidar.Watchdog
import AuvMiddleware.Lidar.RecordFirst
import AuvMiddleware.Lidar.WireRoundTrip
import AuvMiddleware.Mw.Envelope
import AuvMiddleware.Mw.HeartbeatWire
import AuvMiddleware.Mw.HeartbeatFeed
import AuvMiddleware.Lidar.ServerSnapshot
import AuvMiddleware.Lidar.LiveServer
import AuvMiddleware.Lidar.SickSources
import AuvMiddleware.Lidar.SourceRegistry
import AuvMiddleware.Lidar.Backfill
import AuvMiddleware.Lidar.Monitor
import AuvMiddleware.Lidar.QueryNetwork
import AuvMiddleware.Mw.ReportHistory
import AuvMiddleware.Mw.RealTimeLoop
import AuvMiddleware.Mw.SharedChannel
import AuvMiddleware.Lidar.PolledSource
import AuvMiddleware.Lidar.LiveRecording
import AuvMiddleware.Lidar.LivePipeline
