import BikeMcu.TransitionSystem
import BikeMcu.RunHistory
import BikeMcu.RunLedger
import BikeMcu.AtomicBlock
import BikeMcu.TaskKernel
import BikeMcu.HeapBlocks
import BikeMcu.StreamBlocks
import BikeMcu.Debounce
import BikeMcu.CString
import BikeMcu.Printf
import BikeMcu.PrintfScan
import BikeMcu.BinaryRounding
import BikeMcu.BoundedQueue
import BikeMcu.BmiData
import BikeMcu.BrakeDetector
import BikeMcu.BatchDetection
import BikeMcu.DetectionLatency
import BikeMcu.SignalBounds
import BikeMcu.SingleGlitch
import BikeMcu.SeverityScaling
import BikeMcu.FloatDetector
import BikeMcu.FloatLatency
import BikeMcu.PairwiseDetector
import BikeMcu.PairwiseBatch
import BikeMcu.SensorPipeline
import BikeMcu.SensorFanOut
import BikeMcu.SampleProvenance
import BikeMcu.StaleWindows
import BikeMcu.InterruptDebounce
import BikeMcu.TelemetryLine
import BikeMcu.TelemetryCodec
import BikeMcu.FloatReadout
import BikeMcu.LampCommands
import BikeMcu.LampLinearization
import BikeMcu.LampRecord
import BikeMcu.Storage
import BikeMcu.UdpServer
import BikeMcu.ListeningSocket
import BikeMcu.WifiConnect
import BikeMcu.NetworkLifecycle
import BikeMcu.BoardSystem
import BikeMcu.TaskHandles
import BikeMcu.NetworkTeardown
import BikeMcu.LampOwnership
import BikeMcu.LampTrace
import BikeMcu.CommandTrace
import BikeMcu.LampMutex
import BikeMcu.BrakeHold
import BikeMcu.LampMode
import BikeMcu.PowerCycle
import BikeMcu.FlashBoot
import BikeMcu.DataReady
import BikeMcu.SensorLink
import BikeMcu.SensorRegisters
import BikeMcu.RetryProtocol
import BikeMcu.EventRegistrations
import BikeMcu.BleClient
import BikeMcu.BleReads
import BikeMcu.BleBuffers
import BikeMcu.BleHandles
import BikeMcu.BleSubscription
import BikeMcu.ScanCycle
import BikeMcu.RadioRecovery
import BikeMcu.ConnectionAttempts
import BikeMcu.UdpClient
import BikeMcu.BikeSystem
import BikeMcu.BrakePath
import BikeMcu.CommandPath
import BikeMcu.UploadPath
import BikeMcu.LampProgress
import BikeMcu.BrakeProgress
