import Rdd2.Rescan
import Rdd2.RescanLive
import Rdd2.SerialFrame
import Rdd2.SerialScan
import Rdd2.SerialDecoder
import Rdd2.SerialRx
import Rdd2.SerialRxRefine
import Rdd2.RescanWhole
import Rdd2.SerialRoundTrip
import Rdd2.SerialRxSound
import Rdd2.RescanAgree
import Rdd2.SerialRxAgree
import Rdd2.SerialWires
import Rdd2.SerialCorruption
import Rdd2.RcInput
import Rdd2.ControlTypes
import Rdd2.EfmiControl
import Rdd2.MainLoop
import Rdd2.MainLoopStages
import Rdd2.MainLoopArming
import Rdd2.MainLoopAttitude
import Rdd2.Guarded
import Rdd2.SerialTx
import Rdd2.SerialTxAccount
import Rdd2.Dshot
import Rdd2.DshotIsr
import Rdd2.DshotReplies
import Rdd2.DshotTelemetry
import Rdd2.DshotWire
import Rdd2.MotorPwm
import Rdd2.SerialTxStream
import Rdd2.Lockstep
import Rdd2.LockstepBarrier
import Rdd2.LockstepFlight
import Rdd2.LockstepShared
import Rdd2.LockstepAnswer
import Rdd2.UbxFrame
import Rdd2.UbxFraming
import Rdd2.Binary64
import Rdd2.Calendar
import Rdd2.ControllerMemory
import Rdd2.DoubleBuffer
import Rdd2.FlightBlob
import Rdd2.GnssTime
import Rdd2.GnssTopic
import Rdd2.LockstepClock
import Rdd2.LockstepStore
import Rdd2.MainLoopHistory
import Rdd2.Mission
import Rdd2.NavPvt
import Rdd2.UbxResync
import Rdd2.MainLoopSamples
import Rdd2.Moments
import Rdd2.ImuLatencyStats
import Rdd2.ImuLatencyShared
import Rdd2.Crc
import Rdd2.RescanPlaces
import Rdd2.SerialBurst
import Rdd2.Reentry
import Rdd2.ParserBounds
import Rdd2.InterruptRing
import Rdd2.SerialUart
import Rdd2.PackedStruct
import Rdd2.Succession
import Rdd2.SerialSequence
import Rdd2.GnssInjection
import Rdd2.SerialInit
import Rdd2.SerialThread
import Rdd2.GnssOnboard
import Rdd2.FlightSystem
import Rdd2.ImuStream
import Rdd2.ImuStreamTime
import Rdd2.MissionRun
import Rdd2.LockstepRc
import Rdd2.GpsBridge
import Rdd2.GpsBridgeRun
import Rdd2.LockstepManual
import Rdd2.LoopClock
import Rdd2.LockstepSolo
import Rdd2.Fairness
import Rdd2.LockstepLive
