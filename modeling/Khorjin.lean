import Khorjin.LoopRules
import Khorjin.RunRules
import Khorjin.ByteMemory
import Khorjin.ByteLayout
import Khorjin.Segmentation
import Khorjin.ClientRecords
import Khorjin.ChannelOutput
import Khorjin.FrameChecks
import Khorjin.ClientCalls
import Khorjin.DataSlots
import Khorjin.DataFields
import Khorjin.ConfigurationSlots
import Khorjin.ConfigurationShapes
import Khorjin.ClientRuns
import Khorjin.ArrayInvariant
import Khorjin.FrameExtent
import Khorjin.DataSamples
import Khorjin.DataHistory
import Khorjin.StreamFraming
import Khorjin.ConfigurationRequest
import Khorjin.ShiftRegister
import Khorjin.ErrorDetection
import Khorjin.CommandFrames
import Khorjin.ReportingRuns
import Khorjin.AlteredFrames
import Khorjin.IntegerFrequency
import Khorjin.StatusWord
import Khorjin.VectorArithmetic
import Khorjin.IntegerChannels
import Khorjin.FloatPhasors
import Khorjin.MillisecondTimes
import Khorjin.FlatOutput
import Khorjin.InstalledRecords
import Khorjin.ReturnValues
import Khorjin.ConnectRetries
import Khorjin.ChecksumResidue
import Khorjin.ChannelHelpers
import Khorjin.BlockHeap
import Khorjin.ClientMemory
import Khorjin.LeakedBlocks
import Khorjin.MemoryLimit
import Khorjin.SocketDescriptors
import Khorjin.DataEncoding
import Khorjin.DataRoundTrip
import Khorjin.SentFrames
import Khorjin.SentSession
import Khorjin.PrintedLines
import Khorjin.PrintedSamples
import Khorjin.DamagedFrames
import Khorjin.ReceiverLoop
import Khorjin.ExampleProgram
import Khorjin.StatusHistory
import Khorjin.ClockHistory
import Khorjin.PrintedStatus
import Khorjin.StreamingLink
import Khorjin.ConnectionEnd
import Khorjin.StationFrames
import Khorjin.ClientKnowledge
import Khorjin.ReconfiguredLink
import Khorjin.ConversationProgress
