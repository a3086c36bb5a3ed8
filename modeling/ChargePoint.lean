import ChargePoint.Lib.Trace
import ChargePoint.Lib.Loop
import ChargePoint.Lib.CStr
import ChargePoint.Msg
import ChargePoint.Encode
import ChargePoint.Parse.Payload
import ChargePoint.MeterQueue
import ChargePoint.Cmd.Conf
import ChargePoint.Client
import ChargePoint.Frames
import ChargePoint.Steps
import ChargePoint.Lib.SingleCall
import ChargePoint.Orders
import ChargePoint.Correlation
import ChargePoint.Numerals
import ChargePoint.StartOrder
import ChargePoint.StopRequest
import ChargePoint.MeterStart
import ChargePoint.Lib.DropQueue
import ChargePoint.MeterSamples
import ChargePoint.StatusReport
import ChargePoint.TransactionId
import ChargePoint.Interleave
import ChargePoint.Lib.Reading
import ChargePoint.Parse.Levels
import ChargePoint.Parse.Tokens
import ChargePoint.Codec.Json
import ChargePoint.Codec.Reads
import ChargePoint.Codec.Nested
import ChargePoint.Codec.RoundTrip
import ChargePoint.Parse.Bounds
import ChargePoint.Parse.Ends
import ChargePoint.Reply
import ChargePoint.Stale
import ChargePoint.Requests
import ChargePoint.Charge.Layer
import ChargePoint.Charge.Contactor
import ChargePoint.Lib.Crc
import ChargePoint.Secc.Crc16
import ChargePoint.Secc.Valid
import ChargePoint.Secc.Acceptance
import ChargePoint.Secc.Chunks
import ChargePoint.Serving
import ChargePoint.Lib.Memory
import ChargePoint.Overrun
import ChargePoint.Config
import ChargePoint.Charge.SecondCard
import ChargePoint.PropertyOrder
import ChargePoint.ConnectorIds
import ChargePoint.Answered
import ChargePoint.MeterStore
import ChargePoint.Ida.Frame
import ChargePoint.Ida.Packets
import ChargePoint.Lib.Bytes
import ChargePoint.Secc.Vas
import ChargePoint.Secc.Blocks
import ChargePoint.Ida.Kerid
import ChargePoint.Ida.Decoders
import ChargePoint.Secc.Task
import ChargePoint.Secc.Initialised
import ChargePoint.Firmware
import ChargePoint.SavedConfig
import ChargePoint.UniqueIds
import ChargePoint.Lib.Rounding
import ChargePoint.Ami.Meter
import ChargePoint.Charge.Emergency
import ChargePoint.Charge.Faults
import ChargePoint.Charge.ZeroCurrent
import ChargePoint.MessageIds
import ChargePoint.RequestEffects
import ChargePoint.KeyRequests
import ChargePoint.SampledValues
import ChargePoint.Lib.Calendar
import ChargePoint.Timestamps
import ChargePoint.Secc.Gate
import ChargePoint.Secc.VasStore
import ChargePoint.Ida.Store
import ChargePoint.Lib.Latch
import ChargePoint.Lib.Search
import ChargePoint.SamplingClock
import ChargePoint.Ida.Reassembly
import ChargePoint.Charge.Price
import ChargePoint.BatteryInfo
import ChargePoint.DataTransAnswer
import ChargePoint.Modbus
import ChargePoint.Ida.CheckSum
import ChargePoint.Lib.Ring
import ChargePoint.ReadQueue
import ChargePoint.FileEvents
import ChargePoint.DataFile
import ChargePoint.CardReader
import ChargePoint.Lib.Journal
import ChargePoint.Lib.Ranking
import ChargePoint.Journal
import ChargePoint.Standing
import ChargePoint.BootGate
import ChargePoint.Connection
import ChargePoint.Ledger
import ChargePoint.Pacing
import ChargePoint.Drain
import ChargePoint.ResetRequest
import ChargePoint.Station
import ChargePoint.Turns
import ChargePoint.Reboots
import ChargePoint.Lib.Spsc
import ChargePoint.ReadThreads
import ChargePoint.Charge.Outage
import ChargePoint.Secc.Turned
import ChargePoint.Secc.Line
import ChargePoint.Secc.Registers
