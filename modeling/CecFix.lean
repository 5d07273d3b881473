import CecFix.CommandAck
import CecFix.Segmentation
import CecFix.StreamPath
import CecFix.AddressReports
import CecFix.Loopback
import CecFix.PowerSuppression
import CecFix.FifoSignals
import CecFix.CommandContention
import CecFix.CacheRace
import CecFix.StatusGrammar
import CecFix.CacheClock
import CecFix.ParseMessage
import CecFix.StandbyStays
import CecFix.OtherDevices
import CecFix.AddressRace
import CecFix.PipeLifetimes
import CecFix.Handshake
import CecFix.ConnectResult
import CecFix.SocketTimeouts
import CecFix.DescriptorFlags
import CecFix.ConnectDeadline
import CecFix.HostStorage
import CecFix.BufferScans
import CecFix.AddressOwnership
import CecFix.OpcodeText
import CecFix.PipeLag
import CecFix.ProcessLife
import CecFix.QueryRate
import CecFix.Service
import CecFix.TvSwitch
import CecFix.WireSerial
import CecFix.LongDeadline
import CecFix.ConnectionPause
import CecFix.ReturnTime
import CecFix.Projection
import CecFix.TwoHalves
