import SoftEther.Transport.Reorder
import SoftEther.Transport.Stream
import SoftEther.Accel.Lifetime
import SoftEther.Accel.Wire
import SoftEther.Connection.Arbitration
import SoftEther.Connection.Descriptors
import SoftEther.Connection.Isolation
import SoftEther.Links.Accounting
import SoftEther.Links.RoundRobin
import SoftEther.Packet.Framing
import SoftEther.Native.Cleanup
import SoftEther.Native.Interrupt
import SoftEther.Controller.HandleUse
import SoftEther.Controller.Watchdog
import SoftEther.Security.Pinning
import SoftEther.Service.Ownership
import SoftEther.Service.Publication
import SoftEther.Repository.Baseline
import SoftEther.Repository.Emergency
import SoftEther.Repository.QuotaReport
import SoftEther.Repository.DedupeOrder
import SoftEther.Merger.AuditTrail
import SoftEther.Merger.Profile
import SoftEther.History.Refinement
import SoftEther.Parser.Containment
import SoftEther.AutoMode.StopFinal
import SoftEther.AutoMode.Budget
import SoftEther.AutoMode.TeardownWaiter
import SoftEther.Tracker.Identity
import SoftEther.Tracker.Terminal
import SoftEther.Transport.SendQueue
import SoftEther.Transport.PeerPort
import SoftEther.Publisher.AppReads
import SoftEther.Accel.Window
import SoftEther.Accel.Drain
import SoftEther.Packet.Batch
import SoftEther.Pack.Login
import SoftEther.Pack.Memory
import SoftEther.Pack.Bounds
import SoftEther.Dhcp.Exchange
import SoftEther.Native.SlotRecovery
import SoftEther.Native.SlotAccounting
import SoftEther.AutoMode.SkipNext
import SoftEther.AutoMode.ReconnectOrder
import SoftEther.Parser.Splitter
import SoftEther.Parser.WrappedRows
import SoftEther.Publisher.Publish
import SoftEther.Publisher.ProfilePorts
import SoftEther.Links.Admission
import SoftEther.AutoMode.AddressDedup
import SoftEther.AutoMode.FastPath
import SoftEther.Update.Confinement
import SoftEther.Persistence.SnapshotFormats
import SoftEther.Remote.SourceValidation
import SoftEther.Sstp.Negotiation
import SoftEther.Sstp.Sessions
