import DdeSeatd.Stream
import DdeSeatd.Lifecycle
import DdeSeatd.DrmMaster
import DdeSeatd.Revocation
import DdeSeatd.GroupVt
import DdeSeatd.Ownership
import DdeSeatd.VisibleVt
import DdeSeatd.VtRelease
import DdeSeatd.SeatEvents
import DdeSeatd.Libseat.Events
import DdeSeatd.DeviceFds
import DdeSeatd.Framing
import DdeSeatd.VtInert
import DdeSeatd.Unsent
import DdeSeatd.ControlRuns
import DdeSeatd.EndOfStream
import DdeSeatd.PollerSignals
import DdeSeatd.DeviceGate
import DdeSeatd.TtyPath
import DdeSeatd.LinkedList
import DdeSeatd.SignalDisposition
import DdeSeatd.Sessions
import DdeSeatd.FdQueue
import DdeSeatd.DeviceTable
import DdeSeatd.VtWatcher
import DdeSeatd.TtyNumbers
import DdeSeatd.Activation
import DdeSeatd.SessionQueue
import DdeSeatd.OrphanedVt
import DdeSeatd.ActiveVt
import DdeSeatd.SignalsOnly
import DdeSeatd.Conversation
import DdeSeatd.Shutdown
import DdeSeatd.Progress
