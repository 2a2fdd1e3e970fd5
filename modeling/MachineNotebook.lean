import MachineNotebook.Dart.BootCalls
import MachineNotebook.Dart.CStrings
import MachineNotebook.Dart.Calls
import MachineNotebook.Dart.Results
import MachineNotebook.Host.CatalogFaithful
import MachineNotebook.Host.EnvBlob
import MachineNotebook.Host.Handles
import MachineNotebook.Host.HexPayload
import MachineNotebook.Host.JsonText
import MachineNotebook.Host.Locks
import MachineNotebook.Host.Overflow
import MachineNotebook.Host.Ownership
import MachineNotebook.Host.Policies
import MachineNotebook.Host.RelayDelivery
import MachineNotebook.Host.RelayFrames
import MachineNotebook.Host.RelayOneAnswer
import MachineNotebook.Host.RelayPolls
import MachineNotebook.Host.SendAccounting
import MachineNotebook.Host.SocketStream
import MachineNotebook.Host.TakeOutput
import MachineNotebook.Notebook.History
import MachineNotebook.Notebook.KeyRouting
import MachineNotebook.Session.Clipboard
import MachineNotebook.Session.FreezeViewport
import MachineNotebook.Session.Generations
import MachineNotebook.Session.HostHandles
import MachineNotebook.Session.InputOrder
import MachineNotebook.Session.LastOutput
import MachineNotebook.Session.QuietToggles
import MachineNotebook.Session.SegmentEffects
import MachineNotebook.Session.Transparency
import MachineNotebook.Vt.Compress
import MachineNotebook.Vt.Encoder
import MachineNotebook.Vt.FailedReads
import MachineNotebook.Vt.Fitting
import MachineNotebook.Vt.ImagePaint
import MachineNotebook.Vt.InverseVideo
import MachineNotebook.Vt.NativeObjects
import MachineNotebook.Vt.PngRoundTrip
import MachineNotebook.Vt.PointerGrid
import MachineNotebook.Vt.TerminalLife
import MachineNotebook.Vt.Terminals
