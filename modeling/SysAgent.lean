import SysAgent.Lib.Runs
import SysAgent.Lib.Mailbox
import SysAgent.Freeze.Table
import SysAgent.Freeze.FiniteMap
import SysAgent.Freeze.Runs
import SysAgent.Input.Handover
import SysAgent.Console.Reply
import SysAgent.Console.Connections
import SysAgent.Console.StatusLines
import SysAgent.Lib.Codec
import SysAgent.Lib.Stdio
import SysAgent.Lib.ByteMask
import SysAgent.Lib.Scan
import SysAgent.Search.Range
import SysAgent.Search.Exact
import SysAgent.Search.Completeness
import SysAgent.Search.Sessions
import SysAgent.Freeze.Snapshot
import SysAgent.Store.Format
import SysAgent.Store.Writer
import SysAgent.Store.Reader
import SysAgent.Store.Image
import SysAgent.Store.Decode
import SysAgent.Store.RoundTrip
import SysAgent.Store.Pages
import SysAgent.Store.Safety
import SysAgent.Search.Snapshot
import SysAgent.Search.Preflight
import SysAgent.Search.Refine
import SysAgent.Search.Refinement
import SysAgent.Search.Content
import SysAgent.Search.Generations
import SysAgent.Sequence.Token
import SysAgent.Sequence.Repeat
import SysAgent.Sequence.Output
import SysAgent.Sequence.Grammar
import SysAgent.Sequence.Expand
import SysAgent.Lib.Ring
import SysAgent.Lib.FieldLine
import SysAgent.Debug.Ring
import SysAgent.Debug.Wait
import SysAgent.Debug.Trace
import SysAgent.Debug.Sessions
import SysAgent.Client.Stream
import SysAgent.Client.TraceIpc
import SysAgent.Client.TracePairing
import SysAgent.Client.TraceRun
import SysAgent.Client.TraceExport
import SysAgent.Client.TraceReport
import SysAgent.Client.HeadlessLaunch
import SysAgent.Lib.Aes
import SysAgent.Client.AesBlock
import SysAgent.Boot.ArmFile
import SysAgent.Boot.Config
import SysAgent.Boot.HekateConfig
import SysAgent.Boot.Unlock
import SysAgent.Client.ProcessPaging
import SysAgent.Client.TraceSnapshots
import SysAgent.Lib.StableSort
import SysAgent.Client.TraceMerge
import SysAgent.Client.TraceTimeline
import SysAgent.Lib.NestedCalls
import SysAgent.Lib.Haystack
import SysAgent.Lib.Assembly
import SysAgent.Client.CallPairing
import SysAgent.Client.DomainRecord
import SysAgent.Client.DomainObjects
import SysAgent.Lib.MsbBits
import SysAgent.Jpeg.Entropy
import SysAgent.Jpeg.Scan
import SysAgent.Jpeg.File
import SysAgent.Jpeg.Walker
import SysAgent.Jpeg.Safety
import SysAgent.Jpeg.Headers
import SysAgent.Jpeg.Decode
import SysAgent.Ftp.Config
import SysAgent.Ftp.Server
import SysAgent.Ftp.Lifecycle
import SysAgent.Ftp.Serving
import SysAgent.Ftp.Transfers
import SysAgent.Ftp.Upload
import SysAgent.Ftp.Append
import SysAgent.Ftp.Undo
import SysAgent.Ftp.Rename
import SysAgent.Ftp.Guard
import SysAgent.Lib.CNumber
import SysAgent.Lib.Checked
import SysAgent.Console.Numbers
import SysAgent.Console.Keyboard
import SysAgent.Console.KeyReports
import SysAgent.Console.HttpResponse
import SysAgent.Console.Pointers
import SysAgent.Console.Arguments
import SysAgent.Debug.PatchCode
import SysAgent.Debug.Breakpoints
import SysAgent.Debug.PatternScan
import SysAgent.Debug.BisScan
import SysAgent.Debug.SnapshotSpecs
import SysAgent.Sequence.Estimate
import SysAgent.Client.TypedText
import SysAgent.Lib.Bytes
import SysAgent.Lib.Labels
import SysAgent.Console.HostNames
import SysAgent.Input.BluetoothAddress
import SysAgent.Debug.WatchPoints
import SysAgent.Input.Reconnect
import SysAgent.Lib.CancelToken
import SysAgent.Input.Cancel
import SysAgent.Lib.FileTree
import SysAgent.Save.CopyTree
import SysAgent.Save.Complete
import SysAgent.Save.Dump
import SysAgent.Lib.BitFields
import SysAgent.Lib.HexText
import SysAgent.Lib.Layout
import SysAgent.Client.HipcMessage
import SysAgent.Client.HipcLayout
import SysAgent.Client.HipcRoundTrip
import SysAgent.Search.SessionRequests
import SysAgent.Search.SessionSteps
import SysAgent.Search.SessionAgreement
import SysAgent.Search.ExactRequests
import SysAgent.Search.ExactSteps
import SysAgent.Search.ExactAgreement
import SysAgent.Lib.PyNumber
import SysAgent.Client.SearchResults
import SysAgent.Client.ResultPages
import SysAgent.Input.ControllerDevice
import SysAgent.Input.ControllerRuns
import SysAgent.Input.ControllerSlot
