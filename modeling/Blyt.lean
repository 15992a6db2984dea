import Blyt.Lib.Packed
import Blyt.Lib.CommitWalk
import Blyt.RuntimeTracked
import Blyt.SaveState
import Blyt.NanCanon
import Blyt.TrackedRegions
import Blyt.SaveStateLoad
import Blyt.CartRuntimeLoad
import Blyt.SaveStateSave
import Blyt.SaveStateRoundTrip
import Blyt.Lib.Window
import Blyt.Migrate
import Blyt.SaveStateMigrate
import Blyt.MigrateAtomicity
import Blyt.EmptyMigration
import Blyt.MigrateEndToEnd
import Blyt.NativeStateMigration
import Blyt.MigrateLayoutGate
import Blyt.Lib.Reader
import Blyt.LuaTable
import Blyt.TableFlatten
import Blyt.FlattenWire
import Blyt.TableUnflatten
import Blyt.TableRoundTrip
import Blyt.FlattenDeterminism
import Blyt.UnflattenSafety
import Blyt.ScriptBlob
import Blyt.Lib.FirstFit
import Blyt.PersistentScripts
import Blyt.ScriptIdentity
import Blyt.Lib.Run
import Blyt.Lib.UsedPrefix
import Blyt.ScriptModule
import Blyt.ScriptOwnership
import Blyt.VoiceEndQueue
import Blyt.VoiceEnds
import Blyt.AudioBranch
import Blyt.LuaBindings
import Blyt.LuaBindingsResume
import Blyt.TransientCoroutines
import Blyt.Breakpoints
import Blyt.BreakpointHistory
import Blyt.DapServer
import Blyt.DapPause
import Blyt.DapTeardown
import Blyt.HotReload
import Blyt.Lib.JsonSyntax
import Blyt.DapJson
import Blyt.DapDispatch
import Blyt.Lib.Bpf
import Blyt.SeccompFilter
import Blyt.BlytFacade
import Blyt.RetroCore
import Blyt.Rewind
import Blyt.FacadeVoiceEnds
import Blyt.MasterHook
import Blyt.DapOutput
import Blyt.Lib.ByteMemory
import Blyt.GuestHeap
import Blyt.GuestHeapRuns
import Blyt.Lib.DepthFirst
import Blyt.Dynload
import Blyt.DynloadSymbols
import Blyt.DynloadLibraries
import Blyt.Lib.HexText
import Blyt.Decimal
import Blyt.SaveIo
import Blyt.ScriptSlots
import Blyt.ScriptCreate
import Blyt.ScriptChain
import Blyt.Lib.ChunkWalk
import Blyt.FlattenAccepts
import Blyt.Lib.Runs
import Blyt.Lib.Frames
import Blyt.GdbPackets
import Blyt.GdbStub
import Blyt.GdbBreakpoints
import Blyt.GdbTransfer
import Blyt.GdbRunControl
import Blyt.GdbInput
import Blyt.HybridExports
import Blyt.AllocCart
import Blyt.StateBuffer
import Blyt.StubPackerHistory
import Blyt.Vsnprintf
import Blyt.VsnprintfIntegers
import Blyt.VsnprintfTruncation
import Blyt.HostCalls
import Blyt.HotReloadPayload
import Blyt.DapFraming
import Blyt.Lib.Utf8
import Blyt.Lib.JsonData
import Blyt.DapReplies
import Blyt.DapReplyJson
import Blyt.AudioQuota
import Blyt.RetroPacing
import Blyt.UnflattenStack
import Blyt.Lib.Truncation
import Blyt.UnflattenTruncation
import Blyt.FlattenShapes
import Blyt.MigrateFields
import Blyt.LuaStateMigration
import Blyt.MigrateBounds
import Blyt.DapStepping
import Blyt.SaveIoGrammar
import Blyt.Lib.SignedOverflow
import Blyt.Lib.LongDivision
import Blyt.DivModHelpers
import Blyt.ConsoleStub
import Blyt.Lib.SelfDelimiting
import Blyt.LayoutText
import Blyt.HotReloadDiagnostic
import Blyt.Sha256Stream
import Blyt.DapClient
import Blyt.GdbStubHost
import Blyt.FrameCarts
import Blyt.NativeHotReload
import Blyt.ManagedCart
import Blyt.ManagedCartResume
import Blyt.EntityScripts
