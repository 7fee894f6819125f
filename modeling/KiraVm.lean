import KiraVm.ModuleRoundTrip
import KiraVm.ModuleTruncation
import KiraVm.Embedding
import KiraVm.StateLogic
import KiraVm.EmbeddingSafety
import KiraVm.ChannelHistory
import KiraVm.TaskHistory
import KiraVm.NativeStoreHistory
import KiraVm.NumericCompiler
import KiraVm.MainLoopBorrows
import KiraVm.MainLoopHistory
import KiraVm.LockfileSync
import KiraVm.MoveSoundness
import KiraVm.TesseraAuthority
import KiraVm.LiveStream
import KiraVm.HybridRoundTrip
import KiraVm.LiveBundleValid
import KiraVm.LiveReadiness
import KiraVm.DistinctErasure
import KiraVm.SpineHistory
import KiraVm.KtenHostile
import KiraVm.JsonRoundTrip
import KiraVm.LexerContract
import KiraVm.InflateContract
import KiraVm.TaskOrder
import KiraVm.NumberTexts
import KiraVm.ValueOrder
import KiraVm.ProfileRoundTrip
import KiraVm.ParserRoundTrip
import KiraVm.StorageLayout
import KiraVm.AggregateContract
import KiraVm.PackageContract
import KiraVm.OpenSearch
import KiraVm.DropReachability
import KiraVm.NativeStateStability
import KiraVm.AggregateMarshalling
import KiraVm.EditorPositions
