import MangoStudio.Lib.Utf8
import MangoStudio.Lib.Json
import MangoStudio.Lib.Pattern
import MangoStudio.Lib.RecordStream
import MangoStudio.Lib.Assembly
import MangoStudio.Protocol.Frame
import MangoStudio.Protocol.Schema
import MangoStudio.Protocol.Validate
import MangoStudio.Protocol.Codec
import MangoStudio.Protocol.Ndjson
import MangoStudio.Protocol.LineAgreement
import MangoStudio.Protocol.Chunk
import MangoStudio.Protocol.ChunkAgreement
import MangoStudio.Protocol.ChunkRoundTrip
import MangoStudio.Lib.Run
import MangoStudio.Session.Common
import MangoStudio.Session.TypeScript
import MangoStudio.Session.Settlement
import MangoStudio.Session.Turns
import MangoStudio.Session.Answers
import MangoStudio.Session.LimitAgreement
import MangoStudio.Filesystem.PathLocks
import MangoStudio.Checkpoints.PathLog
import MangoStudio.Checkpoints.Recording
import MangoStudio.Checkpoints.Retry
import MangoStudio.Checkpoints.Undo
import MangoStudio.Filesystem.ReadBeforeWrite
import MangoStudio.Checkpoints.Blobs
import MangoStudio.Filesystem.Patch
import MangoStudio.Filesystem.PatchCommit
import MangoStudio.Filesystem.PatchTransaction
import MangoStudio.Conversation.AgentStream
import MangoStudio.Conversation.ExternalTranscript
import MangoStudio.Conversation.InternalReload
import MangoStudio.Conversation.LiveReload
import MangoStudio.ExternalAgents.SteerOrder
import MangoStudio.Conversation.MergeRuns
import MangoStudio.ExternalAgents.ApprovalSafety
import MangoStudio.Generation.RecoveryAccounting
import MangoStudio.Generation.Replay
import MangoStudio.Generation.RowWriter
import MangoStudio.Generation.WriterFlush
import MangoStudio.Lib.SelfDelimiting
import MangoStudio.Lib.Utf16
import MangoStudio.Library.ApplyAccounting
import MangoStudio.Library.HashAgreement
import MangoStudio.Library.Mutation.Apply
import MangoStudio.Terminal.Conservation
import MangoStudio.Filesystem.Hunks
import MangoStudio.Filesystem.LineRange
import MangoStudio.Lib.Guarantee
import MangoStudio.Lib.UndoLog
import MangoStudio.Library.Mutation.AllOrNothing
import MangoStudio.Library.Mutation.LaterEdits
import MangoStudio.Generation.ReasoningTracker
import MangoStudio.ExternalAgents.Continuation
import MangoStudio.ExternalAgents.Scratch
