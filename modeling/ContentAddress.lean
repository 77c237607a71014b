import ContentAddress.Ascending
import ContentAddress.Chunking
import ContentAddress.Hasher
import ContentAddress.Main
import ContentAddress.Queues
import ContentAddress.Session
import ContentAddress.Proofs.PoolTraffic
import ContentAddress.Proofs.Draining
import ContentAddress.Proofs.Nesting
import ContentAddress.Proofs.HeldChunks
import ContentAddress.Proofs.HiddenCapacity
import ContentAddress.Proofs.Confinement
import ContentAddress.Proofs.Interleaving
import ContentAddress.Proofs.FeedRuns
import ContentAddress.Proofs.ScriptedReads
import ContentAddress.Proofs.ReadVerdict
import ContentAddress.Proofs.ChunkingIndependence
import ContentAddress.Proofs.Pieces
import ContentAddress.Proofs.StreamedXxh64
import ContentAddress.Proofs.StreamedBlake3
import ContentAddress.Proofs.HasherRuns
import ContentAddress.Proofs.IncrementalIds
import ContentAddress.Proofs.ExactlyOnce
import ContentAddress.Proofs.PoolLimits
import ContentAddress.Proofs.HexText
import ContentAddress.Proofs.ReadHistory
import ContentAddress.Proofs.ReadLaw
import ContentAddress.Proofs.OwnBytes
import ContentAddress.Proofs.Reports
import ContentAddress.Proofs.FeedPolls
import ContentAddress.Proofs.ListHistory
import ContentAddress.Proofs.Retention
import ContentAddress.Proofs.SeedSeparation
import ContentAddress.Proofs.IdOrder
import ContentAddress.Proofs.Settings
