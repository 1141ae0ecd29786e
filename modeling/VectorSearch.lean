import VectorSearch.Agent.Auditing
import VectorSearch.Agent.Conversations
import VectorSearch.Agent.Honesty
import VectorSearch.Agent.Limits
import VectorSearch.Agent.Loop
import VectorSearch.Agent.Operations
import VectorSearch.Agent.Outcomes
import VectorSearch.Agent.Recording
import VectorSearch.Agent.Restarting
import VectorSearch.Chunking.Document
import VectorSearch.Chunking.Passages
import VectorSearch.Chunking.Sections
import VectorSearch.Client.Added
import VectorSearch.Client.Agreement
import VectorSearch.Client.Asking
import VectorSearch.Client.Checking
import VectorSearch.Client.Failover
import VectorSearch.Client.Fleet
import VectorSearch.Client.GrpcCoordinator
import VectorSearch.Client.Mending
import VectorSearch.Client.Mirroring
import VectorSearch.Client.Reading
import VectorSearch.Client.Refining
import VectorSearch.Client.Repairing
import VectorSearch.Client.Sending
import VectorSearch.Client.UploadLimit
import VectorSearch.Client.Uploads
import VectorSearch.Client.Writers
import VectorSearch.Client.Writing
import VectorSearch.Cluster.Answering
import VectorSearch.Cluster.Coordinator
import VectorSearch.Cluster.OneNamespace
import VectorSearch.Cluster.Placing
import VectorSearch.Cluster.Processes
import VectorSearch.Cluster.Routing
import VectorSearch.Cluster.Serving
import VectorSearch.Cluster.Taking
import VectorSearch.Exceptions
import VectorSearch.Filtering
import VectorSearch.Home.Accesses
import VectorSearch.Home.Answered
import VectorSearch.Home.Bookkeeping
import VectorSearch.Home.Commands
import VectorSearch.Home.Forgetting
import VectorSearch.Home.Ingesting
import VectorSearch.Home.Interleaving
import VectorSearch.Home.Lapses
import VectorSearch.Home.Memory
import VectorSearch.Home.OneSource
import VectorSearch.Home.Recalling
import VectorSearch.Home.Records
import VectorSearch.Home.State
import VectorSearch.Index.Alignment
import VectorSearch.Index.Answers
import VectorSearch.Index.BeamCounts
import VectorSearch.Index.BeamSearch
import VectorSearch.Index.Capacity
import VectorSearch.Index.Contents
import VectorSearch.Index.Degrees
import VectorSearch.Index.Descent
import VectorSearch.Index.Diversity
import VectorSearch.Index.Exact
import VectorSearch.Index.FilterMeaning
import VectorSearch.Index.FilteredBeam
import VectorSearch.Index.FilteredSearch
import VectorSearch.Index.FullTopK
import VectorSearch.Index.Hits
import VectorSearch.Index.Hnsw
import VectorSearch.Index.Insertion
import VectorSearch.Index.Layers
import VectorSearch.Index.Linking
import VectorSearch.Index.Matching
import VectorSearch.Index.Reachability
import VectorSearch.Index.Rounds
import VectorSearch.Index.Rows
import VectorSearch.Index.Selection
import VectorSearch.Index.Shard
import VectorSearch.Index.Structure
import VectorSearch.Index.Tidy
import VectorSearch.Index.Traversal
import VectorSearch.Index.Twins
import VectorSearch.Lib.Binary64
import VectorSearch.Lib.Chunks
import VectorSearch.Lib.Confined
import VectorSearch.Lib.Copies
import VectorSearch.Lib.Coupled
import VectorSearch.Lib.Crc32
import VectorSearch.Lib.Dict
import VectorSearch.Lib.Embedding
import VectorSearch.Lib.FileProgram
import VectorSearch.Lib.Firsts
import VectorSearch.Lib.FramedLog
import VectorSearch.Lib.Ghost
import VectorSearch.Lib.Heapq
import VectorSearch.Lib.Histories
import VectorSearch.Lib.Json
import VectorSearch.Lib.JsonLines
import VectorSearch.Lib.JsonReading
import VectorSearch.Lib.JsonRoundTrip
import VectorSearch.Lib.LittleEndian
import VectorSearch.Lib.Pipes
import VectorSearch.Lib.Protobuf
import VectorSearch.Lib.PyValue
import VectorSearch.Lib.Ragged
import VectorSearch.Lib.Regex
import VectorSearch.Lib.RemoteProgram
import VectorSearch.Lib.Smallest
import VectorSearch.Lib.Stateful
import VectorSearch.Lib.Text
import VectorSearch.Lib.Yields
import VectorSearch.Mcp.Arguments
import VectorSearch.Mcp.Session
import VectorSearch.Mcp.Survival
import VectorSearch.Mcp.Tools
import VectorSearch.Server.Adding
import VectorSearch.Server.AllOrNothing
import VectorSearch.Server.Caching
import VectorSearch.Server.CatchUp
import VectorSearch.Server.Installation
import VectorSearch.Server.Messages
import VectorSearch.Server.Servicer
import VectorSearch.Server.Syncing
import VectorSearch.Storage.Coverage
import VectorSearch.Storage.CrashPoints
import VectorSearch.Storage.Durable
import VectorSearch.Storage.Failures
import VectorSearch.Storage.Files
import VectorSearch.Storage.Growth
import VectorSearch.Storage.History
import VectorSearch.Storage.Log
import VectorSearch.Storage.LogFile
import VectorSearch.Storage.Medium
import VectorSearch.Storage.Record
import VectorSearch.Storage.Recovery
import VectorSearch.Storage.RoundTrip
import VectorSearch.Storage.Runs
import VectorSearch.Storage.Snapshot
import VectorSearch.Storage.SystemCrash
import VectorSearch.Storage.SystemRuns
