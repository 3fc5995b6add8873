import PySearch.Api.Ledger
import PySearch.Api.Public
import PySearch.Api.Transparency
import PySearch.Cluster.Client
import PySearch.Cluster.Coordinator
import PySearch.Cluster.Coordinator.Availability
import PySearch.Cluster.Coordinator.Failover
import PySearch.Cluster.Coordinator.Fallback
import PySearch.Cluster.Coordinator.Halves
import PySearch.Cluster.Coordinator.IndexStats
import PySearch.Cluster.Coordinator.Merge
import PySearch.Cluster.Coordinator.Rounds
import PySearch.Cluster.Coordinator.Rounds.Theorems
import PySearch.Cluster.Coordinator.Theorems
import PySearch.Cluster.LocalCluster
import PySearch.Cluster.LocalCluster.Theorems
import PySearch.Cluster.Node
import PySearch.Cluster.Node.Cosine
import PySearch.Cluster.Node.Pages
import PySearch.Cluster.Node.Ready
import PySearch.Cluster.Node.Steps
import PySearch.Cluster.Node.Theorems
import PySearch.Cluster.Replication
import PySearch.Cluster.Replication.Acknowledged
import PySearch.Cluster.Replication.Copies
import PySearch.Cluster.Replication.Deletes
import PySearch.Cluster.Replication.Following
import PySearch.Cluster.Replication.History
import PySearch.Cluster.Replication.Order
import PySearch.Cluster.Replication.Resync
import PySearch.Cluster.Replication.RollingRestart
import PySearch.Cluster.Replication.Spared
import PySearch.Cluster.Replication.Startup
import PySearch.Cluster.Replication.Theorems
import PySearch.Cluster.Replication.Upgrade
import PySearch.Cluster.Replicator
import PySearch.Cluster.Replicator.Serial
import PySearch.Cluster.Replicator.Served
import PySearch.Cluster.Replicator.Theorems
import PySearch.Cluster.Routing
import PySearch.Cluster.Routing.Theorems
import PySearch.Cluster.SerialCluster
import PySearch.Cluster.SerialCluster.Confirmed
import PySearch.Cluster.SerialCluster.Reads
import PySearch.Cluster.SerialCluster.Theorems
import PySearch.Cluster.Serving
import PySearch.Cluster.Settings
import PySearch.Cluster.Settings.Theorems
import PySearch.Cluster.Topology
import PySearch.Cluster.Wire
import PySearch.Hybrid.Fusion
import PySearch.Hybrid.Fusion.Exact
import PySearch.Hybrid.Fusion.Theorems
import PySearch.Hybrid.Fusion.Truncation
import PySearch.Lib.Dict
import PySearch.Lib.Distinct
import PySearch.Lib.KeySort
import PySearch.Lib.MaximalRuns
import PySearch.Lib.Percent
import PySearch.Lib.RealVector
import PySearch.Lib.Run
import PySearch.Lib.Script
import PySearch.Lib.Text
import PySearch.Lib.Transaction
import PySearch.Search.Analysis
import PySearch.Search.Analysis.Theorems
import PySearch.Search.Arith
import PySearch.Search.Arith.Real
import PySearch.Search.Document
import PySearch.Search.Engine
import PySearch.Search.Engine.Acceptance
import PySearch.Search.Engine.Answers
import PySearch.Search.Engine.Derived
import PySearch.Search.Engine.Detection
import PySearch.Search.Engine.Drift
import PySearch.Search.Engine.Mutations
import PySearch.Search.Engine.Page
import PySearch.Search.Engine.Rebuild
import PySearch.Search.Engine.Recovery
import PySearch.Search.Engine.Scan
import PySearch.Search.Engine.Swap
import PySearch.Search.Engine.Theorems
import PySearch.Search.Engine.Validate
import PySearch.Search.Errors
import PySearch.Search.Index
import PySearch.Search.Index.History
import PySearch.Search.Index.Stops
import PySearch.Search.Index.Theorems
import PySearch.Search.Index.Validation
import PySearch.Search.Ranking
import PySearch.Search.Ranking.Evidence
import PySearch.Search.Ranking.Statistics
import PySearch.Search.Ranking.Theorems
import PySearch.Search.Results
import PySearch.Semantic.Embedder
import PySearch.Semantic.Model2Vec
import PySearch.Semantic.Model2Vec.Theorems
import PySearch.Semantic.VectorIndex
import PySearch.Semantic.VectorIndex.History
import PySearch.Semantic.VectorIndex.Stops
import PySearch.Semantic.VectorIndex.Theorems
import PySearch.Storage.Sql
import PySearch.Storage.Sql.Refinement
import PySearch.Storage.Sql.Theorems
import PySearch.Storage.SqliteStore
