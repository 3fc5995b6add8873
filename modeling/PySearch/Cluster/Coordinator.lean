import PySearch.Cluster.Topology

namespace PySearch

variable {α : Type}

structure ShardIndexStats (α : Type) where
  shardId : Nat
  documentCount : Nat
  uniqueTermCount : Nat
  averageDocumentLength : α

structure ClusterStats (α : Type) where
  documentCount : Nat
  averageDocumentLength : α
  shardCount : Nat
  shards : List (ShardIndexStats α)

structure ClusterReadiness where
  ready : Bool
  readyShards : List Nat
  unreadyShards : List Nat

def ClusterReadiness.detail (readiness : ClusterReadiness) : String :=
  if readiness.ready then "all " ++ toString readiness.readyShards.length ++ " shards ready"
  else "shards not ready: " ++ toString readiness.unreadyShards

-- One physical copy of a logical shard, as reported operationally. A copy that cannot be
-- reached has no state.
structure CopyStatus where
  role : String
  reachable : Bool
  nodeId : String
  state : Option NodeState
  ready : Bool
  generation : Option Int

structure ShardHealth where
  shardId : Nat
  copies : List CopyStatus
  searchAvailable : Bool
  writeAvailable : Bool

structure ClusterHealth where
  shardCount : Nat
  replicationFactor : Nat
  searchAvailable : Bool
  writeAvailable : Bool
  shards : List ShardHealth

-- The coordinator. It refuses a topology whose shard count is not the router's.
structure Coordinator (α : Type) where
  router : ShardRouter
  topology : ClusterTopology (ShardClient α)
  embedder : Option (Embedder α)
  unicode : Unicode
  matched : topology.shardCount = router.shardCount

namespace Coordinator

-- The constructor as callers see it.
def create (router : ShardRouter) (topology : ClusterTopology (ShardClient α))
    (embedder : Option (Embedder α)) (unicode : Unicode) : Except PyError (Coordinator α) :=
  if h : topology.shardCount = router.shardCount then
    .ok ⟨router, topology, embedder, unicode, h⟩
  else
    .error (.valueError ("router expects " ++ toString router.shardCount ++
      " shards but the topology has " ++ toString topology.shardCount))

def failedShards {β : Type} (outcomes : List (Except PyError β)) : List Nat :=
  outcomes.zipIdx.filterMap fun
    | (.error _, shardId) => some shardId
    | (.ok _, _) => none

-- `_gather`: every shard is awaited, and the operation fails if any one does.
def gather {β : Type} (action : String) (outcomes : List (Except PyError β)) :
    Except PyError (List β) :=
  let failed := failedShards outcomes
  if failed = [] then
    .ok (outcomes.filterMap fun
      | .ok result => some result
      | .error _ => none)
  else .error (.distributedSearch action failed)

-- Try each copy of a logical shard until one answers. Only a `ClusterError` moves on to
-- the next copy.
def fromAnyCopy {β : Type} (shardId : Nat) (ask : ShardClient α → Except PyError β) :
    List (ShardClient α) → Except PyError β
  | [] => .error (.shardCopiesExhausted shardId)
  | client :: rest =>
      match ask client with
      | .ok answer => .ok answer
      | .error error =>
          if error.isClusterError then fromAnyCopy shardId ask rest else .error error

def statsFromAnyCopy (terms : List String) (copies : ShardCopies (ShardClient α)) :
    Except PyError (ShardClient α × CorpusStats) :=
  fromAnyCopy copies.shardId
    (fun client => (client.corpusStats terms).map fun stats => (client, stats))
    copies.servingOrder

def semanticFromAnyCopy (vector : List α) (limit : Int) (identity : SemanticIdentity)
    (copies : ShardCopies (ShardClient α)) : Except PyError (SearchResults α) :=
  fromAnyCopy copies.shardId (fun client => client.semanticSearch vector limit identity)
    copies.servingOrder

def indexStatsFromAnyCopy (copies : ShardCopies (ShardClient α)) :
    Except PyError (IndexStats α) :=
  fromAnyCopy copies.shardId ShardClient.indexStats copies.servingOrder

-- Whether at least one copy of a logical shard can serve searches.
def shardHasServingCopy : List (ShardClient α) → Except PyError Bool
  | [] => .ok false
  | client :: rest =>
      match client.isReady with
      | .ok true => .ok true
      | .ok false => shardHasServingCopy rest
      | .error error => if error.isClusterError then shardHasServingCopy rest else .error error

-- `sorted(set(terms))`
def uniqueTerms (terms : List String) : List String := KeySort.sortedBy id terms.dedup

variable (coordinator : Coordinator α)

def selectAndCollect (terms : List String) :
    Except PyError (List (ShardClient α × CorpusStats)) :=
  gather "collecting corpus statistics"
    (coordinator.topology.shards.map (statsFromAnyCopy terms))

-- Round two goes to the copies that answered round one.
def fanOutSearch (query : String) (limit : Int) (corpusStats : CorpusStats)
    (pinned : List (ShardClient α)) : Except PyError (List (SearchResults α)) :=
  gather "executing distributed search"
    (pinned.map fun client => client.search query limit corpusStats)

def outcomeReady : Except PyError Bool → Bool
  | .ok true => true
  | _ => false

def readiness : ClusterReadiness :=
  let outcomes := coordinator.topology.shards.map fun copies =>
    shardHasServingCopy copies.servingOrder
  let ready := outcomes.zipIdx.filterMap fun (outcome, shardId) =>
    if outcomeReady outcome then some shardId else none
  let unready := outcomes.zipIdx.filterMap fun (outcome, shardId) =>
    if outcomeReady outcome then none else some shardId
  ⟨unready = [], ready, unready⟩

def copyStatus (role : String) : Except PyError NodeStatus → CopyStatus
  | .ok status => ⟨role, true, status.nodeId, some status.state, status.ready,
      some status.generation⟩
  | .error _ => ⟨role, false, "", none, false, none⟩

def shardHealth (copies : ShardCopies (ShardClient α)) : ShardHealth :=
  let primary := copyStatus "primary" copies.primary.nodeStatus
  let statuses := primary :: copies.replicas.map fun client =>
    copyStatus "replica" client.nodeStatus
  -- Only the configured primary may accept writes.
  ⟨copies.shardId, statuses, statuses.any CopyStatus.ready, primary.ready⟩

def clusterStatus : ClusterHealth :=
  let shards := coordinator.topology.shards.map shardHealth
  ⟨coordinator.router.shardCount, coordinator.topology.replicationFactor,
    shards.all ShardHealth.searchAvailable, shards.all ShardHealth.writeAvailable, shards⟩

variable [Arith α]

def indexStats : Except PyError (ClusterStats α) := do
  let perShard ← gather "collecting index statistics"
    (coordinator.topology.shards.map indexStatsFromAnyCopy)
  let documentCount := (perShard.map IndexStats.documentCount).sum
  let totalTokens := (perShard.map IndexStats.totalTokenCount).sum
  return ⟨documentCount,
    if documentCount ≠ 0 then Arith.intDiv totalTokens documentCount else 0.0,
    coordinator.router.shardCount,
    perShard.zipIdx.map fun (stats, shardId) =>
      ⟨shardId, stats.documentCount, stats.uniqueTermCount, stats.averageDocumentLength⟩⟩

variable [LinearOrder α]

-- Merge shard candidates into one ranking: score descending, then identifier ascending.
def merge (shardResults : List (SearchResults α)) (limit : Int) : SearchResults α :=
  let candidates := shardResults.flatMap SearchResults.results
  ⟨(shardResults.map SearchResults.total).sum,
    KeySort.sliceTo (KeySort.sortedBy
      (fun hit : SearchResult α => rankKey hit.score hit.documentId) candidates) limit⟩

def searchLocked (query : String) (uniqueTerms : List String) (limit : Int) :
    Except PyError (SearchResults α) := do
  let selection ← coordinator.selectAndCollect uniqueTerms
  let corpusStats := mergeCorpusStats (selection.map Prod.snd)
  if corpusStats.documentCount = 0 then return ⟨0, []⟩
  let shardResults ← fanOutSearch query limit corpusStats (selection.map Prod.fst)
  return merge shardResults limit

def search (query : String) (limit : Int) : Except PyError (SearchResults α) :=
  let terms := Analysis.analyze coordinator.unicode query
  if terms = [] then .ok ⟨0, []⟩
  else coordinator.searchLocked query (uniqueTerms terms) limit

def semanticSearchLocked (vector : List α) (limit : Int) (identity : SemanticIdentity) :
    Except PyError (SearchResults α) := do
  let shardResults ← gather "executing distributed semantic search"
    (coordinator.topology.shards.map (semanticFromAnyCopy vector limit identity))
  return merge shardResults limit

def semanticSearch (query : String) (limit : Int) : Except PyError (SearchResults α) :=
  match coordinator.embedder with
  | none => .error (.semanticDisabled "semantic search is not enabled on this coordinator")
  | some embedder =>
      coordinator.semanticSearchLocked (embedder.embedQuery query) limit embedder.identity

-- Both retrievals finish before a failure of either is raised, the lexical one first.
def hybridSearch (query : String) (limit : Int) (config : FusionConfig) :
    Except PyError (HybridResults α) :=
  let terms := Analysis.analyze coordinator.unicode query
  if terms = [] then .ok ⟨0, []⟩
  else match coordinator.embedder with
  | none => .error (.semanticDisabled
      "hybrid search requires semantic search, which is not enabled on this coordinator")
  | some embedder =>
      let vector := embedder.embedQuery query
      let depth := config.candidateDepth limit
      match coordinator.searchLocked query (uniqueTerms terms) depth,
        coordinator.semanticSearchLocked vector depth embedder.identity with
      | .error error, _ => .error error
      | .ok _, .error error => .error error
      | .ok lexical, .ok semantic => reciprocalRankFusion lexical semantic limit config

end Coordinator

end PySearch
