import PySearch.Cluster.Coordinator
import PySearch.Cluster.Replicator
import PySearch.Cluster.Serving

namespace PySearch

variable {α : Type}

namespace HttpShardClient

-- What a refusal means: a 404 is an answer to a delete.
def refusal (baseUrl : String) (mutation : Mutation) (status : Nat) : PyError :=
  match mutation with
  | .put _ => answered baseUrl status
  | .delete documentId =>
      if status = 404 then .documentNotFound documentId else answered baseUrl status

-- `put_document` and `delete_document`, from the status of the primary if it answers at all.
-- The flag in the body of an answer to a put is set exactly in a 201.
def mutate (baseUrl : String) (failure : Option TransportFailure) (mutation : Mutation)
    (response : Option Nat) : Except PyError (Option Bool) :=
  match failure, response with
  | some (.refused status), _ => .error (refusal baseUrl mutation status)
  | some failure, _ => request baseUrl (some failure) (.ok none)
  | none, none => request baseUrl (some .unreachable) (.ok none)
  | none, some status =>
      if 400 ≤ status then .error (refusal baseUrl mutation status)
      else
        match mutation with
        | .put _ => .ok (some (status = 201))
        | .delete _ => .ok none

end HttpShardClient

-- The write that the primary is asked for. No route takes an identifier that is not one
-- segment of the path.
def HttpStack.arrived (stack : HttpStack) (mutation : Mutation) : Except Nat Mutation :=
  match stack.primaryId mutation.documentId with
  | none => .error 404
  | some documentId => HttpShardClient.respond (mutation.addressedTo documentId)

-- A coordinator whose operations come one after another, over shards whose calls do so too.
-- A write that the coordinator has given up may still be on its way to its primary.
structure SerialCluster (α : Type) where
  router : ShardRouter
  shards : List (SerialShard α)
  matched : shards.length = router.shardCount
  inFlight : List Mutation

-- What happens to the cluster: a write is routed, or arrives after it was given up, or
-- something other than a write happens at one shard.
inductive ClusterEvent
  | write (mutation : Mutation) (hop : Hop) (hops : Nat → Hop)
  | late (mutation : Mutation) (faults : Faults) (hops : Nat → Hop)
  | within (shardId : Nat) (event : SerialEvent)

def ClusterEvent.mutation : ClusterEvent → Option Mutation
  | write mutation _ _ | late mutation _ _ => some mutation
  | within _ _ => none

namespace SerialCluster

def initial (router : ShardRouter) (replicas : Nat → Nat) : SerialCluster α where
  router := router
  shards := (List.range router.shardCount).map fun shardId => .initial (replicas shardId)
  matched := by rw [List.length_map, List.length_range]
  inFlight := []

def owner (cluster : SerialCluster α) (documentId : String) : SerialShard α :=
  cluster.shards.get ⟨cluster.router.shardFor documentId, by
    rw [cluster.matched]
    exact cluster.router.shardFor_lt documentId⟩

def setShard (cluster : SerialCluster α) (shardId : Nat) (shard : SerialShard α) :
    SerialCluster α :=
  { cluster with
    shards := cluster.shards.set shardId shard
    matched := by rw [List.length_set, cluster.matched] }

variable [Arith α] [LinearOrder α] (ctx : EngineContext α) (stack : HttpStack)
  (url : Nat → Option Nat → String)

-- A write reaches the primary of the shard that owns the identifier.
def deliver (cluster : SerialCluster α) (mutation : Mutation) (faults : Faults)
    (hops : Nat → Hop) : Option Nat × SerialCluster α :=
  let shardId := cluster.router.shardFor mutation.documentId
  let shard := cluster.owner mutation.documentId
  match stack.arrived mutation with
  | .error status =>
      match shard.primary with
      | .up _ .serving _ => (some status, cluster)
      | _ => (none, cluster)
  | .ok mutation =>
      let (status, shard) := shard.occur ctx stack (url shardId) (.write none mutation faults hops)
      (status, cluster.setShard shardId shard)

-- The status that the client of the coordinator is answered, and the cluster afterwards.
-- Nobody but the coordinator writes to a shard.
def occur (cluster : SerialCluster α) : ClusterEvent → Option Nat × SerialCluster α
  | .write mutation hop hops =>
      let baseUrl := url (cluster.router.shardFor mutation.documentId) none
      let (response, after) :=
        if hop.arrives then cluster.deliver ctx stack url mutation hop.faults hops
        else (none, { cluster with inFlight := cluster.inFlight ++ [mutation] })
      (some (Internal.writeStatus
        (HttpShardClient.mutate baseUrl hop.failure mutation response)), after)
  | .late mutation faults hops =>
      if mutation ∈ cluster.inFlight then
        (none, { (cluster.deliver ctx stack url mutation faults hops).2 with
          inFlight := cluster.inFlight.erase mutation })
      else (none, cluster)
  | .within shardId event =>
      match event.mutation, cluster.shards[shardId]? with
      | none, some shard =>
          let (status, shard) := shard.occur ctx stack (url shardId) event
          (status, cluster.setShard shardId shard)
      | _, _ => (none, cluster)

-- The coordinator's clients for one shard. Copies are numbered in serving order.
def group (settings : Nat → NodeSettings) (transport : Nat → Transport) (shard : SerialShard α) :
    ShardClient α × List (ShardClient α) :=
  (shard.primary.client ctx (settings 0) (transport 0),
    (shard.replicas.zipIdx 1).map fun copy =>
      copy.1.client ctx (settings copy.2) (transport copy.2))

-- The coordinator during one operation, whose requests meet the given failures.
def coordinator (cluster : SerialCluster α) (settings : Nat → Nat → NodeSettings)
    (transport : Nat → Nat → Transport) : Coordinator α where
  router := cluster.router
  topology := ClusterTopology.ofGroups (cluster.shards.zipIdx.map fun entry =>
    group ctx (settings entry.2) (transport entry.2) entry.1)
  embedder := ctx.embedder
  unicode := ctx.unicode
  matched := by
    rw [← cluster.matched]
    simp [ClusterTopology.shardCount, ClusterTopology.ofGroups]

end SerialCluster

end PySearch
