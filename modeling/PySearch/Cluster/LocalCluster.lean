import PySearch.Cluster.Settings

namespace PySearch

-- A link between two copies of one logical shard, and its constructor.
structure HttpNodeLink where
  baseUrl : String
  deriving DecidableEq

def HttpNodeLink.create (baseUrl : String) : HttpNodeLink :=
  ⟨Text.rstrip (· = '/') baseUrl⟩

inductive ReplicaRole
  | primary
  | replica
  deriving DecidableEq

-- What a shard node reads beyond the settings of the cluster.
structure ShardSettings extends Settings where
  replicaRole : Option ReplicaRole
  primaryUrl : String

-- The half of the replication protocol that a shard node plays, with its links.
inductive ReplicationRole
  | replicator (targets : List HttpNodeLink)
  | synchronizer (primary : HttpNodeLink)
  deriving DecidableEq

-- `_attach_replication_role`. Every role but `primary` makes a replica.
def ShardSettings.attachReplicationRole (settings : ShardSettings) : ReplicationRole :=
  if settings.replicaRole = some .primary then
    .replicator (settings.ownReplicaAddresses.map .create)
  else .synchronizer (.create settings.primaryUrl)

-- The arguments of `run_cluster.py` that decide which process speaks to which. Its
-- replication factor is one or two.
structure LocalCluster where
  shards : Nat
  replicated : Bool
  basePort : Nat
  positive : 1 ≤ shards

namespace LocalCluster

def localUrl (port : Nat) : String := "http://127.0.0.1:" ++ toString port

variable (cluster : LocalCluster)

def primaryPort (shardId : Nat) : Nat := cluster.basePort + shardId

def replicaPort (shardId : Nat) : Nat := cluster.basePort + 100 + shardId

def primaryUrl (shardId : Nat) : String := localUrl (cluster.primaryPort shardId)

def replicaUrl (shardId : Nat) : String := localUrl (cluster.replicaPort shardId)

def replicationFactor : Nat := if cluster.replicated then 2 else 1

def shardUrls : List String := (List.range cluster.shards).map cluster.primaryUrl

def replicaUrls : List String :=
  if cluster.replicated then (List.range cluster.shards).map cluster.replicaUrl else []

-- The environment of each process. What it does not set has its default.
def primarySettings (shardId : Nat) : ShardSettings where
  nodeRole := .shard
  shardId := some shardId
  shardCount := cluster.shards
  shardUrls := ""
  replicaUrls := if cluster.replicated then cluster.replicaUrl shardId else ""
  positive := by exact_mod_cast cluster.positive
  replicaRole := some .primary
  primaryUrl := ""

def replicaSettings (shardId : Nat) : ShardSettings where
  nodeRole := .shard
  shardId := some shardId
  shardCount := cluster.shards
  shardUrls := ""
  replicaUrls := ""
  positive := by exact_mod_cast cluster.positive
  replicaRole := some .replica
  primaryUrl := cluster.primaryUrl shardId

def coordinatorSettings : Settings where
  nodeRole := .coordinator
  shardId := none
  shardCount := cluster.shards
  shardUrls := ",".intercalate cluster.shardUrls
  replicaUrls := ";".intercalate cluster.replicaUrls
  positive := by exact_mod_cast cluster.positive

-- The processes that hold a shard, by the ports they listen on.
def copyPorts (shardId : Nat) : List Nat :=
  cluster.primaryPort shardId ::
    if cluster.replicated then [cluster.replicaPort shardId] else []

end LocalCluster

end PySearch
