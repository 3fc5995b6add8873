import PySearch.Cluster.Coordinator
import PySearch.Lib.Text

namespace PySearch

inductive NodeRole
  | single
  | shard
  | coordinator
  deriving DecidableEq

-- The settings that describe a cluster. A shard count below one is refused.
structure Settings where
  nodeRole : NodeRole
  shardId : Option Int
  shardCount : Int
  shardUrls : String
  replicaUrls : String
  positive : 1 ≤ shardCount

-- A client that speaks HTTP to a shard node, and its constructor.
structure HttpShardClient where
  baseUrl : String
  deriving DecidableEq

def HttpShardClient.create (baseUrl : String) : HttpShardClient :=
  ⟨Text.rstrip (· = '/') baseUrl⟩

namespace Settings

-- `tuple(url.strip() for url in urls.split(",") if url.strip())`
def addresses (urls : String) : List String :=
  ((Text.split ',' urls).map (Text.strip isSpace)).filter (· ≠ "")

def shardAddresses (settings : Settings) : List String := addresses settings.shardUrls

def replicaAddresses (settings : Settings) : List (List String) :=
  if Text.strip isSpace settings.replicaUrls = "" then []
  else (Text.split ';' settings.replicaUrls).map addresses

-- The replicas of a shard primary. A shard node configures exactly one group.
def ownReplicaAddresses (settings : Settings) : List String :=
  settings.replicaAddresses.head?.getD []

def replicationFactor (settings : Settings) : Nat :=
  1 + (settings.replicaAddresses.head?.getD []).length

def demand (condition : Bool) (message : String) : Except PyError Unit :=
  if condition then .ok () else .error (.valueError message)

def checkShard (settings : Settings) : Except PyError Unit :=
  match settings.shardId with
  | none => .error (.valueError "shard_id is required when node_role is 'shard'")
  | some shardId =>
      demand (0 ≤ shardId ∧ shardId < settings.shardCount)
        ("shard_id " ++ toString shardId ++ " is outside the range of " ++
          toString settings.shardCount ++ " shards")

-- `len(set(addresses)) == len(addresses)`
def distinct (addresses : List String) : Bool := addresses.dedup.length = addresses.length

def checkReplicas (settings : Settings) : Except PyError Unit := do
  let groups := settings.replicaAddresses
  demand (groups.length = settings.shardCount)
    ("shard_count is " ++ toString settings.shardCount ++ " but " ++ toString groups.length ++
      " replica groups were given")
  demand ((groups.map List.length).dedup.length = 1)
    "every logical shard must have the same replica count"
  demand (distinct (settings.shardAddresses ++ groups.flatten))
    "shard_urls and replica_urls overlap or repeat"

def checkCoordinator (settings : Settings) : Except PyError Unit := do
  let addresses := settings.shardAddresses
  demand (addresses ≠ []) "shard_urls is required when node_role is 'coordinator'"
  demand (addresses.length = settings.shardCount)
    ("shard_count is " ++ toString settings.shardCount ++ " but " ++ toString addresses.length ++
      " shard urls were given")
  demand (distinct addresses) "shard_urls contains duplicate addresses"
  if settings.replicaAddresses = [] then pure () else settings.checkReplicas

-- `_check_topology`
def checkTopology (settings : Settings) : Except PyError Unit :=
  match settings.nodeRole with
  | .single => .ok ()
  | .shard => settings.checkShard
  | .coordinator => settings.checkCoordinator

-- What the startup hook of a coordinator builds from its settings.
def topology (settings : Settings) : Except PyError (ClusterTopology HttpShardClient) :=
  ClusterTopology.buildTopology (settings.shardAddresses.map .create)
    (settings.replicaAddresses.map fun group => group.map .create)

def router (settings : Settings) (digest : String → Nat) : ShardRouter where
  digest := digest
  shardCount := settings.shardCount.toNat
  positive := by
    have h := settings.positive
    omega

end Settings

end PySearch
