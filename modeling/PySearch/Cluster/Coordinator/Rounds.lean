import PySearch.Cluster.Coordinator
import PySearch.Cluster.Replication
import PySearch.Cluster.Serving

namespace PySearch

variable {α : Type}

-- The copy that answered the first round for its shard. `seen` is not part of the program:
-- it records the database of the copy when it answered.
structure Pin where
  copy : Nat
  stats : CorpusStats
  seen : Database

-- One shard in the first round: the copy to ask next, or what has come of asking.
inductive RoundOne
  | asking (copy : Nat)
  | finished (outcome : Except PyError Pin)

def RoundOne.outcome : RoundOne → Option (Except PyError Pin)
  | asking _ => none
  | finished outcome => some outcome

-- One shard in the second round, and the answer of its pinned copy once there is one.
structure RoundTwo (α : Type) where
  pin : Pin
  answer : Option (Except PyError (SearchResults α))

-- Who holds the lock of the coordinator: a lexical search in one of its rounds, or some
-- other operation, such as a write that waits for the primary's answer.
inductive Operation (α : Type)
  | other
  | collecting (query : String) (limit : Int) (slots : List RoundOne)
  | scoring (query : String) (limit : Int) (corpusStats : CorpusStats) (slots : List (RoundTwo α))

-- A search that has returned.
structure Returned (α : Type) where
  query : String
  limit : Int
  seen : List Database
  result : Except PyError (SearchResults α)

-- A coordinator at work on replicated shards. A write stays in flight until the primary
-- takes it up, whether or not the coordinator still waits for it.
structure LiveCluster (α : Type) where
  router : ShardRouter
  shards : List (Shard α)
  matched : shards.length = router.shardCount
  inFlight : List Mutation
  operation : Option (Operation α)
  returned : List (Returned α)

inductive LiveAction
  | submit (mutation : Mutation)
  | execute (index : Nat) (faults : Faults)
  | hold
  | release
  | search (query : String) (limit : Int)
  | ask (shardId : Nat) (settings : NodeSettings) (failure : Option TransportFailure)
  | fanOut
  | score (shardId : Nat) (settings : NodeSettings) (failure : Option TransportFailure)
  | finish
  | shard (shardId : Nat) (action : ShardAction)

-- Writes enter a shard through the coordinator only.
def ShardAction.isWrite : ShardAction → Bool
  | write _ _ => true
  | _ => false

namespace LiveCluster

def start (router : ShardRouter) (replicas : Nat → Nat) : LiveCluster α where
  router := router
  shards := (List.range router.shardCount).map fun shardId => .initial (replicas shardId)
  matched := by simp
  inFlight := []
  operation := none
  returned := []

def setShard (cluster : LiveCluster α) (shardId : Nat) (shard : Shard α) : LiveCluster α :=
  { cluster with
    shards := cluster.shards.set shardId shard
    matched := by rw [List.length_set, cluster.matched] }

-- The search that holds the lock is over.
def finishWith (cluster : LiveCluster α) (entry : Returned α) : LiveCluster α :=
  { cluster with operation := none, returned := entry :: cluster.returned }

def copyAt (cluster : LiveCluster α) (shardId copy : Nat) : Option (Node α) :=
  (cluster.shards[shardId]?).bind fun shard => (shard.primary :: shard.replicas)[copy]?

variable [Arith α] [LinearOrder α] (ctx : EngineContext α)

def stepShard (cluster : LiveCluster α) (shardId : Nat) (action : ShardAction) :
    Option (LiveCluster α) := do
  let shard ← cluster.shards[shardId]?
  let next ← shard.step ctx action
  return cluster.setShard shardId next

-- One turn of the loop of `_stats_from_any_copy`.
def askCopy (cluster : LiveCluster α) (terms : List String) (shardId copy : Nat)
    (settings : NodeSettings) (failure : Option TransportFailure) : RoundOne :=
  match cluster.copyAt shardId copy with
  | none => .finished (.error (.shardCopiesExhausted shardId))
  | some node =>
      match (node.client ctx settings (.all failure)).corpusStats terms with
      | .ok stats => .finished (.ok ⟨copy, stats, node.database⟩)
      | .error error =>
          if error.isClusterError then .asking (copy + 1) else .finished (.error error)

-- The second round asks the pinned copy and no other.
def scoreCopy (cluster : LiveCluster α) (query : String) (limit : Int) (corpusStats : CorpusStats)
    (shardId : Nat) (pin : Pin) (settings : NodeSettings) (failure : Option TransportFailure) :
    Except PyError (SearchResults α) :=
  match cluster.copyAt shardId pin.copy with
  | none => .error .unexpected
  | some node => (node.client ctx settings (.all failure)).search query limit corpusStats

def step (cluster : LiveCluster α) : LiveAction → Option (LiveCluster α)
  | .submit mutation =>
      match cluster.operation with
      | none => some { cluster with
          inFlight := cluster.inFlight ++ [mutation]
          operation := some .other }
      | some _ => none
  | .execute index faults =>
      match cluster.inFlight[index]? with
      | some mutation =>
          (cluster.stepShard ctx (cluster.router.shardFor mutation.documentId)
            (.write mutation faults)).map fun next =>
              { next with inFlight := next.inFlight.eraseIdx index }
      | none => none
  | .hold =>
      match cluster.operation with
      | none => some { cluster with operation := some .other }
      | some _ => none
  -- An answer, a failure and a timeout all give the lock back.
  | .release =>
      match cluster.operation with
      | some .other => some { cluster with operation := none }
      | _ => none
  | .search query limit =>
      -- A query with no terms is answered without taking the lock.
      if Analysis.analyze ctx.unicode query = [] then
        some { cluster with returned := ⟨query, limit,
          cluster.shards.map fun shard => shard.primary.database, .ok ⟨0, []⟩⟩ :: cluster.returned }
      else
        match cluster.operation with
        | none => some { cluster with operation := some (.collecting query limit
            (List.replicate cluster.shards.length (.asking 0))) }
        | some _ => none
  | .ask shardId settings failure =>
      match cluster.operation with
      | some (.collecting query limit slots) =>
          match slots[shardId]? with
          | some (.asking copy) => some { cluster with operation := some (.collecting query limit
              (slots.set shardId (cluster.askCopy ctx
                (Coordinator.uniqueTerms (Analysis.analyze ctx.unicode query)) shardId copy
                settings failure))) }
          | _ => none
      | _ => none
  | .fanOut =>
      match cluster.operation with
      | some (.collecting query limit slots) =>
          match slots.mapM RoundOne.outcome with
          | none => none
          | some outcomes =>
              match Coordinator.gather "collecting corpus statistics" outcomes with
              | .error error => some (cluster.finishWith ⟨query, limit, [], .error error⟩)
              | .ok pins =>
                  let corpusStats := mergeCorpusStats (pins.map Pin.stats)
                  if corpusStats.documentCount = 0 then
                    some (cluster.finishWith ⟨query, limit, pins.map Pin.seen, .ok ⟨0, []⟩⟩)
                  else some { cluster with operation := some (.scoring query limit corpusStats
                    (pins.map fun pin => ⟨pin, none⟩)) }
      | _ => none
  | .score shardId settings failure =>
      match cluster.operation with
      | some (.scoring query limit corpusStats slots) =>
          match slots[shardId]? with
          | some ⟨pin, none⟩ => some { cluster with operation := some (.scoring query limit
              corpusStats (slots.set shardId ⟨pin, some (cluster.scoreCopy ctx query limit
                corpusStats shardId pin settings failure)⟩)) }
          | _ => none
      | _ => none
  | .finish =>
      match cluster.operation with
      | some (.scoring query limit _ slots) =>
          match slots.mapM RoundTwo.answer with
          | none => none
          | some outcomes =>
              let seen := slots.map fun slot => slot.pin.seen
              match Coordinator.gather "executing distributed search" outcomes with
              | .error error => some (cluster.finishWith ⟨query, limit, seen, .error error⟩)
              | .ok results => some (cluster.finishWith
                  ⟨query, limit, seen, .ok (Coordinator.merge results limit)⟩)
      | _ => none
  | .shard shardId action =>
      if action.isWrite then none else cluster.stepShard ctx shardId action

end LiveCluster

end PySearch
