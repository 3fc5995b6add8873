import PySearch.Cluster.Node

namespace PySearch

variable {α : Type}

-- One replicated mutation on its way from the primary to a replica.
structure ReplicationRequest where
  target : Nat
  mutation : Mutation
  generation : Int

-- A write that holds the lock of the `Replicator`: committed on the primary and applied by
-- the first `next` replicas. `created` is what the caller will be told.
structure PendingWrite where
  mutation : Mutation
  generation : Int
  created : Option Bool
  next : Nat
  awaiting : Bool

-- One logical shard. A request that was sent stays in `sent`, because the network may
-- deliver it late, more than once or never. `answered` are the generations for which a
-- replica has answered with success. `history` and `acknowledged` are not part of the
-- program: they record what the primary has committed and what clients were told.
structure Shard (α : Type) where
  primary : Node α
  replicas : List (Node α)
  sent : List ReplicationRequest
  answered : List (Nat × Int)
  write : Option PendingWrite
  history : List Mutation
  acknowledged : List Int

inductive ShardAction
  | write (mutation : Mutation) (faults : Faults)
  | send
  | deliver (index : Nat) (faults : Faults)
  | reply
  | replicationError
  | acknowledge
  | exportTo (replica index : Nat)
  | tell (replica : Nat)
  | primary (action : NodeAction)
  | replica (index : Nat) (action : NodeAction)

-- The actions of a node that no other node's message starts.
def NodeAction.isLocal : NodeAction → Bool
  | .indexDocument _ _ | .deleteDocument _ _ => false
  | .applyReplicatedPut _ _ _ | .applyReplicatedDelete _ _ _ => false
  | .receive _ (.ok _) | .generation (.ok _) => false
  | _ => true

def Mutation.writeAction (faults : Faults) : Mutation → NodeAction
  | .put document => .indexDocument document faults
  | .delete documentId => .deleteDocument documentId faults

def ReplicationRequest.applyAction (request : ReplicationRequest) (faults : Faults) : NodeAction :=
  match request.mutation with
  | .put document => .applyReplicatedPut document request.generation faults
  | .delete documentId => .applyReplicatedDelete documentId request.generation faults

namespace Shard

-- A shard whose databases are empty and whose processes have not been started.
def initial (replicas : Nat) : Shard α where
  primary := .down .empty
  replicas := List.replicate replicas (.down .empty)
  sent := []
  answered := []
  write := none
  history := []
  acknowledged := []

variable [Arith α] [LinearOrder α] (ctx : EngineContext α)

-- The local half of `Replicator.index_document` and `Replicator.delete_document`.
def commit (engine : SearchEngine α) (mutation : Mutation) (faults : Faults) :
    Except PyError (Option Bool) × SearchEngine α :=
  match mutation with
  | .put document =>
      match engine.indexDocument ctx document faults with
      | (result, engine) => (result.map some, engine)
  | .delete documentId =>
      match engine.deleteDocument documentId faults with
      | (result, engine) => (result.map fun _ => none, engine)

-- What the route behind a replication request answers: a gap is refused with 409.
def applied (engine : SearchEngine α) (request : ReplicationRequest) (faults : Faults) : Bool :=
  let result := match request.mutation with
    | .put document =>
        (engine.applyReplicatedPut ctx document request.generation faults).1
    | .delete documentId =>
        (engine.applyReplicatedDelete documentId request.generation faults).1
  match result with
  | .ok .gap | .error _ => false
  | .ok _ => true

def setReplica (shard : Shard α) (index : Nat) (node : Node α) : Shard α :=
  { shard with replicas := shard.replicas.set index node }

def stepReplica (shard : Shard α) (index : Nat) (action : NodeAction) : Option (Shard α) := do
  let node ← shard.replicas[index]?
  let next ← node.step ctx .replica action
  return shard.setReplica index next

def step (shard : Shard α) : ShardAction → Option (Shard α)
  | .write mutation faults =>
      match shard.write, shard.primary with
      | none, .up engine .serving resyncs =>
          match commit ctx engine mutation faults with
          | (result, after) =>
              some { shard with
                primary := .up after .serving resyncs
                -- A commit is what moves the generation.
                history := if after.generation = engine.generation then shard.history
                  else shard.history ++ [mutation]
                write := match result with
                  | .error _ => none
                  | .ok created => some ⟨mutation, after.generation, created, 0, false⟩ }
      | _, _ => none
  | .send =>
      match shard.write with
      | some write =>
          if write.next < shard.replicas.length ∧ write.awaiting = false then
            some { shard with
              sent := shard.sent ++ [⟨write.next, write.mutation, write.generation⟩]
              write := some { write with awaiting := true } }
          else none
      | none => none
  | .deliver index faults =>
      match shard.sent[index]? with
      | some request =>
          match shard.replicas[request.target]? with
          | some (.up engine .serving _) =>
              (shard.stepReplica ctx request.target (request.applyAction faults)).map fun next =>
                if applied ctx engine request faults then
                  { next with answered := (request.target, request.generation) :: next.answered }
                else next
          | _ => none
      | none => none
  | .reply =>
      match shard.write with
      | some write =>
          if write.awaiting = true ∧ (write.next, write.generation) ∈ shard.answered then
            some { shard with write := some { write with next := write.next + 1, awaiting := false } }
          else none
      | none => none
  -- A replica that refuses, times out or cannot be reached fails the write.
  | .replicationError =>
      match shard.write with
      | some _ => some { shard with write := none }
      | none => none
  | .acknowledge =>
      match shard.write with
      | some write =>
          if write.next = shard.replicas.length then
            some { shard with
              write := none
              acknowledged := write.generation :: shard.acknowledged }
          else none
      | none => none
  | .exportTo replica index =>
      match shard.primary with
      | .up engine .serving _ =>
          shard.stepReplica ctx replica (.receive index engine.exportSnapshot)
      | _ => none
  | .tell replica =>
      match shard.primary with
      | .up engine .serving _ =>
          shard.stepReplica ctx replica (.generation (.ok engine.status.generation))
      | _ => none
  -- A write dies with the process that handles it.
  | .primary action =>
      if action.isLocal then
        (shard.primary.step ctx .primary action).map fun
          | .down database => { shard with primary := .down database, write := none }
          | node => { shard with primary := node }
      else none
  | .replica index action =>
      if action.isLocal then shard.stepReplica ctx index action else none

end Shard

end PySearch
