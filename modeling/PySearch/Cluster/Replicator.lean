import PySearch.Cluster.Replication.Resync
import PySearch.Cluster.Wire

namespace PySearch

variable {α : Type}

-- `require_primary` and `require_replica`: a node of the wrong role refuses with 409.
def requirePrimary (role : Role) : Except Nat Unit := if role = .primary then .ok () else .error 409

def requireReplica (role : Role) : Except Nat Unit := if role = .replica then .ok () else .error 409

-- The routes under `/internal` by which copies of one logical shard speak to each other.
namespace Internal

-- `_replication_response`: a gap is no acknowledgement.
def replicationResponse (outcome : ReplicationOutcome) (engine : SearchEngine α) :
    Except Nat (ReplicationOutcome × Int) :=
  if outcome = .gap then .error 409 else .ok (outcome, engine.generation)

-- What is answered when the engine has been asked.
def replicated : Except PyError ReplicationOutcome × SearchEngine α →
    Except Nat (ReplicationOutcome × Int) × SearchEngine α
  | (.error error, engine) => (.error error.statusCode, engine)
  | (.ok outcome, engine) => (replicationResponse outcome engine, engine)

-- `replicate_document` and `replicate_delete`, where `parameter` is what the path gives for the
-- identifier if it takes the route at all. The role is asked before the body is judged.
def replicate [Arith α] (ctx : EngineContext α) (role : Role) (engine : SearchEngine α)
    (parameter : Option String) (mutation : Mutation) (generation : Int) (faults : Faults) :
    Except Nat (ReplicationOutcome × Int) × SearchEngine α :=
  match parameter with
  | none => (.error 404, engine)
  | some documentId =>
      match requireReplica role with
      | .error status => (.error status, engine)
      | .ok () =>
          if generation < 1 then (.error 422, engine)
          else
            match mutation.addressedTo documentId with
            | .error error => (.error error.statusCode, engine)
            | .ok mutation => replicated (engine.applyReplicated ctx mutation generation faults)

def replicateStatus : Except Nat (ReplicationOutcome × Int) → Nat
  | .error status => status
  | .ok _ => 200

-- `export_documents`
def exportDocuments (role : Role) (engine : SearchEngine α) : Except Nat (List Document × Int) :=
  match requirePrimary role with
  | .error status => .error status
  | .ok () => HttpShardClient.respond engine.exportSnapshot

-- What `index_document` and `delete_document` answer.
def writeStatus : Except PyError (Option Bool) → Nat
  | .ok (some true) => 201
  | .ok (some false) => 200
  | .ok none => 204
  | .error error => error.statusCode

end Internal

-- What the network does to one request: whether it arrives, what its sender sees instead of
-- an answer, and the exceptions that its work meets at the other end.
structure Hop where
  arrives : Bool
  failure : Option TransportFailure
  faults : Faults

namespace HttpNodeLink

variable {β : Type}

def unreachable (baseUrl : String) : PyError :=
  .shardUnavailable ("node at " ++ baseUrl ++ " is unreachable")

def answered (baseUrl : String) (status : Nat) : PyError :=
  .shardUnavailable ("node at " ++ baseUrl ++ " answered " ++ toString status)

-- `_request`. A request that does not arrive has no response.
def request (baseUrl : String) (failure : Option TransportFailure)
    (response : Option (Except Nat β)) : Except PyError β :=
  match failure, response with
  | some .timeout, _ => .error (.shardTimeout ("node at " ++ baseUrl ++ " timed out"))
  | some .unreachable, _ => .error (unreachable baseUrl)
  | some (.refused status), _ => .error (answered baseUrl status)
  | none, none => .error (unreachable baseUrl)
  | none, some (.error status) => .error (answered baseUrl status)
  | none, some (.ok value) => .ok value

-- A process answers once its startup hook is done.
def ask (route : SearchEngine α → Except Nat β) : Node α → Option (Except Nat β)
  | .up engine .serving _ => some (route engine)
  | _ => none

def generation (baseUrl : String) (failure : Option TransportFailure) (primary : Node α) :
    Except PyError Int :=
  request baseUrl failure (ask (fun engine => .ok engine.status.generation) primary)

def exportFrom (baseUrl : String) (failure : Option TransportFailure) (primary : Node α) :
    Except PyError (List Document × Int) :=
  request baseUrl failure (ask (Internal.exportDocuments .primary) primary)

-- `apply_put` and `apply_delete`
def applyMutation [Arith α] (ctx : EngineContext α) (stack : HttpStack) (baseUrl : String)
    (hop : Hop) (replica : Node α) (mutation : Mutation) (generation : Int) :
    Except PyError Unit × Node α :=
  match replica, hop.arrives with
  | .up engine .serving resyncs, true =>
      let (response, engine) := Internal.replicate ctx .replica engine
        (stack.replicaId mutation.documentId) mutation generation hop.faults
      ((request baseUrl hop.failure (some response)).map fun _ => (), .up engine .serving resyncs)
  | replica, _ => (request baseUrl hop.failure none, replica)

end HttpNodeLink

-- One logical shard whose calls come one after another. What was sent to a replica may still
-- arrive later.
structure SerialShard (α : Type) where
  primary : Node α
  replicas : List (Node α)
  sent : List ReplicationRequest

namespace Replicator

variable [Arith α] (ctx : EngineContext α) (stack : HttpStack) (url : Option Nat → String)

-- `_replicate`: the first replica that fails ends the loop. It also returns what was sent.
def replicateOver (hops : Nat → Hop) (mutation : Mutation) (generation : Int) :
    Nat → List (Node α) → Except PyError Unit × List (Node α) × List ReplicationRequest
  | _, [] => (.ok (), [], [])
  | index, replica :: rest =>
      match HttpNodeLink.applyMutation ctx stack (url (some index)) (hops index) replica mutation
          generation with
      | (.error _, replica) =>
          (.error (.replication generation), replica :: rest, [⟨index, mutation, generation⟩])
      | (.ok (), replica) =>
          let (result, rest, sent) := replicateOver hops mutation generation (index + 1) rest
          (result, replica :: rest, ⟨index, mutation, generation⟩ :: sent)

-- `index_document` and `delete_document`
def write (engine : SearchEngine α) (replicas : List (Node α)) (mutation : Mutation)
    (faults : Faults) (hops : Nat → Hop) :
    Except PyError (Option Bool) × SearchEngine α × List (Node α) × List ReplicationRequest :=
  match Shard.commit ctx engine mutation faults with
  | (.error error, engine) => (.error error, engine, replicas, [])
  | (.ok created, engine) =>
      match replicateOver ctx stack url hops mutation engine.generation 0 replicas with
      | (.error error, replicas, sent) => (.error error, engine, replicas, sent)
      | (.ok (), replicas, sent) => (.ok created, engine, replicas, sent)

end Replicator

-- What the requests of a synchronizing replica and the work on their answers meet.
structure Repair where
  generation : Option TransportFailure
  exported : Option TransportFailure
  fault : Bool
  faults : RebuildFaults

-- What happens to the shard. A target is the primary, or the replica with the given number. A
-- request that was sent before arrives where it was sent to, or astray at the primary.
inductive SerialEvent
  | write (target : Option Nat) (mutation : Mutation) (faults : Faults) (hops : Nat → Hop)
  | arrive (astray : Bool) (request : Nat) (faults : Faults)
  | resync (target : Option Nat) (repair : Repair)
  | start (target : Option Nat) (faults : RebuildFaults) (repair : Repair)
  | crash (target : Option Nat)

def SerialEvent.mutation : SerialEvent → Option Mutation
  | write _ mutation _ _ => some mutation
  | _ => none

namespace SerialShard

def initial (replicas : Nat) : SerialShard α :=
  ⟨.down .empty, List.replicate replicas (.down .empty), []⟩

def copy (shard : SerialShard α) : Option Nat → Option (Node α)
  | none => some shard.primary
  | some index => shard.replicas[index]?

def role : Option Nat → Role
  | none => .primary
  | some _ => .replica

def setCopy (shard : SerialShard α) (target : Option Nat) (node : Node α) : SerialShard α :=
  match target with
  | none => { shard with primary := node }
  | some index => { shard with replicas := shard.replicas.set index node }

variable [Arith α] [LinearOrder α] (ctx : EngineContext α) (stack : HttpStack)
  (url : Option Nat → String)

-- The startup hook of `_node_lifespan`. A startup that fails leaves no process.
def lifespan (role : Role) (database : Database) (primary : Node α) (faults : RebuildFaults)
    (repair : Repair) : Node α :=
  match SearchEngine.initializeEngine ctx (.new ctx (.openDatabase database)) faults with
  | (.error _, engine) => .down engine.store.database
  | (.ok _, engine) =>
      if role = .replica then
        .up (ReplicaSynchronizer.synchronize ctx engine
          (HttpNodeLink.generation (url none) repair.generation primary)
          (HttpNodeLink.exportFrom (url none) repair.exported primary) repair.fault
          repair.faults).1 .serving []
      else .up engine .serving []

-- The status that the sender of a request is answered, and the shard afterwards.
def occur (shard : SerialShard α) : SerialEvent → Option Nat × SerialShard α
  | .write target mutation faults hops =>
      match shard.copy target with
      | some (.up engine .serving resyncs) =>
          match requirePrimary (role target) with
          | .error status => (some status, shard)
          | .ok () =>
              let (result, engine, replicas, sent) :=
                Replicator.write ctx stack url engine shard.replicas mutation faults hops
              (some (Internal.writeStatus result),
                ⟨.up engine .serving resyncs, replicas, shard.sent ++ sent⟩)
      | _ => (none, shard)
  | .arrive astray request faults =>
      match shard.sent[request]? with
      | none => (none, shard)
      | some request =>
          let target := if astray then none else some request.target
          match shard.copy target with
          | some (.up engine .serving resyncs) =>
              let (response, engine) := Internal.replicate ctx (role target) engine
                (stack.replicaId request.mutation.documentId) request.mutation request.generation
                faults
              (some (Internal.replicateStatus response),
                shard.setCopy target (.up engine .serving resyncs))
          | _ => (none, shard)
  | .resync target repair =>
      match shard.copy target with
      | some (.up engine .serving resyncs) =>
          match requireReplica (role target) with
          | .error status => (some status, shard)
          | .ok () =>
              let (engine, outcome) := ReplicaSynchronizer.resynchronize ctx engine
                (HttpNodeLink.exportFrom (url none) repair.exported shard.primary) repair.fault
                repair.faults
              (some (if outcome.synchronized then 200 else 503),
                shard.setCopy target (.up engine .serving resyncs))
      | _ => (none, shard)
  | .start target faults repair =>
      match shard.copy target with
      | some (.down database) =>
          (none, shard.setCopy target
            (lifespan ctx url (role target) database shard.primary faults repair))
      | _ => (none, shard)
  | .crash target =>
      match shard.copy target with
      | some (.up engine _ _) => (none, shard.setCopy target (.down engine.store.database))
      | _ => (none, shard)

end SerialShard

end PySearch
