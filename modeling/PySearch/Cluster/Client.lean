import PySearch.Search.Engine

namespace PySearch

-- One physical node's identity and serving state.
structure NodeStatus where
  nodeId : String
  shardId : Int
  replicaRole : String
  state : NodeState
  ready : Bool
  generation : Int
  deriving DecidableEq

-- One physical copy of a logical shard, as the coordinator asks it. Nothing changes while
-- questions are asked, so an answer is a value.
structure ShardClient (α : Type) where
  search : String → Int → CorpusStats → Except PyError (SearchResults α)
  corpusStats : List String → Except PyError CorpusStats
  semanticSearch : List α → Int → SemanticIdentity → Except PyError (SearchResults α)
  indexStats : Except PyError (IndexStats α)
  isReady : Except PyError Bool
  nodeStatus : Except PyError NodeStatus

-- How a request can fail on its way to the engine and back. `refused` is an answer of 400
-- or above that is not the engine's.
inductive TransportFailure
  | timeout
  | unreachable
  | refused (status : Nat)
  deriving DecidableEq

-- The failures that the requests of one operation meet on their way to one node.
structure Transport where
  search : Option TransportFailure
  corpusStats : Option TransportFailure
  semanticSearch : Option TransportFailure
  indexStats : Option TransportFailure
  isReady : Option TransportFailure
  nodeStatus : Option TransportFailure

def Transport.all (failure : Option TransportFailure) : Transport :=
  ⟨failure, failure, failure, failure, failure, failure⟩

-- How a node is configured.
structure NodeSettings where
  baseUrl : String
  nodeId : String
  shardId : Int
  replicaRole : String

def maxLimit : Int := 100

-- The status code that the error handlers give an exception.
def PyError.statusCode : PyError → Nat
  | documentNotFound _ => 404
  | invalidDocument _ => 400
  | engineNotReady _ _ | storage _ | embedding _ | semanticDisabled _ | vectorIndex _ => 503
  | shardUnavailable _ | shardTimeout _ | shardCopiesExhausted _ | distributedSearch _ _
  | replication _ => 503
  | _ => 500

variable {α : Type} [Arith α] [LinearOrder α] (ctx : EngineContext α)

-- A client that hands its arguments to an engine in the same process.
def ShardClient.direct (engine : SearchEngine α) : ShardClient α where
  search query limit corpusStats := engine.search ctx query limit (some corpusStats)
  corpusStats terms := engine.corpusStats terms
  semanticSearch vector limit _ := engine.semanticSearch vector limit
  indexStats := engine.stats
  isReady := .ok engine.status.ready
  nodeStatus := .ok ⟨"", -1, "single", engine.status.state, engine.status.ready,
    engine.status.generation⟩

namespace HttpShardClient

def answered (baseUrl : String) (status : Nat) : PyError :=
  .shardUnavailable ("shard at " ++ baseUrl ++ " answered " ++ toString status)

-- `_request`: transport failures and answers of 400 and above become domain errors.
def request {β : Type} (baseUrl : String) (failure : Option TransportFailure)
    (response : Except Nat β) : Except PyError β :=
  match failure, response with
  | some .timeout, _ => .error (.shardTimeout ("shard at " ++ baseUrl ++ " timed out"))
  | some .unreachable, _ =>
      .error (.shardUnavailable ("shard at " ++ baseUrl ++ " is unreachable"))
  | some (.refused status), _ => .error (answered baseUrl status)
  | none, .error status => .error (answered baseUrl status)
  | none, .ok value => .ok value

-- What a route answers: the value, or the status of the exception that was raised.
def respond {β : Type} : Except PyError β → Except Nat β
  | .ok value => .ok value
  | .error error => .error error.statusCode

-- A body whose limit is outside `1..MAX_LIMIT` is refused before the route runs.
def respondWithin {β : Type} (limit : Int) (result : Except PyError β) : Except Nat β :=
  if 1 ≤ limit ∧ limit ≤ maxLimit then respond result else .error 422

def putDocument (baseUrl : String) (failure : Option TransportFailure)
    (response : Except Nat Bool) : Except PyError Bool :=
  request baseUrl failure response

-- A 404 is an answer here, not a failure of the shard.
def deleteDocument (baseUrl : String) (failure : Option TransportFailure) (documentId : String)
    (response : Except Nat Unit) : Except PyError Unit :=
  match failure, response with
  | none, .error 404 => .error (.documentNotFound documentId)
  | failure, response => request baseUrl failure response

-- The route behind `/internal/search/semantic` checks the identity first.
def semanticRoute (engine : SearchEngine α) (vector : List α) (limit : Int)
    (identity : SemanticIdentity) : Except Nat (SearchResults α) :=
  if 1 ≤ limit ∧ limit ≤ maxLimit then
    match ctx.embedder with
    | none => .error 503
    | some embedder =>
        if embedder.identity.isCompatibleWith identity then
          respond (engine.semanticSearch vector limit)
        else .error 409
  else .error 422

end HttpShardClient

open HttpShardClient in
-- A client that speaks HTTP to a node that runs the engine.
def ShardClient.http (settings : NodeSettings) (transport : Transport) (engine : SearchEngine α) :
    ShardClient α where
  search query limit corpusStats := request settings.baseUrl transport.search
    (respondWithin limit (engine.search ctx query limit (some corpusStats)))
  corpusStats terms := request settings.baseUrl transport.corpusStats
    (respond (engine.corpusStats terms))
  semanticSearch vector limit identity := request settings.baseUrl transport.semanticSearch
    (semanticRoute ctx engine vector limit identity)
  indexStats := request settings.baseUrl transport.indexStats (respond engine.stats)
  -- A node that cannot be reached is simply not ready.
  isReady := .ok (transport.isReady = none && engine.status.ready)
  nodeStatus := request settings.baseUrl transport.nodeStatus (.ok ⟨settings.nodeId,
    settings.shardId, settings.replicaRole, engine.status.state, engine.status.ready,
    engine.status.generation⟩)

end PySearch
