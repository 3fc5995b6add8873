import PySearch.Cluster.Routing

namespace PySearch

namespace Api

def maxLimit : Int := 100

def defaultLimit : Int := 10

-- A request to one of the routes that a single node and a coordinator have in common. The
-- identifier is the decoded path segment, an omitted parameter is `none`.
inductive Request
  | putDocument (documentId text : String)
  | deleteDocument (documentId : String)
  | search (q : String) (limit : Option Int)
  | semanticSearch (q : String) (limit : Option Int)
  | hybridSearch (q : String) (limit : Option Int) (explain : Option Bool)
  | indexStats
  | health
  | ready

structure HybridHitModel (α : Type) where
  documentId : String
  score : α
  text : String
  lexicalRank : Option Nat
  semanticRank : Option Nat
  lexicalScore : Option α
  semanticScore : Option α

-- `raised` is `{"detail": str(exc)}`, `unprocessable` the answer to a parameter that the
-- route's own declaration refuses. The lexical and the semantic pages have one shape.
inductive Body (α : Type)
  | empty
  | raised (error : PyError)
  | detail (text : String)
  | unprocessable
  | document (documentId : String) (created : Bool) (shardId : Option Nat)
  | page (query : String) (total : Nat) (results : List (SearchResult α))
  | hybridPage (query : String) (total : Nat) (results : List (HybridHitModel α))
  | indexStats (documentCount uniqueTermCount : Nat) (averageDocumentLength : α)
  | clusterStats (stats : ClusterStats α)
  | health
  | readiness (status detail : String)

structure Response (α : Type) where
  status : Nat
  body : Body α

variable {α : Type}

-- What the registered handlers make of an exception. Storage errors may carry SQL or paths,
-- so their text is withheld, and an exception without a handler is a bare 500.
def errorResponse (error : PyError) : Response α :=
  match error with
  | .storage _ => ⟨503, .detail "storage unavailable"⟩
  | error =>
      if error.statusCode = 500 then ⟨500, .detail "Internal Server Error"⟩
      else ⟨error.statusCode, .raised error⟩

def respond {β : Type} (render : β → Response α) : Except PyError β → Response α
  | .ok value => render value
  | .error error => errorResponse error

-- `limit: Annotated[int, Query(ge=1, le=MAX_LIMIT)] = DEFAULT_LIMIT`
def withLimit (limit : Option Int) (route : Int → Response α) : Response α :=
  let limit := limit.getD defaultLimit
  if 1 ≤ limit ∧ limit ≤ maxLimit then route limit else ⟨422, .unprocessable⟩

def documentResponse (documentId : String) (shardId : Option Nat) (created : Bool) : Response α :=
  ⟨if created then 201 else 200, .document documentId created shardId⟩

def searchResponse (query : String) (outcome : SearchResults α) : Response α :=
  ⟨200, .page query outcome.total outcome.results⟩

-- `to_response`: the underlying scores are included only on request.
def toResponse (query : String) (explain : Bool) (outcome : HybridResults α) : Response α :=
  ⟨200, .hybridPage query outcome.total (outcome.results.map fun hit =>
    ⟨hit.documentId, hit.score, hit.text, hit.lexicalRank, hit.semanticRank,
      if explain then hit.lexicalScore else none, if explain then hit.semanticScore else none⟩)⟩

def readinessResponse (ready : Bool) (detail : String) : Response α :=
  if ready then ⟨200, .readiness "ready" detail⟩ else ⟨503, .readiness "not_ready" detail⟩

end Api

open Api

variable {α : Type} [Arith α] [LinearOrder α] (ctx : EngineContext α)

-- The application of a single node. `faults` are the exceptions that a request meets.
def SearchEngine.serve (engine : SearchEngine α) (faults : Faults) :
    Request → Response α × SearchEngine α
  | .putDocument documentId text =>
      match Document.create documentId text with
      | .error error => (errorResponse error, engine)
      | .ok document =>
          let (result, engine) := engine.indexDocument ctx document faults
          (respond (documentResponse documentId none) result, engine)
  | .deleteDocument documentId =>
      let (result, engine) := engine.deleteDocument documentId faults
      (respond (fun _ => ⟨204, .empty⟩) result, engine)
  | .search q limit =>
      (withLimit limit fun limit =>
        respond (searchResponse q) (engine.search ctx q limit none), engine)
  | .semanticSearch q limit =>
      (withLimit limit fun limit => respond (searchResponse q) do
        engine.semanticSearch (← SearchEngine.embedQuery ctx q faults.embed) limit, engine)
  | .hybridSearch q limit explain =>
      (withLimit limit fun limit => respond (toResponse q (explain.getD false))
        (engine.hybridSearchWith ctx faults.embed q limit .default), engine)
  | .indexStats =>
      (respond (fun stats => ⟨200, .indexStats stats.documentCount stats.uniqueTermCount
        stats.averageDocumentLength⟩) engine.stats, engine)
  | .health => (⟨200, .health⟩, engine)
  | .ready => (readinessResponse engine.status.ready engine.status.detail, engine)

-- The application of a coordinator, over primaries that answer every request.
def Cluster.serve (cluster : Cluster α) : Request → Response α × Cluster α
  | .putDocument documentId text =>
      match Document.create documentId text with
      | .error error => (errorResponse error, cluster)
      | .ok document =>
          let (result, after) := cluster.indexDocument ctx document
          (respond (documentResponse documentId (some (cluster.router.shardFor documentId)))
            result, after)
  | .deleteDocument documentId =>
      let (result, after) := cluster.deleteDocument documentId
      (respond (fun _ => ⟨204, .empty⟩) result, after)
  | .search q limit =>
      (withLimit limit fun limit =>
        respond (searchResponse q) ((cluster.coordinator ctx).search q limit), cluster)
  | .semanticSearch q limit =>
      (withLimit limit fun limit =>
        respond (searchResponse q) ((cluster.coordinator ctx).semanticSearch q limit), cluster)
  | .hybridSearch q limit explain =>
      (withLimit limit fun limit => respond (toResponse q (explain.getD false))
        ((cluster.coordinator ctx).hybridSearch q limit .default), cluster)
  | .indexStats =>
      (respond (fun stats => ⟨200, .clusterStats stats⟩) (cluster.coordinator ctx).indexStats,
        cluster)
  | .health => (⟨200, .health⟩, cluster)
  | .ready =>
      let readiness := (cluster.coordinator ctx).readiness
      (readinessResponse readiness.ready readiness.detail, cluster)

end PySearch
