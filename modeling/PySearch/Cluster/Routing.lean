import PySearch.Cluster.Coordinator
import PySearch.Cluster.Replication
import PySearch.Cluster.Wire

namespace PySearch

variable {α : Type}

namespace Internal

variable [Arith α] (ctx : EngineContext α) (engine : SearchEngine α) (parameter : Option String)

-- `index_document` and `delete_document` on a primary that has no replicas, where `parameter` is
-- what the path gives for the identifier if it takes the route at all.
def indexDocument (text : String) : Except Nat Bool × SearchEngine α :=
  match parameter with
  | none => (.error 404, engine)
  | some documentId =>
      match Document.create documentId text with
      | .error error => (.error error.statusCode, engine)
      | .ok document =>
          let (result, engine) := engine.indexDocument ctx document .none
          (HttpShardClient.respond result, engine)

omit [Arith α] in
def deleteDocument : Except Nat Unit × SearchEngine α :=
  match parameter with
  | none => (.error 404, engine)
  | some documentId =>
      let (result, engine) := engine.deleteDocument documentId .none
      (HttpShardClient.respond result, engine)

end Internal

-- How the coordinator reaches a primary: in the same process, or by HTTP.
inductive Link
  | direct
  | http (stack : HttpStack) (settings : NodeSettings)

namespace Link

-- The primary is asked for the identifier that was written.
def Carries : Link → String → Prop
  | direct, _ => True
  | http stack _, documentId => stack.primaryId documentId = some documentId

def putDocument [Arith α] (ctx : EngineContext α) (link : Link) (engine : SearchEngine α)
    (document : Document) : Except PyError Bool × SearchEngine α :=
  match link with
  | direct => engine.indexDocument ctx document .none
  | http stack settings =>
      let (response, engine) := Internal.indexDocument ctx engine
        (stack.primaryId document.documentId) document.text
      (HttpShardClient.putDocument settings.baseUrl none response, engine)

def deleteDocument [Arith α] (link : Link) (engine : SearchEngine α) (documentId : String) :
    Except PyError Unit × SearchEngine α :=
  match link with
  | direct => engine.deleteDocument documentId .none
  | http stack settings =>
      let (response, engine) := Internal.deleteDocument engine (stack.primaryId documentId)
      (HttpShardClient.deleteDocument settings.baseUrl none documentId response, engine)

def client [Arith α] [LinearOrder α] (ctx : EngineContext α) :
    Link → SearchEngine α → ShardClient α
  | direct, engine => .direct ctx engine
  | http _ settings, engine => .http ctx settings (.all none) engine

end Link

-- A coordinator and the engines of the primaries that it writes to. The other copies of a
-- shard are only ever read.
structure Cluster (α : Type) where
  router : ShardRouter
  links : Nat → Link
  replicas : Nat → List (ShardClient α)
  engines : List (SearchEngine α)
  matched : engines.length = router.shardCount

namespace Cluster

def primary (cluster : Cluster α) (documentId : String) : SearchEngine α :=
  cluster.engines.get ⟨cluster.router.shardFor documentId, by
    rw [cluster.matched]
    exact cluster.router.shardFor_lt documentId⟩

def setPrimary (cluster : Cluster α) (documentId : String) (engine : SearchEngine α) :
    Cluster α where
  router := cluster.router
  links := cluster.links
  replicas := cluster.replicas
  engines := cluster.engines.set (cluster.router.shardFor documentId) engine
  matched := by rw [List.length_set, cluster.matched]

def link (cluster : Cluster α) (documentId : String) : Link :=
  cluster.links (cluster.router.shardFor documentId)

variable [Arith α] (ctx : EngineContext α)

-- The configured primary, never a replica.
def indexDocument (cluster : Cluster α) (document : Document) :
    Except PyError Bool × Cluster α :=
  let (result, engine) := (cluster.link document.documentId).putDocument ctx
    (cluster.primary document.documentId) document
  (result, cluster.setPrimary document.documentId engine)

def deleteDocument (cluster : Cluster α) (documentId : String) :
    Except PyError Unit × Cluster α :=
  let (result, engine) := (cluster.link documentId).deleteDocument (cluster.primary documentId)
    documentId
  (result, cluster.setPrimary documentId engine)

def write (cluster : Cluster α) : Mutation → Except PyError (Option Bool) × Cluster α
  | .put document =>
      match cluster.indexDocument ctx document with
      | (result, after) => (result.map some, after)
  | .delete documentId =>
      match cluster.deleteDocument documentId with
      | (result, after) => (result.map fun _ => none, after)

variable [LinearOrder α]

def start (router : ShardRouter) (links : Nat → Link) (replicas : Nat → List (ShardClient α)) :
    Cluster α where
  router := router
  links := links
  replicas := replicas
  engines := List.replicate router.shardCount
    (SearchEngine.initializeEngine ctx (.new ctx (.openDatabase .empty)) .none).2
  matched := List.length_replicate

-- The coordinator, as it sees the engines now.
def coordinator (cluster : Cluster α) : Coordinator α where
  router := cluster.router
  topology := ClusterTopology.ofGroups (cluster.engines.zipIdx.map fun entry =>
    ((cluster.links entry.2).client ctx entry.1, cluster.replicas entry.2))
  embedder := ctx.embedder
  unicode := ctx.unicode
  matched := by
    rw [← cluster.matched]
    simp [ClusterTopology.shardCount, ClusterTopology.ofGroups]

end Cluster

end PySearch
