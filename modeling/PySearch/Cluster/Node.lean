import PySearch.Search.Engine

namespace PySearch

-- What a replica did when it checked itself against its primary.
structure SyncOutcome where
  synchronized : Bool
  detail : String
  localGeneration : Int
  primaryGeneration : Option Int
  deriving DecidableEq

-- One call of `_resynchronize` between its steps: it waits for the primary's export, or
-- holds the snapshot it received, or has seen the installation raise.
inductive ResyncStage
  | requested
  | received (documents : List Document) (generation : Int)
  | failed

structure Resync where
  localGeneration : Int
  primaryGeneration : Option Int
  stage : ResyncStage

-- What a step of the synchronizer leads to.
inductive SyncStep
  | returned (outcome : SyncOutcome)
  | waiting (resync : Resync)

variable {α : Type}

namespace ReplicaSynchronizer

-- `synchronize` up to its request for the primary's generation.
def beginSynchronize (engine : SearchEngine α) : SearchEngine α × Int :=
  (engine.markRecovering "verifying synchronization with the primary", engine.generation)

-- `_resynchronize` up to its request for the primary's corpus.
def beginResynchronize (engine : SearchEngine α) (localGeneration : Int)
    (primaryGeneration : Option Int) : SearchEngine α × Resync :=
  (engine.markRecovering ("resynchronizing from generation " ++ toString localGeneration),
    ⟨localGeneration, primaryGeneration, .requested⟩)

-- The rest of `synchronize`, once the primary has answered or failed to.
def compare (engine : SearchEngine α) (localGeneration : Int) :
    Except PyError Int → SearchEngine α × SyncStep
  | .error _ =>
      let detail := "primary unreachable, synchronization unverified"
      (engine.markRecovering detail, .returned ⟨false, detail, localGeneration, none⟩)
  | .ok remote =>
      if localGeneration = remote then
        (engine.markReady,
          .returned ⟨true, "synchronized with the primary", localGeneration, some remote⟩)
      else if localGeneration > remote then
        let detail := "ahead of the primary: local " ++ toString localGeneration ++
          ", primary " ++ toString remote
        (engine.markOutOfSync detail, .returned ⟨false, detail, localGeneration, some remote⟩)
      else
        let (engine, resync) := beginResynchronize engine localGeneration (some remote)
        (engine, .waiting resync)

-- The export arrives, or the request for it fails.
def receive (engine : SearchEngine α) (resync : Resync) :
    Except PyError (List Document × Int) → SearchEngine α × SyncStep
  | .error _ =>
      let detail := "resynchronization failed: could not read the primary's corpus"
      (engine.markOutOfSync detail,
        .returned ⟨false, detail, resync.localGeneration, resync.primaryGeneration⟩)
  | .ok (documents, generation) =>
      (engine, .waiting { resync with stage := .received documents generation })

-- Installing the snapshot and reporting that it failed are two acquisitions of the lock.
def install [Arith α] [LinearOrder α] (ctx : EngineContext α) (engine : SearchEngine α)
    (resync : Resync) (documents : List Document) (generation : Int) (fault : Bool)
    (faults : RebuildFaults) : SearchEngine α × SyncStep :=
  match engine.resynchronize ctx documents generation fault faults with
  | (.error _, engine) => (engine, .waiting { resync with stage := .failed })
  | (.ok _, engine) =>
      (engine, .returned ⟨true, "resynchronized to generation " ++ toString generation,
        generation, some generation⟩)

def giveUp (engine : SearchEngine α) (resync : Resync) : SearchEngine α × SyncOutcome :=
  let detail := "resynchronization failed while rebuilding derived state"
  (engine.markOutOfSync detail,
    ⟨false, detail, resync.localGeneration, resync.primaryGeneration⟩)

end ReplicaSynchronizer

inductive Role
  | single
  | primary
  | replica
  deriving DecidableEq

-- How far the startup hook of a process has come. Requests are served once it is done.
inductive Phase
  | created
  | recovered
  | verifying (localGeneration : Int)
  | comparing (localGeneration : Int) (remote : Except PyError Int)
  | repairing
  | serving

namespace Phase

-- Resynchronizations run in the last part of the startup of a replica and while it serves.
def resyncs : Phase → Bool
  | repairing | serving => true
  | _ => false

-- The startup resynchronization is the last thing the startup hook waits for.
def afterResync : Phase → Phase
  | repairing => serving
  | phase => phase

end Phase

-- A database file, with or without a process that runs on it. `resyncs` are the calls of
-- `_resynchronize` that have not returned.
inductive Node (α : Type)
  | down (database : Database)
  | up (engine : SearchEngine α) (phase : Phase) (resyncs : List Resync)

-- What can happen to one node. Everything that comes from outside (answers of the primary,
-- replicated mutations, failures) is arbitrary here.
inductive NodeAction
  | start
  | initializeEngine (faults : RebuildFaults)
  | synchronize
  | generation (remote : Except PyError Int)
  | compare
  | resync
  | receive (index : Nat) (answer : Except PyError (List Document × Int))
  | install (index : Nat) (fault : Bool) (faults : RebuildFaults)
  | giveUp (index : Nat)
  | indexDocument (document : Document) (faults : Faults)
  | deleteDocument (documentId : String) (faults : Faults)
  | applyReplicatedPut (document : Document) (generation : Int) (faults : Faults)
  | applyReplicatedDelete (documentId : String) (generation : Int) (faults : Faults)
  | close
  | crash

namespace Node

-- The durable content of the node's database.
def database : Node α → Database
  | down database => database
  | up engine _ _ => engine.store.database

-- The pending resynchronization with the given number, if it may take a step.
def pending (phase : Phase) (resyncs : List Resync) (index : Nat) : Option Resync :=
  if phase.resyncs then resyncs[index]? else none

-- Continue one of the pending resynchronizations.
def continueResync (engine : SearchEngine α) (phase : Phase) (resyncs : List Resync)
    (index : Nat) : SyncStep → Node α
  | .waiting resync => up engine phase (resyncs.set index resync)
  | .returned _ => up engine phase.afterResync (resyncs.eraseIdx index)

variable [Arith α] [LinearOrder α] (ctx : EngineContext α) (role : Role)

def step : Node α → NodeAction → Option (Node α)
  | down database, .start => some (up (.new ctx (.openDatabase database)) .created [])
  -- An exception of `initialize` ends the process.
  | up engine .created resyncs, .initializeEngine faults =>
      match engine.initializeEngine ctx faults with
      | (.error _, engine) => some (down engine.store.database)
      | (.ok _, engine) =>
          some (up engine (if role = .replica then .recovered else .serving) resyncs)
  | up engine .recovered resyncs, .synchronize =>
      let (engine, localGeneration) := ReplicaSynchronizer.beginSynchronize engine
      some (up engine (.verifying localGeneration) resyncs)
  | up engine (.verifying localGeneration) resyncs, .generation remote =>
      some (up engine (.comparing localGeneration remote) resyncs)
  | up engine (.comparing localGeneration remote) resyncs, .compare =>
      match ReplicaSynchronizer.compare engine localGeneration remote with
      | (engine, .returned _) => some (up engine .serving resyncs)
      | (engine, .waiting resync) => some (up engine .repairing (resyncs ++ [resync]))
  | up engine .serving resyncs, .resync =>
      if role = .replica then
        let (engine, resync) :=
          ReplicaSynchronizer.beginResynchronize engine engine.generation none
        some (up engine .serving (resyncs ++ [resync]))
      else none
  | up engine phase resyncs, .receive index answer =>
      match pending phase resyncs index with
      | some ⟨localGeneration, primaryGeneration, .requested⟩ =>
          let (engine, next) := ReplicaSynchronizer.receive engine
            ⟨localGeneration, primaryGeneration, .requested⟩ answer
          some (continueResync engine phase resyncs index next)
      | _ => none
  | up engine phase resyncs, .install index fault faults =>
      match pending phase resyncs index with
      | some ⟨localGeneration, primaryGeneration, .received documents generation⟩ =>
          let (engine, next) := ReplicaSynchronizer.install ctx engine
            ⟨localGeneration, primaryGeneration, .received documents generation⟩
            documents generation fault faults
          some (continueResync engine phase resyncs index next)
      | _ => none
  | up engine phase resyncs, .giveUp index =>
      match pending phase resyncs index with
      | some ⟨localGeneration, primaryGeneration, .failed⟩ =>
          let (engine, outcome) := ReplicaSynchronizer.giveUp engine
            ⟨localGeneration, primaryGeneration, .failed⟩
          some (continueResync engine phase resyncs index (.returned outcome))
      | _ => none
  | up engine .serving resyncs, .indexDocument document faults =>
      if role = .replica then none
      else some (up (engine.indexDocument ctx document faults).2 .serving resyncs)
  | up engine .serving resyncs, .deleteDocument documentId faults =>
      if role = .replica then none
      else some (up (engine.deleteDocument documentId faults).2 .serving resyncs)
  | up engine .serving resyncs, .applyReplicatedPut document generation faults =>
      if role = .replica then
        some (up (engine.applyReplicatedPut ctx document generation faults).2 .serving resyncs)
      else none
  | up engine .serving resyncs, .applyReplicatedDelete documentId generation faults =>
      if role = .replica then
        some (up (engine.applyReplicatedDelete documentId generation faults).2 .serving resyncs)
      else none
  | up engine .serving resyncs, .close => some (up engine.close .serving resyncs)
  | up engine _ _, .crash => some (down engine.store.database)
  | _, _ => none

end Node

end PySearch
