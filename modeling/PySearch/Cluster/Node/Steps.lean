import PySearch.Cluster.Node.Theorems

namespace PySearch.Node

variable {α : Type} [Arith α] [LinearOrder α]

-- The actions that hand a replicated mutation to the engine.
def replicate (mutation : Mutation) (generation : Int) (faults : Faults) : NodeAction :=
  match mutation with
  | .put document => .applyReplicatedPut document generation faults
  | .delete documentId => .applyReplicatedDelete documentId generation faults

-- The transitions of a node one by one, each with the phase it is taken in.
inductive Steps (ctx : EngineContext α) (role : Role) : Node α → NodeAction → Node α → Prop
  | started (database : Database) :
      Steps ctx role (down database) .start (up (.new ctx (.openDatabase database)) .created [])
  | notStarted (engine after : SearchEngine α) (resyncs : List Resync) (faults : RebuildFaults)
      (error : PyError) (raised : engine.initializeEngine ctx faults = (.error error, after)) :
      Steps ctx role (up engine .created resyncs) (.initializeEngine faults)
        (down engine.store.database)
  | initialized (engine after : SearchEngine α) (resyncs : List Resync) (faults : RebuildFaults)
      (report : RebuildReport) (rebuilt : engine.initializeEngine ctx faults = (.ok report, after)) :
      Steps ctx role (up engine .created resyncs) (.initializeEngine faults)
        (up after (if role = .replica then .recovered else .serving) resyncs)
  | asked (engine : SearchEngine α) (resyncs : List Resync) (detail : String) :
      Steps ctx role (up engine .recovered resyncs) .synchronize
        (up (engine.markRecovering detail) (.verifying engine.generation) resyncs)
  | told (engine : SearchEngine α) (localGeneration : Int) (remote : Except PyError Int)
      (resyncs : List Resync) :
      Steps ctx role (up engine (.verifying localGeneration) resyncs) (.generation remote)
        (up engine (.comparing localGeneration remote) resyncs)
  | unverified (engine : SearchEngine α) (localGeneration : Int) (error : PyError)
      (resyncs : List Resync) (detail : String) :
      Steps ctx role (up engine (.comparing localGeneration (.error error)) resyncs) .compare
        (up (engine.markRecovering detail) .serving resyncs)
  | verified (engine : SearchEngine α) (localGeneration : Int) (resyncs : List Resync) :
      Steps ctx role (up engine (.comparing localGeneration (.ok localGeneration)) resyncs) .compare
        (up engine.markReady .serving resyncs)
  | ahead (engine : SearchEngine α) (localGeneration remote : Int) (resyncs : List Resync)
      (detail : String) (more : remote < localGeneration) :
      Steps ctx role (up engine (.comparing localGeneration (.ok remote)) resyncs) .compare
        (up (engine.markOutOfSync detail) .serving resyncs)
  | behind (engine : SearchEngine α) (localGeneration remote : Int) (resyncs : List Resync)
      (detail : String) (less : localGeneration < remote) :
      Steps ctx role (up engine (.comparing localGeneration (.ok remote)) resyncs) .compare
        (up (engine.markRecovering detail) .repairing
          (resyncs ++ [⟨localGeneration, some remote, .requested⟩]))
  | called (engine : SearchEngine α) (resyncs : List Resync) (detail : String)
      (replica : role = .replica) :
      Steps ctx role (up engine .serving resyncs) .resync
        (up (engine.markRecovering detail) .serving
          (resyncs ++ [⟨engine.generation, none, .requested⟩]))
  | notExported (engine : SearchEngine α) (phase : Phase) (resyncs : List Resync) (index : Nat)
      (resync : Resync) (error : PyError) (detail : String)
      (pending : pending phase resyncs index = some resync) (stage : resync.stage = .requested) :
      Steps ctx role (up engine phase resyncs) (.receive index (.error error))
        (up (engine.markOutOfSync detail) phase.afterResync (resyncs.eraseIdx index))
  | exported (engine : SearchEngine α) (phase : Phase) (resyncs : List Resync) (index : Nat)
      (resync : Resync) (documents : List Document) (generation : Int)
      (pending : pending phase resyncs index = some resync) (stage : resync.stage = .requested) :
      Steps ctx role (up engine phase resyncs) (.receive index (.ok (documents, generation)))
        (up engine phase
          (resyncs.set index { resync with stage := .received documents generation }))
  | notInstalled (engine after : SearchEngine α) (phase : Phase) (resyncs : List Resync)
      (index : Nat) (resync : Resync) (documents : List Document) (generation : Int) (fault : Bool)
      (faults : RebuildFaults) (error : PyError)
      (pending : pending phase resyncs index = some resync)
      (stage : resync.stage = .received documents generation)
      (raised : engine.resynchronize ctx documents generation fault faults = (.error error, after)) :
      Steps ctx role (up engine phase resyncs) (.install index fault faults)
        (up after phase (resyncs.set index { resync with stage := .failed }))
  | installed (engine after : SearchEngine α) (phase : Phase) (resyncs : List Resync)
      (index : Nat) (resync : Resync) (documents : List Document) (generation : Int) (fault : Bool)
      (faults : RebuildFaults) (report : RebuildReport)
      (pending : pending phase resyncs index = some resync)
      (stage : resync.stage = .received documents generation)
      (rebuilt : engine.resynchronize ctx documents generation fault faults = (.ok report, after)) :
      Steps ctx role (up engine phase resyncs) (.install index fault faults)
        (up after phase.afterResync (resyncs.eraseIdx index))
  | gaveUp (engine : SearchEngine α) (phase : Phase) (resyncs : List Resync) (index : Nat)
      (resync : Resync) (detail : String) (pending : pending phase resyncs index = some resync)
      (stage : resync.stage = .failed) :
      Steps ctx role (up engine phase resyncs) (.giveUp index)
        (up (engine.markOutOfSync detail) phase.afterResync (resyncs.eraseIdx index))
  | wrote {β : Type} (engine after : SearchEngine α) (resyncs : List Resync) (action : NodeAction)
      (mutation : Mutation) (faults : Faults) (result : Except PyError β)
      (writer : role ≠ .replica) (effect : engine.WriteEffect ctx mutation faults result after) :
      Steps ctx role (up engine .serving resyncs) action (up after .serving resyncs)
  | replicated (engine : SearchEngine α) (resyncs : List Resync) (mutation : Mutation)
      (generation : Int) (faults : Faults) (replica : role = .replica) :
      Steps ctx role (up engine .serving resyncs) (replicate mutation generation faults)
        (up (engine.applyReplicated ctx mutation generation faults).2 .serving resyncs)
  | closed (engine : SearchEngine α) (resyncs : List Resync) :
      Steps ctx role (up engine .serving resyncs) .close (up engine.close .serving resyncs)
  | crashed (engine : SearchEngine α) (phase : Phase) (resyncs : List Resync) :
      Steps ctx role (up engine phase resyncs) .crash (down engine.store.database)

variable {ctx : EngineContext α} {role : Role} {node next : Node α} {action : NodeAction}

theorem step_compare {engine : SearchEngine α} {localGeneration : Int}
    {remote : Except PyError Int} {resyncs : List Resync}
    (h : step ctx role (up engine (.comparing localGeneration remote) resyncs) .compare =
      some next) :
    Steps ctx role (up engine (.comparing localGeneration remote) resyncs) .compare next := by
  cases remote with
  | error error =>
      cases h
      exact .unverified _ _ _ _ _
  | ok remote =>
      simp only [step, ReplicaSynchronizer.compare] at h
      split_ifs at h with hequal hahead
      · cases h
        subst hequal
        exact .verified _ _ _
      · cases h
        exact .ahead _ _ _ _ _ hahead
      · cases h
        exact .behind _ _ _ _ _ (by omega)

theorem step_install {engine : SearchEngine α} {phase : Phase} {resyncs : List Resync}
    {index : Nat} {resync : Resync} {documents : List Document} {generation : Int}
    (hpending : pending phase resyncs index = some resync)
    (hstage : resync.stage = .received documents generation) (fault : Bool)
    (faults : RebuildFaults) :
    Steps ctx role (up engine phase resyncs) (.install index fault faults)
      (continueResync
        (ReplicaSynchronizer.install ctx engine resync documents generation fault faults).1
        phase resyncs index
        (ReplicaSynchronizer.install ctx engine resync documents generation fault faults).2) := by
  unfold ReplicaSynchronizer.install
  split
  · rename_i error after hraised
    exact .notInstalled _ _ _ _ _ _ _ _ _ _ _ hpending hstage hraised
  · rename_i report after hrebuilt
    exact .installed _ _ _ _ _ _ _ _ _ _ _ hpending hstage hrebuilt

theorem steps_of_step (h : step ctx role node action = some next) :
    Steps ctx role node action next := by
  unfold step at h
  split at h
  · cases h
    exact .started _
  · split at h
    · rename_i error after hraised
      cases h
      have hstore := (SearchEngine.initializeEngine_error hraised).1
      rw [hstore]
      exact .notStarted _ _ _ _ _ hraised
    · rename_i report after hrebuilt
      cases h
      exact .initialized _ _ _ _ _ hrebuilt
  · cases h
    exact .asked _ _ _
  · cases h
    exact .told _ _ _ _
  · exact step_compare h
  · split at h
    · rename_i hreplica
      cases h
      exact .called _ _ _ hreplica
    · cases h
  · rename_i index answer
    split at h
    · rename_i hpending
      cases h
      cases answer with
      | error error => exact .notExported _ _ _ _ _ _ _ hpending rfl
      | ok snapshot => exact .exported _ _ _ _ _ _ _ hpending rfl
    · cases h
  · split at h
    · rename_i hpending
      cases h
      exact step_install hpending rfl _ _
    · cases h
  · split at h
    · rename_i hpending
      cases h
      exact .gaveUp _ _ _ _ _ _ hpending rfl
    · cases h
  · split at h
    · cases h
    · rename_i hwriter
      cases h
      exact .wrote _ _ _ _ _ _ _ hwriter (SearchEngine.indexDocument_effect _ _ _)
  · split at h
    · cases h
    · rename_i hwriter
      cases h
      exact .wrote _ _ _ _ _ _ _ hwriter (SearchEngine.deleteDocument_effect _ _ _)
  · rename_i document generation faults
    split at h
    · rename_i hreplica
      cases h
      exact .replicated _ _ (.put document) generation faults hreplica
    · cases h
  · rename_i documentId generation faults
    split at h
    · rename_i hreplica
      cases h
      exact .replicated _ _ (.delete documentId) generation faults hreplica
    · cases h
  · cases h
    exact .closed _ _
  · cases h
    exact .crashed _ _ _
  · cases h

-- A node that serves goes on serving until its process ends.
theorem steps_serving {engine : SearchEngine α} {resyncs : List Resync}
    (h : Steps ctx role (up engine .serving resyncs) action next) :
    (∃ after later, next = up after .serving later) ∨
      action = .crash ∧ ∃ database, next = down database := by
  cases h with
  | crashed => exact .inr ⟨rfl, _, rfl⟩
  | _ => exact .inl ⟨_, _, rfl⟩

end PySearch.Node
