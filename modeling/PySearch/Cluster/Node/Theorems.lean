import PySearch.Cluster.Node
import PySearch.Lib.Run
import PySearch.Search.Engine.Theorems

namespace PySearch

-- The phases in which nothing has touched the engine since its initialization.
def Phase.untouched : Phase → Bool
  | recovered | verifying _ | comparing _ _ => true
  | _ => false

namespace Node

variable {α : Type}

-- The mutation that an action asks the engine to commit, and the generation it carries
-- when it comes from a primary.
def asks : NodeAction → Option (Mutation × Option Int)
  | .indexDocument document _ => some (.put document, none)
  | .deleteDocument documentId _ => some (.delete documentId, none)
  | .applyReplicatedPut document generation _ => some (.put document, some generation)
  | .applyReplicatedDelete documentId generation _ => some (.delete documentId, some generation)
  | _ => none

-- The node's process runs, and its engine passes the check.
def runs (check : SearchEngine α → Bool) : Node α → Bool
  | down _ => false
  | up engine _ _ => check engine

theorem runs_iff {check : SearchEngine α → Bool} {node : Node α} :
    node.runs check = true ↔
      ∃ engine phase resyncs, node = up engine phase resyncs ∧ check engine = true := by
  cases node <;> simp [runs]

def resyncs : Node α → List Resync
  | down _ => []
  | up _ _ resyncs => resyncs

-- The snapshots that pending resynchronizations hold.
def Holds (resyncs : List Resync) (documents : List Document) (generation : Int) : Prop :=
  ∃ resync ∈ resyncs, resync.stage = .received documents generation

-- No step makes up a snapshot: it was held before or has just been received.
def NoNewSnapshot (resyncs after : List Resync) (action : NodeAction) : Prop :=
  ∀ documents generation, Holds after documents generation →
    Holds resyncs documents generation ∨ ∃ index, action = .receive index (.ok (documents, generation))

-- Everything one step can do to a node, told by its effect on the engine.
inductive Moves [Arith α] [LinearOrder α] (ctx : EngineContext α) :
    Node α → NodeAction → Node α → Prop
  | started (database : Database) : Moves ctx (down database) .start
      (up (.new ctx (.openDatabase database)) .created [])
  | stopped (engine : SearchEngine α) (phase : Phase) (resyncs : List Resync)
      (action : NodeAction) : Moves ctx (up engine phase resyncs) action (down engine.store.database)
  | initialized (engine after : SearchEngine α) (phase : Phase) (resyncs : List Resync)
      (faults : RebuildFaults) (store : after.store = engine.store) (exact : after.Exact ctx) :
      Moves ctx (up engine .created resyncs) (.initializeEngine faults) (up after phase resyncs)
  | waited (engine : SearchEngine α) (phase later : Phase) (resyncs remaining : List Resync)
      (action : NodeAction) (untouched : later.untouched → phase.untouched)
      (snapshots : NoNewSnapshot resyncs remaining action) :
      Moves ctx (up engine phase resyncs) action (up engine later remaining)
  | silenced (engine after : SearchEngine α) (phase later : Phase)
      (resyncs remaining : List Resync) (action : NodeAction)
      (database : after.store.database = engine.store.database)
      (derived : after.derived = engine.derived) (generation : after.generation = engine.generation)
      (state : after.state ≠ .ready) (untouched : later.untouched → phase.untouched)
      (snapshots : NoNewSnapshot resyncs remaining action) :
      Moves ctx (up engine phase resyncs) action (up after later remaining)
  | verified (engine : SearchEngine α) (localGeneration : Int) (resyncs : List Resync) :
      Moves ctx (up engine (.comparing localGeneration (.ok localGeneration)) resyncs) .compare
        (up engine.markReady .serving resyncs)
  | wrote {β : Type} (engine after : SearchEngine α) (resyncs : List Resync) (action : NodeAction)
      (change : Mutation) (faults : Faults) (result : Except PyError β)
      (asked : asks action = some (change, none))
      (effect : engine.WriteEffect ctx change faults result after) :
      Moves ctx (up engine .serving resyncs) action (up after .serving resyncs)
  | replicated (engine after : SearchEngine α) (resyncs : List Resync) (action : NodeAction)
      (change : Mutation) (generation : Int) (result : Except PyError ReplicationOutcome)
      (asked : asks action = some (change, some generation))
      (effect : engine.ReplicaEffect ctx change generation result after) :
      Moves ctx (up engine .serving resyncs) action (up after .serving resyncs)
  | installed (engine after : SearchEngine α) (phase later : Phase)
      (resyncs remaining : List Resync) (index : Nat) (fault : Bool) (faults : RebuildFaults)
      (resync : Resync) (documents : List Document) (generation : Int)
      (result : Except PyError RebuildReport) (held : resyncs[index]? = some resync)
      (stage : resync.stage = .received documents generation) (touched : later.untouched = false)
      (snapshots : NoNewSnapshot resyncs remaining (.install index fault faults))
      (effect : engine.ResyncEffect ctx documents generation result after) :
      Moves ctx (up engine phase resyncs) (.install index fault faults) (up after later remaining)

section Inversion

theorem noNewSnapshot_same (resyncs : List Resync) (action : NodeAction) :
    NoNewSnapshot resyncs resyncs action := fun _ _ h => .inl h

theorem noNewSnapshot_append (resyncs : List Resync) (resync : Resync) (action : NodeAction)
    (h : ∀ documents generation, resync.stage ≠ .received documents generation) :
    NoNewSnapshot resyncs (resyncs ++ [resync]) action := by
  rintro documents generation ⟨found, hfound, hstage⟩
  rcases List.mem_append.mp hfound with hm | hm
  · exact .inl ⟨found, hm, hstage⟩
  · exact absurd (List.mem_singleton.mp hm ▸ hstage) (h documents generation)

theorem noNewSnapshot_erase (resyncs : List Resync) (index : Nat) (action : NodeAction) :
    NoNewSnapshot resyncs (resyncs.eraseIdx index) action := by
  rintro documents generation ⟨found, hfound, hstage⟩
  exact .inl ⟨found, List.mem_of_mem_eraseIdx hfound, hstage⟩

theorem noNewSnapshot_set (resyncs : List Resync) (index : Nat) (resync : Resync)
    (action : NodeAction)
    (h : ∀ documents generation, resync.stage = .received documents generation →
      ∃ index, action = .receive index (.ok (documents, generation))) :
    NoNewSnapshot resyncs (resyncs.set index resync) action := by
  rintro documents generation ⟨found, hfound, hstage⟩
  rcases List.mem_or_eq_of_mem_set hfound with hm | rfl
  · exact .inl ⟨found, hm, hstage⟩
  · exact .inr (h documents generation hstage)

theorem pending_some {phase : Phase} {resyncs : List Resync} {index : Nat} {resync : Resync}
    (h : pending phase resyncs index = some resync) :
    phase.untouched = false ∧ phase.afterResync.untouched = false ∧
      resyncs[index]? = some resync := by
  unfold pending at h
  split at h
  · rename_i hphase
    cases phase <;> simp_all [Phase.resyncs, Phase.untouched, Phase.afterResync]
  · cases h

variable [Arith α] [LinearOrder α] {ctx : EngineContext α} {role : Role}

theorem receive_moves {engine : SearchEngine α} {phase : Phase} {resyncs : List Resync}
    {index : Nat} {resync : Resync} (h : pending phase resyncs index = some resync)
    (answer : Except PyError (List Document × Int)) :
    Moves ctx (up engine phase resyncs) (.receive index answer)
      (continueResync (ReplicaSynchronizer.receive engine resync answer).1 phase resyncs index
        (ReplicaSynchronizer.receive engine resync answer).2) := by
  obtain ⟨htouched, hafter, -⟩ := pending_some h
  match answer with
  | .error error =>
      exact .silenced engine _ phase _ resyncs _ _ rfl rfl rfl
        (by simp [ReplicaSynchronizer.receive, SearchEngine.markOutOfSync])
        (by simp [hafter]) (noNewSnapshot_erase resyncs index _)
  | .ok (documents, generation) =>
      refine .waited engine phase _ resyncs _ _ id (noNewSnapshot_set resyncs index _ _ ?_)
      intro found other hfound
      cases hfound
      exact ⟨index, rfl⟩

theorem install_moves {engine : SearchEngine α} {phase : Phase} {resyncs : List Resync}
    {index : Nat} {resync : Resync} {documents : List Document} {generation : Int}
    (h : pending phase resyncs index = some resync)
    (hstage : resync.stage = .received documents generation) (fault : Bool)
    (faults : RebuildFaults) :
    Moves ctx (up engine phase resyncs) (.install index fault faults)
      (continueResync
        (ReplicaSynchronizer.install ctx engine resync documents generation fault faults).1
        phase resyncs index
        (ReplicaSynchronizer.install ctx engine resync documents generation fault faults).2) := by
  obtain ⟨htouched, hafter, hheld⟩ := pending_some h
  have heffect := @SearchEngine.resynchronize_effect _ _ _ ctx engine documents generation fault
    faults
  unfold ReplicaSynchronizer.install
  split
  · rename_i error failed hresync
    rw [hresync] at heffect
    refine .installed engine _ phase _ resyncs _ index fault faults resync documents generation _
      hheld hstage htouched (noNewSnapshot_set resyncs index _ _ ?_) heffect
    intro found other hfound
    cases hfound
  · rename_i report done hresync
    rw [hresync] at heffect
    exact .installed engine _ phase _ resyncs _ index fault faults resync documents generation _
      hheld hstage hafter (noNewSnapshot_erase resyncs index _) heffect

theorem compare_moves {engine : SearchEngine α} {localGeneration : Int}
    {remote : Except PyError Int} {resyncs : List Resync} {next : Node α}
    (h : (match ReplicaSynchronizer.compare engine localGeneration remote with
      | (engine, .returned _) => some (up engine .serving resyncs)
      | (engine, .waiting resync) => some (up engine .repairing (resyncs ++ [resync]))) = some next) :
    Moves ctx (up engine (.comparing localGeneration remote) resyncs) .compare next := by
  match remote with
  | .error error =>
      cases h
      exact .silenced engine (engine.markRecovering _) _ _ resyncs _ _ rfl rfl rfl
        (by simp [SearchEngine.markRecovering]) (by simp [Phase.untouched])
        (noNewSnapshot_same resyncs _)
  | .ok remote =>
      simp only [ReplicaSynchronizer.compare] at h
      split_ifs at h with hequal hahead
      · cases h
        subst hequal
        exact .verified engine localGeneration resyncs
      · cases h
        exact .silenced engine _ _ _ resyncs _ _ rfl rfl rfl (by simp [SearchEngine.markOutOfSync])
          (by simp [Phase.untouched]) (noNewSnapshot_same resyncs _)
      · cases h
        exact .silenced engine (engine.markRecovering _) _ _ resyncs _ _ rfl rfl rfl
          (by simp [SearchEngine.markRecovering]) (by simp [Phase.untouched])
          (noNewSnapshot_append resyncs _ _ (by simp [ReplicaSynchronizer.beginResynchronize]))

theorem step_moves {node next : Node α} {action : NodeAction}
    (h : step ctx role node action = some next) : Moves ctx node action next := by
  unfold step at h
  split at h
  · cases h
    exact .started _
  · rename_i engine resyncs faults
    split at h
    · rename_i error failed hinit
      cases h
      have hstore := (SearchEngine.initializeEngine_error hinit).1
      rw [hstore]
      exact .stopped engine _ resyncs _
    · rename_i report ready hinit
      cases h
      obtain ⟨hstore, -, hexact⟩ := SearchEngine.initializeEngine_ok hinit
      exact .initialized engine ready _ resyncs faults hstore hexact
  · cases h
    exact .silenced _ _ _ _ _ _ _ rfl rfl rfl (by simp [SearchEngine.markRecovering])
      (fun _ => rfl) (noNewSnapshot_same _ _)
  · cases h
    exact .waited _ _ _ _ _ _ (fun _ => rfl) (noNewSnapshot_same _ _)
  · exact compare_moves h
  · split at h
    · cases h
      exact .silenced _ _ _ _ _ _ _ rfl rfl rfl (by simp [SearchEngine.markRecovering])
        (by simp [Phase.untouched]) (noNewSnapshot_append _ _ _ (by simp))
    · cases h
  · split at h
    · rename_i hpending
      cases h
      exact receive_moves hpending _
    · cases h
  · split at h
    · rename_i hpending
      cases h
      exact install_moves hpending rfl _ _
    · cases h
  · split at h
    · rename_i hpending
      cases h
      obtain ⟨htouched, hafter, -⟩ := pending_some hpending
      exact .silenced _ _ _ _ _ _ _ rfl rfl rfl (by simp [SearchEngine.markOutOfSync])
        (by simp [hafter]) (noNewSnapshot_erase _ _ _)
    · cases h
  · split at h
    · cases h
    · cases h
      exact .wrote _ _ _ _ _ _ _ rfl (SearchEngine.indexDocument_effect _ _ _)
  · split at h
    · cases h
    · cases h
      exact .wrote _ _ _ _ _ _ _ rfl (SearchEngine.deleteDocument_effect _ _ _)
  · split at h
    · cases h
      exact .replicated _ _ _ _ _ _ _ rfl (SearchEngine.applyReplicatedPut_effect _ _ _ _)
    · cases h
  · split at h
    · cases h
      exact .replicated _ _ _ _ _ _ _ rfl (SearchEngine.applyReplicatedDelete_effect _ _ _ _)
    · cases h
  · cases h
    exact .silenced _ _ _ _ _ _ _ rfl rfl rfl (by simp [SearchEngine.close])
      (by simp [Phase.untouched]) (noNewSnapshot_same _ _)
  · cases h
    exact .stopped _ _ _ _
  · cases h

end Inversion

section Soundness

variable [Arith α] [LinearOrder α] {ctx : EngineContext α} {role : Role}

-- A ready engine is exact, and so is one that startup has rebuilt and not yet released.
def Sound (ctx : EngineContext α) : Node α → Prop
  | down _ => True
  | up engine phase _ => engine.state = .ready ∨ phase.untouched = true → engine.Exact ctx

theorem step_sound {node next : Node α} {action : NodeAction}
    (h : Moves ctx node action next) (hs : Sound ctx node) : Sound ctx next := by
  cases h with
  | started database => simp [Sound, SearchEngine.new, Phase.untouched]
  | stopped engine phase resyncs action => trivial
  | initialized engine after phase resyncs faults store exact => exact fun _ => exact
  | waited engine phase later resyncs remaining action untouched snapshots =>
      rintro (hready | hphase)
      · exact hs (.inl hready)
      · exact hs (.inr (untouched hphase))
  | silenced engine after phase later resyncs remaining action database derived generation state
      untouched snapshots =>
      rintro (hready | hphase)
      · exact absurd hready state
      · have hexact := hs (.inr (untouched hphase))
        exact ⟨by rw [derived, database]; exact hexact.derived,
          by rw [generation, database]; exact hexact.generation⟩
  | verified engine localGeneration resyncs =>
      intro _
      have hexact := hs (.inr rfl)
      exact ⟨hexact.derived, hexact.generation⟩
  | wrote engine after resyncs action change faults result asked effect =>
      cases effect with
      | refused error commit => exact hs
      | degraded reason after ready commit store generation state =>
          simp [Sound, state, Phase.untouched]
      | applied value after ready commit store generation state exact =>
          exact fun _ => exact (hs (.inl ready))
  | replicated engine after resyncs action change generation result asked effect =>
      cases effect with
      | refused error => exact hs
      | duplicate known => exact hs
      | gap after ahead store derived kept state => simp [Sound, state, Phase.untouched]
      | degraded reason after ready next store kept state => simp [Sound, state, Phase.untouched]
      | applied after ready next store advanced state exact =>
          exact fun _ => exact (hs (.inl ready))
  | installed engine after phase later resyncs remaining index fault faults resync documents
      generation result held stage touched snapshots effect =>
      cases effect with
      | refused error after store kept state => simp [Sound, state, touched]
      | failed error after nodup store kept state => simp [Sound, state, touched]
      | installed report after nodup store advanced state exact => exact fun _ => exact

-- The database moves by one mutation at the generation in line, or to a held snapshot.
inductive DatabaseMove (node : Node α) (action : NodeAction) : Database → Prop
  | kept : DatabaseMove node action node.database
  | applied (change : Mutation) (carried : Option Int)
      (asked : asks action = some (change, carried))
      (next : ∀ generation, carried = some generation → generation = node.database.generation + 1) :
      DatabaseMove node action (node.database.apply change (node.database.generation + 1))
  | replaced (index : Nat) (fault : Bool) (faults : RebuildFaults) (resync : Resync)
      (documents : List Document) (generation : Int) (asked : action = .install index fault faults)
      (held : node.resyncs[index]? = some resync)
      (stage : resync.stage = .received documents generation) :
      DatabaseMove node action (.replaceAll documents generation)

omit [Arith α] [LinearOrder α] in
@[simp] theorem database_up (engine : SearchEngine α) (phase : Phase) (resyncs : List Resync) :
    (up engine phase resyncs).database = engine.store.database := rfl

theorem moves_database {node next : Node α} {action : NodeAction}
    (h : Moves ctx node action next) (hs : Sound ctx node) :
    DatabaseMove node action next.database := by
  cases h with
  | started database => exact .kept
  | stopped engine phase resyncs action => exact .kept
  | initialized engine after phase resyncs faults store exact =>
      rw [database_up, store]
      exact .kept
  | waited engine phase later resyncs remaining action untouched snapshots => exact .kept
  | silenced engine after phase later resyncs remaining action database derived generation state
      untouched snapshots =>
      rw [database_up, database]
      exact .kept
  | verified engine localGeneration resyncs => exact .kept
  | wrote engine after resyncs action change faults result asked effect =>
      cases effect with
      | refused error commit => exact .kept
      | degraded reason after ready commit store generation state =>
          have hgen := (hs (.inl ready)).generation
          rw [database_up, store, hgen]
          exact .applied change none asked (by simp)
      | applied value after ready commit store generation state exact =>
          have hgen := (hs (.inl ready)).generation
          rw [database_up, store, hgen]
          exact .applied change none asked (by simp)
  | replicated engine after resyncs action change generation result asked effect =>
      cases effect with
      | refused error => exact .kept
      | duplicate known => exact .kept
      | gap after ahead store derived kept state =>
          rw [database_up, store]
          exact .kept
      | degraded reason after ready next store kept state =>
          have hgen := (hs (.inl ready)).generation
          rw [database_up, store, next, hgen]
          exact .applied change (some generation) asked (by rintro _ ⟨⟩; rw [next, hgen]; rfl)
      | applied after ready next store advanced state exact =>
          have hgen := (hs (.inl ready)).generation
          rw [database_up, store, next, hgen]
          exact .applied change (some generation) asked (by rintro _ ⟨⟩; rw [next, hgen]; rfl)
  | installed engine after phase later resyncs remaining index fault faults resync documents
      generation result held stage touched snapshots effect =>
      cases effect with
      | refused error after store kept state =>
          rw [database_up, store]
          exact .kept
      | failed error after nodup store kept state =>
          rw [database_up, store]
          exact .replaced index fault faults resync documents generation rfl held stage
      | installed report after nodup store advanced state exact =>
          rw [database_up, store]
          exact .replaced index fault faults resync documents generation rfl held stage

theorem moves_snapshots {node next : Node α} {action : NodeAction}
    (h : Moves ctx node action next) : NoNewSnapshot node.resyncs next.resyncs action := by
  cases h with
  | started database => exact noNewSnapshot_same [] _
  | stopped engine phase resyncs action =>
      rintro documents generation ⟨_, hnone, -⟩
      cases hnone
  | waited engine phase later resyncs remaining action untouched snapshots => exact snapshots
  | silenced engine after phase later resyncs remaining action database derived generation state
      untouched snapshots => exact snapshots
  | installed engine after phase later resyncs remaining index fault faults resync documents
      generation result held stage touched snapshots effect => exact snapshots
  | initialized | verified | wrote | replicated => exact noNewSnapshot_same _ _

end Soundness

end Node

end PySearch
