import PySearch.Cluster.Replication.History

namespace PySearch

variable {α : Type}

namespace ReplicaSynchronizer

variable [Arith α] [LinearOrder α] (ctx : EngineContext α)

-- `_resynchronize` with nothing in between: the primary answers the request for its corpus,
-- the snapshot is installed, and every exception ends in `mark_out_of_sync`.
def resynchronizeFrom (engine : SearchEngine α) (localGeneration : Int)
    (primaryGeneration : Option Int) (answer : Except PyError (List Document × Int)) (fault : Bool)
    (faults : RebuildFaults) : SearchEngine α × SyncOutcome :=
  let (engine, resync) := beginResynchronize engine localGeneration primaryGeneration
  match answer with
  | .error _ =>
      let detail := "resynchronization failed: could not read the primary's corpus"
      (engine.markOutOfSync detail,
        ⟨false, detail, resync.localGeneration, resync.primaryGeneration⟩)
  | .ok (documents, generation) =>
      match engine.resynchronize ctx documents generation fault faults with
      | (.error _, engine) => giveUp engine resync
      | (.ok _, engine) =>
          (engine, ⟨true, "resynchronized to generation " ++ toString generation, generation,
            some generation⟩)

def resynchronize (engine : SearchEngine α) (answer : Except PyError (List Document × Int))
    (fault : Bool) (faults : RebuildFaults) : SearchEngine α × SyncOutcome :=
  resynchronizeFrom ctx engine engine.generation none answer fault faults

-- `synchronize`, where `remote` and `answer` are what the primary answers. `compare` has
-- taken the first step of `_resynchronize`, which changes nothing when it is taken again.
def synchronize (engine : SearchEngine α) (remote : Except PyError Int)
    (answer : Except PyError (List Document × Int)) (fault : Bool) (faults : RebuildFaults) :
    SearchEngine α × SyncOutcome :=
  let (engine, localGeneration) := beginSynchronize engine
  match compare engine localGeneration remote with
  | (engine, .returned outcome) => (engine, outcome)
  | (engine, .waiting resync) => resynchronizeFrom ctx engine resync.localGeneration
      resync.primaryGeneration answer fault faults

-- Everything a call of `_resynchronize` can lead to: the snapshot is installed as a whole, or
-- the replica is out of sync and its database is the old one or the new one.
inductive ResyncResult (engine : SearchEngine α) (answer : Except PyError (List Document × Int)) :
    SearchEngine α × SyncOutcome → Prop
  | installed (documents : List Document) (generation : Int)
      (answered : answer = .ok (documents, generation)) (after : SearchEngine α)
      (outcome : SyncOutcome) (synchronized : outcome.synchronized = true)
      (store : after.store = { engine.store with database := .replaceAll documents generation })
      (advanced : after.generation = generation) (state : after.state = .ready)
      (exact : after.Exact ctx) : ResyncResult engine answer (after, outcome)
  | untouched (after : SearchEngine α) (outcome : SyncOutcome)
      (synchronized : outcome.synchronized = false) (state : after.state = .outOfSync)
      (store : after.store = engine.store) (kept : after.generation = engine.generation) :
      ResyncResult engine answer (after, outcome)
  | replaced (documents : List Document) (generation : Int)
      (answered : answer = .ok (documents, generation)) (after : SearchEngine α)
      (outcome : SyncOutcome) (synchronized : outcome.synchronized = false)
      (state : after.state = .outOfSync)
      (store : after.store = { engine.store with database := .replaceAll documents generation })
      (kept : after.generation = engine.generation ∨ after.generation = generation) :
      ResyncResult engine answer (after, outcome)

theorem resynchronizeFrom_result (engine : SearchEngine α) (localGeneration : Int)
    (primaryGeneration : Option Int) (answer : Except PyError (List Document × Int)) (fault : Bool)
    (faults : RebuildFaults) : ResyncResult ctx engine answer
      (resynchronizeFrom ctx engine localGeneration primaryGeneration answer fault faults) := by
  cases answer with
  | error error => exact .untouched _ _ rfl rfl rfl rfl
  | ok snapshot =>
      obtain ⟨documents, generation⟩ := snapshot
      have heffect := @SearchEngine.resynchronize_effect _ _ _ ctx
        (beginResynchronize engine localGeneration primaryGeneration).1 documents generation fault
        faults
      unfold resynchronizeFrom
      dsimp only
      cases hinstall : (beginResynchronize engine localGeneration primaryGeneration).1.resynchronize
          ctx documents generation fault faults with
      | mk result after =>
          rw [hinstall] at heffect
          dsimp only at heffect ⊢
          cases heffect with
          | refused error after store kept state =>
              exact .untouched _ _ rfl rfl store kept
          | failed error after nodup store kept state =>
              exact .replaced documents generation rfl _ _ rfl rfl store kept
          | installed report after nodup store advanced state exact =>
              exact .installed documents generation rfl _ _ rfl store advanced state exact

end ReplicaSynchronizer

-- What reaches a replica that runs: mutations from its primary, calls that repair it, and
-- the end of the process.
inductive ReplicaRequest
  | replicate (mutation : Mutation) (generation : Int) (faults : Faults)
  | resync (answer : Except PyError (List Document × Int)) (fault : Bool) (faults : RebuildFaults)
  | close

-- The answer of a primary that does not fail is its corpus after the first mutations of its
-- history, and not behind the given generation.
def Snapshot (history : List Mutation) (generation : Int)
    (answer : Except PyError (List Document × Int)) : Prop :=
  ∀ documents exported, answer = .ok (documents, exported) →
    (Database.replaceAll documents exported).Follows history ∧ generation ≤ exported

namespace SearchEngine

variable [Arith α] [LinearOrder α] (ctx : EngineContext α)

def handle (engine : SearchEngine α) : ReplicaRequest → Option (SearchEngine α)
  | .replicate mutation generation faults =>
      some (engine.applyReplicated ctx mutation generation faults).2
  | .resync answer fault faults =>
      some (ReplicaSynchronizer.resynchronize ctx engine answer fault faults).1
  | .close => some engine.close

-- Whatever is asked of the replica, no call repairs it.
def Unrepaired (history : List Mutation) (engine : SearchEngine α) : ReplicaRequest → Prop
  | .resync answer fault faults =>
      Snapshot history engine.store.database.generation answer ∧
        (ReplicaSynchronizer.resynchronize ctx engine answer fault faults).2.synchronized = false
  | _ => True

-- No question that the routes of a shard node ask is answered, no replicated mutation
-- changes anything but the state, and a mutation is called a duplicate only when the
-- database holds it.
structure Withdrawn (history : List Mutation) (engine : SearchEngine α) : Prop where
  search : ∀ query limit stats, ∃ error, engine.search ctx query limit stats = .error error
  corpusStats : ∀ terms, ∃ error, engine.corpusStats terms = .error error
  stats : ∃ error, engine.stats = .error error
  semanticSearch : ∀ vector limit, ∃ error, engine.semanticSearch vector limit = .error error
  replicated : ∀ mutation generation faults,
    (engine.applyReplicated ctx mutation generation faults).1 ≠ .ok .applied ∧
      ∃ state detail, (engine.applyReplicated ctx mutation generation faults).2 =
        { engine with state := state, detail := detail }
  duplicate : ∀ mutation generation faults,
    (engine.applyReplicated ctx mutation generation faults).1 = .ok .duplicate →
      generation ≤ engine.store.database.generation ∧ engine.store.database.Follows history

-- Not ready, and not ahead of the database in memory.
structure Lagging (history : List Mutation) (engine : SearchEngine α) : Prop where
  state : engine.state ≠ .ready
  follows : engine.store.database.Follows history
  behind : engine.generation ≤ engine.store.database.generation

variable {ctx} {history : List Mutation} {engine : SearchEngine α}

omit [Arith α] [LinearOrder α] in
theorem requireOperational_refused (h : engine.state ≠ .ready) :
    engine.requireOperational = .error (.engineNotReady engine.state engine.detail) := if_neg h

omit [LinearOrder α] in
theorem Lagging.replicated (h : Lagging history engine) (mutation : Mutation) (generation : Int)
    (faults : Faults) :
    (engine.applyReplicated ctx mutation generation faults).1 ≠ .ok .applied ∧
      ∃ state detail, state ≠ .ready ∧ (engine.applyReplicated ctx mutation generation faults).2 =
        { engine with state := state, detail := detail } := by
  have heffect := @applyReplicated_effect _ _ ctx engine mutation generation faults
  cases hcall : engine.applyReplicated ctx mutation generation faults with
  | mk result after =>
      rw [hcall] at heffect
      dsimp only at heffect ⊢
      cases heffect with
      | refused error => exact ⟨by simp, _, _, h.state, rfl⟩
      | duplicate known => exact ⟨by simp, _, _, h.state, rfl⟩
      | gap after ahead store derived kept state =>
          refine ⟨by simp, .outOfSync, after.detail, by simp, ?_⟩
          rw [← store, ← derived, ← kept, ← state]
      | degraded reason after ready next store kept state => exact absurd ready h.state
      | applied after ready next store advanced state exact => exact absurd ready h.state

omit [LinearOrder α] in
theorem Lagging.duplicate (h : Lagging history engine) {mutation : Mutation} {generation : Int}
    {faults : Faults}
    (hcall : (engine.applyReplicated ctx mutation generation faults).1 = .ok .duplicate) :
    generation ≤ engine.store.database.generation := by
  have heffect := @applyReplicated_effect _ _ ctx engine mutation generation faults
  rw [hcall] at heffect
  generalize (engine.applyReplicated ctx mutation generation faults).2 = after at heffect
  cases heffect with
  | duplicate known => exact known.trans h.behind

theorem Lagging.withdrawn (h : Lagging history engine) : Withdrawn ctx history engine := by
  have hrefused := requireOperational_refused h.state
  refine ⟨?_, ?_, ?_, ?_, ?_, ?_⟩
  · intro query limit stats
    exact ⟨_, by rw [SearchEngine.search, hrefused]; rfl⟩
  · intro terms
    exact ⟨_, by rw [SearchEngine.corpusStats, hrefused]; rfl⟩
  · exact ⟨_, by rw [SearchEngine.stats, hrefused]; rfl⟩
  · intro vector limit
    exact ⟨_, by rw [SearchEngine.semanticSearch, hrefused]; rfl⟩
  · intro mutation generation faults
    obtain ⟨hresult, state, detail, -, hafter⟩ := h.replicated mutation generation faults
    exact ⟨hresult, state, detail, hafter⟩
  · intro mutation generation faults hcall
    exact ⟨h.duplicate hcall, h.follows⟩

-- A failed resynchronization leaves the replica behind its database, old or new.
theorem lagging_of_failed (hfollows : engine.store.database.Follows history)
    (hbehind : engine.generation ≤ engine.store.database.generation)
    {answer : Except PyError (List Document × Int)} {fault : Bool} {faults : RebuildFaults}
    (hsnapshot : Snapshot history engine.store.database.generation answer)
    (hfailed : (ReplicaSynchronizer.resynchronize ctx engine answer fault faults).2.synchronized =
      false) :
    Lagging history (ReplicaSynchronizer.resynchronize ctx engine answer fault faults).1 := by
  have hresult := ReplicaSynchronizer.resynchronizeFrom_result ctx engine engine.generation none
    answer fault faults
  unfold ReplicaSynchronizer.resynchronize at hfailed ⊢
  generalize ReplicaSynchronizer.resynchronizeFrom ctx engine engine.generation none answer fault
    faults = result at hresult hfailed ⊢
  cases hresult with
  | installed documents generation answered after outcome synchronized store advanced state exact =>
      rw [hfailed] at synchronized
      cases synchronized
  | untouched after outcome synchronized state store kept =>
      exact ⟨by simp [state], by rwa [store], by rwa [store, kept]⟩
  | replaced documents generation answered after outcome synchronized state store kept =>
      obtain ⟨hnew, hnewer⟩ := hsnapshot documents generation answered
      refine ⟨by simp [state], by rwa [store], ?_⟩
      rw [store]
      show after.generation ≤ generation
      omega

theorem handle_lagging {next : SearchEngine α} {request : ReplicaRequest}
    (hcond : Unrepaired ctx history engine request) (hstep : engine.handle ctx request = some next)
    (h : Lagging history engine) : Lagging history next := by
  cases request with
  | replicate mutation generation faults =>
      cases hstep
      obtain ⟨-, state, detail, hstate, hafter⟩ := h.replicated mutation generation faults
      rw [hafter]
      exact ⟨hstate, h.follows, h.behind⟩
  | resync answer fault faults =>
      cases hstep
      exact lagging_of_failed h.follows h.behind hcond.1 hcond.2
  | close =>
      cases hstep
      exact ⟨by simp [SearchEngine.close], h.follows, h.behind⟩

-- A resynchronization installs the snapshot as a whole or takes the replica out of service,
-- with a database that is the old one or the new one, and out of service it stays until it
-- is repaired.
theorem resynchronize_safe (engine : SearchEngine α)
    (hfollows : engine.store.database.Follows history)
    (hbehind : engine.generation ≤ engine.store.database.generation)
    (answer : Except PyError (List Document × Int))
    (hsnapshot : Snapshot history engine.store.database.generation answer)
    (fault : Bool) (faults : RebuildFaults) :
    let result := ReplicaSynchronizer.resynchronize ctx engine answer fault faults
    (result.2.synchronized = true → ∃ documents generation,
      answer = .ok (documents, generation) ∧ result.1.state = .ready ∧
        result.1.generation = generation ∧
        result.1.store.database = .replaceAll documents generation ∧
        result.1.derived.Exact ctx (Database.insertAll documents)) ∧
    (result.2.synchronized = false →
      (result.1.store.database = engine.store.database ∨ ∃ documents generation,
        answer = .ok (documents, generation) ∧
          result.1.store.database = .replaceAll documents generation) ∧
      result.1.state = .outOfSync ∧
      ∀ later, Run.Reaches (handle ctx) (Unrepaired ctx history) result.1 later →
        later.state ≠ .ready ∧ Withdrawn ctx history later) := by
  intro result
  have hresult := ReplicaSynchronizer.resynchronizeFrom_result ctx engine engine.generation none
    answer fault faults
  have hlagging : result.2.synchronized = false → Lagging history result.1 :=
    lagging_of_failed hfollows hbehind hsnapshot
  have hlater : result.2.synchronized = false →
      ∀ later, Run.Reaches (handle ctx) (Unrepaired ctx history) result.1 later →
        later.state ≠ .ready ∧ Withdrawn ctx history later := by
    intro hfailed later hreaches
    have hkept := Run.invariant (fun _ _ _ hcond hstep h => handle_lagging hcond hstep h)
      hreaches (hlagging hfailed)
    exact ⟨hkept.state, hkept.withdrawn⟩
  change ReplicaSynchronizer.ResyncResult ctx engine answer result at hresult
  generalize result = final at hresult hlater ⊢
  cases hresult with
  | installed documents generation answered after outcome synchronized store advanced state exact =>
      have hderived := exact.derived
      rw [store] at hderived
      refine ⟨fun _ => ⟨documents, generation, answered, state, advanced, by rw [store], hderived⟩, ?_⟩
      intro hfailed
      rw [hfailed] at synchronized
      cases synchronized
  | untouched after outcome synchronized state store kept =>
      refine ⟨fun hdone => ?_, fun _ => ⟨.inl (by rw [store]), state, hlater synchronized⟩⟩
      rw [synchronized] at hdone
      cases hdone
  | replaced documents generation answered after outcome synchronized state store kept =>
      refine ⟨fun hdone => ?_, fun _ => ⟨.inr ⟨documents, generation, answered, by rw [store]⟩,
        state, hlater synchronized⟩⟩
      rw [synchronized] at hdone
      cases hdone

section Example

attribute [local instance] rationalArith

def pairContext : EngineContext ℚ := ⟨.ascii, defaultBM25Params, some .constant⟩

def pairHistory : List Mutation := [.put redFox, .put red]

def pairSnapshot : List Document × Int := ((Database.replay pairHistory).documents, 2)

-- A replica that holds the first of two mutations.
def behindReplica : SearchEngine ℚ :=
  ⟨.openDatabase (.replay [.put redFox]), .empty pairContext.embedder, .outOfSync, "", 0⟩

def unreadable : RebuildFaults := ⟨false, false, none, true, none⟩

-- It receives both mutations and cannot read the generation back, so it holds both and
-- refuses to serve them.
theorem behindReplica_withdrawn :
    (ReplicaSynchronizer.resynchronize pairContext behindReplica (.ok pairSnapshot) false
      unreadable).1.store.database.generation = 2 ∧
    (ReplicaSynchronizer.resynchronize pairContext behindReplica (.ok pairSnapshot) false
      unreadable).1.state = .outOfSync ∧
    Withdrawn pairContext pairHistory (ReplicaSynchronizer.resynchronize pairContext behindReplica
      (.ok pairSnapshot) false unreadable).1 := by
  have hfollows : behindReplica.store.database.Follows pairHistory :=
    ⟨by decide, by decide, fun id => rfl⟩
  have hsnapshot : Snapshot pairHistory behindReplica.store.database.generation
      (.ok pairSnapshot) := by
    intro documents exported hanswer
    obtain ⟨rfl, rfl⟩ := Prod.mk.inj (Except.ok.inj hanswer)
    exact ⟨⟨by decide, Int.le_refl 2, (Database.replay pairHistory).insertAll_documents⟩, by decide⟩
  have hfailed : (ReplicaSynchronizer.resynchronize pairContext behindReplica (.ok pairSnapshot)
      false unreadable).2.synchronized = false := by decide +kernel
  have hstored : (ReplicaSynchronizer.resynchronize pairContext behindReplica (.ok pairSnapshot)
      false unreadable).1.store.database.generation = 2 := by decide +kernel
  obtain ⟨-, hstate, hlater⟩ := (resynchronize_safe behindReplica hfollows (by decide)
    (.ok pairSnapshot) hsnapshot false unreadable).2 hfailed
  exact ⟨hstored, hstate, (hlater _ ⟨[], rfl, trivial⟩).2⟩

end Example

end SearchEngine

end PySearch
