import PySearch.Search.Engine.Rebuild

namespace PySearch

variable {α : Type}

namespace SearchEngine

open ExactVectorIndex (Admissible)

-- The structures and the generation are what the store determines.
structure Exact (ctx : EngineContext α) (engine : SearchEngine α) : Prop where
  derived : engine.derived.Exact ctx engine.store.database.rows
  generation : engine.generation = engine.store.database.generation

-- The store as one committed mutation leaves it.
def committed (engine : SearchEngine α) (mutation : Mutation) (generation : Int) :
    SqliteDocumentStore :=
  { engine.store with database := engine.store.database.apply mutation generation }

-- Whether a call gets as far as the commit of its transaction.
def commits (ctx : EngineContext α) (engine : SearchEngine α) (mutation : Mutation)
    (faults : Faults) : Bool :=
  engine.state = .ready && !engine.store.unavailable faults.store &&
    match mutation with
    | .put _ => !faults.analysis && (ctx.embedder.isNone || !faults.embed)
    | .delete documentId => engine.derived.documents.contains documentId

section Commits

variable {ctx : EngineContext α} {engine : SearchEngine α} {mutation : Mutation} {faults : Faults}

theorem ready_of_commits (h : commits ctx engine mutation faults = true) :
    engine.state = .ready := by
  simp only [commits, Bool.and_eq_true, decide_eq_true_eq] at h
  exact h.1.1

theorem available_of_commits (h : commits ctx engine mutation faults = true) :
    engine.store.unavailable faults.store = false := by
  simp only [commits, Bool.and_eq_true, Bool.not_eq_true'] at h
  exact h.1.2

theorem opened_of_commits (h : commits ctx engine mutation faults = true) :
    engine.store.closed = false ∧ faults.store = false :=
  Bool.or_eq_false_iff.mp (available_of_commits h)

theorem embeds_of_commits {document : Document}
    (h : commits ctx engine (.put document) faults = true) :
    faults.analysis = false ∧ (ctx.embedder = none ∨ faults.embed = false) := by
  simp only [commits, Bool.and_eq_true, Bool.not_eq_true', Bool.or_eq_true,
    Option.isNone_iff_eq_none] at h
  exact h.2

theorem present_of_commits {documentId : String}
    (h : commits ctx engine (.delete documentId) faults = true) :
    engine.derived.documents.contains documentId = true :=
  (Bool.and_eq_true_iff.mp h).2

end Commits

-- Everything a write on a primary or a single node can do. Nothing is committed unless the
-- engine is ready, and a commit that the structures do not follow degrades the engine.
inductive WriteEffect {β : Type} (ctx : EngineContext α) (engine : SearchEngine α)
    (mutation : Mutation) (faults : Faults) : Except PyError β → SearchEngine α → Prop
  | refused (error : PyError) (commit : commits ctx engine mutation faults = false) :
      WriteEffect ctx engine mutation faults (.error error) engine
  | degraded (reason : String) (after : SearchEngine α) (ready : engine.state = .ready)
      (commit : commits ctx engine mutation faults = true)
      (store : after.store = engine.committed mutation (engine.generation + 1))
      (generation : after.generation = engine.generation + 1) (state : after.state = .degraded) :
      WriteEffect ctx engine mutation faults (.error (.engineNotReady .degraded reason)) after
  | applied (value : β) (after : SearchEngine α) (ready : engine.state = .ready)
      (commit : commits ctx engine mutation faults = true)
      (store : after.store = engine.committed mutation (engine.generation + 1))
      (generation : after.generation = engine.generation + 1) (state : after.state = .ready)
      (exact : engine.Exact ctx → after.Exact ctx) :
      WriteEffect ctx engine mutation faults (.ok value) after

-- Everything a replicated mutation can do to a replica.
inductive ReplicaEffect (ctx : EngineContext α) (engine : SearchEngine α) (mutation : Mutation)
    (generation : Int) : Except PyError ReplicationOutcome → SearchEngine α → Prop
  | refused (error : PyError) : ReplicaEffect ctx engine mutation generation (.error error) engine
  | duplicate (known : generation ≤ engine.generation) :
      ReplicaEffect ctx engine mutation generation (.ok .duplicate) engine
  | gap (after : SearchEngine α) (ahead : engine.generation + 1 < generation)
      (store : after.store = engine.store) (derived : after.derived = engine.derived)
      (kept : after.generation = engine.generation) (state : after.state = .outOfSync) :
      ReplicaEffect ctx engine mutation generation (.ok .gap) after
  | degraded (reason : String) (after : SearchEngine α) (ready : engine.state = .ready)
      (next : generation = engine.generation + 1)
      (store : after.store = engine.committed mutation generation)
      (kept : after.generation = engine.generation) (state : after.state = .degraded) :
      ReplicaEffect ctx engine mutation generation (.error (.engineNotReady .degraded reason)) after
  | applied (after : SearchEngine α) (ready : engine.state = .ready)
      (next : generation = engine.generation + 1)
      (store : after.store = engine.committed mutation generation)
      (advanced : after.generation = generation) (state : after.state = .ready)
      (exact : engine.Exact ctx → after.Exact ctx) :
      ReplicaEffect ctx engine mutation generation (.ok .applied) after

theorem WriteEffect.map {β γ : Type} {ctx : EngineContext α} {engine after : SearchEngine α}
    {mutation : Mutation} {faults : Faults} {result : Except PyError β} (f : β → γ)
    (h : WriteEffect ctx engine mutation faults result after) :
    WriteEffect ctx engine mutation faults (result.map f) after := by
  cases h with
  | refused error commit => exact .refused error commit
  | degraded reason after ready commit store generation state =>
      exact .degraded reason after ready commit store generation state
  | applied value after ready commit store generation state exact =>
      exact .applied (f value) after ready commit store generation state exact

section Mutations

variable [Arith α] {ctx : EngineContext α} {engine after : SearchEngine α}

omit [Arith α] in
theorem requireOperational_ok (h : engine.requireOperational = .ok ()) :
    engine.state = .ready := by
  unfold requireOperational at h
  split at h
  · assumption
  · cases h

omit [Arith α] in
theorem requireOperational_of_ready (h : engine.state = .ready) :
    engine.requireOperational = .ok () := if_pos h

omit [Arith α] in
theorem embedDocument_ok {text : String} {fault : Bool} {vector : Option (List α)}
    (h : embedDocument ctx text fault = .ok vector) :
    ∀ embedder, ctx.embedder = some embedder → vector = some (embedder.embed text) := by
  intro embedder he
  simp only [embedDocument, he] at h
  split at h
  · cases h
  · cases h
    rfl

-- Either every statement of the update ran, or the engine is degraded.
omit [Arith α] in
theorem degradeOnFailure_cases (reason : String) (script : List (Script.Stmt (Derived α) PyError))
    (fault : Option (Nat × PyError)) (engine : SearchEngine α) :
    (∃ derived, Script.exec script engine.derived = .ok derived ∧
      degradeOnFailure reason script fault engine = (.ok (), { engine with derived := derived })) ∨
    ∃ derived, degradeOnFailure reason script fault engine =
      (.error (.engineNotReady .degraded reason),
        { engine with derived := derived, state := .degraded, detail := reason }) := by
  unfold degradeOnFailure
  cases hrun : Script.run script fault engine.derived with
  | mk derived raised =>
      cases raised with
      | none => exact .inl ⟨derived, Script.exec_of_run hrun, rfl⟩
      | some error => exact .inr ⟨derived, rfl⟩

omit [Arith α] in
theorem embedDocument_fault (text : String) (fault : Bool) :
    (∃ error, embedDocument ctx text fault = .error error) ↔
      (ctx.embedder.isNone || !fault) = false := by
  unfold embedDocument
  cases ctx.embedder with
  | none => simp
  | some embedder => cases fault <;> simp

theorem indexDocument_effect (engine : SearchEngine α) (document : Document) (faults : Faults) :
    WriteEffect ctx engine (.put document) faults (engine.indexDocument ctx document faults).1
      (engine.indexDocument ctx document faults).2 := by
  unfold indexDocument analyzeDocument
  by_cases hanalysis : faults.analysis = true
  · simp only [hanalysis, if_true]
    exact .refused _ (by simp [commits, hanalysis])
  simp only [hanalysis, if_false, Bool.false_eq_true]
  split
  · rename_i error hembed
    have hfault := (embedDocument_fault _ _).mp ⟨error, hembed⟩
    exact .refused _ (by simp [commits, hfault])
  rename_i vector hvector
  have hembed : (ctx.embedder.isNone || !faults.embed) = true := by
    rw [← Bool.not_eq_false, ← embedDocument_fault document.text]
    simp [hvector]
  split
  · rename_i error hstate
    have hstate' : engine.state ≠ .ready := by
      intro hready
      simp [requireOperational_of_ready hready] at hstate
    exact .refused _ (by simp [commits, hstate'])
  rename_i hoperational
  have hready := requireOperational_ok hoperational
  unfold SqliteDocumentStore.put
  split_ifs with hfault
  · exact .refused _ (by simp [commits, hfault])
  have hcommit : commits ctx engine (.put document) faults = true := by
    simp only [commits, hembed]
    simp [hready, hfault, hanalysis]
  dsimp only
  obtain ⟨derived, hexec, heq⟩ | ⟨derived, heq⟩ := degradeOnFailure_cases
    "failed to update derived state after a durable write"
    (engine.derived.applyScript document (Analysis.analyze ctx.unicode document.text) vector)
    faults.derived { engine with
      store := engine.committed (.put document) (engine.generation + 1)
      generation := engine.generation + 1 }
  · rw [committed, Database.apply] at heq
    rw [heq]
    refine .applied _ _ hready hcommit rfl rfl hready ?_
    intro h
    exact ⟨Derived.exact_set h.derived (embedDocument_ok hvector) hexec, rfl⟩
  · rw [committed, Database.apply] at heq
    rw [heq]
    exact .degraded _ _ hready hcommit rfl rfl rfl

omit [Arith α] in
theorem deleteDocument_effect (engine : SearchEngine α) (documentId : String) (faults : Faults) :
    WriteEffect ctx engine (.delete documentId) faults (engine.deleteDocument documentId faults).1
      (engine.deleteDocument documentId faults).2 := by
  unfold deleteDocument
  dsimp only
  split
  · rename_i error hstate
    have hstate' : engine.state ≠ .ready := by
      intro hready
      simp [requireOperational_of_ready hready] at hstate
    exact .refused _ (by simp [commits, hstate'])
  rename_i hoperational
  have hready := requireOperational_ok hoperational
  split_ifs with hpresent
  · exact .refused _ (by simp_all [commits])
  simp only [Bool.not_eq_true', Bool.not_eq_false] at hpresent
  unfold SqliteDocumentStore.delete
  split_ifs with hfault
  · exact .refused _ (by simp [commits, hfault])
  have hcommit : commits ctx engine (.delete documentId) faults = true := by
    simp_all [commits]
  dsimp only
  obtain ⟨derived, hexec, heq⟩ | ⟨derived, heq⟩ := degradeOnFailure_cases
    "failed to update derived state after a durable delete"
    (engine.derived.removeScript documentId) faults.derived { engine with
      store := engine.committed (.delete documentId) (engine.generation + 1)
      generation := engine.generation + 1 }
  · rw [committed, Database.apply] at heq
    rw [heq]
    refine .applied _ _ hready hcommit rfl rfl hready ?_
    intro h
    obtain ⟨document, hdoc⟩ := Option.isSome_iff_exists.mp hpresent
    rw [h.derived.documents] at hdoc
    obtain ⟨removed, hremoved, hexact⟩ := Derived.exact_erase h.derived hdoc
    rw [hremoved] at hexec
    exact ⟨Except.ok.inj hexec ▸ hexact, rfl⟩
  · rw [committed, Database.apply] at heq
    rw [heq]
    exact .degraded _ _ hready hcommit rfl rfl rfl

omit [Arith α] in
-- Only the next generation in line gets past the classification, and only when ready.
theorem classifyGeneration_cases (engine : SearchEngine α) (generation : Int) :
    (generation ≤ engine.generation ∧
      engine.classifyGeneration generation = (.ok .duplicate, engine)) ∨
    (engine.generation + 1 < generation ∧ ∃ after,
      engine.classifyGeneration generation = (.ok .gap, after) ∧ after.store = engine.store ∧
      after.derived = engine.derived ∧ after.generation = engine.generation ∧
      after.state = .outOfSync) ∨
    (∃ error, engine.classifyGeneration generation = (.error error, engine)) ∨
    (generation = engine.generation + 1 ∧ engine.state = .ready ∧
      engine.classifyGeneration generation = (.ok .applied, engine)) := by
  unfold classifyGeneration
  split_ifs with hknown hgap
  · exact .inl ⟨hknown, rfl⟩
  · exact .inr (.inl ⟨by omega, _, rfl, rfl, rfl, rfl, rfl⟩)
  · cases hready : engine.requireOperational with
    | error error => exact .inr (.inr (.inl ⟨error, rfl⟩))
    | ok done => exact .inr (.inr (.inr ⟨by omega, requireOperational_ok hready, rfl⟩))

theorem applyReplicatedPut_effect (engine : SearchEngine α) (document : Document)
    (generation : Int) (faults : Faults) :
    ReplicaEffect ctx engine (.put document) generation
      (engine.applyReplicatedPut ctx document generation faults).1
      (engine.applyReplicatedPut ctx document generation faults).2 := by
  unfold applyReplicatedPut
  obtain ⟨hknown, hc⟩ | ⟨hahead, after, hc, hstore, hderived, hgen, hstate⟩ | ⟨error, hc⟩ |
    ⟨hnext, hready, hc⟩ := classifyGeneration_cases engine generation
  · rw [hc]
    exact .duplicate hknown
  · rw [hc]
    exact .gap after hahead hstore hderived hgen hstate
  · rw [hc]
    exact .refused error
  rw [hc]
  unfold analyzeDocument
  by_cases hanalysis : faults.analysis = true
  · simp only [hanalysis, if_true]
    exact .refused _
  simp only [hanalysis, if_false, Bool.false_eq_true]
  split
  · exact .refused _
  rename_i vector hvector
  unfold SqliteDocumentStore.put
  split_ifs with hfault
  · exact .refused _
  dsimp only
  obtain ⟨derived, hexec, heq⟩ | ⟨derived, heq⟩ := degradeOnFailure_cases
    "failed to update derived state after a replicated write"
    (engine.derived.applyScript document (Analysis.analyze ctx.unicode document.text) vector)
    faults.derived { engine with store := engine.committed (.put document) generation }
  · rw [committed, Database.apply] at heq
    rw [heq]
    refine .applied _ hready hnext rfl rfl hready ?_
    intro h
    exact ⟨Derived.exact_set h.derived (embedDocument_ok hvector) hexec, rfl⟩
  · rw [committed, Database.apply] at heq
    rw [heq]
    exact .degraded _ _ hready hnext rfl rfl rfl

omit [Arith α] in
theorem applyReplicatedDelete_effect (engine : SearchEngine α) (documentId : String)
    (generation : Int) (faults : Faults) :
    ReplicaEffect ctx engine (.delete documentId) generation
      (engine.applyReplicatedDelete documentId generation faults).1
      (engine.applyReplicatedDelete documentId generation faults).2 := by
  unfold applyReplicatedDelete
  obtain ⟨hknown, hc⟩ | ⟨hahead, after, hc, hstore, hderived, hgen, hstate⟩ | ⟨error, hc⟩ |
    ⟨hnext, hready, hc⟩ := classifyGeneration_cases engine generation
  · rw [hc]
    exact .duplicate hknown
  · rw [hc]
    exact .gap after hahead hstore hderived hgen hstate
  · rw [hc]
    exact .refused error
  rw [hc]
  unfold SqliteDocumentStore.delete
  by_cases hfault : engine.store.unavailable faults.store = true
  · simp only [hfault, if_true]
    exact .refused _
  simp only [hfault, if_false, Bool.false_eq_true]
  obtain ⟨derived, hexec, heq⟩ | ⟨derived, heq⟩ := degradeOnFailure_cases
    "failed to update derived state after a replicated delete"
    (if engine.derived.documents.contains documentId then
      engine.derived.removeScript documentId else [])
    faults.derived { engine with store := engine.committed (.delete documentId) generation }
  · rw [committed, Database.apply] at heq
    rw [heq]
    refine .applied _ hready hnext rfl rfl hready ?_
    intro h
    refine ⟨?_, rfl⟩
    cases hdoc : engine.derived.documents.get? documentId with
    | none =>
        -- A document the replica does not hold is already gone.
        rw [if_neg (by simp [hdoc]), Script.exec_nil] at hexec
        rw [h.derived.documents] at hdoc
        rw [← Except.ok.inj hexec]
        exact h.derived.congr fun id => (Dict.get?_erase_of_none hdoc id).symm
    | some document =>
        rw [if_pos (by simp [hdoc])] at hexec
        rw [h.derived.documents] at hdoc
        obtain ⟨removed, hremoved, hexact⟩ := Derived.exact_erase h.derived hdoc
        rw [hremoved] at hexec
        exact Except.ok.inj hexec ▸ hexact
  · rw [committed, Database.apply] at heq
    rw [heq]
    exact .degraded _ _ hready hnext rfl rfl rfl

-- A replicated mutation of either kind.
def applyReplicated (ctx : EngineContext α) (engine : SearchEngine α) (mutation : Mutation)
    (generation : Int) (faults : Faults) : Except PyError ReplicationOutcome × SearchEngine α :=
  match mutation with
  | .put document => engine.applyReplicatedPut ctx document generation faults
  | .delete documentId => engine.applyReplicatedDelete documentId generation faults

theorem applyReplicated_effect (engine : SearchEngine α) (mutation : Mutation) (generation : Int)
    (faults : Faults) : ReplicaEffect ctx engine mutation generation
      (engine.applyReplicated ctx mutation generation faults).1
      (engine.applyReplicated ctx mutation generation faults).2 := by
  cases mutation with
  | put document => exact applyReplicatedPut_effect engine document generation faults
  | delete documentId => exact applyReplicatedDelete_effect engine documentId generation faults

end Mutations

section Recovery

variable [Arith α] [LinearOrder α] {ctx : EngineContext α} {engine after : SearchEngine α}

-- Starting up reads the store and changes nothing in it.
theorem initializeEngine_ok {faults : RebuildFaults} {report : RebuildReport}
    (h : initializeEngine ctx engine faults = (.ok report, after)) :
    after.store = engine.store ∧ after.state = .ready ∧ after.Exact ctx := by
  unfold initializeEngine at h
  split at h
  · simp at h
  · rename_i rebuilt hrebuild
    obtain ⟨fresh, hfresh, rfl⟩ := rebuild_ok hrebuild
    obtain ⟨-, rfl⟩ := Prod.mk.inj h
    exact ⟨rfl, rfl, hfresh, rfl⟩

theorem initializeEngine_error {faults : RebuildFaults} {error : PyError}
    (h : initializeEngine ctx engine faults = (.error error, after)) :
    after.store = engine.store ∧ after.state = engine.state := by
  unfold initializeEngine at h
  split at h
  · rename_i failed hrebuild
    have hframe := rebuild_frame hrebuild
    obtain ⟨-, rfl⟩ := Prod.mk.inj h
    exact ⟨hframe.store, hframe.state⟩
  · simp at h

theorem initializeEngine_total (hc : ctx.Contract) (hopen : engine.store.closed = false) :
    ∃ report after, initializeEngine ctx engine .none = (.ok report, after) := by
  obtain ⟨report, after, h⟩ := rebuild_total hc hopen
  exact ⟨report, after.markReady, by rw [initializeEngine, h]⟩

theorem resynchronize_total (hc : ctx.Contract) (hopen : engine.store.closed = false)
    {documents : List Document} (hnodup : (documents.map Document.documentId).Nodup)
    (generation : Int) : ∃ report after,
      resynchronize ctx engine documents generation false .none = (.ok report, after) := by
  have hreplace : (engine.markRecovering ("resynchronizing to generation " ++
      toString generation)).store.replaceAll documents generation false =
      .ok { engine.store with database := .replaceAll documents generation } := by
    simp [markRecovering, SqliteDocumentStore.replaceAll, SqliteDocumentStore.unavailable, hopen,
      hnodup]
  obtain ⟨report, after, hrebuild⟩ := @rebuild_total _ ctx _ _
    { engine.markRecovering ("resynchronizing to generation " ++ toString generation) with
      store := { engine.store with database := .replaceAll documents generation } } hc hopen
  obtain ⟨fresh, -, hafter⟩ := rebuild_ok hrebuild
  refine ⟨report, after.markReady, ?_⟩
  simp only [resynchronize, hreplace, hrebuild]
  rw [if_neg]
  simp [hafter, Database.replaceAll]

-- Everything that installing a snapshot can do to a replica.
inductive ResyncEffect (ctx : EngineContext α) (engine : SearchEngine α)
    (documents : List Document) (generation : Int) :
    Except PyError RebuildReport → SearchEngine α → Prop
  | refused (error : PyError) (after : SearchEngine α) (store : after.store = engine.store)
      (kept : after.generation = engine.generation) (state : after.state = .recovering) :
      ResyncEffect ctx engine documents generation (.error error) after
  | failed (error : PyError) (after : SearchEngine α)
      (nodup : (documents.map Document.documentId).Nodup)
      (store : after.store =
        { engine.store with database := .replaceAll documents generation })
      (kept : after.generation = engine.generation ∨ after.generation = generation)
      (state : after.state = .recovering) :
      ResyncEffect ctx engine documents generation (.error error) after
  | installed (report : RebuildReport) (after : SearchEngine α)
      (nodup : (documents.map Document.documentId).Nodup)
      (store : after.store =
        { engine.store with database := .replaceAll documents generation })
      (advanced : after.generation = generation) (state : after.state = .ready)
      (exact : after.Exact ctx) :
      ResyncEffect ctx engine documents generation (.ok report) after

theorem resynchronize_effect (engine : SearchEngine α) (documents : List Document)
    (generation : Int) (fault : Bool) (faults : RebuildFaults) :
    ResyncEffect ctx engine documents generation
      (resynchronize ctx engine documents generation fault faults).1
      (resynchronize ctx engine documents generation fault faults).2 := by
  unfold resynchronize SqliteDocumentStore.replaceAll
  dsimp only
  split_ifs with hfault hnodup
  · exact .refused _ _ rfl rfl rfl
  · dsimp only
    split
    · rename_i error failed hrebuild
      have hframe := rebuild_frame hrebuild
      exact .failed error failed hnodup hframe.store hframe.generation hframe.state
    · rename_i report rebuilt hrebuild
      have hframe := rebuild_frame hrebuild
      split_ifs with hgeneration
      · exact .failed _ rebuilt hnodup hframe.store hframe.generation hframe.state
      · obtain ⟨fresh, hfresh, rfl⟩ := rebuild_ok hrebuild
        exact .installed report _ hnodup rfl rfl rfl ⟨hfresh, rfl⟩
  · exact .refused _ _ rfl rfl rfl

end Recovery

-- An engine that serves: ready, with an open store, and exact.
structure Healthy (ctx : EngineContext α) (engine : SearchEngine α) : Prop where
  ready : engine.state = .ready
  opened : engine.store.closed = false
  exact : engine.Exact ctx

section Healthy

variable [Arith α] [LinearOrder α] {ctx : EngineContext α} {engine : SearchEngine α}

theorem embedDocument_total (hc : ctx.Contract) (text : String) :
    ∃ vector, embedDocument ctx text false = .ok vector ∧
      ∀ embedder, ctx.embedder = some embedder → vector = some (embedder.embed text) ∧
        Admissible embedder.identity.dimension (embedder.embed text) := by
  cases he : ctx.embedder with
  | none => exact ⟨none, by simp [embedDocument, he], by simp⟩
  | some embedder =>
      refine ⟨some (embedder.embed text), by simp [embedDocument, he, Embedder.embedDocuments], ?_⟩
      intro other ho
      cases ho
      exact ⟨rfl, ((hc embedder he).documents text).1⟩

omit [Arith α] [LinearOrder α] in
theorem Healthy.put (h : Healthy ctx engine) (document : Document) (generation : Int) :
    engine.store.put document generation false =
      .ok (!engine.store.database.rows.contains document.documentId,
        engine.committed (.put document) generation) := by
  simp [SqliteDocumentStore.put, SqliteDocumentStore.unavailable, h.opened, committed,
    Database.apply]

omit [Arith α] [LinearOrder α] in
theorem Healthy.delete (h : Healthy ctx engine) (documentId : String) (generation : Int) :
    engine.store.delete documentId generation false =
      .ok (engine.store.database.rows.contains documentId,
        engine.committed (.delete documentId) generation) := by
  simp [SqliteDocumentStore.delete, SqliteDocumentStore.unavailable, h.opened, committed,
    Database.apply]

-- Without failures a write goes through and reports whether the document is new.
theorem Healthy.indexDocument (hc : ctx.Contract) (h : Healthy ctx engine) (document : Document) :
    ∃ after, indexDocument ctx engine document .none =
        (.ok (!engine.store.database.rows.contains document.documentId), after) ∧
      Healthy ctx after ∧ after.store.database =
        engine.store.database.apply (.put document) (engine.generation + 1) := by
  obtain ⟨vector, hvector, hembedded⟩ := embedDocument_total hc document.text
  obtain ⟨derived, hexec⟩ := Derived.exec_apply h.exact.derived hembedded
  have hexact := Derived.exact_set h.exact.derived (fun embedder he => (hembedded embedder he).1)
    hexec
  refine ⟨{ engine with
    store := engine.committed (.put document) (engine.generation + 1)
    derived := derived
    generation := engine.generation + 1 }, ?_, ⟨h.ready, h.opened, hexact, rfl⟩, rfl⟩
  simp only [SearchEngine.indexDocument, analyzeDocument, Faults.none, if_false, Bool.false_eq_true,
    hvector, requireOperational_of_ready h.ready, h.put, degradeOnFailure, Script.run_of_exec hexec]

omit [Arith α] [LinearOrder α] in
theorem Healthy.deleteDocument (h : Healthy ctx engine) {documentId : String}
    {document : Document} (hrow : engine.store.database.rows.get? documentId = some document) :
    ∃ after, engine.deleteDocument documentId .none = (.ok (), after) ∧
      Healthy ctx after ∧ after.store.database =
        engine.store.database.apply (.delete documentId) (engine.generation + 1) := by
  obtain ⟨derived, hexec, hexact⟩ := Derived.exact_erase h.exact.derived hrow
  refine ⟨{ engine with
    store := engine.committed (.delete documentId) (engine.generation + 1)
    derived := derived
    generation := engine.generation + 1 }, ?_, ⟨h.ready, h.opened, hexact, rfl⟩, rfl⟩
  have hpresent : engine.derived.documents.contains documentId = true := by
    simp [h.exact.derived.documents, hrow]
  simp only [SearchEngine.deleteDocument, Faults.none, requireOperational_of_ready h.ready,
    hpresent, h.delete, Bool.not_true, Bool.false_eq_true, if_false, degradeOnFailure,
    Script.run_of_exec hexec]

omit [Arith α] [LinearOrder α] in
theorem Healthy.deleteDocument_absent (h : Healthy ctx engine) {documentId : String}
    (hrow : engine.store.database.rows.get? documentId = none) (faults : Faults) :
    engine.deleteDocument documentId faults = (.error (.documentNotFound documentId), engine) := by
  have habsent : engine.derived.documents.contains documentId = false := by
    simp [Dict.contains, h.exact.derived.documents, hrow]
  simp only [SearchEngine.deleteDocument, requireOperational_of_ready h.ready, habsent,
    Bool.not_false, if_true]

omit [LinearOrder α] in
-- A write that commits, and whose derived update meets no failure, is a write without failures.
theorem indexDocument_of_commits {document : Document} {faults : Faults}
    (hcommit : commits ctx engine (.put document) faults = true) (hderived : faults.derived = none) :
    indexDocument ctx engine document faults = indexDocument ctx engine document .none := by
  obtain ⟨hanalysis, hembed⟩ := embeds_of_commits hcommit
  have hvector : embedDocument ctx document.text faults.embed =
      embedDocument ctx document.text false := by
    unfold embedDocument
    rcases hembed with he | hfault
    · rw [he]
    · rw [hfault]
  simp only [indexDocument, Faults.none, hanalysis, hvector, (opened_of_commits hcommit).2, hderived]

omit [Arith α] [LinearOrder α] in
theorem deleteDocument_of_commits {documentId : String} {faults : Faults}
    (hcommit : commits ctx engine (.delete documentId) faults = true)
    (hderived : faults.derived = none) :
    engine.deleteDocument documentId faults = engine.deleteDocument documentId .none := by
  simp only [deleteDocument, (opened_of_commits hcommit).2, hderived, Faults.none]

omit [Arith α] [LinearOrder α] in
-- The next mutation in line gets past the classification.
theorem Healthy.classifyGeneration (h : Healthy ctx engine) :
    engine.classifyGeneration (engine.generation + 1) = (.ok .applied, engine) := by
  rw [SearchEngine.classifyGeneration, if_neg (by omega), if_neg (by omega),
    requireOperational_of_ready h.ready]

theorem Healthy.applyReplicatedPut (hc : ctx.Contract) (h : Healthy ctx engine)
    (document : Document) : ∃ after,
      engine.applyReplicatedPut ctx document (engine.generation + 1) .none =
        (.ok .applied, after) := by
  obtain ⟨vector, hvector, hembedded⟩ := embedDocument_total hc document.text
  obtain ⟨derived, hexec⟩ := Derived.exec_apply h.exact.derived hembedded
  refine ⟨{ engine with
    store := engine.committed (.put document) (engine.generation + 1)
    derived := derived
    generation := engine.generation + 1 }, ?_⟩
  simp only [SearchEngine.applyReplicatedPut, h.classifyGeneration, analyzeDocument, Faults.none,
    if_false, Bool.false_eq_true, hvector, h.put, degradeOnFailure, Script.run_of_exec hexec]

omit [Arith α] [LinearOrder α] in
theorem Healthy.applyReplicatedDelete (h : Healthy ctx engine) (documentId : String) :
    ∃ after, engine.applyReplicatedDelete documentId (engine.generation + 1) .none =
      (.ok .applied, after) := by
  have hexec : ∃ derived, Script.exec (if engine.derived.documents.contains documentId then
      engine.derived.removeScript documentId else []) engine.derived = .ok derived := by
    cases hdoc : engine.derived.documents.get? documentId with
    | none => exact ⟨engine.derived, by rw [if_neg (by simp [hdoc]), Script.exec_nil]⟩
    | some document =>
        rw [h.exact.derived.documents] at hdoc
        obtain ⟨derived, hremoved, -⟩ := Derived.exact_erase h.exact.derived hdoc
        rw [← h.exact.derived.documents] at hdoc
        exact ⟨derived, by rw [if_pos (by simp [hdoc]), hremoved]⟩
  obtain ⟨derived, hexec⟩ := hexec
  refine ⟨{ engine with
    store := engine.committed (.delete documentId) (engine.generation + 1)
    derived := derived
    generation := engine.generation + 1 }, ?_⟩
  simp only [SearchEngine.applyReplicatedDelete, h.classifyGeneration, Faults.none, h.delete,
    degradeOnFailure, Script.run_of_exec hexec]

theorem Healthy.applyReplicated (hc : ctx.Contract) (h : Healthy ctx engine)
    (mutation : Mutation) : ∃ after,
      engine.applyReplicated ctx mutation (engine.generation + 1) .none = (.ok .applied, after) := by
  cases mutation with
  | put document => exact h.applyReplicatedPut hc document
  | delete documentId => exact h.applyReplicatedDelete documentId

-- Opening a database and starting up gives an engine that serves what the database holds.
theorem initializeEngine_healthy (hc : ctx.Contract) (database : Database) :
    ∃ report after, initializeEngine ctx (.new ctx (.openDatabase database)) .none =
        (.ok report, after) ∧ Healthy ctx after ∧ after.store.database = database := by
  obtain ⟨report, after, h⟩ := @initializeEngine_total _ _ _ ctx
    (.new ctx (.openDatabase database)) hc rfl
  obtain ⟨hstore, hready, hexact⟩ := initializeEngine_ok h
  exact ⟨report, after, h, ⟨hready, by rw [hstore]; rfl, hexact⟩, by rw [hstore]; rfl⟩

end Healthy

end SearchEngine

section Example

attribute [local instance] rationalArith

def redFox : Document := ⟨"a", "red fox", by decide⟩

def red : Document := ⟨"b", "red", by decide⟩

-- A startup on two stored documents serves both of them.
example :
    let ctx : EngineContext ℚ := ⟨.ascii, defaultBM25Params, none⟩
    let engine := SearchEngine.new ctx (.openDatabase (.replay [.put redFox, .put red]))
    ((SearchEngine.initializeEngine ctx engine .none).2.search ctx "red" 10 none).map
      (fun page => page.results.map SearchResult.documentId) = .ok ["b", "a"] := by decide +kernel

end Example

end PySearch
