import PySearch.Search.Engine.Answers

namespace PySearch

variable {α : Type} [Arith α]

namespace SearchEngine

variable (ctx : EngineContext α)

-- One call of `index_document` or `delete_document`. A crash inside the call is a failure
-- at the same point, since nothing but the store survives it.
def write (engine : SearchEngine α) (call : Mutation × Faults) : SearchEngine α :=
  match call.1 with
  | .put document => (engine.indexDocument ctx document call.2).2
  | .delete documentId => (engine.deleteDocument documentId call.2).2

def writes (engine : SearchEngine α) (calls : List (Mutation × Faults)) : SearchEngine α :=
  calls.foldl (write ctx) engine

-- The mutations of a sequence of calls that were committed.
def committedMutations (engine : SearchEngine α) : List (Mutation × Faults) → List Mutation
  | [] => []
  | call :: rest =>
      (if commits ctx engine call.1 call.2 then [call.1] else []) ++
        committedMutations (write ctx engine call) rest

-- A fresh engine on an empty store that indexes the given documents.
def indexAll [LinearOrder α] (documents : List Document) : SearchEngine α :=
  writes ctx (initializeEngine ctx (.new ctx (.openDatabase .empty)) .none).2
    (documents.map fun document => (.put document, .none))

variable {ctx} {engine : SearchEngine α}

theorem write_effect (engine : SearchEngine α) (call : Mutation × Faults) :
    ∃ (β : Type) (result : Except PyError β),
      WriteEffect ctx engine call.1 call.2 result (write ctx engine call) := by
  obtain ⟨mutation, faults⟩ := call
  cases mutation with
  | put document => exact ⟨_, _, indexDocument_effect engine document faults⟩
  | delete documentId => exact ⟨_, _, deleteDocument_effect engine documentId faults⟩

theorem write_exact (hs : engine.state = .ready → engine.Exact ctx) (call : Mutation × Faults) :
    (write ctx engine call).state = .ready → (write ctx engine call).Exact ctx := by
  obtain ⟨β, result, heffect⟩ := @write_effect _ _ ctx engine call
  generalize write ctx engine call = after at heffect ⊢
  cases heffect with
  | refused error commit => exact hs
  | degraded reason after ready commit store generation state => simp [state]
  | applied value after ready commit store generation state exact => exact fun _ => exact (hs ready)

-- One call adds to the store what was committed.
theorem write_extended (hs : engine.state = .ready → engine.Exact ctx) (call : Mutation × Faults) :
    (write ctx engine call).store.database = engine.store.database.extended
      (if commits ctx engine call.1 call.2 then [call.1] else []) := by
  obtain ⟨β, result, heffect⟩ := @write_effect _ _ ctx engine call
  have hcommitted : engine.state = .ready →
      (engine.committed call.1 (engine.generation + 1)).database =
        engine.store.database.extended [call.1] := by
    intro hready
    rw [(hs hready).generation]
    rfl
  generalize write ctx engine call = after at heffect ⊢
  cases heffect with
  | refused error commit =>
      rw [commit]
      rfl
  | degraded reason after ready commit store generation state =>
      rw [store, hcommitted ready, commit]
      rfl
  | applied value after ready commit store generation state exact =>
      rw [store, hcommitted ready, commit]
      rfl

-- A call that commits moves the generation by one, any other call moves nothing.
theorem write_moves (engine : SearchEngine α) (call : Mutation × Faults) :
    (commits ctx engine call.1 call.2 = false ∧ write ctx engine call = engine) ∨
      (commits ctx engine call.1 call.2 = true ∧
        (write ctx engine call).generation = engine.generation + 1) := by
  obtain ⟨β, result, heffect⟩ := @write_effect _ _ ctx engine call
  generalize write ctx engine call = after at heffect ⊢
  cases heffect with
  | refused error commit => exact .inl ⟨commit, rfl⟩
  | degraded reason after ready commit store generation state => exact .inr ⟨commit, generation⟩
  | applied value after ready commit store generation state exact =>
      exact .inr ⟨commit, generation⟩

theorem writes_generation (calls : List (Mutation × Faults)) (engine : SearchEngine α) :
    (writes ctx engine calls).generation =
      engine.generation + (committedMutations ctx engine calls).length := by
  induction calls generalizing engine with
  | nil => exact (Int.add_zero _).symm
  | cons call rest ih =>
      have hrest := ih (write ctx engine call)
      simp only [writes, List.foldl_cons, committedMutations, List.length_append] at hrest ⊢
      rw [hrest]
      rcases @write_moves _ _ ctx engine call with ⟨hcommit, hwrite⟩ | ⟨hcommit, hwrite⟩
      · simp [hcommit, hwrite]
      · simp [hcommit, hwrite]
        omega

theorem writes_exact (calls : List (Mutation × Faults)) {engine : SearchEngine α}
    (hs : engine.state = .ready → engine.Exact ctx) :
    (writes ctx engine calls).state = .ready → (writes ctx engine calls).Exact ctx := by
  induction calls generalizing engine with
  | nil => exact hs
  | cons call rest ih =>
      show (writes ctx (write ctx engine call) rest).state = .ready →
        (writes ctx (write ctx engine call) rest).Exact ctx
      exact ih (write_exact hs call)

theorem writes_extended (calls : List (Mutation × Faults)) {engine : SearchEngine α}
    (hs : engine.state = .ready → engine.Exact ctx) :
    (writes ctx engine calls).store.database =
      engine.store.database.extended (committedMutations ctx engine calls) := by
  induction calls generalizing engine with
  | nil => rfl
  | cons call rest ih =>
      have hrest := ih (write_exact hs call)
      rwa [write_extended hs call, ← Database.extended_append] at hrest

variable [LinearOrder α]

-- Indexing documents without failures stores them, one generation each.
theorem writes_healthy (hc : ctx.Contract) (documents : List Document) {engine : SearchEngine α}
    (h : Healthy ctx engine) :
    Healthy ctx (writes ctx engine (documents.map fun document => (.put document, .none))) ∧
      (writes ctx engine (documents.map fun document => (.put document, .none))).store.database.rows =
        documents.foldl (fun rows document => rows.set document.documentId document)
          engine.store.database.rows := by
  induction documents generalizing engine with
  | nil => exact ⟨h, rfl⟩
  | cons document rest ih =>
      obtain ⟨after, hcall, hafter, hdb⟩ := h.indexDocument hc document
      have hwrite : write ctx engine (.put document, .none) = after := congrArg Prod.snd hcall
      obtain ⟨hhealthy, hrows⟩ := ih hafter
      simp only [writes, List.map_cons, List.foldl_cons, hwrite]
      refine ⟨hhealthy, hrows.trans ?_⟩
      rw [hdb]
      rfl

theorem indexAll_healthy (hc : ctx.Contract) (documents : List Document) :
    Healthy ctx (indexAll ctx documents) ∧
      (indexAll ctx documents).store.database.rows = Database.insertAll documents := by
  obtain ⟨report, start, hinit, hstart, hdb⟩ := initializeEngine_healthy hc .empty
  have h := writes_healthy hc documents hstart
  rw [hdb] at h
  rw [indexAll, hinit]
  exact h

-- Whatever the calls and wherever the last one stopped, a restart serves exactly the
-- committed mutations, and cannot be told apart from an engine that only ever indexed the
-- surviving documents.
theorem crash_recovery_exact (hc : ctx.Contract) (calls : List (Mutation × Faults))
    (order : List Document) :
    let start := (initializeEngine ctx (.new ctx (.openDatabase .empty)) .none).2
    let database := (writes ctx start calls).store.database
    order.Perm database.documents →
    ∃ report recovered,
      initializeEngine ctx (.new ctx (.openDatabase database)) .none = (.ok report, recovered) ∧
      recovered.state = .ready ∧
      database = .replay (committedMutations ctx start calls) ∧
      recovered.generation = (committedMutations ctx start calls).length ∧
      SameAnswers ctx recovered (indexAll ctx order) := by
  intro start database horder
  obtain ⟨startReport, first, hfirst, hhealthy, hempty⟩ := initializeEngine_healthy hc .empty
  have hstart : start = first := congrArg Prod.snd hfirst
  have hreplay : database = .replay (committedMutations ctx start calls) := by
    have h := writes_extended calls fun _ => hhealthy.exact
    rw [hempty, ← hstart] at h
    exact h
  obtain ⟨report, recovered, hinit, hrecovered, hdb⟩ := initializeEngine_healthy hc database
  obtain ⟨hfresh, hrows⟩ := indexAll_healthy hc order
  refine ⟨report, recovered, hinit, hrecovered.ready, hreplay, ?_, ?_⟩
  · rw [hrecovered.exact.generation, hdb, hreplay, Database.replay_generation]
  · have hexact := hfresh.exact.derived
    rw [hrows] at hexact
    have hderived := hrecovered.exact.derived
    rw [hdb] at hderived
    exact sameAnswers hderived (hexact.congr (database.insertAll_perm horder)) hrecovered.ready
      hfresh.ready

section Example

attribute [local instance] rationalArith

-- Two writes, the second of which stops in the middle of its derived update.
def interruptedCalls : List (Mutation × Faults) :=
  [(.put redFox, .none),
    (.put red, ⟨false, false, false, some (2, .unexpected)⟩)]

theorem interruptedCalls_recovered :
    let ctx : EngineContext ℚ := ⟨.ascii, defaultBM25Params, some .constant⟩
    let start := (initializeEngine ctx (.new ctx (.openDatabase .empty)) .none).2
    let database := (writes ctx start interruptedCalls).store.database
    (writes ctx start interruptedCalls).state = .degraded ∧
    ∃ report recovered,
      initializeEngine ctx (.new ctx (.openDatabase database)) .none = (.ok report, recovered) ∧
      recovered.state = .ready ∧
      database = .replay (committedMutations ctx start interruptedCalls) ∧
      recovered.generation = (committedMutations ctx start interruptedCalls).length ∧
      SameAnswers ctx recovered (indexAll ctx database.documents) :=
  ⟨by decide +kernel, crash_recovery_exact
    (EngineContext.contract_of_some rfl Embedder.constant_contract) _ _ (.refl _)⟩

end Example

end SearchEngine

end PySearch
