import PySearch.Search.Engine.Theorems

namespace PySearch

-- One call that asks an engine to change its corpus.
inductive MutationCall
  | indexDocument (document : Document)
  | deleteDocument (documentId : String)
  | applyReplicatedPut (document : Document) (generation : Int)
  | applyReplicatedDelete (documentId : String) (generation : Int)

namespace MutationCall

def mutation : MutationCall → Mutation
  | indexDocument document | applyReplicatedPut document _ => .put document
  | deleteDocument documentId | applyReplicatedDelete documentId _ => .delete documentId

-- What a call returns: whether the document is new, nothing, or how a replicated mutation
-- was classified.
inductive CallValue
  | created (isNew : Bool)
  | deleted
  | outcome (outcome : ReplicationOutcome)
  deriving DecidableEq

variable {α : Type} [Arith α] (ctx : EngineContext α)

def run (call : MutationCall) (engine : SearchEngine α) (faults : Faults) :
    Except PyError CallValue × SearchEngine α :=
  match call with
  | indexDocument document =>
      let (result, after) := engine.indexDocument ctx document faults
      (result.map .created, after)
  | deleteDocument documentId =>
      let (result, after) := engine.deleteDocument documentId faults
      (result.map fun _ => .deleted, after)
  | applyReplicatedPut document generation =>
      let (result, after) := engine.applyReplicatedPut ctx document generation faults
      (result.map .outcome, after)
  | applyReplicatedDelete documentId generation =>
      let (result, after) := engine.applyReplicatedDelete documentId generation faults
      (result.map .outcome, after)

end MutationCall

-- What can become of a mutation.
inductive Fate
  | applied
  | untouched
  | refusedGap
  | degraded
  deriving DecidableEq

namespace SearchEngine

open MutationCall (CallValue)

variable {α : Type}

-- The store holds one mutation more than before, under the next generation.
def Commits (engine after : SearchEngine α) (mutation : Mutation) : Prop :=
  after.store = engine.committed mutation (engine.store.database.generation + 1)

-- The call ended in the given way.
def Meets (ctx : EngineContext α) (engine : SearchEngine α) (mutation : Mutation)
    (result : Except PyError CallValue) (after : SearchEngine α) : Fate → Prop
  | .applied => (∃ value, result = .ok value ∧ value ≠ .outcome .duplicate ∧
      value ≠ .outcome .gap) ∧ engine.Commits after mutation ∧ after.Exact ctx ∧
      after.generation = engine.generation + 1
  | .untouched => (result = .ok (.outcome .duplicate) ∨ ∃ error, result = .error error) ∧
      after = engine
  | .refusedGap => result = .ok (.outcome .gap) ∧
      ∃ detail, after = { engine with state := .outOfSync, detail := detail }
  | .degraded => (∃ reason, result = .error (.engineNotReady .degraded reason)) ∧
      after.state = .degraded ∧ engine.Commits after mutation

variable {ctx : EngineContext α} {engine after : SearchEngine α} {mutation : Mutation}
  {result : Except PyError CallValue}

theorem Commits.store_ne (h : engine.Commits after mutation) : after.store ≠ engine.store := by
  intro heq
  rw [Commits, heq] at h
  have hgeneration := congrArg (fun store => store.database.generation) h
  simp only [committed, Database.apply_generation] at hgeneration
  omega

-- No call ends in two ways.
theorem meets_unique {fate other : Fate} (h : Meets ctx engine mutation result after fate)
    (h' : Meets ctx engine mutation result after other) : other = fate := by
  have hkept : ∀ fate, Meets ctx engine mutation result after fate →
      (after.store = engine.store ↔ fate = .untouched ∨ fate = .refusedGap) := by
    intro fate hfate
    cases fate with
    | applied => simpa using hfate.2.1.store_ne
    | untouched => simp [hfate.2]
    | refusedGap =>
        obtain ⟨-, detail, rfl⟩ := hfate
        simp
    | degraded => simpa using hfate.2.2.store_ne
  have hsame := (hkept fate h).symm.trans (hkept other h')
  cases fate <;> cases other <;> simp at hsame ⊢
  · obtain ⟨⟨value, hvalue, -⟩, -⟩ := h
    obtain ⟨⟨reason, hreason⟩, -⟩ := h'
    rw [hvalue] at hreason
    cases hreason
  · obtain ⟨hgap, -⟩ := h'
    rcases h.1 with hduplicate | ⟨error, herror⟩
    · rw [hduplicate] at hgap
      cases hgap
    · rw [herror] at hgap
      cases hgap
  · obtain ⟨hgap, -⟩ := h
    rcases h'.1 with hduplicate | ⟨error, herror⟩
    · rw [hduplicate] at hgap
      cases hgap
    · rw [herror] at hgap
      cases hgap
  · obtain ⟨⟨value, hvalue, -⟩, -⟩ := h'
    obtain ⟨⟨reason, hreason⟩, -⟩ := h
    rw [hvalue] at hreason
    cases hreason

-- A write on a primary or a single node.
theorem meets_of_writeEffect {β : Type} {faults : Faults} {returned : Except PyError β}
    (f : β → CallValue) (hf : ∀ value, f value ≠ .outcome .duplicate ∧ f value ≠ .outcome .gap)
    (hexact : engine.state = .ready → engine.Exact ctx)
    (h : engine.WriteEffect ctx mutation faults returned after) :
    ∃ fate, Meets ctx engine mutation (returned.map f) after fate := by
  cases h with
  | refused error commit => exact ⟨.untouched, .inr ⟨error, rfl⟩, rfl⟩
  | degraded reason after ready commit store generation state =>
      have hgen := (hexact ready).generation
      exact ⟨.degraded, ⟨reason, rfl⟩, state, by rw [Commits, store, hgen]⟩
  | applied value after ready commit store generation state exact =>
      have hgen := (hexact ready).generation
      exact ⟨.applied, ⟨f value, rfl, hf value⟩, by rw [Commits, store, hgen],
        exact (hexact ready), generation⟩

-- A replicated mutation.
theorem meets_of_replicaEffect {generation : Int} {outcome : Except PyError ReplicationOutcome}
    (hexact : engine.state = .ready → engine.Exact ctx)
    (h : engine.ReplicaEffect ctx mutation generation outcome after) :
    ∃ fate, Meets ctx engine mutation (outcome.map .outcome) after fate := by
  cases h with
  | refused error => exact ⟨.untouched, .inr ⟨error, rfl⟩, rfl⟩
  | duplicate known => exact ⟨.untouched, .inl rfl, rfl⟩
  | gap after ahead store derived kept state =>
      refine ⟨.refusedGap, rfl, after.detail, ?_⟩
      rw [← store, ← derived, ← kept, ← state]
  | degraded reason after ready next store kept state =>
      have hgen := (hexact ready).generation
      exact ⟨.degraded, ⟨reason, rfl⟩, state, by rw [Commits, store, next, hgen]⟩
  | applied after ready next store advanced state exact =>
      have hgen := (hexact ready).generation
      exact ⟨.applied, ⟨.outcome .applied, rfl, by decide, by decide⟩,
        by rw [Commits, store, next, hgen], exact (hexact ready), advanced.trans next⟩

variable [Arith α]

theorem run_meets (hexact : engine.state = .ready → engine.Exact ctx) (call : MutationCall)
    (faults : Faults) : ∃ fate, Meets ctx engine call.mutation (call.run ctx engine faults).1
      (call.run ctx engine faults).2 fate := by
  cases call with
  | indexDocument document =>
      exact meets_of_writeEffect .created (by simp) hexact
        (indexDocument_effect engine document faults)
  | deleteDocument documentId =>
      exact meets_of_writeEffect (fun _ => .deleted) (by simp) hexact
        (deleteDocument_effect engine documentId faults)
  | applyReplicatedPut document generation =>
      exact meets_of_replicaEffect hexact
        (applyReplicatedPut_effect engine document generation faults)
  | applyReplicatedDelete documentId generation =>
      exact meets_of_replicaEffect hexact
        (applyReplicatedDelete_effect engine documentId generation faults)

-- Every mutation is applied as a whole, leaves everything as it was, is refused as a gap, or
-- is committed and degrades the engine. An absent document leaves everything as it was.
theorem mutation_all_nothing_or_degraded (engine : SearchEngine α)
    (hexact : engine.state = .ready → engine.Exact ctx) (call : MutationCall) (faults : Faults) :
    (∃! fate, Meets ctx engine call.mutation (call.run ctx engine faults).1
      (call.run ctx engine faults).2 fate) ∧
    ∀ documentId, (call.run ctx engine faults).1 = .error (.documentNotFound documentId) →
      (call.run ctx engine faults).2 = engine := by
  obtain ⟨fate, hfate⟩ := run_meets hexact call faults
  refine ⟨⟨fate, hfate, fun other hother => meets_unique hfate hother⟩, ?_⟩
  intro documentId hresult
  rw [hresult] at hfate
  cases fate with
  | applied =>
      obtain ⟨⟨value, hvalue, -⟩, -⟩ := hfate
      cases hvalue
  | untouched => exact hfate.2
  | refusedGap => cases hfate.1
  | degraded =>
      obtain ⟨⟨reason, hreason⟩, -⟩ := hfate
      cases hreason

section Example

attribute [local instance] rationalArith

-- The derived update of a first write stops at its third statement.
theorem interruptedWrite_degrades :
    let ctx : EngineContext ℚ := ⟨.ascii, defaultBM25Params, none⟩
    let engine : SearchEngine ℚ := ⟨.openDatabase .empty, .empty none, .ready, "ready", 0⟩
    let faults : Faults := ⟨false, false, false, some (2, .unexpected)⟩
    engine.Exact ctx ∧ ∃ fate, Meets ctx engine (.put redFox)
      ((MutationCall.indexDocument redFox).run ctx engine faults).1
      ((MutationCall.indexDocument redFox).run ctx engine faults).2 fate ∧
      ∀ other, Meets ctx engine (.put redFox)
        ((MutationCall.indexDocument redFox).run ctx engine faults).1
        ((MutationCall.indexDocument redFox).run ctx engine faults).2 other → other = fate := by
  intro ctx engine faults
  have hexact : engine.Exact ctx :=
    ⟨⟨fun _ => rfl, InvertedIndex.image_empty, trivial⟩, rfl⟩
  exact ⟨hexact, (mutation_all_nothing_or_degraded engine (fun _ => hexact)
    (.indexDocument redFox) faults).1⟩

end Example

end SearchEngine

end PySearch
