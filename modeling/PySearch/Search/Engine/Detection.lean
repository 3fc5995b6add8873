import PySearch.Lib.Run
import PySearch.Search.Engine.Drift

namespace PySearch

open Script (exec)
open ExactVectorIndex (Admissible)

variable {α : Type} [Arith α]

-- The vector index takes the embedding of the text, if there is one.
def EngineContext.accepts (ctx : EngineContext α) (document : Document) : Bool :=
  match ctx.embedder with
  | none => true
  | some embedder =>
      (ExactVectorIndex.check embedder.identity.dimension (embedder.embed document.text)).isOk

namespace Derived

-- How far the update for a document can run: the first statement on the vectors raises when
-- they do not take the embedding.
def reach (ctx : EngineContext α) (derived : Derived α) (document : Document) : Nat :=
  if ctx.accepts document then
    (derived.applyScript document (Analysis.analyze ctx.unicode document.text)
      (ctx.vectorOf document)).length
  else derived.lexicalLength ctx document

-- How many statements of the update run before one raises, if one does.
def stopsAfter (ctx : EngineContext α) (derived : Derived α) (document : Document)
    (fault : Option (Nat × PyError)) : Option Nat :=
  Script.stop (derived.applyScript document (Analysis.analyze ctx.unicode document.text)
    (ctx.vectorOf document)).length (derived.reach ctx document) fault

variable {ctx : EngineContext α} {derived : Derived α} {rows : Dict String Document}
  {document : Document}

theorem admissible_of_accepts (haccepts : ctx.accepts document = true) :
    ∀ embedder, ctx.embedder = some embedder →
      ctx.vectorOf document = some (embedder.embed document.text) ∧
        Admissible embedder.identity.dimension (embedder.embed document.text) := by
  intro embedder he
  unfold EngineContext.accepts at haccepts
  rw [he] at haccepts
  refine ⟨by simp [EngineContext.vectorOf, he], ?_⟩
  dsimp only at haccepts
  cases hcheck : ExactVectorIndex.check embedder.identity.dimension
      (embedder.embed document.text) with
  | error error => simp [hcheck, Except.isOk, Except.toBool] at haccepts
  | ok checked => exact (ExactVectorIndex.admissible_of_check hcheck).1

theorem refused_of_not_accepts (haccepts : ctx.accepts document = false) :
    ∃ embedder error, ctx.embedder = some embedder ∧ ExactVectorIndex.check
      embedder.identity.dimension (embedder.embed document.text) = .error error := by
  unfold EngineContext.accepts at haccepts
  cases he : ctx.embedder with
  | none => simp [he] at haccepts
  | some embedder =>
      cases hcheck : ExactVectorIndex.check embedder.identity.dimension
          (embedder.embed document.text) with
      | error error => exact ⟨embedder, error, rfl, hcheck⟩
      | ok checked => simp [he, hcheck, Except.isOk, Except.toBool] at haccepts

-- The statements on the cache and the index, in front of those on the vectors.
theorem apply_refused (h : derived.Exact ctx rows) (haccepts : ctx.accepts document = false) :
    let script := derived.applyScript document (Analysis.analyze ctx.unicode document.text)
      (ctx.vectorOf document)
    ∃ last stmt error, exec (script.take (derived.lexicalLength ctx document)) derived = .ok last ∧
      script[derived.lexicalLength ctx document]? = some stmt ∧ stmt last = .error error := by
  intro script
  obtain ⟨embedder, error, he, hcheck⟩ := refused_of_not_accepts haccepts
  obtain ⟨vectors, hs, himage⟩ := vectorsExact_some h.vectors he
  obtain ⟨index, hlexical, -⟩ := exec_apply_lexical document h
  have hscript : script = setDocument document ::
      (derived.index.addDocumentScript document.documentId
        (Analysis.analyze ctx.unicode document.text)).map onIndex ++
      (vectors.addScript document.documentId (embedder.embed document.text)).map onVectors := by
    simp only [script, applyScript, EngineContext.vectorOf, hs, he, Option.map_some]
  have hlength : derived.lexicalLength ctx document = (setDocument document ::
      (derived.index.addDocumentScript document.documentId
        (Analysis.analyze ctx.unicode document.text)).map (@onIndex α)).length := by
    rw [lexicalLength, List.length_cons, List.length_map, Nat.add_comm]
  refine ⟨⟨derived.documents.set document.documentId document, index, derived.vectors⟩,
    onVectors (ExactVectorIndex.checkVector (embedder.embed document.text)), error, ?_, ?_, ?_⟩
  · rw [hscript, hlength, List.take_left]
    exact hlexical
  · rw [hscript, hlength, List.getElem?_append_right (Nat.le_refl _), Nat.sub_self,
      ExactVectorIndex.addScript]
    rfl
  · simp only [onVectors, hs, ExactVectorIndex.checkVector, himage.dimension, hcheck]
    rfl

-- An update runs to its end, or stops where `stopsAfter` says.
theorem apply_stopped (h : derived.Exact ctx rows) (fault : Option (Nat × PyError)) :
    let script := derived.applyScript document (Analysis.analyze ctx.unicode document.text)
      (ctx.vectorOf document)
    match derived.stopsAfter ctx document fault with
    | none => ∃ last, Script.run script fault derived = (last, none)
    | some count => ∃ middle error, Script.run script fault derived = (middle, some error) ∧
        exec (script.take count) derived = .ok middle := by
  intro script
  have hreach : ∃ last, exec (script.take (derived.reach ctx document)) derived = .ok last ∧
      (script.length = derived.reach ctx document ∨ ∃ stmt error,
        script[derived.reach ctx document]? = some stmt ∧ stmt last = .error error) := by
    unfold reach
    cases haccepts : ctx.accepts document with
    | true =>
        obtain ⟨last, hlast⟩ := exec_apply h (admissible_of_accepts haccepts)
        refine ⟨last, ?_, .inl rfl⟩
        rwa [if_pos rfl, List.take_length]
    | false =>
        obtain ⟨last, stmt, error, hlast, hget, herror⟩ := apply_refused h haccepts
        exact ⟨last, hlast, .inr ⟨stmt, error, hget, herror⟩⟩
  obtain ⟨last, hlast, hend⟩ := hreach
  have hrun := Script.run_eq_stop hlast hend fault
  unfold stopsAfter
  split at hrun
  · rename_i hnone
    rw [hnone]
    exact ⟨last, hrun⟩
  · rename_i count hsome
    rw [hsome]
    exact hrun.2

-- Equality of what is held, in any order.
structure Same (derived other : Derived α) : Prop where
  documents : ∀ id, derived.documents.get? id = other.documents.get? id
  index : derived.index.Same other.index
  vectors : Option.Rel (fun vectors twin => ∀ id, vectors.vectorOf id = twin.vectorOf id)
    derived.vectors other.vectors

omit [Arith α] in
theorem Exact.same {other : Derived α} (h : derived.Exact ctx rows) (h' : other.Exact ctx rows) :
    derived.Same other where
  documents id := (h.documents id).trans (h'.documents id).symm
  index := h.index.same h'.index
  vectors := by
    cases he : ctx.embedder with
    | none =>
        rw [vectorsExact_none h.vectors he, vectorsExact_none h'.vectors he]
        exact .none
    | some embedder =>
        obtain ⟨vectors, hs, himage⟩ := vectorsExact_some h.vectors he
        obtain ⟨twin, hs', himage'⟩ := vectorsExact_some h'.vectors he
        rw [hs, hs']
        exact .some fun id => (himage.vectorOf_eq id).trans (himage'.vectorOf_eq id).symm

end Derived

namespace SearchEngine

variable {ctx : EngineContext α} {engine after : SearchEngine α} {document : Document}
  {documentId : String} {faults : Faults}

omit [Arith α] in
theorem exact_congr (hstore : after.store = engine.store)
    (hderived : after.derived = engine.derived) (hgeneration : after.generation = engine.generation)
    (h : engine.Exact ctx) : after.Exact ctx := by
  refine ⟨?_, ?_⟩
  · rw [hderived, hstore]
    exact h.derived
  · rw [hgeneration, hstore]
    exact h.generation

-- Past the commit a write is its derived update.
theorem indexDocument_committed (hcommit : commits ctx engine (.put document) faults = true) :
    (engine.indexDocument ctx document faults).2 =
      (degradeOnFailure "failed to update derived state after a durable write"
        (engine.derived.applyScript document (Analysis.analyze ctx.unicode document.text)
          (ctx.vectorOf document)) faults.derived
        { engine with
          store := engine.committed (.put document) (engine.generation + 1)
          generation := engine.generation + 1 }).2 := by
  obtain ⟨hanalysis, hembed⟩ := embeds_of_commits hcommit
  have hstore := available_of_commits hcommit
  have hvector : embedDocument ctx document.text faults.embed = .ok (ctx.vectorOf document) := by
    unfold embedDocument EngineContext.vectorOf
    cases he : ctx.embedder with
    | none => rfl
    | some embedder =>
        have hfault := hembed.resolve_left (by simp [he])
        simp [hfault, Embedder.embedDocuments]
  have hput : engine.store.put document (engine.generation + 1) faults.store =
      .ok (!engine.store.database.rows.contains document.documentId,
        engine.committed (.put document) (engine.generation + 1)) := by
    simp [SqliteDocumentStore.put, hstore, committed, Database.apply]
  simp only [indexDocument, analyzeDocument, hanalysis, Bool.false_eq_true, if_false, hvector,
    requireOperational_of_ready (ready_of_commits hcommit), hput]
  split <;> rename_i hdegrade <;> rw [hdegrade]

omit [Arith α] in
theorem deleteDocument_committed (hcommit : commits ctx engine (.delete documentId) faults = true) :
    (engine.deleteDocument documentId faults).2 =
      (degradeOnFailure "failed to update derived state after a durable delete"
        (engine.derived.removeScript documentId) faults.derived
        { engine with
          store := engine.committed (.delete documentId) (engine.generation + 1)
          generation := engine.generation + 1 }).2 := by
  have hstore := available_of_commits hcommit
  have hdelete : engine.store.delete documentId (engine.generation + 1) faults.store =
      .ok (engine.store.database.rows.contains documentId,
        engine.committed (.delete documentId) (engine.generation + 1)) := by
    simp [SqliteDocumentStore.delete, hstore, committed, Database.apply]
  simp only [deleteDocument, requireOperational_of_ready (ready_of_commits hcommit),
    present_of_commits hcommit, Bool.not_true, Bool.false_eq_true, if_false, hdelete]

theorem indexDocument_stopped (h : engine.Exact ctx)
    (hcommit : commits ctx engine (.put document) faults = true) :
    let after := (engine.indexDocument ctx document faults).2
    after.store = engine.committed (.put document) (engine.generation + 1) ∧
    after.generation = engine.generation + 1 ∧
    match engine.derived.stopsAfter ctx document faults.derived with
    | none => after.derived.Exact ctx after.store.database.rows
    | some count => exec ((engine.derived.applyScript document
        (Analysis.analyze ctx.unicode document.text) (ctx.vectorOf document)).take count)
          engine.derived = .ok after.derived := by
  intro after
  have hstopped := @Derived.apply_stopped _ _ _ _ _ document h.derived faults.derived
  simp only [after, indexDocument_committed hcommit, degradeOnFailure]
  cases hstop : engine.derived.stopsAfter ctx document faults.derived with
  | none =>
      simp only [hstop] at hstopped
      obtain ⟨last, hrun⟩ := hstopped
      rw [hrun]
      refine ⟨rfl, rfl, ?_⟩
      exact Derived.exact_set h.derived (fun embedder he => by simp [EngineContext.vectorOf, he])
        (Script.exec_of_run hrun)
  | some count =>
      simp only [hstop] at hstopped
      obtain ⟨middle, error, hrun, hexec⟩ := hstopped
      rw [hrun]
      exact ⟨rfl, rfl, hexec⟩

omit [Arith α] in
theorem deleteDocument_stopped (hcommit : commits ctx engine (.delete documentId) faults = true) :
    let after := (engine.deleteDocument documentId faults).2
    after.store = engine.committed (.delete documentId) (engine.generation + 1) ∧
    after.generation = engine.generation + 1 ∧
    ∃ count, exec ((engine.derived.removeScript documentId).take count) engine.derived =
      .ok after.derived := by
  intro after
  obtain ⟨count, hexec⟩ := Script.exec_take_of_run (engine.derived.removeScript documentId)
    faults.derived engine.derived
  simp only [after, deleteDocument_committed hcommit, degradeOnFailure]
  generalize engine.derived.removeScript documentId = script at hexec ⊢
  cases hrun : Script.run script faults.derived engine.derived with
  | mk middle raised =>
      rw [hrun] at hexec
      cases raised with
      | none => exact ⟨rfl, rfl, count, hexec⟩
      | some error => exact ⟨rfl, rfl, count, hexec⟩

section Detection

variable [LinearOrder α]

-- A committed write whose derived update stops where the validation does not see it.
def Overlooked (ctx : EngineContext α) (engine : SearchEngine α) (call : MutationCall)
    (faults : Faults) : Prop :=
  match call with
  | .indexDocument document =>
      commits ctx engine (.put document) faults = true ∧
        ctx.EmbedsToUnits engine.store.database.rows ∧
        ∃ count, engine.derived.stopsAfter ctx document faults.derived = some count ∧
          engine.derived.HalfWritten ctx
            (engine.store.database.rows.get? document.documentId) document count
  | .deleteDocument _ | .applyReplicatedPut _ _ | .applyReplicatedDelete _ _ => False

-- The validation sees every difference between the structures and the store.
def Detects (ctx : EngineContext α) (engine : SearchEngine α) : Prop :=
  ∀ reads, engine.validate reads = .ok () → engine.Exact ctx

theorem Detects.of_exact (h : engine.Exact ctx) : engine.Detects ctx := fun _ _ => h

theorem validate_congr (hstore : after.store = engine.store)
    (hderived : after.derived = engine.derived) (hgeneration : after.generation = engine.generation)
    (reads : ReadFaults) : after.validate reads = engine.validate reads := by
  unfold validate
  rw [hstore, hderived, hgeneration]

-- What becomes of a write on an exact engine is seen, unless it is overlooked.
theorem indexDocument_detects_iff (h : engine.Exact ctx)
    (hcommit : commits ctx engine (.put document) faults = true) :
    (engine.indexDocument ctx document faults).2.Detects ctx ↔
      ¬ Overlooked ctx engine (.indexDocument document) faults := by
  have hstopped := indexDocument_stopped h hcommit
  generalize (engine.indexDocument ctx document faults).2 = after at hstopped ⊢
  obtain ⟨hstore, hgeneration, hstopped⟩ := hstopped
  have hrows : after.store.database.rows =
      engine.store.database.rows.set document.documentId document := by
    rw [hstore]
    rfl
  have hstored : after.generation = after.store.database.generation := by
    rw [hgeneration, hstore]
    rfl
  cases hstop : engine.derived.stopsAfter ctx document faults.derived with
  | none =>
      rw [hstop] at hstopped
      exact iff_of_true (.of_exact ⟨hstopped, hstored⟩) (by simp [Overlooked, hstop])
  | some count =>
      rw [hstop] at hstopped
      dsimp only at hstopped
      constructor
      · rintro hdetects ⟨-, hunits, other, hother, hhalf⟩
        cases hstop.symm.trans hother
        have hoverlooked := Derived.half_overlooked h.derived hunits hstopped hhalf
        rw [← hrows] at hoverlooked
        have hopen : after.store.closed = false := by
          rw [hstore]
          exact (opened_of_commits hcommit).1
        have hvalid := validate_of_validated hopen hoverlooked.1 hstored
        exact hoverlooked.2 (hdetects .none hvalid).derived
      · intro hseen reads hvalid
        have hvalidated := (validated_of_validate hvalid).1
        rw [hrows] at hvalidated
        refine ⟨?_, hstored⟩
        rw [hrows]
        rcases Derived.written_exact_or_half h.derived engine.store.database.keyed hstopped
          hvalidated with hexact | hhalf
        · exact hexact
        · have hunits := Derived.units_of_half h.derived hstopped hvalidated hhalf
          exact absurd ⟨hcommit, hunits, count, hstop, hhalf⟩ hseen

-- A deletion on an exact engine is always seen.
theorem deleteDocument_detects (h : engine.Exact ctx)
    (hcommit : commits ctx engine (.delete documentId) faults = true) :
    (engine.deleteDocument documentId faults).2.Detects ctx := by
  have hstopped := deleteDocument_stopped hcommit
  obtain ⟨document, hdoc⟩ := Option.isSome_iff_exists.mp (present_of_commits hcommit)
  rw [h.derived.documents] at hdoc
  generalize (engine.deleteDocument documentId faults).2 = after at hstopped ⊢
  obtain ⟨hstore, hgeneration, count, hexec⟩ := hstopped
  intro reads hvalid
  have hvalidated := (validated_of_validate hvalid).1
  have hrows : after.store.database.rows = engine.store.database.rows.erase documentId := by
    rw [hstore]
    rfl
  rw [hrows] at hvalidated
  refine ⟨?_, ?_⟩
  · rw [hrows]
    exact Derived.removed_exact h.derived hdoc hexec hvalidated
  · rw [hgeneration, hstore]
    rfl

-- A replica does not advance its generation when a mutation degrades it.
theorem ReplicaEffect.detects {mutation : Mutation} {generation : Int}
    {outcome : Except PyError ReplicationOutcome}
    (heffect : engine.ReplicaEffect ctx mutation generation outcome after)
    (hexact : engine.state = .ready → engine.Exact ctx) (h : engine.Detects ctx) :
    after.Detects ctx := by
  cases heffect with
  | refused error => exact h
  | duplicate known => exact h
  | gap after ahead store derived kept state =>
      intro reads hvalid
      rw [validate_congr store derived kept] at hvalid
      exact exact_congr store derived kept (h reads hvalid)
  | degraded reason after ready next store kept state =>
      intro reads hvalid
      have hgeneration := (validated_of_validate hvalid).2
      rw [kept, store, committed, Database.apply_generation] at hgeneration
      omega
  | applied after ready next store advanced state exact => exact .of_exact (exact (hexact ready))

omit [Arith α] [LinearOrder α] in
theorem WriteEffect.unchanged {β : Type} {mutation : Mutation} {result : Except PyError β}
    (heffect : engine.WriteEffect ctx mutation faults result after)
    (hcommit : ¬ commits ctx engine mutation faults = true) : after = engine := by
  cases heffect with
  | refused error commit => rfl
  | degraded reason after ready commit => exact absurd commit hcommit
  | applied value after ready commit => exact absurd commit hcommit

omit [LinearOrder α] in
-- Only an engine that holds what its store holds is ready.
theorem run_ready_exact (hexact : engine.state = .ready → engine.Exact ctx) (call : MutationCall)
    (faults : Faults) (hready : (call.run ctx engine faults).2.state = .ready) :
    (call.run ctx engine faults).2.Exact ctx := by
  obtain ⟨fate, hfate⟩ := run_meets hexact call faults
  cases fate with
  | applied => exact hfate.2.2.1
  | untouched =>
      rw [hfate.2] at hready ⊢
      exact hexact hready
  | refusedGap =>
      obtain ⟨-, detail, hgap⟩ := hfate
      rw [hgap] at hready
      cases hready
  | degraded =>
      rw [hfate.2.1] at hready
      cases hready

-- What every call keeps when it is not overlooked.
structure Observed (ctx : EngineContext α) (engine : SearchEngine α) : Prop where
  ready : engine.state = .ready → engine.Exact ctx
  detects : engine.Detects ctx

theorem Observed.run (h : engine.Observed ctx) {call : MutationCall}
    (hseen : ¬ Overlooked ctx engine call faults) :
    (call.run ctx engine faults).2.Observed ctx := by
  refine ⟨run_ready_exact h.ready call faults, ?_⟩
  cases call with
  | indexDocument document =>
      by_cases hcommit : commits ctx engine (.put document) faults = true
      · have hexact := h.ready (ready_of_commits hcommit)
        exact (indexDocument_detects_iff hexact hcommit).mpr hseen
      · have hsame := (@indexDocument_effect _ _ ctx engine document faults).unchanged hcommit
        simpa only [MutationCall.run, hsame] using h.detects
  | deleteDocument documentId =>
      by_cases hcommit : commits ctx engine (.delete documentId) faults = true
      · exact deleteDocument_detects (h.ready (ready_of_commits hcommit)) hcommit
      · have hsame := (@deleteDocument_effect _ ctx engine documentId faults).unchanged hcommit
        simpa only [MutationCall.run, hsame] using h.detects
  | applyReplicatedPut document generation =>
      exact (applyReplicatedPut_effect engine document generation faults).detects h.ready h.detects
  | applyReplicatedDelete documentId generation =>
      exact (applyReplicatedDelete_effect engine documentId generation faults).detects h.ready
        h.detects

-- Every call holds the lock while it changes the engine, so calls take effect one by one.
def mutate (ctx : EngineContext α) (engine : SearchEngine α) (step : MutationCall × Faults) :
    Option (SearchEngine α) :=
  some (step.1.run ctx engine step.2).2

end Detection

section Example

attribute [local instance] rationalArith

end Example

end SearchEngine

end PySearch
