import PySearch.Cluster.Replication.Startup

namespace PySearch

namespace Database

theorem extended_absent (mutations : List Mutation) (database : Database) (id : String)
    (h : (database.extended mutations).rows.get? id = none) :
    database.rows.get? id = none ∨ .delete id ∈ mutations := by
  induction mutations generalizing database with
  | nil => exact .inl h
  | cons mutation rest ih =>
      rcases ih _ h with hfirst | hrest
      · rw [apply_get?] at hfirst
        split at hfirst
        · rename_i hid
          cases mutation with
          | put document => cases hfirst
          | delete documentId =>
              subst hid
              exact .inr (.head _)
        · exact .inl hfirst
      · exact .inr (.tail _ hrest)

-- What a first part of a history holds and the whole does not was deleted in the rest.
theorem deleted_since {history : List Mutation} {count : Nat} {id : String}
    (hheld : (replay (history.take count)).rows.get? id ≠ none)
    (hgone : (replay history).rows.get? id = none) : .delete id ∈ history.drop count := by
  rw [← List.take_append_drop count history, replay, extended_append] at hgone
  exact (extended_absent _ _ _ hgone).resolve_left hheld

theorem replay_deleted {history : List Mutation} {id : String}
    (h : Numbered history (.delete id) history.length) :
    (replay history).rows.get? id = none := by
  have hlast : history = history.take (history.length - 1) ++ [.delete id] := by
    have hsplit := List.take_add_one (l := history) (i := history.length - 1)
    have hpos := h.1
    have hnumber := h.2
    rw [show ((history.length : Int) - 1).toNat = history.length - 1 by omega] at hnumber
    rw [hnumber, Nat.sub_add_cancel (by omega), List.take_length, Option.toList_some] at hsplit
    exact hsplit
  rw [hlast, replay_append, apply_get?]
  exact if_pos rfl

end Database

variable {α : Type}

-- The two definitive answers to a request to delete.
inductive DeleteAnswer
  | deleted
  | notFound
  deriving DecidableEq

theorem SearchEngine.deleteDocument_notFound {engine : SearchEngine α} {documentId id : String}
    {faults : Faults}
    (h : (engine.deleteDocument documentId faults).1 = .error (.documentNotFound id)) :
    id = documentId ∧ engine.state = .ready ∧ engine.derived.documents.get? documentId = none := by
  unfold deleteDocument at h
  split at h
  · rename_i error hoperational
    unfold requireOperational at hoperational
    split at hoperational
    · cases hoperational
    · cases hoperational
      cases h
  · rename_i hoperational
    have hready := requireOperational_ok hoperational
    split at h
    · rename_i habsent
      cases h
      refine ⟨rfl, hready, ?_⟩
      simpa [Dict.contains, Option.isSome_eq_false_iff] using habsent
    · dsimp only at h
      split at h
      · rename_i error hdelete
        unfold SqliteDocumentStore.delete at hdelete
        split at hdelete <;> cases hdelete
        cases h
      · unfold degradeOnFailure at h
        split at h <;> cases h

namespace Shard

-- What the caller that deletes the document is told by a step, if it is told anything: the
-- primary finds nothing to delete, or every replica has confirmed the deletion.
def answersDelete (shard : Shard α) (documentId : String) : ShardAction → Option DeleteAnswer
  | .write (.delete id) faults =>
      match shard.write, shard.primary with
      | none, .up engine .serving _ =>
          if (engine.deleteDocument id faults).1 = .error (.documentNotFound documentId) then
            some .notFound
          else none
      | _, _ => none
  | .acknowledge =>
      match shard.write with
      | some write =>
          if write.next = shard.replicas.length ∧ write.mutation = .delete documentId then
            some .deleted
          else none
      | none => none
  | _ => none

variable {ctx : EngineContext α} {shard : Shard α} {replicas : Nat}

-- When the last replica has confirmed a write, every copy has stored all of the history.
theorem confirmed_length (hs : Settled ctx shard) (hd : Durable shard) {write : PendingWrite}
    (hwrite : shard.write = some write) (hall : write.next = shard.replicas.length)
    {engine : SearchEngine α} {phase : Phase} {resyncs : List Resync}
    (hcopy : .up engine phase resyncs ∈ shard.copies) (hready : engine.state = .ready) :
    engine.generation = shard.history.length := by
  obtain ⟨hsound, hfollows⟩ := hs.consistent.copy hcopy
  have hexact := hsound (.inl hready)
  rw [hexact.generation]
  rcases List.mem_cons.mp hcopy with hprimary | hreplica
  · have hdb := hs.consistent.primary
    rw [← hprimary] at hdb
    rw [show engine.store.database = _ from hdb, Database.replay_generation]
  · obtain ⟨target, htarget⟩ := List.mem_iff_getElem?.mp hreplica
    have hbound := (List.getElem?_eq_some_iff.mp htarget).1
    have hreached := (hd.write write hwrite).2 target (by omega) _ htarget
    have hlatest := hs.latest write hwrite
    have hwithin := hfollows.within
    rw [Node.database_up] at hreached hwithin
    omega

variable [Arith α] [LinearOrder α]

-- Success means that no ready copy holds the document. Not found means that the primary does
-- not, and that a ready copy that still does has a committed deletion of it before it.
theorem definitive_delete (h : Run.Reaches (step ctx) (fun _ action => action.callsResync = false)
      (initial replicas) shard)
    {documentId : String} {action : ShardAction} {answer : DeleteAnswer}
    (hanswer : shard.answersDelete documentId action = some answer)
    {engine : SearchEngine α} {phase : Phase} {resyncs : List Resync}
    (hcopy : .up engine phase resyncs ∈ shard.copies) (hready : engine.state = .ready) :
    engine.derived.documents.get? documentId = none ∨
      answer = .notFound ∧ .up engine phase resyncs ≠ shard.primary ∧
        .delete documentId ∈ shard.history.drop engine.generation.toNat := by
  have hs := reaches_settled h
  have hrows := ready_copy_rows hs.consistent hcopy hready documentId
  unfold answersDelete at hanswer
  split at hanswer
  · rename_i id faults
    split at hanswer
    · rename_i primary others hidle hserving
      split at hanswer
      · rename_i hnotFound
        cases hanswer
        obtain ⟨rfl, hprimaryReady, habsent⟩ := SearchEngine.deleteDocument_notFound hnotFound
        have hprimaryCopy : .up primary .serving others ∈ shard.copies := by
          rw [← hserving]
          exact List.mem_cons_self
        have hgone := ready_copy_rows hs.consistent hprimaryCopy hprimaryReady documentId
        rw [habsent, hs.primary_length hserving, Int.toNat_natCast, List.take_length] at hgone
        by_cases hheld : engine.derived.documents.get? documentId = none
        · exact .inl hheld
        · refine .inr ⟨rfl, ?_, Database.deleted_since (hrows ▸ hheld) hgone.symm⟩
          intro hsame
          rw [hserving] at hsame
          cases hsame
          exact hheld habsent
      · cases hanswer
    · cases hanswer
  · split at hanswer
    · rename_i write hwrite
      split at hanswer
      · rename_i hconfirmed
        obtain ⟨hall, hmutation⟩ := hconfirmed
        have hlength := confirmed_length hs (reaches_durable h).1 hwrite hall hcopy hready
        have hnumbered := hs.consistent.write write hwrite
        rw [hmutation, hs.latest write hwrite] at hnumbered
        rw [hrows, hlength, Int.toNat_natCast, List.take_length]
        exact .inl (Database.replay_deleted hnumbered)
      · cases hanswer
    · cases hanswer
  · cases hanswer

section Example

attribute [local instance] rationalArith

-- A document is written to both copies, and the request that deletes it from the replica is
-- lost.
def lostDelete : List ShardAction :=
  startActions ++ acknowledgedWrite (.put redFox) 0 ++
    [.write (.delete "a") .none, .send, .replicationError]

-- The caller that tries again is told that there is no such document, and the replica that
-- is ready still has it.
theorem lostDelete_still_held : ∃ shard : Shard ℚ,
    Run.Reaches (step ⟨.ascii, defaultBM25Params, none⟩)
      (fun _ action => action.callsResync = false) (initial 1) shard ∧
    shard.answersDelete "a" (.write (.delete "a") .none) = some .notFound ∧
    ∃ engine phase resyncs, shard.replicas = [.up engine phase resyncs] ∧
      engine.state = .ready ∧ engine.derived.documents.get? "a" = some redFox := by
  have hrun : (Run.checked (step (⟨.ascii, defaultBM25Params, none⟩ : EngineContext ℚ))
      (fun _ action => !action.callsResync) (initial 1) lostDelete).map (fun shard =>
        decide (shard.answersDelete "a" (.write (.delete "a") .none) = some .notFound) &&
          shard.onlyReplica fun engine => decide (engine.state = .ready ∧
            engine.derived.documents.get? "a" = some redFox)) = some true := by
    decide +kernel
  obtain ⟨shard, hreach, hcheck⟩ :=
    Run.exists_of_checked (fun _ _ hcalls => (Bool.not_eq_true' _).mp hcalls) hrun
  obtain ⟨hanswer, hreplica⟩ := Bool.and_eq_true_iff.mp hcheck
  obtain ⟨engine, phase, resyncs, hreplicas, hheld⟩ := onlyReplica_iff.mp hreplica
  exact ⟨shard, hreach, of_decide_eq_true hanswer, engine, phase, resyncs, hreplicas,
    of_decide_eq_true hheld⟩

-- The request that deletes the document has been confirmed.
def confirmedDelete : List ShardAction :=
  startActions ++ acknowledgedWrite (.put redFox) 0 ++
    [.write (.delete "a") .none, .send, .deliver 1 .none, .reply]

theorem confirmedDelete_gone : ∃ shard : Shard ℚ,
    Run.Reaches (step ⟨.ascii, defaultBM25Params, none⟩)
      (fun _ action => action.callsResync = false) (initial 1) shard ∧
    shard.answersDelete "a" .acknowledge = some .deleted ∧
    ∃ engine phase resyncs, shard.replicas = [.up engine phase resyncs] ∧
      engine.state = .ready ∧ engine.derived.documents.get? "a" = none := by
  have hrun : (Run.checked (step (⟨.ascii, defaultBM25Params, none⟩ : EngineContext ℚ))
      (fun _ action => !action.callsResync) (initial 1) confirmedDelete).map (fun shard =>
        decide (shard.answersDelete "a" .acknowledge = some .deleted) &&
          shard.onlyReplica fun engine => decide (engine.state = .ready)) = some true := by
    decide +kernel
  obtain ⟨shard, hreach, hcheck⟩ :=
    Run.exists_of_checked (fun _ _ hcalls => (Bool.not_eq_true' _).mp hcalls) hrun
  obtain ⟨hanswer, hreplica⟩ := Bool.and_eq_true_iff.mp hcheck
  obtain ⟨engine, phase, resyncs, hreplicas, hready⟩ := onlyReplica_iff.mp hreplica
  have hcopy : .up engine phase resyncs ∈ shard.copies := by simp [copies, hreplicas]
  rw [decide_eq_true_iff] at hanswer hready
  have hgone := definitive_delete hreach hanswer hcopy hready
  exact ⟨shard, hreach, hanswer, engine, phase, resyncs, hreplicas, hready,
    hgone.resolve_right (by simp)⟩

end Example

end Shard

end PySearch
