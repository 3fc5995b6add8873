import PySearch.Cluster.Replication.Acknowledged
import PySearch.Cluster.Replication.Copies

namespace PySearch

variable {α : Type}

-- Somebody asks a node that serves to resynchronize.
def ShardAction.callsResync : ShardAction → Bool
  | replica _ .resync => true
  | _ => false

namespace Node

-- Nothing but the startup hook resynchronizes the node: there is one resynchronization while
-- it repairs, none in any other phase, and none that would take the database back.
def Uncalled : Node α → Prop
  | down _ => True
  | up engine phase resyncs => (phase = .repairing ∧ resyncs.length = 1 ∨ resyncs = []) ∧
      ∀ documents generation, Holds resyncs documents generation →
        engine.store.database.generation ≤ generation

theorem holds_nil {documents : List Document} {generation : Int} :
    ¬ Holds [] documents generation := by
  rintro ⟨resync, hresync, -⟩
  cases hresync

theorem uncalled_idle (engine : SearchEngine α) (phase : Phase) : (up engine phase []).Uncalled :=
  ⟨.inr rfl, fun _ _ hholds => absurd hholds holds_nil⟩

theorem uncalled_one {engine : SearchEngine α} {resync : Resync}
    (h : ∀ documents generation, resync.stage = .received documents generation →
      engine.store.database.generation ≤ generation) :
    (up engine .repairing [resync]).Uncalled := by
  refine ⟨.inl ⟨rfl, rfl⟩, ?_⟩
  rintro documents generation ⟨found, hfound, hstage⟩
  rw [List.mem_singleton.mp hfound] at hstage
  exact h documents generation hstage

theorem Uncalled.idle {engine : SearchEngine α} {phase : Phase} {resyncs : List Resync}
    (h : (up engine phase resyncs).Uncalled) (hphase : phase ≠ .repairing) : resyncs = [] :=
  h.1.resolve_left fun hrepairing => hphase hrepairing.1

theorem Uncalled.pending {engine : SearchEngine α} {phase : Phase} {resyncs : List Resync}
    {index : Nat} {resync : Resync} (h : (up engine phase resyncs).Uncalled)
    (hpending : pending phase resyncs index = some resync) :
    phase = .repairing ∧ resyncs = [resync] ∧ index = 0 := by
  have hheld := (pending_phase hpending).2.2
  rcases h.1 with ⟨hphase, hlength⟩ | hnone
  · obtain ⟨only, rfl⟩ := List.length_eq_one_iff.mp hlength
    cases index with
    | zero =>
        cases hheld
        exact ⟨hphase, rfl, rfl⟩
    | succ index => cases hheld
  · rw [hnone] at hheld
    cases hheld

variable [Arith α] [LinearOrder α] {ctx : EngineContext α} {role : Role} {node next : Node α}
  {action : NodeAction}

theorem step_uncalled (h : Steps ctx role node action next) (hu : node.Uncalled)
    (hcall : action ≠ .resync)
    (hreceived : ∀ index documents generation, action = .receive index (.ok (documents, generation)) →
      node.database.generation ≤ generation) : next.Uncalled := by
  cases h with
  | started database => exact uncalled_idle _ _
  | notStarted engine after resyncs faults error raised => trivial
  | initialized | asked | told | unverified | verified | ahead | wrote | replicated | closed =>
      rw [hu.idle (by simp)]
      exact uncalled_idle _ _
  | behind engine localGeneration remote resyncs detail less =>
      rw [hu.idle (by simp)]
      exact uncalled_one (by simp)
  | called engine resyncs detail replica => exact absurd rfl hcall
  | notExported engine phase resyncs index resync error detail pending stage =>
      obtain ⟨-, rfl, rfl⟩ := hu.pending pending
      exact uncalled_idle _ _
  | exported engine phase resyncs index resync documents generation pending stage =>
      obtain ⟨rfl, rfl, rfl⟩ := hu.pending pending
      refine uncalled_one ?_
      intro found exported hstage
      cases hstage
      exact hreceived 0 documents generation rfl
  | notInstalled engine after phase resyncs index resync documents generation fault faults error
      pending stage raised =>
      obtain ⟨rfl, rfl, rfl⟩ := hu.pending pending
      exact uncalled_one (by simp)
  | installed engine after phase resyncs index resync documents generation fault faults report
      pending stage rebuilt =>
      obtain ⟨-, rfl, rfl⟩ := hu.pending pending
      exact uncalled_idle _ _
  | gaveUp engine phase resyncs index resync detail pending stage =>
      obtain ⟨-, rfl, rfl⟩ := hu.pending pending
      exact uncalled_idle _ _
  | crashed engine phase resyncs => trivial

omit [Arith α] [LinearOrder α] in
theorem Uncalled.fresh (hu : node.Uncalled) (action : NodeAction) : node.fresh action = true := by
  unfold Node.fresh
  split
  · split
    · rename_i localGeneration primaryGeneration documents generation hheld
      cases node with
      | down database => cases hheld
      | up engine phase resyncs =>
          exact decide_eq_true (hu.2 documents generation
            ⟨_, List.mem_of_getElem? hheld, rfl⟩)
    · rfl
  · rfl

end Node

namespace Shard

variable [Arith α] [LinearOrder α] {ctx : EngineContext α} {shard next : Shard α}

theorem stepReplica_uncalled {index : Nat} {action : NodeAction}
    (hu : ∀ node ∈ shard.replicas, node.Uncalled) (hcall : action ≠ .resync)
    (hreceived : ∀ node ∈ shard.replicas, ∀ index documents generation,
      action = .receive index (.ok (documents, generation)) → node.database.generation ≤ generation)
    (hstep : shard.stepReplica ctx index action = some next) :
    ∀ node ∈ next.replicas, node.Uncalled := by
  obtain ⟨node, after, hnode, hsteps, rfl⟩ := stepReplica_node hstep
  have hmem := List.mem_of_getElem? hnode
  intro other hother
  rcases List.mem_or_eq_of_mem_set hother with hold | rfl
  · exact hu other hold
  · exact Node.step_uncalled hsteps (hu node hmem) hcall (hreceived node hmem)

theorem step_uncalled {action : ShardAction} (hc : Consistent ctx shard)
    (hu : ∀ node ∈ shard.replicas, node.Uncalled) (hcall : action.callsResync = false)
    (hmoves : shard.Moves ctx action next) : ∀ node ∈ next.replicas, node.Uncalled := by
  cases hmoves with
  | delivered index faults request engine after resyncs result answered waiting serving effect told =>
      intro other hother
      rcases List.mem_or_eq_of_mem_set hother with hold | rfl
      · exact hu other hold
      · rw [(hu _ (List.mem_of_getElem? serving)).idle (by simp)]
        exact Node.uncalled_idle _ _
  | exported engine resyncs replica index next serving step =>
      refine stepReplica_uncalled hu (by simp) ?_ step
      intro node hnode index documents generation heq
      -- The primary exports all of its history, of which the replica has some first part.
      have hsound := hc.primarySound
      have hprimary := hc.primary
      rw [serving] at hsound hprimary
      have hexport := (SearchEngine.exportSnapshot_rows (fun hready => hsound (.inl hready))
        (by injection heq : engine.exportSnapshot = .ok (documents, generation))).1
      rw [hexport, show engine.store.database = _ from hprimary, Database.replay_generation]
      exact (hc.replicas node hnode).within
  | told engine resyncs replica next serving step =>
      exact stepReplica_uncalled hu (by simp) (by simp) step
  | replica index action next ownAction step =>
      refine stepReplica_uncalled hu ?_ ?_ step
      · rintro rfl
        cases hcall
      · rintro node hnode other documents generation rfl
        cases ownAction
  | _ => exact hu

-- Without such calls no replica installs a snapshot older than what it has stored.
theorem reaches_durable {replicas : Nat}
    (h : Run.Reaches (step ctx) (fun _ action => action.callsResync = false) (initial replicas)
      shard) : Durable shard ∧ ∀ node ∈ shard.replicas, node.Uncalled := by
  obtain ⟨-, hd, hu⟩ := @Run.invariant _ _ _ _
    (fun shard : Shard α => Consistent ctx shard ∧ Durable shard ∧
      ∀ node ∈ shard.replicas, node.Uncalled) (by
      intro before action after hcall hstep hinv
      obtain ⟨hc, hd, hu⟩ := hinv
      have hmoves := step_moves hstep
      have hfresh : freshSnapshots before action = true := by
        unfold freshSnapshots
        split
        · split
          · rename_i node hnode
            exact (hu node (List.mem_of_getElem? hnode)).fresh _
          · rfl
        · rfl
      exact ⟨step_consistent hc hmoves, step_durable hc hd hfresh hstep,
        step_uncalled hc hu hcall hmoves⟩)
    _ _ h ⟨initial_consistent ctx replicas, initial_durable replicas, by
      intro node hnode
      rw [List.eq_of_mem_replicate hnode]
      trivial⟩
  exact ⟨hd, hu⟩

end Shard

end PySearch
