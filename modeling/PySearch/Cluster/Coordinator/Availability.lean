import PySearch.Cluster.Coordinator.Halves
import PySearch.Cluster.Replication.Copies

namespace PySearch

variable {α : Type} [Arith α] [LinearOrder α]

namespace Replicator

variable (ctx : EngineContext α)

-- `_replicate` with every request delivered: one replica after the other, and the first that
-- refuses fails the write.
def replicate (mutation : Mutation) (generation : Int) :
    List (SearchEngine α) → Except PyError Unit × List (SearchEngine α)
  | [] => (.ok (), [])
  | replica :: rest =>
      let after := (replica.applyReplicated ctx mutation generation .none).2
      if Shard.applied ctx replica ⟨0, mutation, generation⟩ .none then
        let (result, others) := replicate mutation generation rest
        (result, after :: others)
      else (.error (.replication generation), after :: rest)

-- What `Replicator.index_document` does with the lock held, with no failures.
def indexDocument (primary : SearchEngine α) (replicas : List (SearchEngine α))
    (document : Document) : Except PyError Bool × SearchEngine α × List (SearchEngine α) :=
  match primary.indexDocument ctx document .none with
  | (.error error, primary) => (.error error, primary, replicas)
  | (.ok created, primary) =>
      match replicate ctx (.put document) primary.generation replicas with
      | (.error error, replicas) => (.error error, primary, replicas)
      | (.ok (), replicas) => (.ok created, primary, replicas)

variable {ctx}

omit [LinearOrder α] in
theorem applied_iff (engine : SearchEngine α) (request : ReplicationRequest) (faults : Faults) :
    Shard.applied ctx engine request faults = true ↔
      (engine.applyReplicated ctx request.mutation request.generation faults).1 = .ok .applied ∨
      (engine.applyReplicated ctx request.mutation request.generation faults).1 =
        .ok .duplicate := by
  obtain ⟨target, mutation, generation⟩ := request
  unfold Shard.applied
  cases mutation with
  | put document =>
      simp only [SearchEngine.applyReplicated]
      cases (engine.applyReplicatedPut ctx document generation faults).1 with
      | error error => simp
      | ok outcome => cases outcome <;> simp
  | delete documentId =>
      simp only [SearchEngine.applyReplicated]
      cases (engine.applyReplicatedDelete documentId generation faults).1 with
      | error error => simp
      | ok outcome => cases outcome <;> simp

omit [LinearOrder α] in
theorem replicate_ok_iff (mutation : Mutation) (generation : Int)
    (replicas : List (SearchEngine α)) :
    (replicate ctx mutation generation replicas).1 = .ok () ↔
      ∀ replica ∈ replicas, Shard.applied ctx replica ⟨0, mutation, generation⟩ .none = true := by
  induction replicas with
  | nil => simp [replicate]
  | cons replica rest ih =>
      rw [List.forall_mem_cons, ← ih, replicate]
      by_cases happlied : Shard.applied ctx replica ⟨0, mutation, generation⟩ .none = true
      · simp [happlied]
      · simp [happlied]

-- The next mutation in line is applied by a replica that is ready and has all before it.
theorem applied_next_iff (hc : ctx.Contract) {replica : SearchEngine α} {count : Int}
    (hbehind : replica.generation ≤ count)
    (hhealthy : replica.state = .ready → replica.Healthy ctx) (mutation : Mutation) :
    Shard.applied ctx replica ⟨0, mutation, count + 1⟩ .none = true ↔
      replica.state = .ready ∧ replica.generation = count := by
  rw [applied_iff]
  dsimp only
  constructor
  · intro happlied
    have heffect := @SearchEngine.applyReplicated_effect _ _ ctx replica mutation (count + 1) .none
    generalize replica.applyReplicated ctx mutation (count + 1) .none = result at heffect happlied
    obtain ⟨outcome, after⟩ := result
    cases heffect with
    | refused error => simp at happlied
    | duplicate known => omega
    | gap after ahead store derived kept state => simp at happlied
    | degraded reason after ready next store kept state => simp at happlied
    | applied after ready next store advanced state exact => exact ⟨ready, by omega⟩
  · rintro ⟨hready, rfl⟩
    obtain ⟨after, hafter⟩ := (hhealthy hready).applyReplicated hc mutation
    exact .inl (by rw [hafter])

-- A write on a ready primary is acknowledged exactly when every replica takes it.
theorem indexDocument_ok_iff (hc : ctx.Contract) {primary : SearchEngine α}
    (hprimary : primary.Healthy ctx) (replicas : List (SearchEngine α)) (document : Document) :
    (∃ created, (indexDocument ctx primary replicas document).1 = .ok created) ↔
      ∀ replica ∈ replicas, Shard.applied ctx replica
        ⟨0, .put document, primary.generation + 1⟩ .none = true := by
  obtain ⟨after, hwrite, hafter, hstored⟩ := hprimary.indexDocument hc document
  have hgeneration : after.generation = primary.generation + 1 := by
    rw [hafter.exact.generation, hstored, Database.apply_generation]
  rw [← replicate_ok_iff, ← hgeneration, indexDocument, hwrite]
  dsimp only
  cases hreplicate : replicate ctx (.put document) after.generation replicas with
  | mk result others =>
      cases result with
      | error error => simp
      | ok done => exact iff_of_true ⟨_, rfl⟩ rfl

end Replicator

-- The engine of a process that has finished its startup, whatever its state.
def Node.process : Node α → Option (SearchEngine α)
  | .up engine .serving _ => some engine
  | _ => none

omit [Arith α] [LinearOrder α] in
theorem Node.process_some {node : Node α} {engine : SearchEngine α}
    (h : node.process = some engine) : ∃ resyncs, node = .up engine .serving resyncs := by
  unfold process at h
  split at h
  · cases h
    exact ⟨_, rfl⟩
  · cases h

-- What a PUT is answered when nothing else happens and nothing fails. It waits while another
-- write holds the lock of the `Replicator`.
def Shard.indexDocument (ctx : EngineContext α) (shard : Shard α) (document : Document) :
    Option (Except PyError Bool) :=
  match shard.write, shard.primary.process with
  | none, some primary => some (Replicator.indexDocument ctx primary
      (shard.replicas.filterMap Node.process) document).1
  | _, _ => none

namespace ShardView

-- Every copy has a process that takes requests, and every request gets through.
def AllReachable (view : ShardView α) : Prop :=
  (∀ node ∈ view.shard.copies, ∃ engine, node.process = some engine) ∧
    ∀ copy, view.transport copy = .all none

variable {ctx : EngineContext α} {view : ShardView α}

-- A shard is reported writable when its primary is ready, and its replicas are not asked.
theorem shardHealth_writeAvailable (shardId : Nat) {primary : SearchEngine α}
    (hprimary : view.shard.primary.process = some primary)
    (htransport : view.transport 0 = .all none) :
    (Coordinator.shardHealth ⟨shardId, (view.group ctx).1, (view.group ctx).2⟩).writeAvailable =
      decide (primary.state = .ready) := by
  obtain ⟨resyncs, hnode⟩ := Node.process_some hprimary
  simp only [Coordinator.shardHealth, group, client, hnode, Node.client, ShardClient.http,
    htransport, Transport.all, HttpShardClient.request, Coordinator.copyStatus, SearchEngine.status]

end ShardView

namespace ClusterView

variable {ctx : EngineContext α}

theorem clusterStatus_shard {view : ClusterView α} {index : Nat} {shard : ShardView α}
    (h : view.shards[index]? = some shard) :
    (view.coordinator ctx).clusterStatus.shards[index]? =
      some (Coordinator.shardHealth ⟨index, (shard.group ctx).1, (shard.group ctx).2⟩) := by
  simp [Coordinator.clusterStatus, coordinator, ClusterTopology.ofGroups, h]

-- A shard that is reported writable, and whose lock is free, acknowledges a write exactly when
-- each of its replicas is ready and has everything the primary has.
theorem reported_writable_iff (hc : ctx.Contract) (view : ClusterView α)
    (hreach : ∀ shard ∈ view.shards, ∃ replicas,
      Run.Reaches (Shard.step ctx) (fun _ _ => True) (.initial replicas) shard.shard)
    (hall : ∀ shard ∈ view.shards, shard.AllReachable) (document : Document)
    {shard : ShardView α}
    (hrouted : view.shards[view.router.shardFor document.documentId]? = some shard)
    {health : ShardHealth}
    (hhealth : (view.coordinator ctx).clusterStatus.shards[view.router.shardFor
      document.documentId]? = some health)
    (hwritable : health.writeAvailable = true) (hidle : shard.shard.write = none) :
    ∃ primary, shard.shard.primary.process = some primary ∧
      ((∃ created, shard.shard.indexDocument ctx document = some (.ok created)) ↔
        ∀ replica ∈ shard.shard.replicas.filterMap Node.process,
          replica.state = .ready ∧ replica.generation = primary.generation) := by
  have hmem := List.mem_of_getElem? hrouted
  obtain ⟨replicas, hreached⟩ := hreach shard hmem
  have hsettled := Shard.reaches_settled hreached
  obtain ⟨hprocesses, htransport⟩ := hall shard hmem
  obtain ⟨primary, hprimary⟩ := hprocesses shard.shard.primary (.head _)
  rw [clusterStatus_shard hrouted] at hhealth
  rw [← Option.some.inj hhealth, ShardView.shardHealth_writeAvailable _ hprimary (htransport 0),
    decide_eq_true_iff] at hwritable
  obtain ⟨resyncs, hserving⟩ := Node.process_some hprimary
  have hcopy : .up primary .serving resyncs ∈ shard.shard.copies := by
    rw [← hserving]
    exact List.mem_cons_self
  have hhealthy := hsettled.healthy hcopy hwritable
  have hlength := hsettled.primary_length hserving
  have hput : shard.shard.indexDocument ctx document = some (Replicator.indexDocument ctx primary
      (shard.shard.replicas.filterMap Node.process) document).1 := by
    simp only [Shard.indexDocument, hidle, hprimary]
  refine ⟨primary, hprimary, ?_⟩
  simp only [hput, Option.some.injEq]
  rw [Replicator.indexDocument_ok_iff hc hhealthy]
  refine forall₂_congr fun replica hreplica => ?_
  obtain ⟨node, hnode, hprocess⟩ := List.mem_filterMap.mp hreplica
  obtain ⟨others, rfl⟩ := Node.process_some hprocess
  apply Replicator.applied_next_iff hc
  · rw [hlength]
    exact hsettled.within _ hnode
  · exact hsettled.healthy (List.mem_cons_of_mem _ hnode)

section Example

attribute [local instance] rationalArith

def writableContext : EngineContext ℚ := ⟨.ascii, defaultBM25Params, some .constant⟩

-- One shard with all its copies reachable.
def reachableShard (shard : Shard ℚ) : ShardView ℚ :=
  ⟨shard, fun number => ⟨"", "", number, ""⟩, fun _ => .all none⟩

def reachableCluster (shard : Shard ℚ) : ClusterView ℚ where
  router := ⟨fun _ => 0, 1, Nat.one_pos⟩
  shards := [reachableShard shard]
  matched := rfl

-- Every copy of the shard takes requests, and the shard is reported writable.
def reportsWritable (shard : Shard ℚ) : Bool :=
  shard.copies.all (fun node => node.process.isSome) &&
    ((reachableCluster shard).coordinator writableContext).clusterStatus.shards.all
      ShardHealth.writeAvailable

theorem reportsWritable_iff {shard : Shard ℚ} : reportsWritable shard = true ↔
    (reachableShard shard).AllReachable ∧
      ∃ health, ((reachableCluster shard).coordinator writableContext).clusterStatus.shards =
        [health] ∧ health.writeAvailable = true := by
  rw [reportsWritable, Bool.and_eq_true, List.all_eq_true]
  refine and_congr ?_ ?_
  · simp [ShardView.AllReachable, reachableShard, Option.isSome_iff_exists]
  · simp [Coordinator.clusterStatus, coordinator, ClusterTopology.ofGroups, reachableCluster]

-- A write whose request is lost leaves a gap in front of the next one.
def gappedReplica : List ShardAction :=
  Shard.startActions ++
    [.write (.put redFox) .none, .send, .replicationError,
      .write (.put redFox) .none, .send, .deliver 1 .none, .replicationError]

-- The replica is out of sync, the shard is reported writable, and every write fails.
theorem gappedReplica_refuses_writes : ∃ shard,
    Run.Reaches (Shard.step writableContext) (fun _ _ => True) (.initial 1) shard ∧
      (reachableShard shard).AllReachable ∧
      (∃ health, ((reachableCluster shard).coordinator writableContext).clusterStatus.shards =
        [health] ∧ health.writeAvailable = true) ∧
      shard.write = none ∧
      shard.indexDocument writableContext red = some (.error (.replication 3)) := by
  have hrun : (Run.exec (Shard.step writableContext) (.initial 1) gappedReplica).map
      (fun shard => reportsWritable shard && decide (shard.write = none ∧
        shard.indexDocument writableContext red = some (.error (.replication 3)))) =
      some true := by decide +kernel
  obtain ⟨shard, hreach, hcheck⟩ := Run.reaches_of_exec hrun
  obtain ⟨hwritable, hrefused⟩ := Bool.and_eq_true_iff.mp hcheck
  obtain ⟨hall, hhealth⟩ := reportsWritable_iff.mp hwritable
  exact ⟨shard, hreach, hall, hhealth, of_decide_eq_true hrefused⟩

-- A shard whose copies have just started acknowledges a write.
theorem startedShard_writable : ∃ shard,
    Run.Reaches (Shard.step writableContext) (fun _ _ => True) (.initial 1) shard ∧
      ∃ created, shard.indexDocument writableContext red = some (.ok created) := by
  have hrun : (Run.exec (Shard.step writableContext) (.initial 1) Shard.startActions).map
      (fun shard => reportsWritable shard && decide (shard.write = none) &&
        shard.primary.process.all fun primary =>
          decide (∀ replica ∈ shard.replicas.filterMap Node.process,
            replica.state = .ready ∧ replica.generation = primary.generation)) =
      some true := by decide +kernel
  obtain ⟨shard, hreach, hcheck⟩ := Run.reaches_of_exec hrun
  obtain ⟨hstate, hready⟩ := Bool.and_eq_true_iff.mp hcheck
  obtain ⟨hwritable, hidle⟩ := Bool.and_eq_true_iff.mp hstate
  obtain ⟨hall, health, hhealth, havailable⟩ := reportsWritable_iff.mp hwritable
  obtain ⟨primary, hprimary, hiff⟩ := reported_writable_iff
    (EngineContext.contract_of_some rfl Embedder.constant_contract) (reachableCluster shard)
    (by simpa [reachableCluster] using ⟨1, hreach⟩) (by simpa [reachableCluster] using hall) red
    (show _ = some (reachableShard shard) from rfl) (by rw [hhealth]; rfl) havailable
    (of_decide_eq_true hidle)
  refine ⟨shard, hreach, hiff.mpr ?_⟩
  rw [show shard.primary.process = _ from hprimary, Option.all_some] at hready
  exact of_decide_eq_true hready

end Example

end ClusterView

end PySearch
