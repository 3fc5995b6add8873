import PySearch.Cluster.Replication.History

namespace PySearch

variable {α : Type}

-- The generation in memory never runs ahead of the stored one.
def Node.Behind : Node α → Prop
  | .down _ => True
  | .up engine _ _ => engine.generation ≤ engine.store.database.generation

-- The snapshot that an installation would write is not older than what the node has stored.
def Node.fresh (node : Node α) : NodeAction → Bool
  | .install index _ _ =>
      match node.resyncs[index]? with
      | some ⟨_, _, .received _ generation⟩ => node.database.generation ≤ generation
      | _ => true
  | _ => true

theorem ReplicationRequest.fresh_applyAction (request : ReplicationRequest) (faults : Faults)
    (node : Node α) : node.fresh (request.applyAction faults) = true := by
  unfold applyAction
  cases request.mutation <;> rfl

namespace Shard

-- The generation has been stored by the replica with the given number.
def Reached (replicas : List (Node α)) (target : Nat) (generation : Int) : Prop :=
  ∀ node, replicas[target]? = some node → generation ≤ node.database.generation

-- Every success that a replica has answered, that a pending write relies on or that a
-- client was told is covered by what the replicas have stored.
structure Durable (shard : Shard α) : Prop where
  behind : ∀ node ∈ shard.replicas, node.Behind
  answered : ∀ target generation, (target, generation) ∈ shard.answered →
    Reached shard.replicas target generation
  write : ∀ write, shard.write = some write → write.generation ≤ shard.history.length ∧
    ∀ target, target < write.next → Reached shard.replicas target write.generation
  acknowledged : ∀ generation ∈ shard.acknowledged, generation ≤ shard.history.length ∧
    ∀ target, Reached shard.replicas target generation

-- The part of this that one replica answers for.
structure Promised (target : Nat) (shard : Shard α) : Prop where
  behind : ∀ node, shard.replicas[target]? = some node → node.Behind
  answered : ∀ generation, (target, generation) ∈ shard.answered →
    Reached shard.replicas target generation
  write : ∀ write, shard.write = some write → target < write.next →
    Reached shard.replicas target write.generation
  acknowledged : ∀ generation ∈ shard.acknowledged, Reached shard.replicas target generation

theorem durable_iff {shard : Shard α} : Durable shard ↔ (∀ target, Promised target shard) ∧
    (∀ write, shard.write = some write → write.generation ≤ shard.history.length) ∧
    ∀ generation ∈ shard.acknowledged, generation ≤ shard.history.length := by
  constructor
  · intro h
    refine ⟨fun target => ⟨?_, h.answered target, ?_, ?_⟩, fun write hw => (h.write write hw).1,
      fun generation ha => (h.acknowledged generation ha).1⟩
    · exact fun node hnode => h.behind node (List.mem_of_getElem? hnode)
    · exact fun write hw htarget => (h.write write hw).2 target htarget
    · exact fun generation ha => (h.acknowledged generation ha).2 target
  · intro h
    obtain ⟨hpromised, hwrite, hacknowledged⟩ := h
    refine ⟨?_, fun target => (hpromised target).answered, ?_, ?_⟩
    · intro node hnode
      obtain ⟨target, htarget⟩ := List.mem_iff_getElem?.mp hnode
      exact (hpromised target).behind node htarget
    · exact fun write hw => ⟨hwrite write hw, fun target => (hpromised target).write write hw⟩
    · exact fun generation ha => ⟨hacknowledged generation ha,
        fun target => (hpromised target).acknowledged generation ha⟩

-- No replica installs a snapshot that is older than what it has stored.
def freshSnapshots (shard : Shard α) : ShardAction → Bool
  | .replica index action =>
      match shard.replicas[index]? with
      | some node => node.fresh action
      | none => true
  | _ => true

end Shard

variable [Arith α] [LinearOrder α] {ctx : EngineContext α}

-- Without a stale installation the stored generation of a node only grows.
theorem Node.moves_grows {node next : Node α} {action : NodeAction}
    (h : node.Moves ctx action next) (hs : node.Sound ctx) (hb : node.Behind)
    (hnonneg : 0 ≤ node.database.generation) (hfresh : node.fresh action = true) :
    node.database.generation ≤ next.database.generation ∧ next.Behind := by
  cases h with
  | started database => exact ⟨le_refl _, hnonneg⟩
  | stopped engine phase resyncs action => exact ⟨le_refl _, trivial⟩
  | initialized engine after phase resyncs faults store exact =>
      simp only [database_up, Behind, store]
      exact ⟨le_refl _, store ▸ le_of_eq exact.generation⟩
  | waited engine phase later resyncs remaining action untouched snapshots => exact ⟨le_refl _, hb⟩
  | silenced engine after phase later resyncs remaining action database derived generation state
      untouched snapshots =>
      simp only [database_up, Behind, database, generation]
      exact ⟨le_refl _, hb⟩
  | verified engine localGeneration resyncs => exact ⟨le_refl _, hb⟩
  | wrote engine after resyncs action change faults result asked effect =>
      cases effect with
      | refused error commit => exact ⟨le_refl _, hb⟩
      | degraded reason after ready commit store generation state =>
          have hgen := (hs (.inl ready)).generation
          simp only [database_up, Behind, store, generation, SearchEngine.committed,
            Database.apply_generation]
          omega
      | applied value after ready commit store generation state exact =>
          have hgen := (hs (.inl ready)).generation
          simp only [database_up, Behind, store, generation, SearchEngine.committed,
            Database.apply_generation]
          omega
  | replicated engine after resyncs action change generation result asked effect =>
      cases effect with
      | refused error => exact ⟨le_refl _, hb⟩
      | duplicate known => exact ⟨le_refl _, hb⟩
      | gap after ahead store derived kept state =>
          simp only [database_up, Behind, store, kept]
          exact ⟨le_refl _, hb⟩
      | degraded reason after ready next store kept state =>
          have hgen := (hs (.inl ready)).generation
          simp only [database_up, Behind, store, kept, SearchEngine.committed,
            Database.apply_generation]
          omega
      | applied after ready next store advanced state exact =>
          have hgen := (hs (.inl ready)).generation
          simp only [database_up, Behind, store, advanced, SearchEngine.committed,
            Database.apply_generation]
          omega
  | installed engine after phase later resyncs remaining index fault faults resync documents
      generation result held stage touched snapshots effect =>
      have hnewer : engine.store.database.generation ≤ generation := by
        obtain ⟨localGeneration, primaryGeneration, _⟩ := resync
        cases stage
        have hheld : (up engine phase resyncs).resyncs[index]? = _ := held
        simp only [fresh, hheld] at hfresh
        exact of_decide_eq_true hfresh
      have hbehind : engine.generation ≤ engine.store.database.generation := hb
      cases effect with
      | refused error after store kept state =>
          simp only [database_up, Behind, store, kept]
          exact ⟨le_refl _, hb⟩
      | failed error after nodup store kept state =>
          simp only [database_up, Behind, store, Database.replaceAll]
          omega
      | installed report after nodup store advanced state exact =>
          simp only [database_up, Behind, store, Database.replaceAll]
          omega

namespace Shard

variable {shard next : Shard α}

omit [Arith α] [LinearOrder α] in
theorem initial_durable (replicas : Nat) : Durable (initial replicas : Shard α) where
  behind node h := by
    rw [List.eq_of_mem_replicate h]
    trivial
  answered _ _ h := by cases h
  write _ h := by cases h
  acknowledged _ h := by cases h

omit [Arith α] [LinearOrder α] in
theorem initial_promised (replicas target : Nat) :
    Promised target (initial replicas : Shard α) :=
  (durable_iff.mp (initial_durable replicas)).1 target

-- What a replica has stored it keeps, unless it installs an older snapshot.
theorem step_reached {target : Nat} {action : ShardAction} (hc : Consistent ctx shard)
    (hbehind : ∀ node, shard.replicas[target]? = some node → node.Behind)
    (hfresh : ∀ own node, shard.asked target action = some own →
      shard.replicas[target]? = some node → node.fresh own = true)
    (hstep : shard.step ctx action = some next) :
    (∀ node, next.replicas[target]? = some node → node.Behind) ∧
      ∀ generation, Reached shard.replicas target generation →
        Reached next.replicas target generation := by
  rcases step_asked hstep with ⟨-, hsame⟩ | ⟨own, node, after, hasked, hnode, hown, hafter⟩
  · unfold Reached
    rw [hsame]
    exact ⟨hbehind, fun _ hreached => hreached⟩
  · have hmem := List.mem_of_getElem? hnode
    obtain ⟨hgrows, hnext⟩ := Node.moves_grows (Node.step_moves hown) (hc.sound node hmem)
      (hbehind node hnode) (hc.replicas node hmem).nonneg (hfresh own node hasked hnode)
    refine ⟨?_, ?_⟩
    · intro found hfound
      cases hafter.symm.trans hfound
      exact hnext
    · intro generation hreached found hfound
      cases hafter.symm.trans hfound
      exact (hreached node hnode).trans hgrows

theorem step_grows {target : Nat} {action : ShardAction} (hc : Consistent ctx shard)
    (hbehind : ∀ node, shard.replicas[target]? = some node → node.Behind)
    (hfresh : ∀ own node, shard.asked target action = some own →
      shard.replicas[target]? = some node → node.fresh own = true)
    (hstep : shard.step ctx action = some next) {node after : Node α}
    (hnode : shard.replicas[target]? = some node) (hafter : next.replicas[target]? = some after) :
    node.database.generation ≤ after.database.generation := by
  refine (step_reached hc hbehind hfresh hstep).2 node.database.generation ?_ after hafter
  intro found hfound
  rw [hnode] at hfound
  cases hfound
  exact le_refl _

theorem step_promised {target : Nat} {action : ShardAction} (hc : Consistent ctx shard)
    (h : Promised target shard)
    (hfresh : ∀ own node, shard.asked target action = some own →
      shard.replicas[target]? = some node → node.fresh own = true)
    (hstep : shard.step ctx action = some next) : Promised target next := by
  obtain ⟨hbehind, hkept⟩ := step_reached hc h.behind hfresh hstep
  have hreplica : ∀ {index action}, shard.stepReplica ctx index action = some next →
      Promised target next := by
    intro index action hreplica
    obtain ⟨_, _, _, _, rfl⟩ := stepReplica_step hreplica
    exact ⟨hbehind, fun generation ha => hkept _ (h.answered generation ha),
      fun write hw htarget => hkept _ (h.write write hw htarget),
      fun generation ha => hkept _ (h.acknowledged generation ha)⟩
  cases step_moves hstep with
  | wrote engine after resyncs mutation faults result record pending idle serving effect recorded
      kept =>
      refine ⟨hbehind, h.answered, ?_, h.acknowledged⟩
      intro write hwrite htarget
      obtain ⟨created, -, -, -, hnext⟩ := kept write hwrite
      omega
  | sent write pending more =>
      refine ⟨hbehind, h.answered, ?_, h.acknowledged⟩
      rintro other ⟨⟩
      exact h.write write pending
  | delivered index faults request engine after resyncs result answered waiting serving effect told =>
      refine ⟨hbehind, ?_, fun write hw htarget => hkept _ (h.write write hw htarget),
        fun generation ha => hkept _ (h.acknowledged generation ha)⟩
      intro generation ha
      rcases told with rfl | ⟨hresult, rfl⟩
      · exact hkept _ (h.answered generation ha)
      rcases List.mem_cons.mp ha with hnew | hold
      · cases hnew
        -- A success means that the replica stores the generation now or did so before.
        have hstored : request.generation ≤ after.store.database.generation := by
          cases effect with
          | refused error => simp at hresult
          | duplicate known => exact known.trans (h.behind _ serving)
          | gap after ahead store derived kept state => simp at hresult
          | degraded reason after ready inLine store kept state => simp at hresult
          | applied after ready inLine store advanced state exact =>
              rw [store, SearchEngine.committed, Database.apply_generation]
        intro node hnode
        have hlt := (List.getElem?_eq_some_iff.mp serving).1
        simp only [setReplica, List.getElem?_set, if_true, hlt] at hnode
        cases hnode
        exact hstored
      · exact hkept _ (h.answered generation hold)
  | replied write pending told =>
      refine ⟨hbehind, h.answered, ?_, h.acknowledged⟩
      rintro other ⟨⟩
      intro htarget
      by_cases hlast : target = write.next
      · subst hlast
        exact h.answered write.generation told
      · dsimp only at htarget
        exact h.write write pending (by omega)
  | gaveUp write pending =>
      refine ⟨hbehind, h.answered, ?_, h.acknowledged⟩
      rintro other ⟨⟩
  | acknowledged write pending all =>
      refine ⟨hbehind, h.answered, by rintro other ⟨⟩, ?_⟩
      intro generation ha
      rcases List.mem_cons.mp ha with rfl | hold
      · by_cases htarget : target < shard.replicas.length
        · exact h.write write pending (all ▸ htarget)
        · intro node hnode
          exact absurd (List.getElem?_eq_some_iff.mp hnode).1 htarget
      · exact h.acknowledged generation hold
  | exported engine resyncs replica index next serving step => exact hreplica step
  | told engine resyncs replica next serving step => exact hreplica step
  | primary action node pending ownAction moves kept =>
      refine ⟨hbehind, h.answered, ?_, h.acknowledged⟩
      rcases kept with rfl | rfl
      · exact h.write
      · rintro other ⟨⟩
  | replica index action next ownAction step => exact hreplica step

theorem fresh_asked {target : Nat} {action : ShardAction}
    (hfresh : freshSnapshots shard action = true) (hmoves : shard.Moves ctx action next)
    {own : NodeAction} {node : Node α} (hasked : shard.asked target action = some own)
    (hnode : shard.replicas[target]? = some node) : node.fresh own = true := by
  rcases asked_cases hmoves hasked with ⟨index, faults, request, -, -, -, rfl⟩ |
    ⟨engine, resyncs, index, -, rfl⟩ | ⟨engine, resyncs, -, rfl⟩ | ⟨rfl, -⟩
  · exact request.fresh_applyAction faults node
  · rfl
  · rfl
  · simpa [freshSnapshots, hnode] using hfresh

theorem step_durable {action : ShardAction} (hc : Consistent ctx shard) (h : Durable shard)
    (hfresh : freshSnapshots shard action = true) (hstep : shard.step ctx action = some next) :
    Durable next := by
  obtain ⟨hpromised, -, hacknowledged⟩ := durable_iff.mp h
  have hmoves := step_moves hstep
  have hnext := step_consistent hc hmoves
  have hgrown : (shard.history.length : Int) ≤ next.history.length := by
    exact_mod_cast moves_grown hmoves
  refine durable_iff.mpr ⟨fun target => step_promised hc (hpromised target)
    (fun own node => fresh_asked hfresh hmoves) hstep, ?_, ?_⟩
  · intro write hwrite
    exact (hnext.write write hwrite).within
  · intro generation ha
    rcases moves_acknowledged hmoves with heq | ⟨write, hwrite, heq⟩
    · exact (hacknowledged generation (heq ▸ ha)).trans hgrown
    · rcases List.mem_cons.mp (heq ▸ ha) with rfl | hold
      · exact ((h.write write hwrite).1).trans hgrown
      · exact (hacknowledged generation hold).trans hgrown

theorem fresh_durable {replicas : Nat}
    (h : Run.Reaches (step ctx) (fun shard action => freshSnapshots shard action = true)
      (initial replicas) shard) : Consistent ctx shard ∧ Durable shard :=
  @Run.invariant _ _ _ _ (fun shard : Shard α => Consistent ctx shard ∧ Durable shard) (by
    intro before action after hfresh hstep hinv
    exact ⟨step_consistent hinv.1 (step_moves hstep), step_durable hinv.1 hinv.2 hfresh hstep⟩)
    _ _ h ⟨initial_consistent ctx replicas, initial_durable replicas⟩

omit [Arith α] [LinearOrder α] in
-- A copy that is ready has what was acknowledged: the primary because it has everything, a
-- replica because it has stored it.
theorem Durable.ready_acknowledged (hd : Durable shard) (hc : Consistent ctx shard)
    {engine : SearchEngine α} {phase : Phase} {resyncs : List Resync}
    (hcopy : .up engine phase resyncs ∈ shard.copies) (hready : engine.state = .ready) :
    ∀ generation ∈ shard.acknowledged, generation ≤ engine.generation := by
  intro generation hgeneration
  obtain ⟨hlength, hreached⟩ := hd.acknowledged generation hgeneration
  rw [((hc.copy hcopy).1 (.inl hready)).generation]
  rcases List.mem_cons.mp hcopy with hprimary | hreplica
  · have hstored := hc.primary
    rw [← hprimary, Node.database_up] at hstored
    rw [hstored, Database.replay_generation]
    exact hlength
  · obtain ⟨target, htarget⟩ := List.mem_iff_getElem?.mp hreplica
    exact hreached target _ htarget

-- In a run in which no replica installs a snapshot older than what it has stored, every
-- copy that serves has applied every acknowledged write.
theorem acknowledged_writes_served {replicas : Nat}
    (h : Run.Reaches (step ctx) (fun shard action => freshSnapshots shard action = true)
      (initial replicas) shard)
    {engine : SearchEngine α} {phase : Phase} {resyncs : List Resync}
    (hcopy : .up engine phase resyncs ∈ shard.copies) (hready : engine.state = .ready) :
    (∀ generation ∈ shard.acknowledged, generation ≤ engine.generation) ∧
      0 ≤ engine.generation ∧ engine.generation ≤ shard.history.length ∧
      ∀ id, engine.derived.documents.get? id =
        (Database.replay (shard.history.take engine.generation.toNat)).rows.get? id := by
  obtain ⟨hc, hd⟩ := fresh_durable h
  obtain ⟨hsound, hfollows⟩ := hc.copy hcopy
  have hgen : engine.generation = engine.store.database.generation :=
    (hsound (.inl hready)).generation
  exact ⟨hd.ready_acknowledged hc hcopy hready, hgen ▸ hfollows.nonneg, hgen ▸ hfollows.within,
    ready_copy_rows hc hcopy hready⟩

section Example

attribute [local instance] rationalArith

-- Two resynchronizations fetch a snapshot. The second is installed, a further write is
-- acknowledged by the replica that serves again, and then the first is installed.
def staleInstall : List ShardAction :=
  startActions ++ acknowledgedWrite (.put redFox) 0 ++
    [.replica 0 .resync, .exportTo 0 0, .replica 0 .resync, .exportTo 0 1,
      .replica 0 (.install 1 false .none)] ++
    acknowledgedWrite (.put red) 1 ++ [.replica 0 (.install 0 false .none)]

-- The same two resynchronizations, installed in the order of their exports.
def orderedInstalls : List ShardAction :=
  startActions ++ acknowledgedWrite (.put redFox) 0 ++
    [.replica 0 .resync, .exportTo 0 0, .replica 0 .resync, .exportTo 0 1,
      .replica 0 (.install 0 false .none), .replica 0 (.install 0 false .none)] ++
    acknowledgedWrite (.put red) 1

theorem orderedInstalls_served :
    ∃ shard : Shard ℚ, Run.checked (step ⟨.ascii, defaultBM25Params, none⟩) freshSnapshots
        (initial 1) orderedInstalls = some shard ∧
      ∃ engine phase resyncs, shard.replicas = [.up engine phase resyncs] ∧
        engine.state = .ready ∧ 2 ∈ shard.acknowledged ∧ 2 ≤ engine.generation := by
  have hrun : (Run.checked (step (⟨.ascii, defaultBM25Params, none⟩ : EngineContext ℚ))
      freshSnapshots (initial 1) orderedInstalls).map (fun shard =>
        decide (2 ∈ shard.acknowledged) &&
          shard.onlyReplica fun engine => decide (engine.state = .ready)) = some true := by
    decide +kernel
  obtain ⟨shard, hchecked, hcheck⟩ := Option.map_eq_some_iff.mp hrun
  refine ⟨shard, hchecked, ?_⟩
  obtain ⟨hacknowledged, hreplica⟩ := Bool.and_eq_true_iff.mp hcheck
  obtain ⟨engine, phase, resyncs, hreplicas, hready⟩ := onlyReplica_iff.mp hreplica
  rw [decide_eq_true_iff] at hacknowledged hready
  have hcopy : .up engine phase resyncs ∈ shard.copies := by simp [copies, hreplicas]
  have hserved := acknowledged_writes_served (Run.reaches_of_checked hchecked) hcopy hready
  exact ⟨engine, phase, resyncs, hreplicas, hready, hacknowledged, hserved.1 2 hacknowledged⟩

theorem staleInstall_loses_acknowledged_write :
    ∃ shard : Shard ℚ,
      Run.Reaches (step ⟨.ascii, defaultBM25Params, none⟩) (fun _ _ => True) (initial 1) shard ∧
      ∃ engine phase resyncs, shard.replicas = [.up engine phase resyncs] ∧
        engine.state = .ready ∧ 2 ∈ shard.acknowledged ∧
        shard.history[1]? = some (.put red) ∧
        engine.generation = 1 ∧ engine.derived.documents.get? "b" = none := by
  have hrun : (Run.exec (step (⟨.ascii, defaultBM25Params, none⟩ : EngineContext ℚ)) (initial 1)
      staleInstall).map (fun shard => shard.onlyReplica fun engine =>
        decide (engine.state = .ready ∧ 2 ∈ shard.acknowledged ∧
          shard.history[1]? = some (.put red) ∧
          engine.generation = 1 ∧ engine.derived.documents.get? "b" = none)) = some true := by
    decide +kernel
  obtain ⟨shard, hreach, hcheck⟩ := Run.reaches_of_exec hrun
  obtain ⟨engine, phase, resyncs, hreplicas, hengine⟩ := onlyReplica_iff.mp hcheck
  exact ⟨shard, hreach, engine, phase, resyncs, hreplicas, of_decide_eq_true hengine⟩

end Example

end Shard

end PySearch
