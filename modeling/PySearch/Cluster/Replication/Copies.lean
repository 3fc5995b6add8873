import PySearch.Cluster.Node.Steps
import PySearch.Cluster.Replication.History

namespace PySearch

variable {α : Type}

namespace Node

-- A store is closed only while its node serves, and never under a ready engine.
def Opened : Node α → Prop
  | down _ => True
  | up engine phase _ => engine.store.closed = true → engine.state ≠ .ready ∧ phase = .serving

-- A copy that is no replica resynchronizes with nothing. It serves once it is initialized,
-- and then its generation in memory is the stored one.
def Counted (role : Role) : Node α → Prop
  | down _ => True
  | up engine phase resyncs => role ≠ .replica → resyncs = [] ∧
      (phase = .created ∨
        phase = .serving ∧ engine.generation = engine.store.database.generation)

theorem writeEffect_opened {β : Type} {ctx : EngineContext α} {engine after : SearchEngine α}
    {mutation : Mutation} {faults : Faults} {result : Except PyError β} {resyncs : List Resync}
    (h : engine.WriteEffect ctx mutation faults result after)
    (ho : (up engine .serving resyncs).Opened) : (up after .serving resyncs).Opened := by
  cases h with
  | refused error commit => exact ho
  | degraded reason after ready commit store generation state =>
      simp [Opened, store, SearchEngine.committed, (SearchEngine.opened_of_commits commit).1]
  | applied value after ready commit store generation state exact =>
      simp [Opened, store, SearchEngine.committed, (SearchEngine.opened_of_commits commit).1]

theorem opened_of_ready {engine : SearchEngine α} {phase : Phase} {resyncs : List Resync}
    (ho : (up engine phase resyncs).Opened) (hready : engine.state = .ready) :
    engine.store.closed = false := by
  by_contra hclosed
  exact (ho (Bool.not_eq_false _ ▸ hclosed)).1 hready

theorem replicaEffect_opened {ctx : EngineContext α} {engine after : SearchEngine α}
    {mutation : Mutation} {generation : Int} {result : Except PyError ReplicationOutcome}
    {resyncs : List Resync} (h : engine.ReplicaEffect ctx mutation generation result after)
    (ho : (up engine .serving resyncs).Opened) : (up after .serving resyncs).Opened := by
  cases h with
  | refused error => exact ho
  | duplicate known => exact ho
  | gap after ahead store derived kept state => exact fun _ => ⟨by simp [state], rfl⟩
  | degraded reason after ready next store kept state =>
      simp [Opened, store, SearchEngine.committed, opened_of_ready ho ready]
  | applied after ready next store advanced state exact =>
      simp [Opened, store, SearchEngine.committed, opened_of_ready ho ready]

theorem writeEffect_counted {β : Type} {ctx : EngineContext α} {engine after : SearchEngine α}
    {mutation : Mutation} {faults : Faults} {result : Except PyError β}
    (h : engine.WriteEffect ctx mutation faults result after)
    (hc : engine.generation = engine.store.database.generation) :
    after.generation = after.store.database.generation := by
  cases h with
  | refused error commit => exact hc
  | degraded reason after ready commit store generation state =>
      rw [generation, store, SearchEngine.committed, Database.apply_generation]
  | applied value after ready commit store generation state exact =>
      rw [generation, store, SearchEngine.committed, Database.apply_generation]

theorem pending_phase {phase : Phase} {resyncs : List Resync} {index : Nat} {resync : Resync}
    (h : pending phase resyncs index = some resync) :
    (phase = .repairing ∨ phase = .serving) ∧ phase.afterResync = .serving ∧
      resyncs[index]? = some resync := by
  unfold pending at h
  split at h
  · rename_i hphase
    cases phase <;> simp_all [Phase.resyncs, Phase.afterResync]
  · cases h

variable [Arith α] [LinearOrder α] {ctx : EngineContext α} {role : Role} {node next : Node α}
  {action : NodeAction}

-- An installation keeps the connection, and fails on a closed one.
theorem resynchronize_closed {engine after : SearchEngine α} {documents : List Document}
    {generation : Int} {fault : Bool} {faults : RebuildFaults}
    {result : Except PyError RebuildReport}
    (h : engine.resynchronize ctx documents generation fault faults = (result, after)) :
    after.store.closed = engine.store.closed ∧
      (engine.store.closed = true → after.state = .recovering) := by
  have heffect := @SearchEngine.resynchronize_effect _ _ _ ctx engine documents generation fault
    faults
  rw [h] at heffect
  refine ⟨?_, ?_⟩
  · cases heffect with
    | refused error after store kept state => rw [store]
    | failed error after nodup store kept state => rw [store]
    | installed report after nodup store advanced state exact => rw [store]
  · intro hclosed
    rw [← show (engine.resynchronize ctx documents generation fault faults).2 = after from
      congrArg Prod.snd h]
    simp [SearchEngine.resynchronize, SqliteDocumentStore.replaceAll,
      SqliteDocumentStore.unavailable, SearchEngine.markRecovering, hclosed]

theorem step_opened (h : Steps ctx role node action next) (ho : node.Opened) : next.Opened := by
  cases h with
  | started database => simp [Opened, SearchEngine.new, SqliteDocumentStore.openDatabase]
  | notStarted engine after resyncs faults error raised => trivial
  | initialized engine after resyncs faults report rebuilt =>
      have hstore := (SearchEngine.initializeEngine_ok rebuilt).1
      intro hclosed
      rw [hstore] at hclosed
      cases (ho hclosed).2
  | asked engine resyncs detail => exact fun hclosed => by cases (ho hclosed).2
  | told engine localGeneration remote resyncs => exact fun hclosed => by cases (ho hclosed).2
  | unverified engine localGeneration error resyncs detail =>
      exact fun hclosed => by cases (ho hclosed).2
  | verified engine localGeneration resyncs => exact fun hclosed => by cases (ho hclosed).2
  | ahead engine localGeneration remote resyncs detail more =>
      exact fun hclosed => by cases (ho hclosed).2
  | behind engine localGeneration remote resyncs detail less =>
      exact fun hclosed => by cases (ho hclosed).2
  | called engine resyncs detail replica =>
      exact fun _ => ⟨by simp [SearchEngine.markRecovering], rfl⟩
  | notExported engine phase resyncs index resync error detail pending stage =>
      exact fun _ => ⟨by simp [SearchEngine.markOutOfSync], (pending_phase pending).2.1⟩
  | exported engine phase resyncs index resync documents generation pending stage => exact ho
  | notInstalled engine after phase resyncs index resync documents generation fault faults error
      pending stage raised =>
      obtain ⟨hkept, hstate⟩ := resynchronize_closed raised
      intro hclosed
      rw [hkept] at hclosed
      exact ⟨by simp [hstate hclosed], (ho hclosed).2⟩
  | installed engine after phase resyncs index resync documents generation fault faults report
      pending stage rebuilt =>
      obtain ⟨hkept, hstate⟩ := resynchronize_closed rebuilt
      intro hclosed
      rw [hkept] at hclosed
      exact ⟨by simp [hstate hclosed], (pending_phase pending).2.1⟩
  | gaveUp engine phase resyncs index resync detail pending stage =>
      exact fun _ => ⟨by simp [SearchEngine.markOutOfSync], (pending_phase pending).2.1⟩
  | wrote engine after resyncs action mutation faults result writer effect =>
      exact writeEffect_opened effect ho
  | replicated engine resyncs mutation generation faults replica =>
      exact replicaEffect_opened (SearchEngine.applyReplicated_effect engine mutation generation
        faults) ho
  | closed engine resyncs => exact fun _ => ⟨by simp [SearchEngine.close], rfl⟩
  | crashed engine phase resyncs => trivial

theorem step_counted (h : Steps ctx role node action next) (hc : node.Counted role) :
    next.Counted role := by
  have hpending : ∀ {engine : SearchEngine α} {phase resyncs index resync},
      pending phase resyncs index = some resync → (up engine phase resyncs).Counted role →
      role = .replica := by
    intro engine phase resyncs index resync hpending hcounted
    by_contra hrole
    have hheld := (pending_phase hpending).2.2
    rw [(hcounted hrole).1] at hheld
    cases hheld
  cases h with
  | started database => exact fun _ => ⟨rfl, .inl rfl⟩
  | notStarted engine after resyncs faults error raised => trivial
  | initialized engine after resyncs faults report rebuilt =>
      have hexact := (SearchEngine.initializeEngine_ok rebuilt).2.2
      exact fun hrole => ⟨(hc hrole).1, .inr ⟨if_neg hrole, hexact.generation⟩⟩
  | asked | told | unverified | verified | ahead | behind =>
      intro hrole
      rcases (hc hrole).2 with hphase | ⟨hphase, -⟩ <;> cases hphase
  | called engine resyncs detail replica => exact fun hrole => absurd replica hrole
  | notExported engine phase resyncs index resync error detail pending stage =>
      exact fun hrole => absurd (hpending pending hc) hrole
  | exported engine phase resyncs index resync documents generation pending stage =>
      exact fun hrole => absurd (hpending pending hc) hrole
  | notInstalled engine after phase resyncs index resync documents generation fault faults error
      pending stage raised =>
      exact fun hrole => absurd (hpending pending hc) hrole
  | installed engine after phase resyncs index resync documents generation fault faults report
      pending stage rebuilt =>
      exact fun hrole => absurd (hpending pending hc) hrole
  | gaveUp engine phase resyncs index resync detail pending stage =>
      exact fun hrole => absurd (hpending pending hc) hrole
  | wrote engine after resyncs action mutation faults result writer effect =>
      intro hrole
      obtain ⟨hresyncs, hcreated | ⟨-, hcounted⟩⟩ := hc hrole
      · cases hcreated
      · exact ⟨hresyncs, .inr ⟨rfl, writeEffect_counted effect hcounted⟩⟩
  | replicated engine resyncs mutation generation faults replica =>
      exact fun hrole => absurd replica hrole
  | closed engine resyncs => exact hc
  | crashed engine phase resyncs => trivial

-- The generation in memory is not beyond the given one.
def Within (bound : Nat) : Node α → Prop
  | down _ => True
  | up engine _ _ => engine.generation ≤ bound

theorem moves_within {bound : Nat} (h : node.Moves ctx action next) (hw : node.Within bound)
    (hstored : next.database.generation ≤ bound) : next.Within bound := by
  cases h with
  | started database => exact Int.natCast_nonneg bound
  | stopped engine phase resyncs action => trivial
  | initialized engine after phase resyncs faults store exact =>
      exact exact.generation.trans_le hstored
  | waited engine phase later resyncs remaining action untouched snapshots => exact hw
  | silenced engine after phase later resyncs remaining action database derived generation state
      untouched snapshots => exact generation.trans_le hw
  | verified engine localGeneration resyncs => exact hw
  | wrote engine after resyncs action change faults result asked effect =>
      cases effect with
      | refused error commit => exact hw
      | degraded reason after ready commit store generation state =>
          rw [database_up, store, SearchEngine.committed, Database.apply_generation] at hstored
          exact generation.trans_le hstored
      | applied value after ready commit store generation state exact =>
          rw [database_up, store, SearchEngine.committed, Database.apply_generation] at hstored
          exact generation.trans_le hstored
  | replicated engine after resyncs action change generation result asked effect =>
      cases effect with
      | refused error => exact hw
      | duplicate known => exact hw
      | gap after ahead store derived kept state => exact kept.trans_le hw
      | degraded reason after ready next store kept state => exact kept.trans_le hw
      | applied after ready next store advanced state exact =>
          rw [database_up, store, SearchEngine.committed, Database.apply_generation] at hstored
          exact advanced.trans_le hstored
  | installed engine after phase later resyncs remaining index fault faults resync documents
      generation result held stage touched snapshots effect =>
      cases effect with
      | refused error after store kept state => exact kept.trans_le hw
      | failed error after nodup store kept state =>
          rw [database_up, store] at hstored
          rcases kept with kept | kept
          · exact kept.trans_le hw
          · exact kept.trans_le hstored
      | installed report after nodup store advanced state exact =>
          rw [database_up, store] at hstored
          exact advanced.trans_le hstored

end Node

namespace Shard

variable [Arith α] [LinearOrder α] {ctx : EngineContext α} {shard next : Shard α}
  {action : ShardAction}

theorem stepReplica_node {index : Nat} {action : NodeAction}
    (h : shard.stepReplica ctx index action = some next) :
    ∃ node after, shard.replicas[index]? = some node ∧ node.Steps ctx .replica action after ∧
      next = shard.setReplica index after := by
  obtain ⟨node, after, hnode, hafter, hnext⟩ := stepReplica_step h
  exact ⟨node, after, hnode, Node.steps_of_step hafter, hnext⟩

-- What every step of a node keeps, every step of a shard keeps for its copies.
theorem step_copies {Inv : Role → Node α → Prop}
    (hinv : ∀ {role node action next}, Node.Steps ctx role node action next → Inv role node →
      Inv role next)
    (h : shard.step ctx action = some next) (hprimary : Inv .primary shard.primary)
    (hreplicas : ∀ node ∈ shard.replicas, Inv .replica node) :
    Inv .primary next.primary ∧ ∀ node ∈ next.replicas, Inv .replica node := by
  refine ⟨?_, fun node hnode => ?_⟩
  · rcases step_primary h with hsame | ⟨engine, resyncs, mutation, faults, -, hserving, hnext⟩ |
      ⟨own, -, hown⟩
    · exact hsame ▸ hprimary
    · rw [hserving] at hprimary
      rw [hnext]
      exact hinv (.wrote engine _ resyncs .start mutation faults _ (by decide)
        (commit_effect engine mutation faults)) hprimary
    · exact hinv (Node.steps_of_step hown) hprimary
  · obtain ⟨replica, hreplica⟩ := List.mem_iff_getElem?.mp hnode
    rcases step_asked h with ⟨-, hsame⟩ | ⟨own, before, after, -, hbefore, hown, hafter⟩
    · exact hreplicas node (List.mem_of_getElem? (hsame ▸ hreplica))
    · cases hreplica.symm.trans hafter
      exact hinv (Node.steps_of_step hown) (hreplicas before (List.mem_of_getElem? hbefore))

-- What holds of a shard in every run, besides its being consistent: its copies are open
-- when they are ready, the primary counts what it has stored, no replica counts further than
-- the history, and a pending write is the last one committed.
structure Settled (ctx : EngineContext α) (shard : Shard α) : Prop where
  consistent : Consistent ctx shard
  primaryOpened : shard.primary.Opened
  counted : shard.primary.Counted .primary
  opened : ∀ node ∈ shard.replicas, node.Opened
  within : ∀ node ∈ shard.replicas, node.Within shard.history.length
  latest : ∀ write, shard.write = some write → write.generation = shard.history.length

omit [Arith α] [LinearOrder α] in
theorem initial_settled (replicas : Nat) : Settled ctx (initial replicas) where
  consistent := initial_consistent ctx replicas
  primaryOpened := trivial
  counted := trivial
  opened node h := by
    rw [List.eq_of_mem_replicate h]
    trivial
  within node h := by
    rw [List.eq_of_mem_replicate h]
    trivial
  latest _ h := by cases h

omit [LinearOrder α] [Arith α] in
theorem Settled.primary_length (h : Settled ctx shard) {engine : SearchEngine α}
    {resyncs : List Resync} (hserving : shard.primary = .up engine .serving resyncs) :
    engine.generation = shard.history.length := by
  have hcounted := h.counted
  have hprimary := h.consistent.primary
  rw [hserving] at hcounted hprimary
  rcases (hcounted (by decide)).2 with hcreated | ⟨-, hstored⟩
  · cases hcreated
  · rw [hstored, show engine.store.database = _ from hprimary, Database.replay_generation]

theorem moves_latest (h : Settled ctx shard) (hmoves : shard.Moves ctx action next) :
    ∀ write, next.write = some write → write.generation = next.history.length := by
  have hreplica : ∀ {index action}, shard.stepReplica ctx index action = some next →
      ∀ write, next.write = some write → write.generation = next.history.length := by
    intro index action hstep
    obtain ⟨_, _, _, _, rfl⟩ := stepReplica_cases hstep
    exact h.latest
  cases hmoves with
  | wrote engine after resyncs mutation faults result record pending idle serving effect recorded
      kept =>
      have hlength := h.primary_length serving
      intro write hwrite
      obtain ⟨created, hresult, -, hgeneration, -⟩ := kept write hwrite
      cases effect with
      | refused error commit => cases hresult
      | degraded reason after ready commit store generation state => cases hresult
      | applied value after ready commit store generation state exact =>
          rw [if_neg (by omega)] at recorded
          show write.generation = record.length
          rw [recorded, List.length_append, List.length_singleton]
          omega
  | sent write pending more =>
      rintro other ⟨⟩
      exact h.latest write pending
  | delivered index faults request engine after resyncs result answered waiting serving effect told =>
      exact h.latest
  | replied write pending told =>
      rintro other ⟨⟩
      exact h.latest write pending
  | gaveUp write pending => rintro other ⟨⟩
  | acknowledged write pending all => rintro other ⟨⟩
  | exported engine resyncs replica index next serving step => exact hreplica step
  | told engine resyncs replica next serving step => exact hreplica step
  | primary action node pending ownAction moves kept =>
      rcases kept with rfl | rfl
      · exact h.latest
      · rintro other ⟨⟩
  | replica index action next ownAction step => exact hreplica step

theorem moves_within (h : Settled ctx shard) (hmoves : shard.Moves ctx action next) :
    ∀ node ∈ next.replicas, node.Within next.history.length := by
  have hconsistent := step_consistent h.consistent hmoves
  have hgrown := moves_grown hmoves
  have hkept : ∀ node ∈ shard.replicas, node.Within next.history.length := by
    intro node hnode
    have hwithin := h.within node hnode
    cases node with
    | down database => trivial
    | up engine phase resyncs => exact hwithin.trans (by exact_mod_cast hgrown)
  have hset : ∀ {index node after action}, shard.replicas[index]? = some node →
      node.Moves ctx action after → next.replicas = shard.replicas.set index after →
      ∀ node ∈ next.replicas, node.Within next.history.length := by
    intro index node after action hnode hmoves hreplicas other hother
    have hstored := (hconsistent.replicas other hother).within
    rw [hreplicas] at hother
    rcases List.mem_or_eq_of_mem_set hother with hold | rfl
    · exact hkept other hold
    · exact Node.moves_within hmoves (hkept node (List.mem_of_getElem? hnode)) hstored
  have hreplica : ∀ {index action}, shard.stepReplica ctx index action = some next →
      ∀ node ∈ next.replicas, node.Within next.history.length := by
    intro index action hstep
    obtain ⟨node, after, hnode, hnodeMoves, rfl⟩ := stepReplica_cases hstep
    exact hset hnode hnodeMoves rfl
  cases hmoves with
  | delivered index faults request engine after resyncs result answered waiting serving effect told =>
      exact hset serving (.replicated engine after resyncs (request.applyAction faults) _ _ result
        (request.asks_applyAction faults) effect) rfl
  | exported engine resyncs replica index next serving step => exact hreplica step
  | told engine resyncs replica next serving step => exact hreplica step
  | replica index action next ownAction step => exact hreplica step
  | _ => exact hkept

theorem step_settled (h : Settled ctx shard) (hstep : shard.step ctx action = some next) :
    Settled ctx next := by
  have hmoves := step_moves hstep
  obtain ⟨⟨hprimaryOpened, hcounted⟩, hreplicas⟩ := @step_copies _ _ _ ctx _ _ _
    (fun role node => node.Opened ∧ node.Counted role)
    (fun hsteps hinv => ⟨Node.step_opened hsteps hinv.1, Node.step_counted hsteps hinv.2⟩) hstep
    ⟨h.primaryOpened, h.counted⟩ (fun node hnode => ⟨h.opened node hnode, by
      cases node with
      | down database => trivial
      | up engine phase resyncs => exact fun hrole => absurd rfl hrole⟩)
  exact ⟨step_consistent h.consistent hmoves, hprimaryOpened, hcounted,
    fun node hnode => (hreplicas node hnode).1, moves_within h hmoves, moves_latest h hmoves⟩

theorem reaches_settled {replicas : Nat} {cond : Shard α → ShardAction → Prop}
    (h : Run.Reaches (step ctx) cond (initial replicas) shard) : Settled ctx shard :=
  Run.invariant (fun _ _ _ _ hstep hs => step_settled hs hstep) h (initial_settled replicas)

omit [Arith α] [LinearOrder α] in
-- A copy that is ready serves what it has stored.
theorem Settled.healthy (h : Settled ctx shard) {engine : SearchEngine α} {phase : Phase}
    {resyncs : List Resync} (hcopy : .up engine phase resyncs ∈ shard.copies)
    (hready : engine.state = .ready) : engine.Healthy ctx := by
  have hexact := (h.consistent.copy hcopy).1 (.inl hready)
  have hopened : (Node.up engine phase resyncs).Opened := by
    rcases List.mem_cons.mp hcopy with hprimary | hreplica
    · exact hprimary ▸ h.primaryOpened
    · exact h.opened _ hreplica
  exact ⟨hready, Node.opened_of_ready hopened hready, hexact⟩

end Shard

end PySearch
