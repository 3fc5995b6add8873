import PySearch.Cluster.Replication.Following

namespace PySearch

open Run (exec)

variable {α : Type}

namespace Node

-- Bring the process of a node down, if it runs, and up again on its own database.
def restart : Node α → List NodeAction
  | down _ => [.start, .initializeEngine .none]
  | up _ _ _ => [.crash, .start, .initializeEngine .none]

-- What a replica does when it is restarted and its primary answers.
def rejoin (node : Node α) (remote : Int) (documents : List Document) : List NodeAction :=
  node.restart ++ [.synchronize, .generation (.ok remote), .compare] ++
    if node.database.generation < remote then
      [.receive 0 (.ok (documents, remote)), .install 0 false .none]
    else []

-- The node serves all of the history, and nothing is under way.
def Serves (ctx : EngineContext α) (history : List Mutation) (node : Node α) : Prop :=
  ∃ engine, node = up engine .serving [] ∧ engine.Healthy ctx ∧
    engine.store.database.Follows history ∧ engine.store.database.generation = history.length

variable [Arith α] [LinearOrder α] {ctx : EngineContext α}

theorem restart_exec (hc : ctx.Contract) (role : Role) (node : Node α) :
    ∃ engine, exec (step ctx role) node node.restart =
        some (up engine (if role = .replica then .recovered else .serving) []) ∧
      engine.Healthy ctx ∧ engine.store.database = node.database := by
  obtain ⟨report, engine, hinit, hhealthy, hstored⟩ :=
    SearchEngine.initializeEngine_healthy hc node.database
  refine ⟨engine, ?_, hhealthy, hstored⟩
  cases node with
  | down database =>
      simp only [restart, exec, step, Option.bind_some]
      rw [show (down database : Node α).database = database from rfl] at hinit
      rw [hinit]
      rfl
  | up old phase resyncs =>
      simp only [restart, exec, step, Option.bind_some]
      rw [show (up old phase resyncs).database = old.store.database from rfl] at hinit
      rw [hinit]
      rfl

-- The snapshot that a starting replica has asked for makes it serve.
theorem repair_exec (hc : ctx.Contract) {engine : SearchEngine α}
    (hopened : engine.store.closed = false) {documents : List Document}
    (hnodup : (documents.map Document.documentId).Nodup) (generation localGeneration : Int)
    (primaryGeneration : Option Int) :
    ∃ after, exec (step ctx .replica)
        (up engine .repairing [⟨localGeneration, primaryGeneration, .requested⟩])
        [.receive 0 (.ok (documents, generation)), .install 0 false .none] =
          some (up after .serving []) ∧
      after.Healthy ctx ∧ after.store.database = .replaceAll documents generation := by
  obtain ⟨report, after, hinstalled⟩ :=
    @SearchEngine.resynchronize_total _ _ _ ctx engine hc hopened _ hnodup generation
  have heffect := @SearchEngine.resynchronize_effect _ _ _ ctx engine documents generation
    false .none
  refine ⟨after, ?_, ?_⟩
  · simp [exec, step, pending, Phase.resyncs, ReplicaSynchronizer.receive,
      ReplicaSynchronizer.install, hinstalled, continueResync, Phase.afterResync]
  · rw [hinstalled] at heffect
    cases heffect with
    | installed report after nodup store advanced state exact =>
        exact ⟨⟨state, by rw [store]; exact hopened, exact⟩, by rw [store]⟩

-- A restarted replica is in step with its primary, or takes over its corpus.
theorem rejoin_serves (hc : ctx.Contract) {history : List Mutation} {documents : List Document}
    {node : Node α} (hnode : node.database.Follows history)
    (hnodup : (documents.map Document.documentId).Nodup)
    (hdocuments : (Database.replaceAll documents history.length).Follows history) :
    ∃ after, exec (step ctx .replica) node (node.rejoin history.length documents) = some after ∧
      after.Serves ctx history := by
  obtain ⟨engine, hrestart, hhealthy, hstored⟩ := restart_exec hc .replica node
  have hgeneration : engine.generation = node.database.generation := by
    rw [hhealthy.exact.generation, hstored]
  have hwithin := hnode.within
  unfold rejoin
  rw [Run.exec_append, Run.exec_append, hrestart, Option.bind_some, if_pos rfl]
  by_cases hbehind : node.database.generation < history.length
  · have hnotSame : engine.generation ≠ history.length := by omega
    have hnotAhead : ¬ engine.generation > history.length := by omega
    have hcompared : exec (step ctx .replica) (up engine .recovered [])
        [.synchronize, .generation (.ok history.length), .compare] =
          some (up ((engine.markRecovering "verifying synchronization with the primary").markRecovering
            ("resynchronizing from generation " ++ toString engine.generation)) .repairing
              [⟨engine.generation, some history.length, .requested⟩]) := by
      simp only [exec, step, ReplicaSynchronizer.beginSynchronize, ReplicaSynchronizer.compare,
        ReplicaSynchronizer.beginResynchronize, hnotSame, hnotAhead, if_false, Option.bind_some,
        List.nil_append]
    rw [hcompared, Option.bind_some, if_pos hbehind]
    obtain ⟨after, hexec, hafter, hreplaced⟩ := @repair_exec _ _ _ ctx hc
      ((engine.markRecovering "verifying synchronization with the primary").markRecovering
        ("resynchronizing from generation " ++ toString engine.generation)) hhealthy.opened _ hnodup
      history.length engine.generation (some history.length)
    exact ⟨_, hexec, after, rfl, hafter, hreplaced ▸ hdocuments, by rw [hreplaced]; rfl⟩
  · have hsame : engine.generation = history.length := by omega
    have hcompared : exec (step ctx .replica) (up engine .recovered [])
        [.synchronize, .generation (.ok history.length), .compare] =
          some (up (engine.markRecovering "verifying synchronization with the primary").markReady
            .serving []) := by
      simp only [exec, step, ReplicaSynchronizer.beginSynchronize, ReplicaSynchronizer.compare,
        hsame, if_true, Option.bind_some]
    rw [hcompared, Option.bind_some, if_neg hbehind]
    refine ⟨_, rfl, _, rfl, ⟨rfl, hhealthy.opened, hhealthy.exact.derived,
      hhealthy.exact.generation⟩, ?_, ?_⟩
    · show engine.store.database.Follows history
      rw [hstored]
      exact hnode
    · show engine.store.database.generation = history.length
      rw [hstored, ← hgeneration, hsame]

end Node

namespace Shard

-- What the replica with the given number does by itself, and what its primary answers it.
def towards (index : Nat) : NodeAction → ShardAction
  | .generation _ => .tell index
  | .receive pending _ => .exportTo index pending
  | action => .replica index action

def restartPrimary (shard : Shard α) : List ShardAction := shard.primary.restart.map .primary

def restartReplica (shard : Shard α) (index : Nat) : List ShardAction :=
  match shard.replicas[index]? with
  | none => []
  | some node =>
      node.restart.map (.replica index) ++
        [.replica index .synchronize, .tell index, .replica index .compare] ++
        if node.database.generation < shard.primary.database.generation then
          [.exportTo index 0, .replica index (.install 0 false .none)]
        else []

-- Every copy is restarted once, the primary first.
def rollingRestart (shard : Shard α) : List ShardAction :=
  shard.restartPrimary ++ (List.range shard.replicas.length).flatMap shard.restartReplica

-- Every copy serves the whole history, and no write is under way.
structure Serving (ctx : EngineContext α) (shard : Shard α) : Prop where
  copies : ∀ node ∈ shard.copies, node.Serves ctx shard.history
  idle : shard.write = none

-- The primary has been restarted, and so have the first replicas.
structure Restarted (ctx : EngineContext α) (shard next : Shard α) (count : Nat) : Prop where
  primary : next.primary.Serves ctx shard.history
  history : next.history = shard.history
  acknowledged : next.acknowledged = shard.acknowledged
  idle : next.write = none
  length : next.replicas.length = shard.replicas.length
  done : ∀ index, index < count → ∀ node, next.replicas[index]? = some node →
    node.Serves ctx shard.history
  rest : ∀ index, count ≤ index → next.replicas[index]? = shard.replicas[index]?

theorem restartReplica_eq {shard : Shard α} {index : Nat} {node : Node α}
    (hnode : shard.replicas[index]? = some node) (documents : List Document) :
    shard.restartReplica index =
      (node.rejoin shard.primary.database.generation documents).map (towards index) := by
  have hrestart : node.restart.map (.replica index) = node.restart.map (towards index) := by
    cases node <;> rfl
  simp only [restartReplica, hnode, Node.rejoin, List.map_append, hrestart]
  by_cases hbehind : node.database.generation < shard.primary.database.generation
  · rw [if_pos hbehind, if_pos hbehind]
    rfl
  · rw [if_neg hbehind, if_neg hbehind]
    rfl

variable [Arith α] [LinearOrder α] {ctx : EngineContext α} {shard next : Shard α}

theorem restartPrimary_restarted (hc : ctx.Contract) (hs : Settled ctx shard)
    (hattended : Attended shard) :
    ∃ next, exec (step ctx) shard shard.restartPrimary = some next ∧
      Restarted ctx shard next 0 := by
  let put : Node α → Shard α := fun node => { shard with primary := node, write := none }
  have hput : ∀ node, ∀ action ∈ [NodeAction.start, .initializeEngine .none],
      step ctx (put node) (.primary action) = (node.step ctx .primary action).map put := by
    intro node action haction
    have hlocal : action.isLocal = true := by
      rcases List.mem_pair.mp haction with rfl | rfl <;> rfl
    simp only [step, hlocal, if_true, put]
    congr 1
    funext after
    cases after <;> rfl
  obtain ⟨engine, hexec, hhealthy, hstored⟩ := Node.restart_exec hc .primary shard.primary
  rw [hs.consistent.primary] at hstored
  refine ⟨put (.up engine .serving []), ?_, ⟨⟨engine, rfl, hhealthy, ?_, ?_⟩, rfl, rfl, rfl, rfl,
    by simp, fun _ _ => rfl⟩⟩
  · unfold restartPrimary
    cases hprimary : shard.primary with
    | down database =>
        have hidle : shard.write = none := by
          by_contra hpending
          obtain ⟨_, _, hserving⟩ := hattended hpending
          rw [hprimary] at hserving
          cases hserving
        have hshard : shard = put (.down database) := by simp only [put, ← hprimary, ← hidle]
        rw [hprimary] at hexec
        conv_lhs => rw [hshard]
        rw [Node.restart, Run.exec_lift put ShardAction.primary hput]
        exact congrArg (Option.map put) hexec
    | up old phase resyncs =>
        -- A write that is under way ends with the process.
        have hcrash : step ctx shard (.primary .crash) = some (put (.down old.store.database)) := by
          simp only [step, NodeAction.isLocal, if_true, hprimary, Node.step, Option.map_some, put]
        have hdown : Node.step ctx .primary (.up old phase resyncs) .crash =
            some (.down old.store.database) := by simp only [Node.step]
        rw [hprimary, Node.restart, exec, hdown, Option.bind_some] at hexec
        rw [Node.restart, List.map_cons, exec, hcrash, Option.bind_some,
          Run.exec_lift put ShardAction.primary hput, hexec]
        rfl
  · rw [hstored]
    exact Database.replay_follows shard.history
  · rw [hstored, Database.replay_generation]

-- Asked by a primary that serves, a replica moves as it would on its own.
theorem step_towards {engine : SearchEngine α} {index : Nat} {node : Node α}
    {documents : List Document}
    (hserving : shard.primary = .up engine .serving [])
    (hexport : engine.exportSnapshot = .ok (documents, engine.generation)) {action : NodeAction}
    (haction : action ∈ node.rejoin engine.generation documents) :
    shard.step ctx (towards index action) = shard.stepReplica ctx index action := by
  have hrestart : ∀ action ∈ node.restart,
      shard.step ctx (towards index action) = shard.stepReplica ctx index action := by
    cases node <;> simp [Node.restart, towards, step, NodeAction.isLocal]
  rw [Node.rejoin, List.mem_append, List.mem_append] at haction
  rcases haction with (hmem | hmem) | hmem
  · exact hrestart action hmem
  · simp only [List.mem_cons, List.not_mem_nil, or_false] at hmem
    rcases hmem with rfl | rfl | rfl <;> simp only [towards, step, NodeAction.isLocal, hserving] <;>
      rfl
  · split at hmem
    · simp only [List.mem_cons, List.not_mem_nil, or_false] at hmem
      rcases hmem with rfl | rfl <;>
        simp only [towards, step, NodeAction.isLocal, hserving, hexport, if_true]
    · cases hmem

omit [Arith α] [LinearOrder α] in
theorem setReplica_self {index : Nat} {node : Node α} (h : shard.replicas[index]? = some node) :
    shard.setReplica index node = shard := by
  obtain ⟨hlt, rfl⟩ := List.getElem?_eq_some_iff.mp h
  rw [setReplica, List.set_getElem_self]

theorem stepReplica_setReplica {index : Nat} (h : index < shard.replicas.length) (node : Node α)
    (action : NodeAction) : (shard.setReplica index node).stepReplica ctx index action =
      (node.step ctx .replica action).map (shard.setReplica index) := by
  simp [stepReplica, setReplica, h]
  cases node.step ctx .replica action <;> rfl

theorem restartReplica_restarted (hc : ctx.Contract) {count : Nat}
    (hs : Settled ctx shard) (h : Restarted ctx shard next count)
    (hcount : count < shard.replicas.length) :
    ∃ after, exec (step ctx) next (shard.restartReplica count) = some after ∧
      Restarted ctx shard after (count + 1) := by
  obtain ⟨engine, hserving, hhealthy, hfollows, hwhole⟩ := h.primary
  have hgeneration : engine.generation = shard.history.length := by
    rw [hhealthy.exact.generation, hwhole]
  obtain ⟨node, hnode⟩ : ∃ node, shard.replicas[count]? = some node :=
    ⟨_, List.getElem?_eq_getElem hcount⟩
  have hexport : engine.exportSnapshot =
      .ok (engine.derived.documents.values, shard.history.length) := by
    rw [← hgeneration]
    simp only [SearchEngine.exportSnapshot, SearchEngine.requireOperational_of_ready hhealthy.ready]
    rfl
  obtain ⟨-, hnodup, hrows⟩ := SearchEngine.exportSnapshot_rows (fun _ => hhealthy.exact) hexport
  have hreplaced : (Database.replaceAll engine.derived.documents.values
      shard.history.length).Follows shard.history := by
    refine ⟨Int.natCast_nonneg _, le_refl _, fun id => (hrows id).trans ?_⟩
    rw [hfollows.rows id, hwhole]
    rfl
  obtain ⟨after, hexec, hafter⟩ := Node.rejoin_serves hc
    (hs.consistent.replicas node (List.mem_of_getElem? hnode)) hnodup hreplaced
  have hcurrent : next.replicas[count]? = some node := (h.rest count (le_refl _)).trans hnode
  have hlt : count < next.replicas.length := h.length ▸ hcount
  have hlift : ∀ state, ∀ action ∈ node.rejoin shard.history.length engine.derived.documents.values,
      step ctx (next.setReplica count state) (towards count action) =
        (state.step ctx .replica action).map (next.setReplica count) := by
    intro state action haction
    rw [← stepReplica_setReplica hlt]
    rw [← hgeneration] at haction hexport
    exact @step_towards _ _ _ ctx (next.setReplica count state) engine count node _ hserving
      hexport action haction
  refine ⟨next.setReplica count after, ?_, ⟨⟨engine, hserving, hhealthy, hfollows, hwhole⟩,
    h.history, h.acknowledged, h.idle, ?_, ?_, ?_⟩⟩
  · rw [restartReplica_eq hnode engine.derived.documents.values, hs.consistent.primary,
      Database.replay_generation]
    conv_lhs => rw [← setReplica_self hcurrent]
    rw [Run.exec_lift (next.setReplica count) (towards count) hlift, hexec]
    rfl
  · rw [setReplica, List.length_set, h.length]
  · intro index hindex other hother
    by_cases hlast : index = count
    · subst hlast
      simp only [setReplica, List.getElem?_set_self hlt, Option.some.injEq] at hother
      exact hother ▸ hafter
    · simp only [setReplica, List.getElem?_set_ne (Ne.symm hlast)] at hother
      exact h.done index (by omega) other hother
  · intro index hindex
    simp only [setReplica, List.getElem?_set_ne (show count ≠ index by omega)]
    exact h.rest index (by omega)

-- From every reachable state a rolling restart makes all copies serve what was committed.
theorem rollingRestart_serving (hc : ctx.Contract) (hs : Settled ctx shard)
    (hattended : Attended shard) :
    ∃ next, exec (step ctx) shard shard.rollingRestart = some next ∧ Serving ctx next ∧
      next.history = shard.history ∧ next.acknowledged = shard.acknowledged ∧
      next.replicas.length = shard.replicas.length := by
  have hreplicas : ∀ count, count ≤ shard.replicas.length → ∃ next,
      exec (step ctx) shard (shard.restartPrimary ++
        (List.range count).flatMap shard.restartReplica) = some next ∧
      Restarted ctx shard next count := by
    intro count
    induction count with
    | zero =>
        intro _
        simpa using restartPrimary_restarted hc hs hattended
    | succ count ih =>
        intro hcount
        obtain ⟨next, hexec, hnext⟩ := ih (by omega)
        obtain ⟨after, hrestart, hafter⟩ := restartReplica_restarted hc hs hnext hcount
        refine ⟨after, ?_, hafter⟩
        rw [List.range_succ, List.flatMap_append, ← List.append_assoc, Run.exec_append, hexec]
        simpa using hrestart
  obtain ⟨next, hexec, hnext⟩ := hreplicas shard.replicas.length (le_refl _)
  refine ⟨next, hexec, ⟨?_, hnext.idle⟩, hnext.history, hnext.acknowledged, hnext.length⟩
  rw [hnext.history]
  intro node hnode
  rcases List.mem_cons.mp hnode with rfl | hreplica
  · exact hnext.primary
  · obtain ⟨index, hindex⟩ := List.mem_iff_getElem?.mp hreplica
    exact hnext.done index (hnext.length ▸ (List.getElem?_eq_some_iff.mp hindex).1) node hindex

-- A delete of what is not there changes nothing.
def accepts (shard : Shard α) : Mutation → Bool
  | .put _ => true
  | .delete documentId => (Database.replay shard.history).rows.contains documentId

-- A write that meets no failure, from the request of the client to its acknowledgement.
def writeThrough (shard : Shard α) (mutation : Mutation) : List ShardAction :=
  .write mutation .none ::
    (List.range shard.replicas.length).flatMap (fun replica =>
      [.send, .deliver (shard.sent.length + replica) .none, .reply]) ++ [.acknowledge]

omit [Arith α] [LinearOrder α] in
-- The next mutation makes a copy that serves the history serve the longer one.
theorem serves_apply {history : List Mutation} {mutation : Mutation} {engine after : SearchEngine α}
    (hfollows : engine.store.database.Follows history)
    (hwhole : engine.store.database.generation = history.length) (hafter : after.Healthy ctx)
    (hstore : after.store.database =
      engine.store.database.apply mutation (engine.store.database.generation + 1)) :
    (Node.up after .serving []).Serves ctx (history ++ [mutation]) := by
  refine ⟨after, rfl, hafter, ?_, ?_⟩
  · rw [hstore]
    exact (hfollows.append mutation).apply (by rw [hwhole]; simp)
  · rw [hstore, Database.apply_generation, hwhole, List.length_append, List.length_singleton,
      Int.natCast_succ]

-- A write after which the first replicas have confirmed it.
structure Written (ctx : EngineContext α) (shard next : Shard α) (mutation : Mutation)
    (count : Nat) : Prop where
  primary : next.primary.Serves ctx (shard.history ++ [mutation])
  history : next.history = shard.history ++ [mutation]
  acknowledged : next.acknowledged = shard.acknowledged
  write : ∃ created,
    next.write = some ⟨mutation, shard.history.length + 1, created, count, false⟩
  sent : next.sent.length = shard.sent.length + count
  length : next.replicas.length = shard.replicas.length
  done : ∀ index, index < count → ∀ node, next.replicas[index]? = some node →
    node.Serves ctx (shard.history ++ [mutation])
  rest : ∀ index, count ≤ index → next.replicas[index]? = shard.replicas[index]?

theorem Serving.write (hc : ctx.Contract) (h : Serving ctx shard) {mutation : Mutation}
    (haccepts : shard.accepts mutation = true) :
    ∃ next, shard.step ctx (.write mutation .none) = some next ∧
      Written ctx shard next mutation 0 := by
  obtain ⟨engine, hserving, hhealthy, hfollows, hwhole⟩ :=
    h.copies shard.primary List.mem_cons_self
  have hrows : ∀ id, engine.store.database.rows.get? id =
      (Database.replay shard.history).rows.get? id := by
    intro id
    rw [hfollows.rows id, hwhole, Int.toNat_natCast, List.take_length]
  have hcommits : engine.commits ctx mutation .none = true := by
    simp only [SearchEngine.commits, hhealthy.ready, SqliteDocumentStore.unavailable,
      hhealthy.opened, Faults.none, decide_true, Bool.or_self, Bool.not_false, Bool.true_and,
      Bool.or_true]
    cases mutation with
    | put document => rfl
    | delete documentId =>
        have hpresent : (Database.replay shard.history).rows.contains documentId = true := haccepts
        simpa [Dict.contains, hhealthy.exact.derived.documents, hrows] using hpresent
  obtain ⟨created, after, hcommit⟩ := commit_of_commits hc hhealthy rfl hcommits
  have heffect := @commit_effect _ _ ctx engine mutation .none
  rw [hcommit] at heffect
  dsimp only at heffect
  cases heffect with
  | applied value after ready commit store generation state exact =>
      have hbefore : engine.generation = shard.history.length := by
        rw [hhealthy.exact.generation, hwhole]
      have hlength : after.generation = shard.history.length + 1 := by omega
      have hafter : after.Healthy ctx :=
        ⟨state, by rw [store]; exact hhealthy.opened, exact hhealthy.exact⟩
      have hstore : after.store.database =
          engine.store.database.apply mutation (engine.store.database.generation + 1) := by
        rw [store, SearchEngine.committed, hhealthy.exact.generation]
      have hserves := serves_apply hfollows hwhole hafter hstore
      refine ⟨{ shard with
        primary := .up after .serving []
        history := shard.history ++ [mutation]
        write := some ⟨mutation, shard.history.length + 1, created, 0, false⟩ }, ?_,
        ⟨hserves, rfl, rfl, ⟨created, rfl⟩, rfl, rfl, by simp, fun _ _ => rfl⟩⟩
      simp only [step, h.idle, hserving, hcommit, hlength]
      rw [if_neg (by omega)]

-- A request that the replica is ready for is applied and confirmed.
theorem deliver_applied {index : Nat} {request : ReplicationRequest} {engine after : SearchEngine α}
    {resyncs : List Resync} (hrequest : shard.sent[index]? = some request)
    (hserving : shard.replicas[request.target]? = some (.up engine .serving resyncs))
    (happlied : engine.applyReplicated ctx request.mutation request.generation .none =
      (.ok .applied, after)) :
    shard.step ctx (.deliver index .none) =
      some { shard.setReplica request.target (.up after .serving resyncs) with
        answered := (request.target, request.generation) :: shard.answered } := by
  have hconfirmed : applied ctx engine request .none = true := by rw [applied_eq, happlied]
  rw [step_deliver hrequest hserving, hconfirmed, happlied, if_pos rfl]
  rfl

theorem Written.replicate (hc : ctx.Contract) (h : Serving ctx shard) {mutation : Mutation}
    {count : Nat} (hw : Written ctx shard next mutation count)
    (hcount : count < shard.replicas.length) :
    ∃ after, exec (step ctx) next
        [.send, .deliver (shard.sent.length + count) .none, .reply] = some after ∧
      Written ctx shard after mutation (count + 1) := by
  obtain ⟨node, hnode⟩ : ∃ node, shard.replicas[count]? = some node :=
    ⟨_, List.getElem?_eq_getElem hcount⟩
  obtain ⟨engine, rfl, hhealthy, hfollows, hwhole⟩ :=
    h.copies node (List.mem_cons_of_mem _ (List.mem_of_getElem? hnode))
  have hcurrent := (hw.rest count (le_refl _)).trans hnode
  have hlt : count < next.replicas.length := hw.length ▸ hcount
  obtain ⟨created, hwrite⟩ := hw.write
  have hgeneration : shard.history.length + 1 = engine.generation + 1 := by
    rw [hhealthy.exact.generation, hwhole]
  obtain ⟨after, happlied⟩ := hhealthy.applyReplicated hc mutation
  have heffect := @SearchEngine.applyReplicated_effect _ _ ctx engine mutation
    (engine.generation + 1) .none
  rw [happlied] at heffect
  cases heffect with
  | applied after ready inLine store advanced state exact =>
      have hafter : after.Healthy ctx :=
        ⟨state, by rw [store]; exact hhealthy.opened, exact hhealthy.exact⟩
      have hstore : after.store.database =
          engine.store.database.apply mutation (engine.store.database.generation + 1) := by
        rw [store, SearchEngine.committed, hhealthy.exact.generation]
      have hserves := serves_apply hfollows hwhole hafter hstore
      let request : ReplicationRequest := ⟨count, mutation, shard.history.length + 1⟩
      let sent : Shard α := { next with
        sent := next.sent ++ [request]
        write := some ⟨mutation, shard.history.length + 1, created, count, true⟩ }
      have hsend : next.step ctx .send = some sent := by
        simp only [step, hwrite, hlt, and_self, if_true]
        rfl
      have hdeliver := @deliver_applied _ _ _ ctx sent (shard.sent.length + count) request engine
        after [] (by rw [← hw.sent]; exact List.getElem?_concat_length) hcurrent
        (by rw [← hgeneration] at happlied; exact happlied)
      refine ⟨{ next.setReplica count (.up after .serving []) with
        sent := next.sent ++ [request]
        answered := (count, shard.history.length + 1) :: next.answered
        write := some ⟨mutation, shard.history.length + 1, created, count + 1, false⟩ }, ?_,
        ⟨hw.primary, hw.history, hw.acknowledged, ⟨created, rfl⟩, ?_, ?_, ?_, ?_⟩⟩
      · rw [exec, hsend, Option.bind_some, exec, hdeliver, Option.bind_some]
        simp [exec, step, sent, request, setReplica]
      · simp [hw.sent]
        omega
      · exact List.length_set.trans hw.length
      · intro index hindex other hother
        by_cases hlast : index = count
        · subst hlast
          simp only [setReplica, List.getElem?_set_self hlt, Option.some.injEq] at hother
          exact hother ▸ hserves
        · simp only [setReplica, List.getElem?_set_ne (Ne.symm hlast)] at hother
          exact hw.done index (by omega) other hother
      · intro index hindex
        simp only [setReplica, List.getElem?_set_ne (show count ≠ index by omega)]
        exact hw.rest index (by omega)

-- A shard whose copies all serve takes the next write, and they all serve it.
theorem writeThrough_serving (hc : ctx.Contract) (h : Serving ctx shard) {mutation : Mutation}
    (haccepts : shard.accepts mutation = true) :
    ∃ next, exec (step ctx) shard (shard.writeThrough mutation) = some next ∧ Serving ctx next ∧
      next.history = shard.history ++ [mutation] ∧
      next.acknowledged = (shard.history.length + 1 : Int) :: shard.acknowledged := by
  have hreplicas : ∀ count, count ≤ shard.replicas.length → ∃ next,
      exec (step ctx) shard (.write mutation .none :: (List.range count).flatMap (fun replica =>
        [.send, .deliver (shard.sent.length + replica) .none, .reply])) = some next ∧
      Written ctx shard next mutation count := by
    intro count
    induction count with
    | zero =>
        intro _
        obtain ⟨next, hwrite, hnext⟩ := h.write hc haccepts
        exact ⟨next, by simp [exec, hwrite], hnext⟩
    | succ count ih =>
        intro hcount
        obtain ⟨next, hexec, hnext⟩ := ih (by omega)
        obtain ⟨after, hreplicate, hafter⟩ := hnext.replicate hc h hcount
        refine ⟨after, ?_, hafter⟩
        rw [List.range_succ, List.flatMap_append, ← List.cons_append, Run.exec_append, hexec]
        simpa using hreplicate
  obtain ⟨last, hexec, hlast⟩ := hreplicas shard.replicas.length (le_refl _)
  obtain ⟨created, hwrite⟩ := hlast.write
  refine ⟨{ last with
    write := none
    acknowledged := (shard.history.length + 1 : Int) :: last.acknowledged }, ?_, ⟨?_, rfl⟩,
    hlast.history, congrArg _ hlast.acknowledged⟩
  · rw [writeThrough, Run.exec_append, hexec, Option.bind_some]
    simp [exec, step, hwrite, hlast.length]
  · rw [hlast.history]
    intro node hnode
    rcases List.mem_cons.mp hnode with rfl | hreplica
    · exact hlast.primary
    · obtain ⟨index, hindex⟩ := List.mem_iff_getElem?.mp hreplica
      exact hlast.done index (hlast.length ▸ (List.getElem?_eq_some_iff.mp hindex).1) node hindex

theorem reaches_attended {replicas : Nat} {cond : Shard α → ShardAction → Prop}
    (h : Run.Reaches (step ctx) cond (initial replicas) shard) : Attended shard :=
  Run.invariant (fun _ _ _ _ hstep hattended => (step_attended hattended hstep).1) h
    fun hpending => absurd rfl hpending

-- No reachable state is a dead end: restarting every copy once, the primary first, loses
-- nothing that was committed, makes every copy serve it, and lets the next write through.
theorem no_dead_end (hc : ctx.Contract) {replicas : Nat}
    (h : Run.Reaches (step ctx) (fun _ _ => True) (initial replicas) shard) :
    ∃ next, exec (step ctx) shard shard.rollingRestart = some next ∧ Serving ctx next ∧
      next.history = shard.history ∧ next.acknowledged = shard.acknowledged ∧
      next.replicas.length = shard.replicas.length ∧
      ∀ mutation, next.accepts mutation = true →
        ∃ last, exec (step ctx) next (next.writeThrough mutation) = some last ∧
          Serving ctx last ∧ last.history = shard.history ++ [mutation] ∧
          last.acknowledged = (shard.history.length + 1 : Int) :: shard.acknowledged := by
  obtain ⟨next, hexec, hserving, hhistory, hacknowledged, hlength⟩ :=
    rollingRestart_serving hc (reaches_settled h) (reaches_attended h)
  refine ⟨next, hexec, hserving, hhistory, hacknowledged, hlength, ?_⟩
  intro mutation haccepts
  have hwrite := writeThrough_serving hc hserving haccepts
  rw [hhistory, hacknowledged] at hwrite
  exact hwrite

section Example

attribute [local instance] rationalArith

-- The first write is acknowledged. The second one degrades the primary after the commit,
-- and the replica dies without having heard of it.
def wornActions : List ShardAction :=
  startActions ++ acknowledgedWrite (.put redFox) 0 ++
    [.write (.put red) { Faults.none with derived := some (1, .unexpected) }, .replica 0 .crash]

theorem wornShard_revived : ∃ shard : Shard ℚ,
    Run.Reaches (step ⟨.ascii, defaultBM25Params, some .constant⟩) (fun _ _ => True) (initial 1)
      shard ∧
    (shard.primary.runs (fun engine => decide (engine.state = .degraded)) = true ∧
      shard.acknowledged = [1] ∧ shard.history.length = 2) ∧
    ∃ next, exec (step ⟨.ascii, defaultBM25Params, some .constant⟩) shard shard.rollingRestart =
        some next ∧ Serving ⟨.ascii, defaultBM25Params, some .constant⟩ next ∧
      next.history = shard.history ∧ next.acknowledged = shard.acknowledged ∧
      next.replicas.length = shard.replicas.length ∧
      ∀ mutation, next.accepts mutation = true →
        ∃ last, exec (step ⟨.ascii, defaultBM25Params, some .constant⟩) next
            (next.writeThrough mutation) = some last ∧
          Serving ⟨.ascii, defaultBM25Params, some .constant⟩ last ∧
          last.history = shard.history ++ [mutation] ∧
          last.acknowledged = (shard.history.length + 1 : Int) :: shard.acknowledged := by
  have hrun : (exec (step (⟨.ascii, defaultBM25Params, some .constant⟩ : EngineContext ℚ))
      (initial 1) wornActions).map (fun shard =>
        shard.primary.runs (fun engine => decide (engine.state = .degraded)) &&
          decide (shard.acknowledged = [1] ∧ shard.history.length = 2)) = some true := by
    decide +kernel
  obtain ⟨shard, hreach, hcheck⟩ := Run.reaches_of_exec hrun
  obtain ⟨hdegraded, hcounts⟩ := Bool.and_eq_true_iff.mp hcheck
  exact ⟨shard, hreach, ⟨hdegraded, of_decide_eq_true hcounts⟩,
    no_dead_end (EngineContext.contract_of_some rfl Embedder.constant_contract) hreach⟩

end Example

end Shard

end PySearch
