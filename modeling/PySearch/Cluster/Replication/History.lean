import PySearch.Cluster.Replication.Theorems
import PySearch.Lib.Run
import PySearch.Search.Engine.Answers

namespace PySearch

namespace Database

-- The database holds the first mutations of a history, as many as its generation says.
structure Follows (database : Database) (history : List Mutation) : Prop where
  nonneg : 0 ≤ database.generation
  within : database.generation ≤ history.length
  rows : ∀ id, database.rows.get? id =
    (replay (history.take database.generation.toNat)).rows.get? id

variable {database : Database} {history : List Mutation}

theorem apply_congr {other : Database} (h : ∀ id, database.rows.get? id = other.rows.get? id)
    (mutation : Mutation) (generation otherGeneration : Int) (id : String) :
    (database.apply mutation generation).rows.get? id =
      (other.apply mutation otherGeneration).rows.get? id := by
  rw [apply_get?, apply_get?, h]

theorem Follows.append (h : database.Follows history) (mutation : Mutation) :
    database.Follows (history ++ [mutation]) where
  nonneg := h.nonneg
  within := by
    have hwithin := h.within
    rw [List.length_append]
    omega
  rows id := by
    have hwithin := h.within
    rw [List.take_append_of_le_length (by omega)]
    exact h.rows id

-- Applying the next mutation of the history stays on the history.
theorem Follows.apply (h : database.Follows history) {mutation : Mutation}
    (hnext : history[database.generation.toNat]? = some mutation) :
    (database.apply mutation (database.generation + 1)).Follows history where
  nonneg := by
    have hnonneg := h.nonneg
    rw [apply_generation]
    omega
  within := by
    have hlt := (List.getElem?_eq_some_iff.mp hnext).1
    rw [apply_generation]
    omega
  rows id := by
    rw [apply_generation, Int.toNat_add h.nonneg Int.one_nonneg, Int.toNat_one,
      List.take_add_one, hnext, Option.toList_some, replay_append]
    exact apply_congr h.rows mutation _ _ id

theorem replay_follows (history : List Mutation) : (replay history).Follows history where
  nonneg := by
    rw [replay_generation]
    exact Int.natCast_nonneg _
  within := by rw [replay_generation]
  rows id := by rw [replay_generation, Int.toNat_natCast, List.take_length]

-- Two databases that agree on every lookup list the same documents.
theorem documents_congr {other : Database} (h : ∀ id, database.rows.get? id = other.rows.get? id) :
    database.documents = other.documents := by
  have hperm := Dict.values_perm h
  apply KeySort.sortedBy_eq_of_perm _ hperm
  have hp := (KeySort.sortedBy_perm Document.documentId database.rows.values).map
    Document.documentId
  exact hp.nodup_iff.mp database.documents_nodup

end Database

variable {α : Type}

theorem SearchEngine.Exact.keyed {ctx : EngineContext α} {engine : SearchEngine α}
    (h : engine.Exact ctx) {id : String} {document : Document}
    (hd : engine.derived.documents.get? id = some document) : document.documentId = id := by
  rw [h.derived.documents] at hd
  exact engine.store.database.keyed id document hd

theorem SearchEngine.Exact.ids {ctx : EngineContext α} {engine : SearchEngine α}
    (h : engine.Exact ctx) :
    engine.derived.documents.values.map Document.documentId = engine.derived.documents.keys := by
  rw [Dict.values, Dict.keys, List.map_map]
  apply List.map_congr_left
  rintro ⟨id, document⟩ hm
  exact h.keyed (Dict.mem_entries.mp hm)

-- An exported snapshot is the corpus of the exporting engine.
theorem SearchEngine.exportSnapshot_rows {ctx : EngineContext α} {engine : SearchEngine α}
    {documents : List Document} {generation : Int}
    (hexact : engine.state = .ready → engine.Exact ctx)
    (h : engine.exportSnapshot = .ok (documents, generation)) :
    generation = engine.store.database.generation ∧
      (documents.map Document.documentId).Nodup ∧
      ∀ id, (Database.insertAll documents).get? id = engine.store.database.rows.get? id := by
  obtain ⟨_, hready, hreturn⟩ := bind_ok h
  cases hreturn
  have he := hexact (requireOperational_ok hready)
  have hnodup : (engine.derived.documents.values.map Document.documentId).Nodup := by
    rw [he.ids]
    exact engine.derived.documents.keys_nodup
  refine ⟨he.generation, hnodup, fun id => ?_⟩
  rw [← he.derived.documents]
  apply Option.ext
  intro document
  rw [Database.insertAll_get? hnodup, Dict.mem_values]
  constructor
  · rintro ⟨⟨other, hother⟩, rfl⟩
    rwa [he.keyed hother]
  · intro hd
    exact ⟨⟨id, hd⟩, he.keyed hd⟩

theorem SearchEngine.exportSnapshot_follows {ctx : EngineContext α} {engine : SearchEngine α}
    {history : List Mutation} {documents : List Document} {generation : Int}
    (hexact : engine.state = .ready → engine.Exact ctx)
    (hdb : engine.store.database = .replay history)
    (h : engine.exportSnapshot = .ok (documents, generation)) :
    (Database.replaceAll documents generation).Follows history := by
  obtain ⟨hgeneration, -, hrows⟩ := exportSnapshot_rows hexact h
  have hlength : generation = history.length := by
    rw [hgeneration, hdb, Database.replay_generation]
  refine ⟨?_, le_of_eq hlength, fun id => ?_⟩
  · show 0 ≤ generation
    omega
  · show (Database.insertAll documents).get? id =
      (Database.replay (history.take generation.toNat)).rows.get? id
    rw [hlength, Int.toNat_natCast, List.take_length, ← hdb, hrows]

-- The mutation has the given number in the history. Numbers start at one.
def Numbered (history : List Mutation) (mutation : Mutation) (generation : Int) : Prop :=
  1 ≤ generation ∧ history[(generation - 1).toNat]? = some mutation

theorem Numbered.within {history : List Mutation} {mutation : Mutation} {generation : Int}
    (h : Numbered history mutation generation) : generation ≤ history.length := by
  have hpos := h.1
  have hlt := (List.getElem?_eq_some_iff.mp h.2).1
  omega

theorem Numbered.append {history : List Mutation} {mutation : Mutation} {generation : Int}
    (h : Numbered history mutation generation) (later : Mutation) :
    Numbered (history ++ [later]) mutation generation := by
  refine ⟨h.1, ?_⟩
  have hlt := (List.getElem?_eq_some_iff.mp h.2).1
  rw [List.getElem?_append_left hlt, h.2]

theorem ReplicationRequest.asks_applyAction (request : ReplicationRequest) (faults : Faults) :
    Node.asks (request.applyAction faults) = some (request.mutation, some request.generation) := by
  unfold applyAction
  cases request.mutation <;> rfl

namespace Shard

-- Everything in a shard stems from the primary's history: the primary has committed all
-- of it, each replica some first part, and what travels between them are its mutations
-- under their numbers and snapshots of its first parts.
structure Consistent (ctx : EngineContext α) (shard : Shard α) : Prop where
  primarySound : shard.primary.Sound ctx
  primaryResyncs : ∀ documents generation, ¬Node.Holds shard.primary.resyncs documents generation
  primary : shard.primary.database = .replay shard.history
  sound : ∀ node ∈ shard.replicas, node.Sound ctx
  replicas : ∀ node ∈ shard.replicas, node.database.Follows shard.history
  snapshots : ∀ node ∈ shard.replicas, ∀ documents generation,
    Node.Holds node.resyncs documents generation →
      (Database.replaceAll documents generation).Follows shard.history
  requests : ∀ request ∈ shard.sent,
    Numbered shard.history request.mutation request.generation
  write : ∀ write, shard.write = some write →
    Numbered shard.history write.mutation write.generation

theorem initial_consistent (ctx : EngineContext α) (replicas : Nat) :
    Consistent ctx (initial replicas) where
  primarySound := trivial
  primaryResyncs _ _ h := by
    obtain ⟨_, hm, -⟩ := h
    cases hm
  primary := rfl
  sound node h := by
    rw [List.eq_of_mem_replicate h]
    trivial
  replicas node h := by
    rw [List.eq_of_mem_replicate h]
    exact Database.replay_follows []
  snapshots node h documents generation hholds := by
    rw [List.eq_of_mem_replicate h] at hholds
    obtain ⟨_, hm, -⟩ := hholds
    cases hm
  requests _ h := by cases h
  write _ h := by cases h

variable [Arith α] [LinearOrder α] {ctx : EngineContext α} {shard next : Shard α}

theorem asks_of_isLocal {action : NodeAction} (h : action.isLocal = true) :
    Node.asks action = none := by
  cases action <;> simp_all [Node.asks, NodeAction.isLocal]

-- A replica that is told nothing but the history stays on it.
theorem setReplica_consistent {index : Nat} {action : NodeAction} {node after : Node α}
    (h : Consistent ctx shard) (hnode : shard.replicas[index]? = some node)
    (hmoves : node.Moves ctx action after)
    (hasked : ∀ change carried, Node.asks action = some (change, carried) →
      ∃ generation, carried = some generation ∧ Numbered shard.history change generation)
    (hreceived : ∀ index documents generation, action = .receive index (.ok (documents, generation)) →
      (Database.replaceAll documents generation).Follows shard.history) :
    Consistent ctx (shard.setReplica index after) := by
  have hmem := List.mem_of_getElem? hnode
  have hsound := Node.step_sound hmoves (h.sound node hmem)
  have hfollows : after.database.Follows shard.history := by
    have hmove := Node.moves_database hmoves (h.sound node hmem)
    generalize after.database = database at hmove
    cases hmove with
    | kept => exact h.replicas node hmem
    | applied change carried asked inLine =>
        obtain ⟨generation, rfl, hnumbered⟩ := hasked change carried asked
        have hnext := hnumbered.2
        rw [inLine generation rfl, add_sub_cancel_right] at hnext
        exact (h.replicas node hmem).apply hnext
    | replaced index fault faults resync documents generation asked held stage =>
        exact h.snapshots node hmem documents generation
          ⟨resync, List.mem_of_getElem? held, stage⟩
  have hsnapshots : ∀ documents generation, Node.Holds after.resyncs documents generation →
      (Database.replaceAll documents generation).Follows shard.history := by
    intro documents generation hholds
    rcases Node.moves_snapshots hmoves documents generation hholds with hheld | ⟨index, hreceive⟩
    · exact h.snapshots node hmem documents generation hheld
    · exact hreceived index documents generation hreceive
  refine ⟨h.primarySound, h.primaryResyncs, h.primary, ?_, ?_, ?_, h.requests, h.write⟩
  all_goals
    intro other hother
    rcases List.mem_or_eq_of_mem_set hother with hold | rfl
  · exact h.sound other hold
  · exact hsound
  · exact h.replicas other hold
  · exact hfollows
  · exact h.snapshots other hold
  · exact hsnapshots

theorem stepReplica_consistent {index : Nat} {action : NodeAction} (h : Consistent ctx shard)
    (hstep : shard.stepReplica ctx index action = some next) (hasked : Node.asks action = none)
    (hreceived : ∀ index documents generation, action = .receive index (.ok (documents, generation)) →
      (Database.replaceAll documents generation).Follows shard.history) :
    Consistent ctx next := by
  obtain ⟨node, after, hnode, hmoves, rfl⟩ := stepReplica_cases hstep
  exact setReplica_consistent h hnode hmoves (by simp [hasked]) hreceived

omit [Arith α] [LinearOrder α] in
-- A commit of the primary is the next mutation of the history.
theorem commit_consistent {engine after : SearchEngine α} {resyncs : List Resync}
    {mutation : Mutation} {pending : Option PendingWrite} (h : Consistent ctx shard)
    (hserving : shard.primary = .up engine .serving resyncs) (hready : engine.state = .ready)
    (hsound : (Node.up after .serving resyncs).Sound ctx)
    (hstore : after.store = engine.committed mutation (engine.generation + 1))
    (hgeneration : after.generation = engine.generation + 1)
    (hpending : ∀ write, pending = some write →
      write.mutation = mutation ∧ write.generation = after.generation) :
    Consistent ctx { shard with
      primary := .up after .serving resyncs
      history := shard.history ++ [mutation]
      write := pending } := by
  have hprimary := h.primary
  have hresyncs := h.primaryResyncs
  have hexact := h.primarySound
  rw [hserving] at hprimary hresyncs hexact
  have hlength : engine.generation = shard.history.length := by
    rw [(hexact (.inl hready)).generation, show engine.store.database = _ from hprimary,
      Database.replay_generation]
  refine ⟨hsound, hresyncs, ?_, h.sound, fun node hn => (h.replicas node hn).append mutation,
    fun node hn documents generation hh =>
      (h.snapshots node hn documents generation hh).append mutation,
    fun request hr => (h.requests request hr).append mutation, ?_⟩
  · show after.store.database = _
    rw [hstore, Database.replay_append, Database.replay_generation, ← hlength]
    exact congrArg (fun database => Database.apply database mutation _) hprimary
  · intro write hwrite
    obtain ⟨hmutation, hnumber⟩ := hpending write hwrite
    rw [hmutation, hnumber, hgeneration, hlength]
    exact ⟨by omega, by simp⟩

theorem step_consistent {action : ShardAction} (h : Consistent ctx shard)
    (hmoves : shard.Moves ctx action next) : Consistent ctx next := by
  cases hmoves with
  | wrote engine after resyncs mutation faults result record pending idle serving effect recorded
      kept =>
      have hsound := Node.step_sound (.wrote engine after resyncs (mutation.writeAction faults)
        mutation faults result (by cases mutation <;> rfl) effect) (serving ▸ h.primarySound)
      have hpending : ∀ write, pending = some write →
          write.mutation = mutation ∧ write.generation = after.generation := by
        intro write hwrite
        obtain ⟨created, -, hmutation, hnumber, -⟩ := kept write hwrite
        exact ⟨hmutation, hnumber⟩
      cases effect with
      | refused error commit =>
          have hprimary := h.primary
          have hresyncs := h.primaryResyncs
          rw [serving] at hprimary hresyncs
          rw [if_pos rfl] at recorded
          subst recorded
          refine ⟨hsound, hresyncs, hprimary, h.sound, h.replicas, h.snapshots, h.requests, ?_⟩
          intro write hwrite
          obtain ⟨_, hresult, -⟩ := kept write hwrite
          cases hresult
      | degraded reason after ready commit store generation state =>
          rw [if_neg (by omega)] at recorded
          subst recorded
          exact commit_consistent h serving ready hsound store generation hpending
      | applied value after ready commit store generation state exact =>
          rw [if_neg (by omega)] at recorded
          subst recorded
          exact commit_consistent h serving ready hsound store generation hpending
  | sent write pending more =>
      have hnumbered := h.write write pending
      refine { h with requests := ?_, write := ?_ }
      · intro request hrequest
        rcases List.mem_append.mp hrequest with hold | hnew
        · exact h.requests request hold
        · rw [List.mem_singleton.mp hnew]
          exact hnumbered
      · rintro other ⟨⟩
        exact hnumbered
  | delivered index faults request engine after resyncs result answered waiting serving effect told =>
      have hnumbered := h.requests request (List.mem_of_getElem? waiting)
      have hasked := request.asks_applyAction faults
      have hset := setReplica_consistent h serving
        (.replicated engine after resyncs _ _ _ result hasked effect)
        (by
          rw [hasked]
          rintro change carried ⟨⟩
          exact ⟨_, rfl, hnumbered⟩)
        (by
          rintro other documents generation heq
          rw [heq] at hasked
          cases hasked)
      exact ⟨hset.primarySound, hset.primaryResyncs, hset.primary, hset.sound, hset.replicas,
        hset.snapshots, hset.requests, hset.write⟩
  | replied write pending told =>
      refine { h with write := ?_ }
      rintro other ⟨⟩
      exact h.write write pending
  | gaveUp write pending => exact { h with write := by rintro _ ⟨⟩ }
  | acknowledged write pending all => exact { h with write := by rintro _ ⟨⟩ }
  | exported engine resyncs replica index next serving step =>
      refine stepReplica_consistent h step rfl ?_
      intro other documents generation heq
      have hs := h.primarySound
      have hprimary := h.primary
      rw [serving] at hs hprimary
      exact SearchEngine.exportSnapshot_follows (fun hready => hs (.inl hready)) hprimary
        (by injection heq)
  | told engine resyncs replica next serving step =>
      exact stepReplica_consistent h step rfl (by rintro index documents generation ⟨⟩)
  | primary action node pending ownAction moves kept =>
      refine { h with
        primarySound := Node.step_sound moves h.primarySound
        primaryResyncs := ?_
        primary := ?_
        write := ?_ }
      · intro documents generation hholds
        rcases Node.moves_snapshots moves documents generation hholds with hheld | ⟨index, rfl⟩
        · exact h.primaryResyncs documents generation hheld
        · cases ownAction
      · have hmove := Node.moves_database moves h.primarySound
        refine Eq.trans ?_ h.primary
        generalize node.database = database at hmove
        cases hmove with
        | kept => rfl
        | applied change carried asked inLine =>
            rw [asks_of_isLocal ownAction] at asked
            cases asked
        | replaced index fault faults resync documents generation asked held stage =>
            exact absurd ⟨resync, List.mem_of_getElem? held, stage⟩
              (h.primaryResyncs documents generation)
      · rcases kept with rfl | rfl
        · exact h.write
        · rintro _ ⟨⟩
  | replica index action next ownAction step =>
      refine stepReplica_consistent h step (asks_of_isLocal ownAction) ?_
      rintro other documents generation rfl
      cases ownAction

theorem reaches_consistent {replicas : Nat} {cond : Shard α → ShardAction → Prop}
    (h : Run.Reaches (step ctx) cond (initial replicas) shard) : Consistent ctx shard :=
  Run.invariant (fun _ _ _ _ hstep hc => step_consistent hc (step_moves hstep)) h
    (initial_consistent ctx replicas)

def copies (shard : Shard α) : List (Node α) := shard.primary :: shard.replicas

omit [Arith α] [LinearOrder α] in
theorem Consistent.copy {node : Node α} (h : Consistent ctx shard) (hn : node ∈ shard.copies) :
    node.Sound ctx ∧ node.database.Follows shard.history := by
  rcases List.mem_cons.mp hn with rfl | hm
  · exact ⟨h.primarySound, h.primary ▸ Database.replay_follows shard.history⟩
  · exact ⟨h.sound node hm, h.replicas node hm⟩

omit [Arith α] [LinearOrder α] in
-- A copy that is ready holds what the part of the history that it has applied leaves.
theorem ready_copy_rows (hc : Consistent ctx shard) {engine : SearchEngine α} {phase : Phase}
    {resyncs : List Resync} (hcopy : .up engine phase resyncs ∈ shard.copies)
    (hready : engine.state = .ready) (id : String) : engine.derived.documents.get? id =
      (Database.replay (shard.history.take engine.generation.toNat)).rows.get? id := by
  obtain ⟨hsound, hfollows⟩ := hc.copy hcopy
  have hexact := hsound (.inl hready)
  rw [hexact.derived.documents, hexact.generation]
  exact hfollows.rows id

-- The durable state of a copy is a first part of the committed history, and its length is
-- the generation. So ready copies of one generation hold one corpus.
theorem equal_generation_equal_state {replicas : Nat}
    (h : Run.Reaches (step ctx) (fun _ _ => True) (initial replicas) shard) :
    shard.primary.database = .replay shard.history ∧
    (∀ node ∈ shard.replicas,
      node.database.generation ≤ shard.primary.database.generation ∧
      (node.database.documents, node.database.generation) =
        ((Database.replay (shard.history.take node.database.generation.toNat)).documents,
          (Database.replay (shard.history.take node.database.generation.toNat)).generation)) ∧
    ∀ engine phase resyncs other otherPhase otherResyncs,
      .up engine phase resyncs ∈ shard.copies → .up other otherPhase otherResyncs ∈ shard.copies →
      engine.state = .ready → other.state = .ready → engine.generation = other.generation →
      engine.store.database.documents = other.store.database.documents ∧
        engine.SameAnswers ctx other := by
  have hc := reaches_consistent h
  refine ⟨hc.primary, ?_, ?_⟩
  · intro node hnode
    have hfollows := hc.replicas node hnode
    have hwithin := hfollows.within
    have hnonneg := hfollows.nonneg
    have hcount : ((shard.history.take node.database.generation.toNat).length : Int) =
        node.database.generation := by
      rw [List.length_take]
      omega
    rw [hc.primary, Database.replay_generation, Database.replay_generation,
      Database.documents_congr hfollows.rows, hcount]
    exact ⟨hwithin, rfl⟩
  · intro engine phase resyncs other otherPhase otherResyncs hengine hother hready hotherReady hgen
    obtain ⟨hsound, hfollows⟩ := hc.copy hengine
    obtain ⟨hotherSound, hotherFollows⟩ := hc.copy hother
    have hexact := hsound (.inl hready)
    have hotherExact := hotherSound (.inl hotherReady)
    have hrows : ∀ id, engine.store.database.rows.get? id = other.store.database.rows.get? id := by
      intro id
      have hmine := hfollows.rows id
      have htheirs := hotherFollows.rows id
      simp only [Node.database_up] at hmine htheirs
      rw [hmine, htheirs, ← hexact.generation, ← hotherExact.generation, hgen]
    exact ⟨Database.documents_congr hrows, SearchEngine.sameAnswers (hexact.derived.congr hrows)
      hotherExact.derived hready hotherReady⟩

section OneReplica

variable {check : SearchEngine α → Bool}

omit [Arith α] [LinearOrder α]

-- There is one replica, its process runs, and its engine passes the check.
def onlyReplica (shard : Shard α) (check : SearchEngine α → Bool) : Bool :=
  decide (shard.replicas.length = 1) && shard.replicas.all (Node.runs check)

theorem onlyReplica_iff : shard.onlyReplica check = true ↔
    ∃ engine phase resyncs, shard.replicas = [.up engine phase resyncs] ∧ check engine = true := by
  rw [onlyReplica, Bool.and_eq_true, decide_eq_true_iff]
  constructor
  · rintro ⟨hlength, hall⟩
    obtain ⟨node, hnode⟩ := List.length_eq_one_iff.mp hlength
    rw [hnode, List.all_cons, List.all_nil, Bool.and_true] at hall
    obtain ⟨engine, phase, resyncs, rfl, hcheck⟩ := Node.runs_iff.mp hall
    exact ⟨engine, phase, resyncs, hnode, hcheck⟩
  · rintro ⟨engine, phase, resyncs, hreplicas, hcheck⟩
    simp [hreplicas, Node.runs, hcheck]

end OneReplica

section Example

attribute [local instance] rationalArith

-- Start the primary and one replica on their databases.
def startActions : List ShardAction :=
  [.primary .start, .primary (.initializeEngine .none), .replica 0 .start,
    .replica 0 (.initializeEngine .none), .replica 0 .synchronize, .tell 0, .replica 0 .compare]

-- A write that reaches the replica as the given request and is acknowledged.
def acknowledgedWrite (mutation : Mutation) (request : Nat) : List ShardAction :=
  [.write mutation .none, .send, .deliver request .none, .reply, .acknowledge]

theorem acknowledgedWrite_equal_state :
    let ctx : EngineContext ℚ := ⟨.ascii, defaultBM25Params, some .constant⟩
    ∃ shard : Shard ℚ,
      Run.exec (step ctx) (initial 1)
        (startActions ++ acknowledgedWrite (.put redFox) 0) = some shard ∧
      ∃ engine phase resyncs other otherPhase otherResyncs,
        shard.primary = .up engine phase resyncs ∧
        shard.replicas = [.up other otherPhase otherResyncs] ∧
        engine.state = .ready ∧ other.state = .ready ∧ engine.generation = 1 ∧
        engine.generation = other.generation ∧ engine.SameAnswers ctx other := by
  intro ctx
  have hrun : (Run.exec (step ctx) (initial 1)
      (startActions ++ acknowledgedWrite (.put redFox) 0)).map (fun shard =>
        shard.primary.runs (fun engine => decide (engine.state = .ready ∧ engine.generation = 1)) &&
          shard.onlyReplica fun other => decide (other.state = .ready ∧ other.generation = 1)) =
        some true := by decide +kernel
  obtain ⟨shard, hexec, hcheck⟩ := Option.map_eq_some_iff.mp hrun
  refine ⟨shard, hexec, ?_⟩
  obtain ⟨hfirst, hsecond⟩ := Bool.and_eq_true_iff.mp hcheck
  obtain ⟨engine, phase, resyncs, hprimary, hengine⟩ := Node.runs_iff.mp hfirst
  obtain ⟨other, otherPhase, otherResyncs, hreplicas, hother⟩ := onlyReplica_iff.mp hsecond
  obtain ⟨hready, hone⟩ := of_decide_eq_true hengine
  obtain ⟨hotherReady, hotherOne⟩ := of_decide_eq_true hother
  have hgen : engine.generation = other.generation := hone.trans hotherOne.symm
  refine ⟨engine, phase, resyncs, other, otherPhase, otherResyncs, hprimary, hreplicas, hready,
    hotherReady, hone, hgen, ?_⟩
  exact ((equal_generation_equal_state ⟨_, hexec, Run.along_true _ _⟩).2.2 engine phase resyncs
    other otherPhase otherResyncs (by simp [copies, hprimary]) (by simp [copies, hreplicas])
    hready hotherReady hgen).2

end Example

end Shard

end PySearch
