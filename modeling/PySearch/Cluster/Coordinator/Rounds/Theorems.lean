import PySearch.Cluster.Coordinator.Rounds
import PySearch.Cluster.Coordinator.Theorems
import PySearch.Cluster.Replication.History
import PySearch.Search.Engine.Recovery

namespace PySearch

namespace Database

-- Every stored document stems from a mutation of its identifier.
theorem replay_mem {history : List Mutation} {id : String} {document : Document}
    (h : (replay history).rows.get? id = some document) :
    ∃ mutation ∈ history, mutation.documentId = id := by
  induction history using List.reverseRecOn with
  | nil => cases h
  | append_singleton history mutation ih =>
      rw [replay_append, apply_get?] at h
      split at h
      · rename_i hid
        exact ⟨mutation, by simp, hid.symm⟩
      · obtain ⟨earlier, hm, hearlier⟩ := ih h
        exact ⟨earlier, by simp [hm], hearlier⟩

-- The listed documents determine what is found under every identifier.
theorem rows_of_documents {database other : Database}
    (h : database.documents = other.documents) (id : String) :
    database.rows.get? id = other.rows.get? id := by
  rw [← insertAll_documents, ← insertAll_documents, h]

end Database

variable {α : Type}

namespace LiveCluster

def databaseAt (cluster : LiveCluster α) (shardId copy : Nat) : Database :=
  match cluster.copyAt shardId copy with
  | none => .empty
  | some node => node.database

-- The copies that have answered the first round and not the second.
def pins (cluster : LiveCluster α) : List (Nat × Pin) :=
  match cluster.operation with
  | some (.collecting _ _ slots) => slots.zipIdx.filterMap fun
      | (.finished (.ok pin), shardId) => some (shardId, pin)
      | _ => none
  | some (.scoring _ _ _ slots) => slots.zipIdx.filterMap fun
      | (⟨pin, none⟩, shardId) => some (shardId, pin)
      | _ => none
  | _ => []

theorem mem_pins_collecting {cluster : LiveCluster α} {query : String} {limit : Int}
    {slots : List RoundOne} (h : cluster.operation = some (.collecting query limit slots))
    {shardId : Nat} {pin : Pin} (hget : slots[shardId]? = some (.finished (.ok pin))) :
    (shardId, pin) ∈ cluster.pins := by
  rw [pins, h]
  exact List.mem_filterMap.mpr ⟨_, List.mk_mem_zipIdx_iff_getElem?.mpr hget, rfl⟩

theorem mem_pins_scoring {cluster : LiveCluster α} {query : String} {limit : Int}
    {corpusStats : CorpusStats} {slots : List (RoundTwo α)}
    (h : cluster.operation = some (.scoring query limit corpusStats slots)) {shardId : Nat}
    {pin : Pin} (hget : slots[shardId]? = some ⟨pin, none⟩) : (shardId, pin) ∈ cluster.pins := by
  rw [pins, h]
  exact List.mem_filterMap.mpr ⟨_, List.mk_mem_zipIdx_iff_getElem?.mpr hget, rfl⟩

variable [Arith α] [LinearOrder α] (ctx : EngineContext α)

-- The step leaves the documents of every pinned copy alone.
def undisturbed (cluster : LiveCluster α) (action : LiveAction) : Bool :=
  match cluster.step ctx action with
  | none => true
  | some next => cluster.pins.all fun entry =>
      (next.databaseAt entry.1 entry.2.copy).documents =
        (cluster.databaseAt entry.1 entry.2.copy).documents

-- One engine that indexes the documents of the given databases and no others.
def singleEngine (databases : List Database) : SearchEngine α :=
  SearchEngine.indexAll ctx (databases.flatMap fun database => database.rows.values)

-- What was recorded with a pin: statistics of the documents of one shard.
structure PinOk (router : ShardRouter) (query : String) (shardId : Nat) (pin : Pin) : Prop where
  stats : pin.stats = ctx.statistics pin.seen.rows
    (Coordinator.uniqueTerms (Analysis.analyze ctx.unicode query))
  owned : ∀ id document, pin.seen.rows.get? id = some document → router.shardFor id = shardId

-- A search under way has read every pinned copy in the state that the copy is still in.
def OperationOk (cluster : LiveCluster α) : Option (Operation α) → Prop
  | some (.collecting query _ slots) =>
      Analysis.analyze ctx.unicode query ≠ [] ∧ slots.length = cluster.shards.length ∧
      ∀ (shardId : Nat) pin, slots[shardId]? = some (.finished (.ok pin)) →
        PinOk ctx cluster.router query shardId pin ∧
        (cluster.databaseAt shardId pin.copy).documents = pin.seen.documents
  | some (.scoring query limit corpusStats slots) =>
      Analysis.analyze ctx.unicode query ≠ [] ∧ slots.length = cluster.shards.length ∧
      corpusStats = mergeCorpusStats (slots.map fun slot => slot.pin.stats) ∧
      ∀ (shardId : Nat) slot, slots[shardId]? = some slot →
        PinOk ctx cluster.router query shardId slot.pin ∧
        (slot.answer = none →
          (cluster.databaseAt shardId slot.pin.copy).documents = slot.pin.seen.documents) ∧
        ∀ results, slot.answer = some (.ok results) → 1 ≤ limit ∧ results = answer
          (ctx.lexicalHits slot.pin.seen.rows (Analysis.analyze ctx.unicode query) corpusStats)
          limit
  | _ => True

-- A search that has returned normally ranks one state of each of so many shards.
def ReturnedOk (shardCount : Nat) (entry : Returned α) : Prop :=
  ∀ results, entry.result = .ok results → entry.seen.length = shardCount ∧
    (singleEngine ctx entry.seen).search ctx entry.query entry.limit none = .ok results

structure Invariant (cluster : LiveCluster α) : Prop where
  shards : ∀ (shardId : Nat) shard, cluster.shards[shardId]? = some shard →
    shard.Consistent ctx ∧
      ∀ mutation ∈ shard.history, cluster.router.shardFor mutation.documentId = shardId
  operation : OperationOk ctx cluster cluster.operation
  returned : ∀ entry ∈ cluster.returned, ReturnedOk ctx cluster.shards.length entry

variable {ctx} {cluster next : LiveCluster α}

section Single

variable {router : ShardRouter} {databases : List Database}

omit [Arith α] [LinearOrder α] in
theorem partition_of_owned
    (h : ∀ (shardId : Nat) database, databases[shardId]? = some database →
      ∀ id document, database.rows.get? id = some document → router.shardFor id = shardId) :
    Partition (databases.map Database.rows)
      (Database.insertAll (databases.flatMap fun database => database.rows.values)) := by
  rw [← List.flatMap_map]
  apply partition_insertAll
  · intro rows hrows
    obtain ⟨database, -, rfl⟩ := List.mem_map.mp hrows
    exact database.keyed
  · rw [List.pairwise_iff_getElem]
    intro i j hi hj hij id hfirst
    rw [List.length_map] at hi hj
    simp only [List.getElem_map] at hfirst ⊢
    by_contra hnot
    obtain ⟨document, hdocument⟩ := Option.isSome_iff_exists.mp hfirst
    obtain ⟨other, hother⟩ := Option.isSome_iff_exists.mp (eq_true_of_ne_false hnot)
    have hi' := h i _ (List.getElem?_eq_getElem hi) id document hdocument
    have hj' := h j _ (List.getElem?_eq_getElem hj) id other hother
    omega

theorem singleEngine_search (hc : ctx.Contract) (databases : List Database) {query : String}
    (hterms : Analysis.analyze ctx.unicode query ≠ []) (limit : Int) :
    let whole := Database.insertAll (databases.flatMap fun database => database.rows.values)
    (singleEngine ctx databases).search ctx query limit none =
      .ok (answer (ctx.lexicalHits whole (Analysis.analyze ctx.unicode query)
        (ctx.statistics whole (Analysis.analyze ctx.unicode query))) limit) := by
  intro whole
  obtain ⟨hhealthy, hrows⟩ := SearchEngine.indexAll_healthy hc
    (databases.flatMap fun database => database.rows.values)
  have hexact := hhealthy.exact.derived
  rw [hrows] at hexact
  rw [SearchEngine.search, singleEngine, SearchEngine.requireOperational_of_ready hhealthy.ready]
  exact SearchEngine.searchLocked_eq hexact hterms limit none

end Single

section Copies

-- A copy is sound, and holds documents of its own shard only.
theorem copyAt_owned (h : Invariant ctx cluster) {shardId copy : Nat} {node : Node α}
    (hcopy : cluster.copyAt shardId copy = some node) : node.Sound ctx ∧
      ∀ id document, node.database.rows.get? id = some document →
        cluster.router.shardFor id = shardId := by
  obtain ⟨shard, hshard, hget⟩ := Option.bind_eq_some_iff.mp hcopy
  obtain ⟨hconsistent, howned⟩ := h.shards shardId shard hshard
  obtain ⟨hsound, hfollows⟩ := hconsistent.copy (List.mem_of_getElem? hget)
  refine ⟨hsound, fun id document hfound => ?_⟩
  rw [hfollows.rows] at hfound
  obtain ⟨mutation, hm, hid⟩ := Database.replay_mem hfound
  rw [← hid]
  exact howned mutation (List.mem_of_mem_take hm)

theorem askCopy_pin (h : Invariant ctx cluster) {query : String} {shardId copy : Nat}
    {settings : NodeSettings} {failure : Option TransportFailure} {pin : Pin}
    (hask : cluster.askCopy ctx (Coordinator.uniqueTerms (Analysis.analyze ctx.unicode query))
      shardId copy settings failure = .finished (.ok pin)) :
    PinOk ctx cluster.router query shardId pin ∧
      (cluster.databaseAt shardId pin.copy).documents = pin.seen.documents := by
  unfold askCopy at hask
  split at hask
  · cases hask
  · rename_i node hnode
    obtain ⟨hsound, howned⟩ := copyAt_owned h hnode
    split at hask
    · rename_i stats hstats
      cases hask
      refine ⟨⟨((Node.corpusStats_ok_iff hsound).mp hstats).2.2, howned⟩, ?_⟩
      simp only [databaseAt, hnode]
    · split at hask <;> cases hask

theorem scoreCopy_ok (h : Invariant ctx cluster) {query : String} {limit : Int}
    {corpusStats : CorpusStats} {shardId : Nat} {pin : Pin} {settings : NodeSettings}
    {failure : Option TransportFailure} {results : SearchResults α}
    (hkept : (cluster.databaseAt shardId pin.copy).documents = pin.seen.documents)
    (hscore : cluster.scoreCopy ctx query limit corpusStats shardId pin settings failure =
      .ok results) :
    1 ≤ limit ∧ results = answer (ctx.lexicalHits pin.seen.rows
      (Analysis.analyze ctx.unicode query) corpusStats) limit := by
  unfold scoreCopy at hscore
  split at hscore
  · cases hscore
  · rename_i node hnode
    obtain ⟨hsound, -⟩ := copyAt_owned h hnode
    obtain ⟨hlimit, hresults⟩ := Node.search_ok hsound hscore
    simp only [databaseAt, hnode] at hkept
    exact ⟨hlimit, hresults.trans
      (lexicalHits_rows (Database.rows_of_documents hkept) _ corpusStats limit)⟩

end Copies

section Shards

theorem stepShard_cases {shardId : Nat} {action : ShardAction}
    (h : cluster.stepShard ctx shardId action = some next) :
    ∃ shard after, cluster.shards[shardId]? = some shard ∧ shard.Moves ctx action after ∧
      next = cluster.setShard shardId after := by
  obtain ⟨shard, hshard, hrest⟩ := Option.bind_eq_some_iff.mp h
  obtain ⟨after, hafter, hreturn⟩ := Option.bind_eq_some_iff.mp hrest
  exact ⟨shard, after, hshard, Shard.step_moves hafter, (Option.some.inj hreturn).symm⟩

-- A step of one shard keeps all of them on histories of their own documents.
theorem stepShard_shards (h : Invariant ctx cluster) {shardId : Nat} {action : ShardAction}
    (hstep : cluster.stepShard ctx shardId action = some next)
    (howner : ∀ mutation faults, action = .write mutation faults →
      cluster.router.shardFor mutation.documentId = shardId) :
    ∀ (index : Nat) shard, next.shards[index]? = some shard → shard.Consistent ctx ∧
      ∀ mutation ∈ shard.history, next.router.shardFor mutation.documentId = index := by
  obtain ⟨shard, after, hshard, hmoves, rfl⟩ := stepShard_cases hstep
  intro index other hother
  obtain ⟨hconsistent, howned⟩ := h.shards shardId shard hshard
  simp only [setShard, List.getElem?_set] at hother
  split at hother
  · rename_i hindex
    split at hother
    · cases hother
      subst hindex
      refine ⟨Shard.step_consistent hconsistent hmoves, ?_⟩
      rcases Shard.moves_history hmoves with hsame | ⟨mutation, faults, haction, hnew⟩
      · rw [hsame]
        exact howned
      · intro other hm
        rw [hnew] at hm
        rcases List.mem_append.mp hm with hold | hlast
        · exact howned other hold
        · rw [List.mem_singleton.mp hlast]
          exact howner mutation faults haction
    · cases hother
  · exact h.shards index other hother

-- A search under way only minds the documents of its pinned copies.
theorem operationOk_frame (hrouter : next.router = cluster.router)
    (hlength : next.shards.length = cluster.shards.length)
    (hpins : ∀ entry ∈ cluster.pins, (next.databaseAt entry.1 entry.2.copy).documents =
      (cluster.databaseAt entry.1 entry.2.copy).documents)
    (h : OperationOk ctx cluster cluster.operation) : OperationOk ctx next cluster.operation := by
  cases hoperation : cluster.operation with
  | none => trivial
  | some operation =>
      rw [hoperation] at h
      cases operation with
      | other => trivial
      | collecting query limit slots =>
          obtain ⟨hterms, hslots, hpinned⟩ := h
          refine ⟨hterms, hslots.trans hlength.symm, fun shardId pin hget => ?_⟩
          obtain ⟨hok, hkept⟩ := hpinned shardId pin hget
          rw [hrouter]
          exact ⟨hok, (hpins _ (mem_pins_collecting hoperation hget)).trans hkept⟩
      | scoring query limit corpusStats slots =>
          obtain ⟨hterms, hslots, hmerged, hpinned⟩ := h
          refine ⟨hterms, hslots.trans hlength.symm, hmerged, fun shardId slot hget => ?_⟩
          obtain ⟨hok, hkept, hanswered⟩ := hpinned shardId slot hget
          rw [hrouter]
          refine ⟨hok, fun hnone => ?_, hanswered⟩
          obtain ⟨pin, result⟩ := slot
          cases hnone
          exact (hpins _ (mem_pins_scoring hoperation hget)).trans (hkept rfl)

theorem stepShard_invariant (h : Invariant ctx cluster) {shardId : Nat} {action : ShardAction}
    (hstep : cluster.stepShard ctx shardId action = some next)
    (howner : ∀ mutation faults, action = .write mutation faults →
      cluster.router.shardFor mutation.documentId = shardId)
    (hpins : ∀ entry ∈ cluster.pins, (next.databaseAt entry.1 entry.2.copy).documents =
      (cluster.databaseAt entry.1 entry.2.copy).documents) : Invariant ctx next := by
  have hshards := stepShard_shards h hstep howner
  obtain ⟨shard, after, -, -, rfl⟩ := stepShard_cases hstep
  have hlength : (cluster.setShard shardId after).shards.length = cluster.shards.length := by
    simp [setShard]
  have hkept := @operationOk_frame _ _ _ ctx cluster (cluster.setShard shardId after) rfl hlength
    hpins h.operation
  refine ⟨hshards, hkept, ?_⟩
  rw [hlength]
  exact h.returned

end Shards

section Searches

omit [Arith α] [LinearOrder α] in
theorem mapM_some {ι β : Type} {f : ι → Option β} {items : List ι} {values : List β}
    (h : items.mapM f = some values) : items.map f = values.map some := by
  induction items generalizing values with
  | nil =>
      cases h
      rfl
  | cons item rest ih =>
      rw [List.mapM_cons] at h
      obtain ⟨value, hvalue, hrest⟩ := Option.bind_eq_some_iff.mp h
      obtain ⟨others, hothers, hreturn⟩ := Option.bind_eq_some_iff.mp hrest
      cases hreturn
      rw [List.map_cons, List.map_cons, hvalue, ih hothers]

omit [Arith α] [LinearOrder α] in
-- All shards have finished the first round, and every one of them with a pin.
theorem pins_of_gather {slots : List RoundOne} {outcomes : List (Except PyError Pin)}
    {pins : List Pin} {action : String} (hfinished : slots.mapM RoundOne.outcome = some outcomes)
    (hgather : Coordinator.gather action outcomes = .ok pins) :
    slots = pins.map fun pin => .finished (.ok pin) := by
  have hmap := mapM_some hfinished
  rw [Coordinator.gather_ok_iff.mp hgather, List.map_map] at hmap
  clear hfinished hgather
  induction slots generalizing pins with
  | nil =>
      cases pins with
      | nil => rfl
      | cons pin rest => cases hmap
  | cons slot slots ih =>
      cases pins with
      | nil => cases hmap
      | cons pin rest =>
          obtain ⟨hslot, hslots⟩ := List.cons.inj hmap
          rw [List.map_cons, ← ih hslots]
          cases slot with
          | asking copy => cases hslot
          | finished outcome =>
              cases hslot
              rfl

variable {query : String} {limit : Int}

omit [Arith α] [LinearOrder α] in
theorem statistics_of_pins {router : ShardRouter} {pins : List Pin}
    (h : ∀ (shardId : Nat) pin, pins[shardId]? = some pin → PinOk ctx router query shardId pin) :
    pins.map Pin.stats = ((pins.map Pin.seen).map Database.rows).map fun rows =>
      ctx.statistics rows (Coordinator.uniqueTerms (Analysis.analyze ctx.unicode query)) := by
  rw [List.map_map, List.map_map]
  apply List.map_congr_left
  intro pin hm
  obtain ⟨shardId, hget⟩ := List.mem_iff_getElem?.mp hm
  exact (h shardId pin hget).stats

omit [Arith α] [LinearOrder α] in
theorem partition_of_pins {router : ShardRouter} {pins : List Pin}
    (h : ∀ (shardId : Nat) pin, pins[shardId]? = some pin → PinOk ctx router query shardId pin) :
    Partition ((pins.map Pin.seen).map Database.rows) (Database.insertAll
      ((pins.map Pin.seen).flatMap fun database => database.rows.values)) := by
  apply @partition_of_owned router
  intro shardId database hget
  rw [List.getElem?_map, Option.map_eq_some_iff] at hget
  obtain ⟨pin, hpin, rfl⟩ := hget
  exact (h shardId pin hpin).owned

-- Nothing was found because no pinned copy held anything.
theorem returnedOk_of_empty (hc : ctx.Contract) {router : ShardRouter} {pins : List Pin}
    (hterms : Analysis.analyze ctx.unicode query ≠ [])
    (hpins : ∀ (shardId : Nat) pin, pins[shardId]? = some pin →
      PinOk ctx router query shardId pin)
    (hzero : (mergeCorpusStats (pins.map Pin.stats)).documentCount = 0) :
    ReturnedOk ctx pins.length ⟨query, limit, pins.map Pin.seen, .ok ⟨0, []⟩⟩ := by
  intro results hresults
  cases hresults
  refine ⟨List.length_map _, ?_⟩
  rw [statistics_of_pins hpins] at hzero
  rw [singleEngine_search hc _ hterms, Coordinator.answer_of_empty (partition_of_pins hpins) hzero]

-- The answers of the second round rank what the first round has counted.
theorem returnedOk_of_scores (hc : ctx.Contract) {router : ShardRouter} {pins : List Pin}
    (hterms : Analysis.analyze ctx.unicode query ≠ []) (hlimit : 1 ≤ limit)
    (hpins : ∀ (shardId : Nat) pin, pins[shardId]? = some pin →
      PinOk ctx router query shardId pin) {corpusStats : CorpusStats}
    (hmerged : corpusStats = mergeCorpusStats (pins.map Pin.stats)) :
    ReturnedOk ctx pins.length ⟨query, limit, pins.map Pin.seen, .ok (Coordinator.merge
      (pins.map fun pin => answer (ctx.lexicalHits pin.seen.rows
        (Analysis.analyze ctx.unicode query) corpusStats) limit) limit)⟩ := by
  intro results hresults
  cases hresults
  refine ⟨List.length_map _, ?_⟩
  rw [statistics_of_pins hpins] at hmerged
  have hrounds := Coordinator.merge_rounds (partition_of_pins hpins)
    (show 0 ≤ limit by omega) hmerged
  rw [List.map_map, List.map_map] at hrounds
  rw [singleEngine_search hc _ hterms, ← hrounds]
  rfl

omit [Arith α] [LinearOrder α] in
theorem answers_of_gather {slots : List (RoundTwo α)}
    {outcomes : List (Except PyError (SearchResults α))} {results : List (SearchResults α)}
    {action : String} (hfinished : slots.mapM RoundTwo.answer = some outcomes)
    (hgather : Coordinator.gather action outcomes = .ok results) :
    slots.map RoundTwo.answer = results.map fun result => some (.ok result) := by
  rw [mapM_some hfinished, Coordinator.gather_ok_iff.mp hgather, List.map_map]
  rfl

omit [Arith α] [LinearOrder α] in
-- Every pinned copy has answered, so the collected answers are the answers of the copies.
theorem scored_of_answers {slots : List (RoundTwo α)} {results : List (SearchResults α)}
    {value : RoundTwo α → SearchResults α}
    (h : slots.map RoundTwo.answer = results.map fun result => some (.ok result))
    (hslots : ∀ (shardId : Nat) slot, slots[shardId]? = some slot →
      ∀ results, slot.answer = some (.ok results) → 1 ≤ limit ∧ results = value slot) :
    (slots ≠ [] → 1 ≤ limit) ∧ results = slots.map value := by
  have hget : ∀ (shardId : Nat) slot, slots[shardId]? = some slot →
      ∃ result, results[shardId]? = some result ∧ slot.answer = some (.ok result) := by
    intro shardId slot hslot
    have hentry := congrArg (fun answers => answers[shardId]?) h
    simp only [List.getElem?_map, hslot, Option.map_some] at hentry
    obtain ⟨result, hresult, hanswer⟩ := Option.map_eq_some_iff.mp hentry.symm
    exact ⟨result, hresult, hanswer.symm⟩
  constructor
  · intro hne
    obtain ⟨slot, rest, rfl⟩ := List.exists_cons_of_ne_nil hne
    obtain ⟨result, -, hanswer⟩ := hget 0 slot rfl
    exact (hslots 0 slot rfl result hanswer).1
  · apply List.ext_getElem?
    intro shardId
    rw [List.getElem?_map]
    cases hslot : slots[shardId]? with
    | none =>
        have hlength := congrArg List.length h
        rw [List.length_map, List.length_map] at hlength
        rw [List.getElem?_eq_none_iff] at hslot
        exact List.getElem?_eq_none_iff.mpr (by omega)
    | some slot =>
        obtain ⟨result, hresult, hanswer⟩ := hget shardId slot hslot
        rw [hresult, (hslots shardId slot hslot result hanswer).2]
        rfl

theorem fanOut_invariant (hc : ctx.Contract) (h : Invariant ctx cluster)
    (hstep : cluster.step ctx .fanOut = some next) : Invariant ctx next := by
  simp only [step] at hstep
  split at hstep
  · rename_i query limit slots hoperation
    have hok := h.operation
    rw [hoperation] at hok
    obtain ⟨hterms, hslots, hpinned⟩ := hok
    split at hstep
    · cases hstep
    · rename_i outcomes hfinished
      split at hstep
      · cases hstep
        refine ⟨h.shards, trivial, ?_⟩
        intro entry hm
        rcases List.mem_cons.mp hm with rfl | hold
        · rintro results ⟨⟩
        · exact h.returned entry hold
      · rename_i pins hgather
        obtain rfl := pins_of_gather hfinished hgather
        have hpins : ∀ (shardId : Nat) pin, pins[shardId]? = some pin →
            PinOk ctx cluster.router query shardId pin ∧
              (cluster.databaseAt shardId pin.copy).documents = pin.seen.documents := by
          intro shardId pin hget
          exact hpinned shardId pin (by rw [List.getElem?_map, hget]; rfl)
        split at hstep
        · rename_i hzero
          cases hstep
          refine ⟨h.shards, trivial, ?_⟩
          intro entry hm
          rcases List.mem_cons.mp hm with rfl | hold
          · have hreturned := @returnedOk_of_empty _ _ _ ctx query limit hc cluster.router pins hterms
              (fun shardId pin hget => (hpins shardId pin hget).1) hzero
            rw [List.length_map] at hslots
            rwa [hslots] at hreturned
          · exact h.returned entry hold
        · cases hstep
          refine ⟨h.shards, ⟨hterms, by simpa using hslots, ?_, ?_⟩, h.returned⟩
          · rw [List.map_map]
            rfl
          · intro shardId slot hget
            rw [List.getElem?_map, Option.map_eq_some_iff] at hget
            obtain ⟨pin, hpin, rfl⟩ := hget
            obtain ⟨hpinOk, hkept⟩ := hpins shardId pin hpin
            exact ⟨hpinOk, fun _ => hkept, by rintro results ⟨⟩⟩
  · cases hstep

theorem finish_invariant (hc : ctx.Contract) (h : Invariant ctx cluster)
    (hstep : cluster.step ctx .finish = some next) : Invariant ctx next := by
  simp only [step] at hstep
  split at hstep
  · rename_i query limit corpusStats slots hoperation
    have hok := h.operation
    rw [hoperation] at hok
    obtain ⟨hterms, hslots, hmerged, hpinned⟩ := hok
    split at hstep
    · cases hstep
    · rename_i outcomes hfinished
      split at hstep
      · cases hstep
        refine ⟨h.shards, trivial, ?_⟩
        intro entry hm
        rcases List.mem_cons.mp hm with rfl | hold
        · rintro results ⟨⟩
        · exact h.returned entry hold
      · rename_i results hgather
        cases hstep
        refine ⟨h.shards, trivial, ?_⟩
        intro entry hm
        rcases List.mem_cons.mp hm with rfl | hold
        · have hpins : ∀ (shardId : Nat) pin, (slots.map RoundTwo.pin)[shardId]? = some pin →
              PinOk ctx cluster.router query shardId pin := by
            intro shardId pin hget
            rw [List.getElem?_map, Option.map_eq_some_iff] at hget
            obtain ⟨slot, hslot, rfl⟩ := hget
            exact (hpinned shardId slot hslot).1
          have hscored := scored_of_answers (answers_of_gather hfinished hgather)
            fun shardId slot hget => (hpinned shardId slot hget).2.2
          have hlimit := hscored.1 (by
            intro hnil
            have hpositive := cluster.router.positive
            rw [hnil, cluster.matched, List.length_nil] at hslots
            omega)
          rw [hscored.2]
          have hreturned := @returnedOk_of_scores _ _ _ ctx query limit hc cluster.router
            (slots.map RoundTwo.pin) hterms hlimit hpins corpusStats
            (by rw [hmerged, List.map_map]; rfl)
          rw [List.map_map, List.map_map, List.length_map, hslots] at hreturned
          exact hreturned
        · exact h.returned entry hold
  · cases hstep

theorem search_invariant (hc : ctx.Contract) (h : Invariant ctx cluster)
    (hstep : cluster.step ctx (.search query limit) = some next) : Invariant ctx next := by
  simp only [step] at hstep
  split at hstep
  · rename_i hterms
    cases hstep
    refine ⟨h.shards, h.operation, ?_⟩
    intro entry hm
    rcases List.mem_cons.mp hm with rfl | hold
    · rintro results ⟨⟩
      refine ⟨List.length_map _, ?_⟩
      obtain ⟨hhealthy, -⟩ := SearchEngine.indexAll_healthy hc
        ((cluster.shards.map fun shard => shard.primary.database).flatMap
          fun database => database.rows.values)
      rw [singleEngine, SearchEngine.search,
        SearchEngine.requireOperational_of_ready hhealthy.ready]
      exact if_pos hterms
    · exact h.returned entry hold
  · rename_i hterms
    split at hstep
    · cases hstep
      refine ⟨h.shards, ⟨hterms, List.length_replicate, ?_⟩, h.returned⟩
      intro shardId pin hget
      cases List.eq_of_mem_replicate (List.mem_of_getElem? hget)
    · cases hstep

theorem ask_invariant (h : Invariant ctx cluster) {shardId : Nat} {settings : NodeSettings}
    {failure : Option TransportFailure}
    (hstep : cluster.step ctx (.ask shardId settings failure) = some next) :
    Invariant ctx next := by
  simp only [step] at hstep
  split at hstep
  · rename_i query limit slots hoperation
    have hok := h.operation
    rw [hoperation] at hok
    obtain ⟨hterms, hslots, hpinned⟩ := hok
    split at hstep
    · rename_i copy hasking
      cases hstep
      refine ⟨h.shards, ⟨hterms, by simpa using hslots, ?_⟩, h.returned⟩
      intro index pin hget
      rw [List.getElem?_set] at hget
      split at hget
      · rename_i hindex
        subst hindex
        split at hget
        · exact askCopy_pin h (Option.some.inj hget)
        · cases hget
      · exact hpinned index pin hget
    · cases hstep
  · cases hstep

theorem score_invariant (h : Invariant ctx cluster) {shardId : Nat} {settings : NodeSettings}
    {failure : Option TransportFailure}
    (hstep : cluster.step ctx (.score shardId settings failure) = some next) :
    Invariant ctx next := by
  simp only [step] at hstep
  split at hstep
  · rename_i query limit corpusStats slots hoperation
    have hok := h.operation
    rw [hoperation] at hok
    obtain ⟨hterms, hslots, hmerged, hpinned⟩ := hok
    split at hstep
    · rename_i pin hwaiting
      cases hstep
      have hsame : (slots.set shardId ⟨pin, some (cluster.scoreCopy ctx query limit corpusStats
          shardId pin settings failure)⟩).map (fun slot => slot.pin.stats) =
          slots.map fun slot => slot.pin.stats := by
        apply List.ext_getElem?
        intro index
        rw [List.getElem?_map, List.getElem?_map, List.getElem?_set]
        split
        · rename_i hindex
          rw [← hindex, hwaiting]
          split
          · rfl
          · rename_i hout
            exact absurd (List.getElem?_eq_some_iff.mp hwaiting).1 hout
        · rfl
      refine ⟨h.shards, ⟨hterms, by simpa using hslots, by rw [hsame]; exact hmerged, ?_⟩,
        h.returned⟩
      intro index slot hget
      rw [List.getElem?_set] at hget
      split at hget
      · rename_i hindex
        subst hindex
        split at hget
        · cases hget
          obtain ⟨hpinOk, hkept, -⟩ := hpinned shardId _ hwaiting
          refine ⟨hpinOk, by rintro ⟨⟩, ?_⟩
          intro results hresults
          exact scoreCopy_ok h (hkept rfl) (Option.some.inj hresults)
        · cases hget
      · exact hpinned index slot hget
    · cases hstep
  · cases hstep

end Searches

theorem step_invariant (hc : ctx.Contract) {action : LiveAction}
    (hcond : cluster.undisturbed ctx action = true) (hstep : cluster.step ctx action = some next)
    (h : Invariant ctx cluster) : Invariant ctx next := by
  have hpins : ∀ entry ∈ cluster.pins, (next.databaseAt entry.1 entry.2.copy).documents =
      (cluster.databaseAt entry.1 entry.2.copy).documents := by
    rw [undisturbed, hstep] at hcond
    intro entry hm
    exact of_decide_eq_true (List.all_eq_true.mp hcond entry hm)
  cases action with
  | submit mutation =>
      simp only [step] at hstep
      split at hstep <;> cases hstep
      exact ⟨h.shards, trivial, h.returned⟩
  | execute index faults =>
      simp only [step] at hstep
      split at hstep
      · rename_i mutation hflight
        obtain ⟨after, hafter, rfl⟩ := Option.map_eq_some_iff.mp hstep
        have hinv := stepShard_invariant h hafter (by rintro _ _ ⟨⟩; rfl) hpins
        exact ⟨hinv.shards, hinv.operation, hinv.returned⟩
      · cases hstep
  | hold =>
      simp only [step] at hstep
      split at hstep <;> cases hstep
      exact ⟨h.shards, trivial, h.returned⟩
  | release =>
      simp only [step] at hstep
      split at hstep <;> cases hstep
      exact ⟨h.shards, trivial, h.returned⟩
  | search query limit => exact search_invariant hc h hstep
  | ask shardId settings failure => exact ask_invariant h hstep
  | fanOut => exact fanOut_invariant hc h hstep
  | score shardId settings failure => exact score_invariant h hstep
  | finish => exact finish_invariant hc h hstep
  | shard shardId action =>
      simp only [step] at hstep
      split at hstep
      · cases hstep
      · rename_i hwrite
        exact stepShard_invariant h hstep
          (by rintro mutation faults rfl; exact absurd rfl hwrite) hpins

theorem start_invariant (router : ShardRouter) (replicas : Nat → Nat) :
    Invariant ctx (start router replicas : LiveCluster α) := by
  refine ⟨?_, trivial, fun _ hm => nomatch hm⟩
  intro shardId shard hget
  simp only [start, List.getElem?_map, Option.map_eq_some_iff] at hget
  obtain ⟨index, -, rfl⟩ := hget
  exact ⟨Shard.initial_consistent ctx _, fun _ hm => nomatch hm⟩

-- As long as nothing changes the documents of a copy between its two answers, every search
-- that returns ranks one corpus state for each shard.
theorem search_ranks_one_corpus (hc : ctx.Contract) (router : ShardRouter) (replicas : Nat → Nat)
    (cluster : LiveCluster α)
    (h : Run.Reaches (step ctx) (fun cluster action => cluster.undisturbed ctx action = true)
      (start router replicas) cluster) :
    ∀ entry ∈ cluster.returned, ∀ results, entry.result = .ok results →
      entry.seen.length = cluster.shards.length ∧
        (singleEngine ctx entry.seen).search ctx entry.query entry.limit none = .ok results :=
  (Run.invariant (fun _ _ _ hcond hstep hinv => step_invariant hc hcond hstep hinv) h
    (start_invariant router replicas)).returned

section Example

attribute [local instance] rationalArith

def unreplicated : ShardRouter := ⟨fun _ => 0, 1, Nat.one_pos⟩

-- One document is stored. A second write times out before the primary has taken it up.
def timedOutWrite : List LiveAction :=
  [.shard 0 (.primary .start), .shard 0 (.primary (.initializeEngine .none)),
    .submit (.put redFox), .execute 0 .none, .shard 0 .acknowledge, .release,
    .submit (.put red), .release]

def firstRound : List LiveAction :=
  [.search "red" 2, .ask 0 ⟨"", "", 0, "primary"⟩ none, .fanOut]

def secondRound : List LiveAction := [.score 0 ⟨"", "", 0, "primary"⟩ none, .finish]

theorem lateWrite_after_search :
    let ctx : EngineContext ℚ := ⟨.ascii, defaultBM25Params, some .constant⟩
    ∃ cluster, Run.Reaches (step ctx) (fun cluster action => cluster.undisturbed ctx action = true)
        (start unreplicated fun _ => 0) cluster ∧
      ∃ entry ∈ cluster.returned, ∃ results, entry.result = .ok results ∧
        (singleEngine ctx entry.seen).search ctx entry.query entry.limit none = .ok results := by
  intro ctx
  have hrun : (Run.checked (step ctx) (undisturbed ctx) (start unreplicated fun _ => 0)
      (timedOutWrite ++ firstRound ++ secondRound ++ [.execute 0 .none])).map (fun cluster =>
        cluster.returned.any fun entry => entry.result.isOk) = some true := by decide +kernel
  obtain ⟨cluster, hchecked, hreturned⟩ := Option.map_eq_some_iff.mp hrun
  have hreach := Run.reaches_of_checked hchecked
  obtain ⟨entry, hm, hentry⟩ := List.any_eq_true.mp hreturned
  cases hresult : entry.result with
  | error error =>
      rw [hresult] at hentry
      cases hentry
  | ok results =>
      have hranked := search_ranks_one_corpus
        (EngineContext.contract_of_some rfl Embedder.constant_contract) unreplicated (fun _ => 0)
        cluster hreach entry hm results hresult
      exact ⟨cluster, hreach, entry, hm, results, hresult, hranked.2⟩

-- The second write lands between the rounds. Two documents are scored with the statistics
-- of one, which no state of the shard accounts for.
theorem lateWrite_between_rounds :
    let ctx : EngineContext ℚ := ⟨.ascii, defaultBM25Params, some .constant⟩
    ∃ cluster, Run.Reaches (step ctx) (fun _ _ => True) (start unreplicated fun _ => 0) cluster ∧
      ∃ entry ∈ cluster.returned, ∃ results, entry.result = .ok results ∧
        ∀ shard ∈ cluster.shards, ∀ generation ≤ shard.history.length,
          (singleEngine ctx [.replay (shard.history.take generation)]).search ctx entry.query
            entry.limit none ≠ .ok results := by
  intro ctx
  have hrun : (Run.exec (step ctx) (start unreplicated fun _ => 0)
      (timedOutWrite ++ firstRound ++ [.execute 0 .none] ++ secondRound)).map (fun cluster =>
        cluster.returned.any fun entry =>
          match entry.result with
          | .error _ => false
          | .ok results => decide (∀ shard ∈ cluster.shards,
              ∀ generation ≤ shard.history.length,
                (singleEngine ctx [.replay (shard.history.take generation)]).search ctx entry.query
                  entry.limit none ≠ .ok results)) = some true := by decide +kernel
  obtain ⟨cluster, hreach, hreturned⟩ := Run.reaches_of_exec hrun
  obtain ⟨entry, hm, hentry⟩ := List.any_eq_true.mp hreturned
  refine ⟨cluster, hreach, entry, hm, ?_⟩
  cases hresult : entry.result with
  | error error =>
      rw [hresult] at hentry
      cases hentry
  | ok results =>
      rw [hresult] at hentry
      exact ⟨results, rfl, of_decide_eq_true hentry⟩

end Example

end LiveCluster

end PySearch
