import PySearch.Cluster.Coordinator.Halves
import PySearch.Cluster.Coordinator.Rounds.Theorems
import PySearch.Cluster.SerialCluster.Theorems
import PySearch.Search.Engine.Recovery

namespace PySearch

open SearchEngine (Healthy)

variable {α : Type}

-- What is stored agrees with what is known, and nobody stored what was not requested.
structure Accounts (known : Knowledge) (requests : List Mutation) (rows : Dict String Document) :
    Prop where
  known : ∀ id value, known id = some value → rows.get? id = value
  requested : ∀ id document, rows.get? id = some document →
    .put document ∈ requests ∧ document.documentId = id

-- If something is known about every identifier that was written to, it says all.
theorem Accounts.unique {known : Knowledge} {requests : List Mutation}
    {rows others : Dict String Document} (h : Accounts known requests rows)
    (ho : Accounts known requests others)
    (hsettled : ∀ mutation ∈ requests, known mutation.documentId ≠ none) (id : String) :
    rows.get? id = others.get? id := by
  cases hid : known id with
  | some value => rw [h.known id value hid, ho.known id value hid]
  | none =>
      have habsent : ∀ {rows : Dict String Document}, Accounts known requests rows →
          rows.get? id = none := by
        intro rows hrows
        by_contra hfound
        obtain ⟨document, hdocument⟩ := Option.ne_none_iff_exists'.mp hfound
        obtain ⟨hput, hkey⟩ := hrows.requested id document hdocument
        exact hsettled _ hput ((congrArg known hkey).trans hid)
      rw [habsent h, habsent ho]

namespace Database

theorem replay_put {history : List Mutation} {id : String} {document : Document}
    (h : (replay history).rows.get? id = some document) :
    .put document ∈ history ∧ document.documentId = id := by
  induction history using List.reverseRecOn with
  | nil => cases h
  | append_singleton history mutation ih =>
      rw [replay_append, apply_get?] at h
      by_cases hid : id = mutation.documentId
      · rw [if_pos hid] at h
        cases mutation with
        | put stored =>
            obtain rfl := Option.some.inj h
            exact ⟨List.mem_append_right _ (List.mem_singleton_self _), hid.symm⟩
        | delete documentId => cases h
      · rw [if_neg hid] at h
        obtain ⟨hmem, hkey⟩ := ih h
        exact ⟨List.mem_append_left _ hmem, hkey⟩

end Database

variable {router : ShardRouter} {requests : List Mutation} {known : Knowledge}

-- A copy that may be read for its shard: it holds only what belongs there, and what is known.
structure Node.Reads (router : ShardRouter) (requests : List Mutation) (known : Knowledge)
    (shardId : Nat) (node : Node α) : Prop where
  owned : ∀ id document, node.database.rows.get? id = some document →
    router.shardFor id = shardId ∧ .put document ∈ requests ∧ document.documentId = id
  known : ∀ id value, router.shardFor id = shardId → known id = some value →
    node.database.rows.get? id = value

-- One such copy of every shard make up a corpus that accounts for everything known.
theorem accounts_of_reads {nodes : List (Node α)} (hlength : nodes.length = router.shardCount)
    (h : ∀ (shardId : Nat) node, nodes[shardId]? = some node →
      node.Reads router requests known shardId) :
    let parts := nodes.map fun node => node.database.rows
    let whole := Database.insertAll (parts.flatMap Dict.values)
    Partition parts whole ∧ Accounts known requests whole := by
  intro parts whole
  have hparts : parts = (nodes.map Node.database).map Database.rows := by
    rw [List.map_map]
    rfl
  have hpartition : Partition parts whole := by
    simp only [whole, hparts]
    have howned := @LiveCluster.partition_of_owned router (nodes.map Node.database) (by
      intro shardId database hdatabase id document hdocument
      rw [List.getElem?_map] at hdatabase
      obtain ⟨node, hnode, rfl⟩ := Option.map_eq_some_iff.mp hdatabase
      exact ((h shardId node hnode).owned id document hdocument).1)
    rwa [← List.flatMap_map] at howned
  have hfound : ∀ id document, whole.get? id = some document ↔
      ∃ (shardId : Nat) (node : Node α), nodes[shardId]? = some node ∧
        node.database.rows.get? id = some document := by
    intro id document
    rw [← Dict.mem_entries, hpartition.mem_iff, List.mem_flatMap]
    constructor
    · rintro ⟨rows, hrows, hentry⟩
      obtain ⟨node, hnode, rfl⟩ := List.mem_map.mp hrows
      obtain ⟨shardId, hget⟩ := List.mem_iff_getElem?.mp hnode
      exact ⟨shardId, node, hget, Dict.mem_entries.mp hentry⟩
    · rintro ⟨shardId, node, hget, hdocument⟩
      exact ⟨_, List.mem_map.mpr ⟨node, List.mem_of_getElem? hget, rfl⟩,
        Dict.mem_entries.mpr hdocument⟩
  refine ⟨hpartition, fun id value hvalue => ?_, fun id document hdocument => ?_⟩
  · have hlt : router.shardFor id < nodes.length := hlength ▸ router.shardFor_lt id
    have hnode := List.getElem?_eq_getElem hlt
    have hreads := (h _ _ hnode).known id value rfl hvalue
    rw [← hreads]
    apply Option.ext
    intro document
    rw [hfound]
    constructor
    · rintro ⟨shardId, node, hget, hdocument⟩
      obtain rfl := ((h shardId node hget).owned id document hdocument).1
      rw [hnode] at hget
      cases hget
      exact hdocument
    · exact fun hdocument => ⟨_, _, hnode, hdocument⟩
  · obtain ⟨shardId, node, hget, hstored⟩ := (hfound id document).mp hdocument
    exact ((h shardId node hget).owned id document hstored).2

variable [Arith α] [LinearOrder α] {ctx : EngineContext α}

-- A copy that serves may be read: it has applied everything that was acknowledged.
theorem Shard.Accounted.reads {shardId replicas : Nat} {shard : Shard α} {node : Node α}
    {engine : SearchEngine α} (h : shard.Accounted router shardId requests known)
    (hfresh : Shard.Fresh ctx (.initial replicas) shard) (hcopy : node ∈ shard.copies)
    (hserving : node.serving = some engine) : node.Reads router requests known shardId := by
  obtain ⟨resyncs, rfl, hready⟩ := Node.serving_some hserving
  obtain ⟨hconsistent, hdurable⟩ := Shard.fresh_durable hfresh
  obtain ⟨hsound, hfollows⟩ := hconsistent.copy hcopy
  have hrows : ∀ id, engine.store.database.rows.get? id =
      (Database.replay (shard.history.take engine.generation.toNat)).rows.get? id := by
    intro id
    rw [(hsound (.inl hready)).generation]
    exact hfollows.rows id
  refine ⟨fun id document hdocument => ?_, fun id value hid hvalue => ?_⟩
  · obtain ⟨hput, hkey⟩ := Database.replay_put ((hrows id).symm.trans hdocument)
    obtain ⟨howner, hrequested⟩ := h.owned _ (List.mem_of_mem_take hput)
    exact ⟨hkey ▸ howner, hrequested, hkey⟩
  · refine (hrows id).trans (h.newest id value hid hvalue engine.generation.toNat ?_)
    intro generation hgeneration
    have hle := hdurable.ready_acknowledged hconsistent hcopy hready generation hgeneration
    exact hle.trans (Int.self_le_toNat _)

omit [Arith α] [LinearOrder α] in
theorem ShardView.reached_serving {view : ShardView α}
    {request : Transport → Option TransportFailure} {node : Node α}
    (h : view.reached request = some node) : ∃ engine, node.serving = some engine := by
  obtain ⟨copy, hfind, rfl⟩ := Option.map_eq_some_iff.mp h
  have hserving := List.find?_some hfind
  rw [Bool.and_eq_true] at hserving
  exact Option.isSome_iff_exists.mp hserving.1

namespace SerialCluster

variable {cluster : SerialCluster α} {replicas : Nat → Nat} {ghosts : List (Shard α)}

-- The shards of the interleaving model, as one operation of the coordinator meets them.
def view (router : ShardRouter) (ghosts : List (Shard α)) (h : ghosts.length = router.shardCount)
    (settings : Nat → Nat → NodeSettings) (transport : Nat → Nat → Transport) :
    ClusterView α where
  router := router
  shards := ghosts.zipIdx.map fun entry => ⟨entry.1, settings entry.2, transport entry.2⟩
  matched := by rw [List.length_map, List.length_zipIdx, h]

variable (settings : Nat → Nat → NodeSettings) (transport : Nat → Nat → Transport)

theorem Shadows.coordinator_eq (h : Shadows ctx stack replicas requests cluster known ghosts) :
    cluster.coordinator ctx settings transport =
      (view cluster.router ghosts (h.length.trans cluster.matched) settings transport).coordinator
        ctx := by
  have hgroups : (cluster.shards.zipIdx.map fun entry =>
      group ctx (settings entry.2) (transport entry.2) entry.1) =
        (view cluster.router ghosts (h.length.trans cluster.matched) settings transport).shards.map
          fun shard => shard.group ctx := by
    apply List.ext_getElem
    · simp [view, h.length]
    intro shardId hleft hright
    have hserial : shardId < cluster.shards.length := by simpa using hleft
    have hghost : shardId < ghosts.length := h.length ▸ hserial
    obtain ⟨htracks, -, -⟩ := h.shards shardId _ _ (List.getElem?_eq_getElem hserial)
      (List.getElem?_eq_getElem hghost)
    simp only [List.getElem_map, List.getElem_zipIdx, Nat.zero_add, view, group, ShardView.group,
      htracks.primary, htracks.replicas]
    rfl
  simp only [coordinator, ClusterView.coordinator, hgroups]
  rfl

-- The copies that were chosen, one of every shard, make up a corpus that accounts for
-- everything known.
theorem Shadows.accounts (h : Shadows ctx stack replicas requests cluster known ghosts)
    {choose : ShardView α → Option (Node α)} {nodes : List (Node α)}
    (hnodes : (view cluster.router ghosts (h.length.trans cluster.matched) settings
      transport).shards.map choose = nodes.map some)
    (hchoose : ∀ view : ShardView α, view.shard.Consistent ctx →
      ∃ request, choose view = view.reached request) :
    let parts := nodes.map fun node => node.database.rows
    let whole := Database.insertAll (parts.flatMap Dict.values)
    Partition parts whole ∧ Accounts known requests whole := by
  have hlength := congrArg List.length hnodes
  rw [List.length_map, List.length_map, view, List.length_map, List.length_zipIdx, h.length,
    cluster.matched] at hlength
  refine accounts_of_reads hlength.symm fun shardId node hnode => ?_
  have hget := congrArg (fun copies => copies[shardId]?) hnodes
  simp only [List.getElem?_map, hnode, Option.map_some, view, List.getElem?_zipIdx,
    Option.map_map] at hget
  obtain ⟨ghost, hghost, hchosen⟩ := Option.map_eq_some_iff.mp hget
  have hlt : shardId < cluster.shards.length := by
    rw [← h.length]
    exact (List.getElem?_eq_some_iff.mp hghost).1
  obtain ⟨-, hfresh, haccounted⟩ :=
    h.shards shardId _ ghost (List.getElem?_eq_getElem hlt) hghost
  obtain ⟨request, hreached⟩ := hchoose
    ⟨ghost, settings (0 + shardId), transport (0 + shardId)⟩
    (Shard.reaches_settled hfresh).consistent
  have hfound := hreached.symm.trans hchosen
  obtain ⟨engine, hserving⟩ := ShardView.reached_serving hfound
  exact haccounted.reads hfresh (ShardView.reached_mem hfound) hserving

end SerialCluster

end PySearch
