import PySearch.Cluster.LocalCluster
import PySearch.Cluster.Settings.Theorems

namespace PySearch

namespace Settings

-- An address that is found again in a list of addresses.
structure Plain (address : String) : Prop where
  nonempty : address ≠ ""
  nonspace : ∀ c ∈ address.toList, isSpace c = false
  noComma : ',' ∉ address.toList
  noSemicolon : ';' ∉ address.toList

variable {urls : List String}

theorem addresses_join (h : ∀ url ∈ urls, Plain url) : addresses (",".intercalate urls) = urls := by
  by_cases hne : urls = []
  · subst hne
    decide
  · have hsplit : Text.split ',' (",".intercalate urls) = urls :=
      Text.split_intercalate hne fun url hurl => (h url hurl).noComma
    have hstripped : urls.map (Text.strip isSpace) = urls := by
      rw [List.map_congr_left fun url hurl => Text.strip_eq_self (h url hurl).nonspace,
        List.map_id']
    rw [addresses, hsplit, hstripped, List.filter_eq_self]
    intro url hurl
    simpa using (h url hurl).nonempty

theorem addresses_single {url : String} (h : Plain url) : addresses url = [url] := by
  simpa using @addresses_join [url] (by simpa using h)

-- Joined with semicolons, every address makes a group of its own.
theorem replicaAddresses_join {settings : Settings} (h : ∀ url ∈ urls, Plain url)
    (hurls : settings.replicaUrls = ";".intercalate urls) :
    settings.replicaAddresses = urls.map fun url => [url] := by
  rw [replicaAddresses, hurls]
  cases urls with
  | nil => exact if_pos (by decide)
  | cons first rest =>
      have hfirst := h first List.mem_cons_self
      have hsplit : Text.split ';' (";".intercalate (first :: rest)) = first :: rest :=
        Text.split_intercalate (by simp) fun url hurl => (h url hurl).noSemicolon
      obtain ⟨c, hc⟩ := List.exists_mem_of_ne_nil first.toList (by simpa using hfirst.nonempty)
      have hmem : c ∈ (";".intercalate (first :: rest)).toList := by
        cases rest <;> simp [hc]
      rw [if_neg (Text.strip_ne_empty hmem (hfirst.nonspace c hc)), hsplit]
      exact List.map_congr_left fun url hurl => addresses_single (h url hurl)

end Settings

namespace LocalCluster

open Settings

section Urls

theorem toList_localUrl (port : Nat) :
    (localUrl port).toList = "http://127.0.0.1:".toList ++ Nat.toDigits 10 port :=
  calc
    (localUrl port).toList = "http://127.0.0.1:".toList ++ (toString port).toList :=
      String.toList_append
    _ = "http://127.0.0.1:".toList ++ Nat.toDigits 10 port :=
      congrArg ("http://127.0.0.1:".toList ++ ·) Nat.toList_repr

theorem localUrl_injective : Function.Injective localUrl := by
  intro port other h
  have hdigits : Nat.toDigits 10 port = Nat.toDigits 10 other := by
    have hlist := congrArg String.toList h
    rw [toList_localUrl, toList_localUrl] at hlist
    exact List.append_cancel_left hlist
  rw [← Nat.ofDigitChars_ten_toDigits (n := port), hdigits, Nat.ofDigitChars_ten_toDigits]

theorem isDigit_of_mem {port : Nat} {c : Char} (h : c ∈ Nat.toDigits 10 port) : c.isDigit = true :=
  Nat.isDigit_of_mem_toDigits (by decide) (by decide) h

theorem isSpace_of_isDigit {c : Char} (h : c.isDigit = true) : isSpace c = false := by
  simp only [Char.isDigit, Bool.and_eq_true, decide_eq_true_eq] at h
  have hlow : 48 ≤ c.toNat := h.1
  have hhigh : c.toNat ≤ 57 := h.2
  simp [isSpace]
  omega

theorem plain_localUrl (port : Nat) : Plain (localUrl port) := by
  -- The text is run through, not all characters there are.
  have hprefix : ∀ c ∈ "http://127.0.0.1:".toList, isSpace c = false ∧ c ≠ ',' ∧ c ≠ ';' := by
    have hall : ("http://127.0.0.1:".toList.all fun c =>
        decide (isSpace c = false ∧ c ≠ ',' ∧ c ≠ ';')) = true := by decide +kernel
    exact fun c hc => of_decide_eq_true (List.all_eq_true.mp hall c hc)
  have hchars : ∀ c ∈ (localUrl port).toList, isSpace c = false ∧ c ≠ ',' ∧ c ≠ ';' := by
    intro c hc
    rw [toList_localUrl] at hc
    rcases List.mem_append.mp hc with hfixed | hdigit
    · exact hprefix c hfixed
    · have hdigit := isDigit_of_mem hdigit
      refine ⟨isSpace_of_isDigit hdigit, ?_, ?_⟩ <;>
      · rintro rfl
        cases hdigit
  refine ⟨?_, fun c hc => (hchars c hc).1, fun hc => (hchars _ hc).2.1 rfl,
    fun hc => (hchars _ hc).2.2 rfl⟩
  intro hempty
  have hlist := toList_localUrl port
  simp [hempty] at hlist

-- The port ends the address, so that no slash is stripped from it.
theorem rstrip_localUrl (port : Nat) : Text.rstrip (· = '/') (localUrl port) = localUrl port := by
  have hkept : (localUrl port).toList.rdropWhile (· = '/') = (localUrl port).toList := by
    rw [List.rdropWhile_eq_self_iff]
    intro hne
    have hlast : (localUrl port).toList.getLast hne =
        (Nat.toDigits 10 port).getLast Nat.toDigits_ne_nil := by
      simp only [toList_localUrl]
      exact List.getLast_append_of_ne_nil _ _
    have hdigit := isDigit_of_mem (List.getLast_mem (Nat.toDigits_ne_nil (n := port) (b := 10)))
    rw [← hlast] at hdigit
    intro hslash
    rw [of_decide_eq_true hslash] at hdigit
    cases hdigit
  rw [Text.rstrip, hkept, String.ofList_toList]

end Urls

variable {cluster : LocalCluster}

section Addresses

theorem shardAddresses_eq (cluster : LocalCluster) :
    cluster.coordinatorSettings.shardAddresses = cluster.shardUrls := by
  apply addresses_join
  intro url hurl
  obtain ⟨shardId, -, rfl⟩ := List.mem_map.mp hurl
  exact plain_localUrl _

theorem replicaAddresses_eq (cluster : LocalCluster) :
    cluster.coordinatorSettings.replicaAddresses = cluster.replicaUrls.map fun url => [url] := by
  apply replicaAddresses_join _ rfl
  intro url hurl
  unfold replicaUrls at hurl
  split at hurl
  · obtain ⟨shardId, -, rfl⟩ := List.mem_map.mp hurl
    exact plain_localUrl _
  · cases hurl

-- A primary reads back the one replica that it is given.
theorem ownReplicaAddresses_eq (cluster : LocalCluster) (shardId : Nat) :
    (cluster.primarySettings shardId).ownReplicaAddresses =
      if cluster.replicated then [cluster.replicaUrl shardId] else [] := by
  have hgroups := @replicaAddresses_join
    (if cluster.replicated then [cluster.replicaUrl shardId] else [])
    (cluster.primarySettings shardId).toSettings
  cases hreplicated : cluster.replicated with
  | false =>
      rw [ownReplicaAddresses, hgroups (by simp [hreplicated])
        (by simp [primarySettings, hreplicated])]
      simp [hreplicated]
  | true =>
      rw [ownReplicaAddresses, hgroups (by simp [hreplicated, replicaUrl, plain_localUrl])
        (by simp [primarySettings, hreplicated])]
      simp [hreplicated]

end Addresses

section Ports

-- The ports of all processes that hold a shard.
def ports (cluster : LocalCluster) : List Nat :=
  (List.range cluster.shards).map cluster.primaryPort ++
    if cluster.replicated then (List.range cluster.shards).map cluster.replicaPort else []

theorem configured_eq (cluster : LocalCluster) :
    cluster.coordinatorSettings.configured = cluster.ports.map localUrl := by
  rw [configured, shardAddresses_eq, replicaAddresses_eq, ← List.flatMap_def,
    List.flatMap_singleton', ports, List.map_append]
  unfold shardUrls replicaUrls
  rw [List.map_map]
  split
  · rw [List.map_map]
    rfl
  · rfl

-- The replicas begin a hundred ports after the primaries.
theorem ports_nodup_iff :
    cluster.ports.Nodup ↔ (cluster.replicated = true → cluster.shards ≤ 100) := by
  have hprimaries : ((List.range cluster.shards).map cluster.primaryPort).Nodup :=
    List.nodup_range.map fun first second h => by simpa [primaryPort] using h
  have hreplicas : ((List.range cluster.shards).map cluster.replicaPort).Nodup :=
    List.nodup_range.map fun first second h => by simpa [replicaPort] using h
  unfold ports
  cases hreplicated : cluster.replicated with
  | false => simpa using hprimaries
  | true =>
      simp only [if_true, List.nodup_append, hprimaries, hreplicas, true_and, forall_const]
      constructor
      · intro hapart
        by_contra hmany
        refine hapart (cluster.basePort + 100) ?_ _ ?_ rfl
        · exact List.mem_map.mpr ⟨100, List.mem_range.mpr (by omega), rfl⟩
        · exact List.mem_map.mpr ⟨0, List.mem_range.mpr (by omega), rfl⟩
      · rintro hfew port hport other hother rfl
        obtain ⟨shardId, hshard, rfl⟩ := List.mem_map.mp hport
        obtain ⟨replicaId, -, heq⟩ := List.mem_map.mp hother
        have hlt := List.mem_range.mp hshard
        simp only [primaryPort, replicaPort] at heq
        omega

end Ports

section Check

theorem shardUrls_length (cluster : LocalCluster) : cluster.shardUrls.length = cluster.shards := by
  simp [shardUrls]

theorem replicaUrls_length (cluster : LocalCluster) :
    cluster.replicaUrls = [] ∨ cluster.replicaUrls.length = cluster.shards := by
  unfold replicaUrls
  split
  · exact .inr (by simp)
  · exact .inl rfl

theorem configured_nodup_iff :
    cluster.coordinatorSettings.configured.Nodup ↔ cluster.ports.Nodup := by
  rw [configured_eq]
  exact List.nodup_map_iff localUrl_injective

theorem checkTopology_coordinator (cluster : LocalCluster) :
    cluster.coordinatorSettings.checkTopology =
      demand (distinct cluster.coordinatorSettings.configured)
        "shard_urls and replica_urls overlap or repeat" := by
  have hlength := cluster.shardUrls_length
  apply checkTopology_eq rfl
  · rw [shardAddresses_eq, hlength]
    rfl
  · rw [shardAddresses_eq, replicaAddresses_eq, List.length_map, List.map_eq_nil_iff, hlength]
    exact cluster.replicaUrls_length
  · refine ⟨1, ?_⟩
    rw [replicaAddresses_eq]
    simp
  · rw [shardAddresses_eq]
    refine List.nodup_range.map fun first second h => ?_
    simpa [primaryPort] using localUrl_injective h

theorem checkTopology_shard (cluster : LocalCluster) {shardId : Nat} (h : shardId < cluster.shards) :
    (cluster.primarySettings shardId).checkTopology = .ok () ∧
      (cluster.replicaSettings shardId).checkTopology = .ok () := by
  have hinside : 0 ≤ (shardId : Int) ∧ (shardId : Int) < cluster.shards := by omega
  constructor <;> exact if_pos (decide_eq_true hinside)

end Check

-- What the processes of a cluster should agree on: the copies of a shard that the coordinator
-- reads from are its primary and those that the primary sends its writes to, every one of them
-- answers at its own address, and a replica asks the primary of its shard.
structure Wired (cluster : LocalCluster) (topology : ClusterTopology HttpShardClient) : Prop where
  shardCount : topology.shards.length = cluster.shards
  accepted : ∀ shardId < cluster.shards,
    (cluster.primarySettings shardId).checkTopology = .ok () ∧
      (cluster.replicaSettings shardId).checkTopology = .ok ()
  listening : ∀ (shardId : Nat) (copies : ShardCopies HttpShardClient),
    topology.shards[shardId]? = some copies →
      copies.servingOrder.map HttpShardClient.baseUrl = (cluster.copyPorts shardId).map localUrl
  replicating : ∀ (shardId : Nat) (copies : ShardCopies HttpShardClient),
    topology.shards[shardId]? = some copies →
      (cluster.primarySettings shardId).attachReplicationRole =
        .replicator (copies.replicas.map fun replica => ⟨replica.baseUrl⟩)
  following : ∀ (shardId : Nat) (copies : ShardCopies HttpShardClient),
    topology.shards[shardId]? = some copies →
      (cluster.replicaSettings shardId).attachReplicationRole =
        .synchronizer ⟨copies.primary.baseUrl⟩
  factor : ∀ copies ∈ topology.shards, copies.replicationFactor = cluster.replicationFactor
  configuredFactor : cluster.coordinatorSettings.replicationFactor = cluster.replicationFactor
  distinct : ((topology.shards.flatMap ShardCopies.servingOrder).map HttpShardClient.baseUrl).Nodup

section Wiring

-- The copies of one shard as the coordinator knows them.
def copies (cluster : LocalCluster) (shardId : Nat) : ShardCopies HttpShardClient :=
  ⟨shardId, ⟨cluster.primaryUrl shardId⟩,
    if cluster.replicated then [⟨cluster.replicaUrl shardId⟩] else []⟩

theorem create_localUrl (port : Nat) : HttpShardClient.create (localUrl port) = ⟨localUrl port⟩ :=
  congrArg HttpShardClient.mk (rstrip_localUrl port)

theorem link_localUrl (port : Nat) : HttpNodeLink.create (localUrl port) = ⟨localUrl port⟩ :=
  congrArg HttpNodeLink.mk (rstrip_localUrl port)

theorem configuredShards_eq (cluster : LocalCluster) :
    cluster.coordinatorSettings.configuredShards =
      (List.range cluster.shards).map cluster.copies := by
  apply List.ext_getElem
  · rw [configuredShards_length, shardAddresses_eq, shardUrls_length]
    simp
  · intro shardId hleft hright
    have hlt : shardId < cluster.shards := by simpa using hright
    simp only [configuredShards, List.getElem_map, List.getElem_zipIdx, List.getElem_range,
      Nat.zero_add, shardAddresses_eq, replicaAddresses_eq]
    cases hreplicated : cluster.replicated with
    | false =>
        simp [copies, shardUrls, replicaUrls, hreplicated, primaryUrl, create_localUrl]
    | true =>
        simp [copies, shardUrls, replicaUrls, hreplicated, primaryUrl, replicaUrl, create_localUrl,
          hlt]

theorem servingOrder_copies (cluster : LocalCluster) (shardId : Nat) :
    (cluster.copies shardId).servingOrder.map HttpShardClient.baseUrl =
      (cluster.copyPorts shardId).map localUrl := by
  cases hreplicated : cluster.replicated <;>
    simp [copies, copyPorts, ShardCopies.servingOrder, hreplicated, primaryUrl, replicaUrl]

theorem replicationFactor_copies (cluster : LocalCluster) (shardId : Nat) :
    (cluster.copies shardId).replicationFactor = cluster.replicationFactor := by
  cases hreplicated : cluster.replicated <;>
    simp [copies, ShardCopies.replicationFactor, LocalCluster.replicationFactor, hreplicated]

theorem attachReplicationRole_primary (cluster : LocalCluster) (shardId : Nat) :
    (cluster.primarySettings shardId).attachReplicationRole =
      .replicator ((cluster.copies shardId).replicas.map fun replica => ⟨replica.baseUrl⟩) := by
  have hrole : (cluster.primarySettings shardId).replicaRole = some .primary := rfl
  rw [ShardSettings.attachReplicationRole, if_pos hrole, ownReplicaAddresses_eq]
  cases hreplicated : cluster.replicated <;>
    simp [copies, hreplicated, replicaUrl, link_localUrl]

theorem attachReplicationRole_replica (cluster : LocalCluster) (shardId : Nat) :
    (cluster.replicaSettings shardId).attachReplicationRole =
      .synchronizer ⟨(cluster.copies shardId).primary.baseUrl⟩ :=
  congrArg ReplicationRole.synchronizer (link_localUrl _)

theorem configuredFactor_eq (cluster : LocalCluster) :
    cluster.coordinatorSettings.replicationFactor = cluster.replicationFactor := by
  have hpositive := cluster.positive
  rw [Settings.replicationFactor, replicaAddresses_eq, replicaUrls]
  cases hreplicated : cluster.replicated with
  | false => simp [LocalCluster.replicationFactor, hreplicated]
  | true =>
      obtain ⟨rest, hrest⟩ : ∃ rest, cluster.shards = rest + 1 := ⟨cluster.shards - 1, by omega⟩
      simp [LocalCluster.replicationFactor, hreplicated, hrest, List.range_succ_eq_map]

theorem wired_of_nodup (h : cluster.ports.Nodup) : ∃ topology,
    cluster.coordinatorSettings.topology = .ok topology ∧ cluster.Wired topology := by
  have hconfigured := configured_nodup_iff.mpr h
  have haccepted : Accepted cluster.coordinatorSettings := by
    apply accepted_of_check rfl
    rw [checkTopology_coordinator, distinct_iff.mpr hconfigured]
    rfl
  obtain ⟨topology, htopology, hshards⟩ := topology_ok haccepted
  rw [configuredShards_eq] at hshards
  have hcopies : ∀ {shardId : Nat} {copies : ShardCopies HttpShardClient},
      topology.shards[shardId]? = some copies → copies = cluster.copies shardId := by
    intro shardId copies hget
    rw [hshards, List.getElem?_map] at hget
    obtain ⟨index, hindex, rfl⟩ := Option.map_eq_some_iff.mp hget
    rw [List.getElem?_eq_some_iff] at hindex
    obtain ⟨hlt, rfl⟩ := hindex
    rw [List.getElem_range]
  refine ⟨topology, htopology, by simp [hshards], fun shardId hlt => checkTopology_shard _ hlt,
    fun shardId copies hget => ?_, fun shardId copies hget => ?_, fun shardId copies hget => ?_,
    fun copies hmem => ?_, configuredFactor_eq _, ?_⟩
  · rw [hcopies hget, servingOrder_copies]
  · rw [hcopies hget, attachReplicationRole_primary]
  · rw [hcopies hget, attachReplicationRole_replica]
  · obtain ⟨shardId, hget⟩ := List.mem_iff_getElem?.mp hmem
    rw [hcopies hget, replicationFactor_copies]
  · rw [hshards, ← configuredShards_eq]
    apply ((configuredShards_clients haccepted).map HttpShardClient.baseUrl).nodup_iff.mpr
    have hurls : (cluster.coordinatorSettings.configured.map HttpShardClient.create).map
        HttpShardClient.baseUrl = cluster.coordinatorSettings.configured := by
      rw [configured_eq, List.map_map, List.map_map]
      exact List.map_congr_left fun port _ => rstrip_localUrl port
    rwa [hurls]

-- With a replica for each shard, the processes agree as long as there are at most a hundred
-- shards. Beyond that replicas would take the ports of primaries, and the coordinator refuses.
theorem launched (cluster : LocalCluster) :
    (cluster.coordinatorSettings.checkTopology = .ok () ∧ (∃ topology,
        cluster.coordinatorSettings.topology = .ok topology ∧ cluster.Wired topology) ↔
      (cluster.replicated = true → cluster.shards ≤ 100)) ∧
    (cluster.coordinatorSettings.checkTopology =
        .error (.valueError "shard_urls and replica_urls overlap or repeat") ↔
      cluster.replicated = true ∧ 100 < cluster.shards) := by
  rw [checkTopology_coordinator]
  by_cases hnodup : cluster.ports.Nodup
  · have hcheck := distinct_iff.mpr (configured_nodup_iff.mpr hnodup)
    have hfew := ports_nodup_iff.mp hnodup
    refine ⟨⟨fun _ => hfew, fun _ => ⟨by rw [hcheck]; rfl, wired_of_nodup hnodup⟩⟩, ?_, ?_⟩
    · intro herror
      rw [hcheck] at herror
      cases herror
    · rintro ⟨hreplicated, hmany⟩
      have := hfew hreplicated
      omega
  · have hcheck : distinct cluster.coordinatorSettings.configured = false :=
      Bool.eq_false_iff.mpr fun h => hnodup (configured_nodup_iff.mp (distinct_iff.mp h))
    have hmany := mt ports_nodup_iff.mpr hnodup
    rw [hcheck]
    refine ⟨⟨fun h => ?_, fun h => absurd h hmany⟩, fun _ => ?_, fun _ => rfl⟩
    · cases h.1
    · simpa using hmany

end Wiring

end LocalCluster

end PySearch
