import PySearch.Cluster.Settings
import Mathlib.Data.List.Dedup
import Mathlib.Data.List.Nodup

namespace PySearch.Settings

open Text (Extends)

variable {settings : Settings}

-- Every address that the settings name.
def configured (settings : Settings) : List String :=
  settings.shardAddresses ++ settings.replicaAddresses.flatten

section Acceptance

theorem demand_ok {condition : Bool} {message : String} (h : demand condition message = .ok ()) :
    condition = true := by
  unfold demand at h
  split at h
  · assumption
  · cases h

theorem nodup_of_distinct {addresses : List String} (h : distinct addresses = true) :
    addresses.Nodup := by
  have hlength : addresses.dedup.length = addresses.length := of_decide_eq_true h
  rw [← (List.dedup_sublist addresses).eq_of_length hlength]
  exact List.nodup_dedup addresses

-- What the validator establishes for a coordinator.
structure Accepted (settings : Settings) : Prop where
  count : (settings.shardAddresses.length : Int) = settings.shardCount
  groups : settings.replicaAddresses = [] ∨
    settings.replicaAddresses.length = settings.shardAddresses.length
  sameSize : ∃ size, ∀ group ∈ settings.replicaAddresses, group.length = size
  nodup : settings.configured.Nodup

theorem accepted_of_check (hrole : settings.nodeRole = .coordinator)
    (h : settings.checkTopology = .ok ()) : Accepted settings := by
  rw [checkTopology, hrole] at h
  unfold checkCoordinator at h
  obtain ⟨_, -, h⟩ := bind_ok h
  obtain ⟨_, hcount, h⟩ := bind_ok h
  obtain ⟨_, hdistinct, h⟩ := bind_ok h
  have hcounted : (settings.shardAddresses.length : Int) = settings.shardCount :=
    of_decide_eq_true (demand_ok hcount)
  split at h
  · rename_i hnone
    refine ⟨hcounted, .inl hnone, ⟨0, by simp [hnone]⟩, ?_⟩
    simpa [configured, hnone] using nodup_of_distinct (demand_ok hdistinct)
  · unfold checkReplicas at h
    obtain ⟨_, hgroups, h⟩ := bind_ok h
    obtain ⟨_, hsizes, hdistinct⟩ := bind_ok h
    have hlength : (settings.replicaAddresses.length : Int) = settings.shardCount :=
      of_decide_eq_true (demand_ok hgroups)
    have hone : (settings.replicaAddresses.map List.length).dedup.length = 1 :=
      of_decide_eq_true (demand_ok hsizes)
    obtain ⟨size, hsize⟩ := List.length_eq_one_iff.mp hone
    refine ⟨hcounted, .inr (by omega), ⟨size, ?_⟩, nodup_of_distinct (demand_ok hdistinct)⟩
    intro group hgroup
    have hmem := List.mem_dedup.mpr (List.mem_map_of_mem (f := List.length) hgroup)
    simpa [hsize] using hmem

theorem distinct_iff {addresses : List String} : distinct addresses = true ↔ addresses.Nodup :=
  ⟨nodup_of_distinct, fun h => decide_eq_true (congrArg List.length h.dedup)⟩

-- With the right numbers of addresses the validator looks for repeated ones and for nothing else.
theorem checkTopology_eq (hrole : settings.nodeRole = .coordinator)
    (hcount : (settings.shardAddresses.length : Int) = settings.shardCount)
    (hgroups : settings.replicaAddresses = [] ∨
      settings.replicaAddresses.length = settings.shardAddresses.length)
    (hsameSize : ∃ size, ∀ group ∈ settings.replicaAddresses, group.length = size)
    (hshards : settings.shardAddresses.Nodup) :
    settings.checkTopology =
      demand (distinct settings.configured) "shard_urls and replica_urls overlap or repeat" := by
  have hpositive := settings.positive
  have hne : settings.shardAddresses ≠ [] := List.ne_nil_of_length_pos (by omega)
  have hdistinct := distinct_iff.mpr hshards
  have hshape : settings.checkCoordinator =
      if settings.replicaAddresses = [] then .ok () else settings.checkReplicas := by
    simp [checkCoordinator, demand, hne, hcount, hdistinct, bind, Except.bind, pure, Except.pure]
  rw [checkTopology, hrole]
  dsimp only
  rw [hshape]
  by_cases hnone : settings.replicaAddresses = []
  · rw [if_pos hnone, configured, hnone, List.flatten_nil, List.append_nil, hdistinct]
    rfl
  · have hlength := hgroups.resolve_left hnone
    obtain ⟨size, hsize⟩ := hsameSize
    have hsizes : settings.replicaAddresses.map List.length =
        List.replicate settings.replicaAddresses.length size := by
      rw [List.eq_replicate_iff]
      exact ⟨List.length_map _, by simpa using hsize⟩
    have hone : (settings.replicaAddresses.map List.length).dedup = [size] := by
      rw [hsizes, List.replicate_dedup (by omega)]
    have hcounted : (settings.replicaAddresses.length : Int) = settings.shardCount := by omega
    rw [if_neg hnone]
    simp only [checkReplicas, hcounted, hone, List.length_singleton, decide_true]
    rfl

end Acceptance

-- What the topology of a coordinator should be: the configured copies in their places, on
-- addresses of their own.
structure ProperTopology (settings : Settings) (topology : ClusterTopology HttpShardClient) :
    Prop where
  shardCount : (topology.shards.length : Int) = settings.shardCount
  numbered : ∀ (index : Nat) (copies : ShardCopies HttpShardClient),
    topology.shards[index]? = some copies → copies.shardId = index
  sameReplicas : ∃ count, ∀ copies ∈ topology.shards, copies.replicas.length = count
  primaries : topology.shards.map ShardCopies.primary = settings.shardAddresses.map .create
  replicas : ∀ (index : Nat) (copies : ShardCopies HttpShardClient),
    topology.shards[index]? = some copies →
      copies.replicas = ((settings.replicaAddresses[index]?).getD []).map .create
  constructed : ∀ {α : Type} (digest : String → Nat) (connect : HttpShardClient → ShardClient α)
    (embedder : Option (Embedder α)) (unicode : Unicode), ∃ coordinator,
      Coordinator.create (settings.router digest) (topology.map connect) embedder unicode =
        .ok coordinator
  distinct : ((topology.shards.flatMap ShardCopies.servingOrder).map HttpShardClient.baseUrl).Nodup

section Topology

variable {topology : ClusterTopology HttpShardClient}

-- The copies that the settings name, position by position.
def configuredShards (settings : Settings) : List (ShardCopies HttpShardClient) :=
  (settings.shardAddresses.map HttpShardClient.create).zipIdx.map fun (primary, shardId) =>
    ⟨shardId, primary, ((settings.replicaAddresses[shardId]?).getD []).map .create⟩

theorem topology_ok (h : Accepted settings) : ∃ topology, settings.topology = .ok topology ∧
    topology.shards = settings.configuredShards := by
  obtain ⟨topology, htopology, hshards⟩ := @ClusterTopology.buildTopology_ok _
    (settings.shardAddresses.map HttpShardClient.create)
    (settings.replicaAddresses.map fun group => group.map HttpShardClient.create)
    (by simpa using h.groups)
  refine ⟨topology, htopology, hshards.trans ?_⟩
  apply List.map_congr_left
  rintro ⟨primary, shardId⟩ -
  dsimp only
  rw [List.getElem?_map]
  cases settings.replicaAddresses[shardId]? <;> rfl

theorem configuredShards_length (settings : Settings) :
    settings.configuredShards.length = settings.shardAddresses.length := by
  simp [configuredShards]

theorem configuredShards_get? {index : Nat} {copies : ShardCopies HttpShardClient}
    (h : settings.configuredShards[index]? = some copies) :
    copies.shardId = index ∧
      copies.replicas = ((settings.replicaAddresses[index]?).getD []).map .create := by
  obtain ⟨hlt, rfl⟩ := List.getElem?_eq_some_iff.mp h
  simp [configuredShards]

theorem configuredShards_primaries (settings : Settings) :
    settings.configuredShards.map ShardCopies.primary =
      settings.shardAddresses.map HttpShardClient.create := by
  rw [configuredShards, List.map_map]
  exact List.zipIdx_map_fst 0 _

theorem configuredShards_replicas (h : Accepted settings) :
    settings.configuredShards.flatMap ShardCopies.replicas =
      settings.replicaAddresses.flatten.map HttpShardClient.create := by
  rcases h.groups with hnone | hlength
  · rw [hnone, List.flatten_nil, List.map_nil, List.flatMap_eq_nil_iff]
    intro copies hcopies
    obtain ⟨index, hindex⟩ := List.mem_iff_getElem?.mp hcopies
    simpa [hnone] using (configuredShards_get? hindex).2
  · have hgroups : settings.configuredShards.map ShardCopies.replicas =
        settings.replicaAddresses.map fun group => group.map HttpShardClient.create := by
      apply List.ext_getElem (by simp [configuredShards, hlength])
      intro index hleft hright
      have hindex : index < settings.replicaAddresses.length := by simpa using hright
      simp [configuredShards, List.getElem?_eq_getElem hindex]
    rw [List.flatMap_def, hgroups, List.map_flatten]

theorem configuredShards_sameReplicas (h : Accepted settings) :
    ∃ count, ∀ copies ∈ settings.configuredShards, copies.replicas.length = count := by
  obtain ⟨size, hsize⟩ := h.sameSize
  refine ⟨if settings.replicaAddresses = [] then 0 else size, ?_⟩
  intro copies hcopies
  obtain ⟨index, hindex⟩ := List.mem_iff_getElem?.mp hcopies
  have hlt := (List.getElem?_eq_some_iff.mp hindex).1
  rw [(configuredShards_get? hindex).2, List.length_map]
  rcases h.groups with hnone | hlength
  · simp [hnone]
  · have hgroup : index < settings.replicaAddresses.length := by
      rw [hlength, ← configuredShards_length]
      exact hlt
    have hne : settings.replicaAddresses ≠ [] := List.ne_nil_of_length_pos (by omega)
    rw [if_neg hne, List.getElem?_eq_getElem hgroup]
    exact hsize _ (List.getElem_mem hgroup)

-- The clients of the whole topology are those of the configured addresses.
theorem configuredShards_clients (h : Accepted settings) :
    (settings.configuredShards.flatMap ShardCopies.servingOrder).Perm
      (settings.configured.map HttpShardClient.create) := by
  have hperm := List.flatMap_append_perm settings.configuredShards
    (fun copies => [copies.primary]) ShardCopies.replicas
  rw [← List.map_eq_flatMap, configuredShards_primaries, configuredShards_replicas h] at hperm
  rw [configured, List.map_append]
  exact hperm.symm

theorem baseUrls_nodup_iff (h : Accepted settings) :
    ((settings.configuredShards.flatMap ShardCopies.servingOrder).map
        HttpShardClient.baseUrl).Nodup ↔
      ∀ address ∈ settings.configured, ∀ other ∈ settings.configured,
        ¬ Extends '/' address other := by
  rw [((configuredShards_clients h).map HttpShardClient.baseUrl).nodup_iff, List.map_map,
    List.nodup_map_iff_inj_on h.nodup]
  constructor
  · intro hinj address ha other ho hextends
    have hsame := hinj address ha other ho ((Text.rstrip_eq_iff _ _).mpr (.inr (.inl hextends)))
    obtain ⟨count, hcount⟩ := hextends
    simp [hsame] at hcount
  · intro hapart address ha other ho hsame
    rcases (Text.rstrip_eq_iff _ _).mp hsame with heq | hextends | hextends
    · exact heq
    · exact absurd hextends (hapart address ha other ho)
    · exact absurd hextends (hapart other ho address ha)

end Topology

-- The settings that are accepted give a proper topology, unless an address is another one
-- followed by slashes, which the client strips after the validator has compared them.
theorem accepted_topology_proper_iff (hrole : settings.nodeRole = .coordinator)
    (h : settings.checkTopology = .ok ()) :
    (∃ topology, settings.topology = .ok topology ∧ ProperTopology settings topology) ↔
      ∀ address ∈ settings.configured, ∀ other ∈ settings.configured,
        ¬ Extends '/' address other := by
  have haccepted := accepted_of_check hrole h
  obtain ⟨topology, htopology, hshards⟩ := topology_ok haccepted
  constructor
  · rintro ⟨built, hbuilt, hproper⟩
    cases htopology.symm.trans hbuilt
    have hdistinct := hproper.distinct
    rw [hshards] at hdistinct
    exact (baseUrls_nodup_iff haccepted).mp hdistinct
  · intro hapart
    have hlength : topology.shards.length = settings.shardAddresses.length := by
      rw [hshards, configuredShards_length]
    have hcount := haccepted.count
    refine ⟨topology, htopology, by omega, fun index copies hget => ?_, ?_, ?_,
      fun index copies hget => ?_, ?_, ?_⟩
    · exact topology.getElem?_shardId hget
    · exact hshards ▸ configuredShards_sameReplicas haccepted
    · rw [hshards, configuredShards_primaries]
    · exact (configuredShards_get? (hshards ▸ hget)).2
    · intro α digest connect embedder unicode
      have hmatched : (topology.map connect).shardCount = (settings.router digest).shardCount := by
        simp only [ClusterTopology.shardCount, ClusterTopology.map, List.length_map, router]
        omega
      exact ⟨_, dif_pos hmatched⟩
    · rw [hshards]
      exact (baseUrls_nodup_iff haccepted).mpr hapart

section Example

def replicated : Settings :=
  ⟨.coordinator, none, 2, "http://a, http://b/ ", "http://c;http://d", by decide⟩

theorem replicated_proper :
    ∃ topology, replicated.topology = .ok topology ∧ ProperTopology replicated topology :=
  (accepted_topology_proper_iff rfl (by decide +kernel)).mpr (by decide +kernel)

def slashTwins : Settings := ⟨.coordinator, none, 2, "http://a,http://a/", "", by decide⟩

-- Two shards on one process: the addresses differ, their clients do not.
theorem slashTwins_accepted : slashTwins.checkTopology = .ok () ∧
    ¬ ∃ topology, slashTwins.topology = .ok topology ∧ ProperTopology slashTwins topology := by
  have haccepted : slashTwins.checkTopology = .ok () := by decide +kernel
  refine ⟨haccepted, ?_⟩
  rintro ⟨topology, htopology, hproper⟩
  obtain ⟨built, hbuilt, hshards⟩ := topology_ok (accepted_of_check rfl haccepted)
  cases htopology.symm.trans hbuilt
  have hurls : (slashTwins.configuredShards.flatMap ShardCopies.servingOrder).map
      HttpShardClient.baseUrl = ["http://a", "http://a"] := by decide +kernel
  have hdistinct := hproper.distinct
  rw [hshards, hurls] at hdistinct
  simp at hdistinct

end Example

end PySearch.Settings
