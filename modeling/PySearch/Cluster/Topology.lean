import PySearch.Cluster.Client

namespace PySearch

-- Maps document identifiers onto a fixed number of shards. `digest` is the BLAKE2b digest
-- read as a number, of which nothing but its being a function is used.
structure ShardRouter where
  digest : String → Nat
  shardCount : Nat
  positive : 1 ≤ shardCount

def ShardRouter.shardFor (router : ShardRouter) (documentId : String) : Nat :=
  router.digest documentId % router.shardCount

theorem ShardRouter.shardFor_lt (router : ShardRouter) (documentId : String) :
    router.shardFor documentId < router.shardCount :=
  Nat.mod_lt _ router.positive

variable {κ : Type}

-- Every physical copy of one logical shard.
structure ShardCopies (κ : Type) where
  shardId : Nat
  primary : κ
  replicas : List κ

-- Copies to try for reads, best first.
def ShardCopies.servingOrder (copies : ShardCopies κ) : List κ := copies.primary :: copies.replicas

def ShardCopies.map {κ' : Type} (f : κ → κ') (copies : ShardCopies κ) : ShardCopies κ' :=
  ⟨copies.shardId, f copies.primary, copies.replicas.map f⟩

@[simp] theorem ShardCopies.servingOrder_map {κ' : Type} (f : κ → κ') (copies : ShardCopies κ) :
    (copies.map f).servingOrder = copies.servingOrder.map f := rfl

def ShardCopies.replicationFactor (copies : ShardCopies κ) : Nat := 1 + copies.replicas.length

-- The logical shards of a cluster. A shard at another position than its number is refused.
structure ClusterTopology (κ : Type) where
  shards : List (ShardCopies κ)
  numbered : shards.map ShardCopies.shardId = List.range shards.length

namespace ClusterTopology

def shardCount (topology : ClusterTopology κ) : Nat := topology.shards.length

def replicationFactor (topology : ClusterTopology κ) : Nat :=
  match topology.shards with
  | [] => 1
  | shard :: _ => shard.replicationFactor

def primaryFor (topology : ClusterTopology κ) (shardId : Nat) : Option κ :=
  (topology.shards[shardId]?).map ShardCopies.primary

theorem getElem?_shardId (topology : ClusterTopology κ) {index : Nat} {copies : ShardCopies κ}
    (h : topology.shards[index]? = some copies) : copies.shardId = index := by
  have hmap := congrArg (fun ids => ids[index]?) topology.numbered
  obtain ⟨hlt, hget⟩ := List.getElem?_eq_some_iff.mp h
  simpa [hget, hlt] using hmap

def map {κ' : Type} (f : κ → κ') (topology : ClusterTopology κ) : ClusterTopology κ' where
  shards := topology.shards.map (ShardCopies.map f)
  numbered := by
    rw [List.map_map, List.length_map]
    exact topology.numbered

-- Shards numbered by their position, as every topology that `build_topology` returns.
def ofGroups (groups : List (κ × List κ)) : ClusterTopology κ where
  shards := groups.zipIdx.map fun entry => ⟨entry.2, entry.1.1, entry.1.2⟩
  numbered := by
    rw [List.map_map, List.length_map, List.length_zipIdx]
    exact (List.zipIdx_map_snd 0 groups).trans (by simp [List.range_eq_range'])

-- One round of the loop of `__post_init__`.
def checkPosition (entry : ShardCopies κ × Nat) : Except PyError Unit :=
  if entry.1.shardId = entry.2 then .ok ()
  else .error (.valueError ("shard at position " ++ toString entry.2 ++ " reports id " ++
    toString entry.1.shardId))

theorem numbered_of_checked {shards : List (ShardCopies κ)}
    (h : shards.zipIdx.forM checkPosition = .ok ()) :
    shards.map ShardCopies.shardId = List.range shards.length := by
  apply List.ext_getElem (by simp)
  intro position hposition _
  have hlt : position < shards.length := by simpa using hposition
  have hentry : (shards[position], position) ∈ shards.zipIdx :=
    List.mk_mem_zipIdx_iff_getElem?.mpr (List.getElem?_eq_getElem hlt)
  have hchecked := of_forM_ok h _ hentry
  by_cases hid : shards[position].shardId = position
  · simpa using hid
  · rw [checkPosition, if_neg hid] at hchecked
    cases hchecked

-- The constructor as callers see it.
def create (shards : List (ShardCopies κ)) : Except PyError (ClusterTopology κ) :=
  match h : shards.zipIdx.forM checkPosition with
  | .error error => .error error
  | .ok () => .ok ⟨shards, numbered_of_checked h⟩

-- `build_topology`. Without replica groups every shard has its primary alone.
def buildTopology (primaries : List κ) (replicas : List (List κ)) :
    Except PyError (ClusterTopology κ) :=
  if replicas ≠ [] ∧ replicas.length ≠ primaries.length then
    .error (.valueError (toString primaries.length ++ " primaries but " ++
      toString replicas.length ++ " replica groups were given"))
  else
    create (primaries.zipIdx.map fun (primary, shardId) =>
      ⟨shardId, primary, (replicas[shardId]?).getD []⟩)

theorem create_ok {shards : List (ShardCopies κ)}
    (h : shards.map ShardCopies.shardId = List.range shards.length) :
    create shards = .ok ⟨shards, h⟩ := by
  have hchecked : shards.zipIdx.forM checkPosition = .ok () := by
    apply forM_ok
    rintro ⟨shard, position⟩ hentry
    have hget := List.mk_mem_zipIdx_iff_getElem?.mp hentry
    obtain ⟨hlt, rfl⟩ := List.getElem?_eq_some_iff.mp hget
    have hids := congrArg (fun ids => ids[position]?) h
    rw [checkPosition, if_pos (by simpa [hlt] using hids)]
  unfold create
  split
  · rename_i herror
    rw [hchecked] at herror
    cases herror
  · rfl

theorem buildTopology_ok {primaries : List κ} {replicas : List (List κ)}
    (h : replicas = [] ∨ replicas.length = primaries.length) :
    ∃ topology, buildTopology primaries replicas = .ok topology ∧
      topology.shards = primaries.zipIdx.map fun (primary, shardId) =>
        ⟨shardId, primary, (replicas[shardId]?).getD []⟩ := by
  have hnumbered : (primaries.zipIdx.map fun (primary, shardId) =>
      (⟨shardId, primary, (replicas[shardId]?).getD []⟩ : ShardCopies κ)).map ShardCopies.shardId =
        List.range (primaries.zipIdx.map fun (primary, shardId) =>
          (⟨shardId, primary, (replicas[shardId]?).getD []⟩ : ShardCopies κ)).length := by
    rw [List.map_map, List.length_map, List.length_zipIdx]
    exact (List.zipIdx_map_snd 0 primaries).trans (by simp [List.range_eq_range'])
  refine ⟨⟨_, hnumbered⟩, ?_, rfl⟩
  rw [buildTopology, if_neg (by tauto)]
  exact create_ok hnumbered

end ClusterTopology

section Example

def twoShards : ShardRouter := ⟨fun id => if id = "a" then 0 else 1, 2, by decide⟩

example : ["a", "b", "c"].map twoShards.shardFor = [0, 1, 1] := by decide

end Example

end PySearch
