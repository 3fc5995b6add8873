import PySearch.Cluster.Replicator.Served
import PySearch.Cluster.SerialCluster

namespace PySearch

open Shard (Fresh)

variable {α : Type}

section Answers

variable [Arith α] [LinearOrder α] {ctx : EngineContext α}

end Answers

-- What is known to be stored under an identifier, if anything is known at all.
abbrev Knowledge := String → Option (Option Document)

namespace SerialCluster

def requested (events : List ClusterEvent) : List Mutation :=
  events.flatMap fun
    | .write mutation _ _ => [mutation]
    | _ => []

end SerialCluster

namespace Shard

-- From everything that was acknowledged on, the history leaves the value.
def Newest (shard : Shard α) (id : String) (value : Option Document) : Prop :=
  ∀ count : Nat, (∀ generation ∈ shard.acknowledged, generation ≤ count) →
    (Database.replay (shard.history.take count)).rows.get? id = value

-- The history of a shard is made of requested writes to its own identifiers, and leaves what
-- is known about them.
structure Accounted (router : ShardRouter) (shardId : Nat) (requested : List Mutation)
    (known : Knowledge) (shard : Shard α) : Prop where
  owned : ∀ mutation ∈ shard.history,
    router.shardFor mutation.documentId = shardId ∧ mutation ∈ requested
  newest : ∀ id value, router.shardFor id = shardId → known id = some value →
    shard.Newest id value

end Shard

namespace SerialShard

variable [Arith α] [LinearOrder α] {ctx : EngineContext α} {shard next : Shard α}
  {event : SerialEvent} {status : Option Nat}

theorem Answers.newest_other (h : Answers ctx shard event status next) {id : String}
    {value : Option Document}
    (hother : ∀ mutation, event.mutation = some mutation → mutation.documentId ≠ id)
    (hn : shard.Newest id value) : next.Newest id value := by
  intro count hcount
  have hbefore : ∀ generation ∈ shard.acknowledged, generation ≤ (count : Int) := by
    intro generation hgeneration
    apply hcount
    rcases h.told with ⟨hsame, -⟩ | ⟨_, -, -, hcons⟩
    · rw [hsame]
      exact hgeneration
    · rw [hcons]
      exact .tail _ hgeneration
  have hvalue := hn count hbefore
  rcases h.committed with hsame | ⟨mutation, hasked, happend⟩
  · rw [hsame]
    exact hvalue
  · rw [happend]
    by_cases hlength : count ≤ shard.history.length
    · rw [List.take_append_of_le_length hlength]
      exact hvalue
    · have hwhole : (shard.history ++ [mutation]).length ≤ count := by
        rw [List.length_append, List.length_singleton]
        omega
      have hne : ¬id = mutation.documentId := fun he => hother mutation hasked he.symm
      rw [List.take_of_length_le hwhole, Database.replay_append, Database.apply_get?, if_neg hne]
      rwa [List.take_of_length_le (by omega)] at hvalue

theorem Answers.newest_confirmed (h : Answers ctx shard event status next) {mutation : Mutation}
    (hasked : event.mutation = some mutation) {code : Nat} (hstatus : status = some code)
    (hcode : code < 300) : next.Newest mutation.documentId mutation.stored := by
  rcases h.told with ⟨-, hunasked | hrefused⟩ | ⟨other, hother, happend, hcons⟩
  · rw [hasked] at hunasked
    cases hunasked
  · have hle := hrefused code hstatus
    omega
  · obtain rfl := Option.some.inj (hasked.symm.trans hother)
    intro count hcount
    have hwhole : next.history.length ≤ count := by
      exact_mod_cast hcount _ (hcons ▸ List.mem_cons_self)
    rw [List.take_of_length_le hwhole, happend, Database.replay_append, Database.apply_get?,
      if_pos rfl]

-- What may be known afterwards: what was known before about identifiers that the event does
-- not write to, and what a confirmed write has stored.
def Learns (event : SerialEvent) (status : Option Nat) (known later : Knowledge) : Prop :=
  ∀ id value, later id = some value →
    known id = some value ∧ (∀ mutation, event.mutation = some mutation →
      mutation.documentId ≠ id) ∨
    ∃ mutation code, event.mutation = some mutation ∧ mutation.documentId = id ∧
      mutation.stored = value ∧ status = some code ∧ code < 300

theorem Answers.accounted {router : ShardRouter} {shardId : Nat} {requested : List Mutation}
    {known later : Knowledge} (h : Answers ctx shard event status next)
    (ha : shard.Accounted router shardId requested known)
    (hasked : ∀ mutation, event.mutation = some mutation →
      router.shardFor mutation.documentId = shardId ∧ mutation ∈ requested)
    (hlearns : Learns event status known later) :
    next.Accounted router shardId requested later := by
  refine ⟨?_, ?_⟩
  · rcases h.committed with hsame | ⟨mutation, hmutation, happend⟩
    · rw [hsame]
      exact ha.owned
    · rw [happend]
      intro other hother
      rcases List.mem_append.mp hother with hold | hnew
      · exact ha.owned other hold
      · rw [List.mem_singleton.mp hnew]
        exact hasked mutation hmutation
  · intro id value hid hvalue
    rcases hlearns id value hvalue with ⟨hknown, hother⟩ | ⟨mutation, code, hmutation, hsame,
      hstored, hstatus, hcode⟩
    · exact h.newest_other hother (ha.newest id value hid hknown)
    · have hconfirmed := h.newest_confirmed hmutation hstatus hcode
      rwa [hsame, hstored] at hconfirmed

end SerialShard

namespace SerialCluster

variable [Arith α] [LinearOrder α] {ctx : EngineContext α} {stack : HttpStack}
  {url : Nat → Option Nat → String} {replicas : Nat → Nat} {requests : List Mutation}
  {cluster : SerialCluster α} {known later : Knowledge} {ghosts : List (Shard α)}

-- Every shard of the cluster is in a state of the interleaving model that accounts for what
-- is known.
structure Shadows (ctx : EngineContext α) (stack : HttpStack) (replicas : Nat → Nat)
    (requests : List Mutation) (cluster : SerialCluster α) (known : Knowledge)
    (ghosts : List (Shard α)) : Prop where
  length : ghosts.length = cluster.shards.length
  shards : ∀ (shardId : Nat) serial ghost, cluster.shards[shardId]? = some serial →
    ghosts[shardId]? = some ghost →
      SerialShard.Tracks stack serial ghost ∧ Fresh ctx (.initial (replicas shardId)) ghost ∧
        ghost.Accounted cluster.router shardId requests known
  inFlight : ∀ mutation ∈ cluster.inFlight, mutation ∈ requests

-- One shard takes a step, and nothing else changes.
theorem Shadows.step (h : Shadows ctx stack replicas requests cluster known ghosts) {shardId : Nat}
    {serial : SerialShard α} (hserial : cluster.shards[shardId]? = some serial)
    (url : Option Nat → String) (event : SerialEvent)
    (hasked : ∀ mutation, event.mutation = some mutation →
      cluster.router.shardFor mutation.documentId = shardId ∧ mutation ∈ requests)
    (hcarried : ∀ mutation, event.mutation = some mutation →
      stack.replicaId mutation.documentId = some mutation.documentId)
    (hlearns : SerialShard.Learns event (serial.occur ctx stack url event).1 known later) :
    ∃ others, Shadows ctx stack replicas requests
      (cluster.setShard shardId (serial.occur ctx stack url event).2) later others := by
  have hlt : shardId < ghosts.length := by
    rw [h.length]
    exact (List.getElem?_eq_some_iff.mp hserial).1
  have hghost : ghosts[shardId]? = some ghosts[shardId] := List.getElem?_eq_getElem hlt
  obtain ⟨htracks, hfresh, haccounted⟩ := h.shards shardId serial _ hserial hghost
  obtain ⟨next, hanswers, hnext⟩ :=
    SerialShard.occur_answers url (Shard.reaches_settled hfresh) htracks event hcarried
  refine ⟨ghosts.set shardId next, ?_, ?_, h.inFlight⟩
  · rw [setShard, List.length_set, List.length_set, h.length]
  · intro other serial' ghost' hserial' hghost'
    by_cases hother : shardId = other
    · subst hother
      rw [setShard, List.getElem?_set_self (by rw [← h.length]; exact hlt)] at hserial'
      rw [List.getElem?_set_self hlt] at hghost'
      cases hserial'
      cases hghost'
      exact ⟨hnext, hfresh.trans hanswers.run, hanswers.accounted haccounted hasked hlearns⟩
    · rw [setShard, List.getElem?_set_ne hother] at hserial'
      rw [List.getElem?_set_ne hother] at hghost'
      obtain ⟨htracks', hfresh', haccounted'⟩ := h.shards other serial' ghost' hserial' hghost'
      refine ⟨htracks', hfresh', haccounted'.owned, ?_⟩
      intro id value hid hvalue
      rcases hlearns id value hvalue with ⟨hknown, -⟩ | ⟨mutation, _, hmutation, rfl, -⟩
      · exact haccounted'.newest id value hid hknown
      · exact absurd ((hasked mutation hmutation).1.symm.trans hid) hother

end SerialCluster

end PySearch
