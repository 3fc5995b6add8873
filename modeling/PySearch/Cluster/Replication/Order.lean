import PySearch.Cluster.Replication.Following

namespace PySearch

variable {α : Type}

namespace Shard

-- One while the pending write has not been sent to anybody, and zero otherwise.
def unsent (shard : Shard α) : Nat :=
  match shard.write with
  | some write => if write.next = 0 ∧ write.awaiting = false then 1 else 0
  | none => 0

-- No write is given up before its request is on its way.
def underWay (shard : Shard α) (action : ShardAction) : Bool :=
  !action.abandons || decide (shard.unsent = 0)

end Shard

-- A primary with one replica. A request may wait at the replica while the primary has long
-- given up on it, and is processed once. `processed` are the requests that the replica has
-- processed, in the order in which it took them.
structure Delivery (α : Type) where
  shard : Shard α
  processed : List Nat

namespace Delivery

def initial : Delivery α := ⟨.initial 1, []⟩

-- The generations of the processed requests, in order.
def generations (delivery : Delivery α) : List Int :=
  delivery.processed.filterMap fun index =>
    delivery.shard.sent[index]?.map ReplicationRequest.generation

-- The replica is ready when it processes the request, or has its generation already.
def takes (delivery : Delivery α) (index : Nat) : Bool :=
  match delivery.shard.sent[index]?, delivery.shard.replicas[0]? with
  | some request, some (Node.up engine _ _) =>
      decide (engine.state = .ready ∨ request.generation ≤ engine.generation)
  | _, _ => true

-- A request is sent when no earlier one waits, and the replica refuses none.
def orderly (delivery : Delivery α) : ShardAction → Bool
  | .send => decide (delivery.processed.length = delivery.shard.sent.length)
  | .deliver index _ => delivery.takes index
  | _ => true

section Processed

variable {ι β : Type}

theorem filterMap_range (sent : List ι) (f : ι → β) {count : Nat} (h : count ≤ sent.length) :
    ((List.range count).filterMap fun index => sent[index]?.map f) = (sent.take count).map f := by
  induction count with
  | zero => rfl
  | succ count ih =>
      have hlast : sent[count]? = some sent[count] := List.getElem?_eq_getElem h
      rw [List.range_succ, List.filterMap_append, ih (by omega), List.take_add_one, List.map_append,
        hlast]
      simp [hlast]

end Processed

variable [Arith α] [LinearOrder α] (ctx : EngineContext α)

def step (delivery : Delivery α) (action : ShardAction) : Option (Delivery α) :=
  match action with
  | .deliver index faults =>
      if index ∈ delivery.processed then none
      else (delivery.shard.step ctx (.deliver index faults)).map fun shard =>
        ⟨shard, delivery.processed ++ [index]⟩
  | other => (delivery.shard.step ctx other).map fun shard => ⟨shard, delivery.processed⟩

end Delivery

variable [Arith α] [LinearOrder α] {ctx : EngineContext α}

-- A replica that is ready for a request, or has its generation, has stored it afterwards.
theorem SearchEngine.applyReplicated_stores {engine : SearchEngine α} (hc : ctx.Contract)
    (hhealthy : engine.state = .ready → engine.Healthy ctx)
    (hcounted : engine.generation = engine.store.database.generation) (mutation : Mutation)
    {generation : Int} (htakes : engine.state = .ready ∨ generation ≤ engine.generation)
    (hnear : generation ≤ engine.generation + 1) : generation ≤
      (engine.applyReplicated ctx mutation generation .none).2.store.database.generation := by
  have heffect := @SearchEngine.applyReplicated_effect _ _ ctx engine mutation generation .none
  generalize hresult : engine.applyReplicated ctx mutation generation .none = pair at heffect ⊢
  obtain ⟨result, after⟩ := pair
  dsimp only at heffect ⊢
  cases heffect with
  | refused error =>
      by_cases hknown : generation ≤ engine.generation
      · exact hcounted ▸ hknown
      · obtain ⟨applied, happlied⟩ := (hhealthy (htakes.resolve_right hknown)).applyReplicated hc
          mutation
        rw [show generation = engine.generation + 1 by omega, happlied] at hresult
        cases hresult
  | duplicate known => exact hcounted ▸ known
  | gap after ahead store derived kept state => omega
  | degraded reason after ready inLine store kept state =>
      rw [store, SearchEngine.committed, Database.apply_generation]
  | applied after ready inLine store advanced state exact =>
      rw [store, SearchEngine.committed, Database.apply_generation]

theorem Node.step_applyAction {engine : SearchEngine α} {resyncs : List Resync}
    {request : ReplicationRequest} {faults : Faults} {after : Node α}
    (h : (up engine .serving resyncs).step ctx .replica (request.applyAction faults) = some after) :
    after = up (engine.applyReplicated ctx request.mutation request.generation faults).2 .serving
      resyncs := by
  obtain ⟨target, mutation, generation⟩ := request
  cases mutation <;> exact (Option.some.inj h).symm

namespace Shard

variable {shard next : Shard α} {action : ShardAction}

theorem step_alone (hstep : shard.step ctx action = some next) :
    next.replicas.length = shard.replicas.length := by
  have hreplica : ∀ {index action}, shard.stepReplica ctx index action = some next →
      next.replicas.length = shard.replicas.length := by
    intro index action hreplica
    obtain ⟨_, _, _, _, rfl⟩ := stepReplica_step hreplica
    exact List.length_set
  cases step_moves hstep with
  | delivered index faults request engine after resyncs result answered waiting serving effect told =>
      exact List.length_set
  | exported engine resyncs replica index next serving step => exact hreplica step
  | told engine resyncs replica next serving step => exact hreplica step
  | replica index action next ownAction step => exact hreplica step
  | _ => rfl

omit [Arith α] [LinearOrder α] in
theorem unsent_of_idle (h : shard.write = none) : shard.unsent = 0 := by
  rw [unsent, h]

-- Only a write and its sending change what has been sent and what is yet to be sent, as
-- long as no write is given up before that.
theorem step_unsent (halone : 0 < shard.replicas.length) (hattended : Attended shard)
    (hunder : shard.underWay action = true) (hstep : shard.step ctx action = some next) :
    (∃ mutation faults, action = .write mutation faults) ∨ action = .send ∨
      next.sent = shard.sent ∧ next.history = shard.history ∧ next.unsent = shard.unsent := by
  have hreplica : ∀ {index action}, shard.stepReplica ctx index action = some next →
      next.sent = shard.sent ∧ next.history = shard.history ∧ next.unsent = shard.unsent := by
    intro index action hreplica
    obtain ⟨_, _, _, _, rfl⟩ := stepReplica_step hreplica
    exact ⟨rfl, rfl, rfl⟩
  have hended : next.write = none → next.unsent = shard.unsent := by
    intro hnone
    rw [unsent_of_idle hnone]
    by_cases hidle : shard.write = none
    · rw [unsent_of_idle hidle]
    · rcases (step_attended hattended hstep).2 hidle hnone with habandons | ⟨write, hwrite, hall⟩
      · simpa [underWay, habandons, eq_comm] using hunder
      · simp only [unsent, hwrite]
        exact (if_neg fun hfirst => absurd hfirst.1 (by omega)).symm
  cases step_moves hstep with
  | wrote engine after resyncs mutation faults result record pending idle serving effect recorded
      kept => exact .inl ⟨mutation, faults, rfl⟩
  | sent write pending more => exact .inr (.inl rfl)
  | delivered index faults request engine after resyncs result answered waiting serving effect told =>
      exact .inr (.inr ⟨rfl, rfl, rfl⟩)
  | replied write pending told =>
      simp only [step, pending] at hstep
      split at hstep
      · rename_i hawaiting
        exact .inr (.inr ⟨rfl, rfl, by simp [unsent, pending, hawaiting.1]⟩)
      · cases hstep
  | gaveUp write pending => exact .inr (.inr ⟨rfl, rfl, hended rfl⟩)
  | acknowledged write pending all => exact .inr (.inr ⟨rfl, rfl, hended rfl⟩)
  | exported engine resyncs replica index next serving step => exact .inr (.inr (hreplica step))
  | told engine resyncs replica next serving step => exact .inr (.inr (hreplica step))
  | primary own node pending ownAction moves kept =>
      rcases kept with rfl | rfl
      · exact .inr (.inr ⟨rfl, rfl, rfl⟩)
      · exact .inr (.inr ⟨rfl, rfl, hended rfl⟩)
  | replica index action next ownAction step => exact .inr (.inr (hreplica step))

end Shard

namespace Delivery

variable {delivery next : Delivery α} {action : ShardAction}

-- The replica takes the requests in the order in which they were sent, and at most one
-- waits. It has stored all of the history but for what waits and what is yet to be sent.
structure InOrder (delivery : Delivery α) : Prop where
  alone : delivery.shard.replicas.length = 1
  behind : ∀ node, delivery.shard.replicas[0]? = some node → node.Behind
  following : ∀ node, delivery.shard.replicas[0]? = some node → node.Following
  attended : delivery.shard.Attended
  targets : ∀ request ∈ delivery.shard.sent, request.target = 0
  below : ∀ request ∈ delivery.shard.sent,
    request.generation + delivery.shard.unsent ≤ delivery.shard.history.length
  increasing : (delivery.shard.sent.map ReplicationRequest.generation).Pairwise (· < ·)
  first : delivery.processed = List.range delivery.processed.length
  waits : delivery.processed.length ≤ delivery.shard.sent.length ∧
    delivery.shard.sent.length ≤ delivery.processed.length + 1
  last : ∀ request, delivery.shard.sent[delivery.processed.length]? = some request →
    request.generation + delivery.shard.unsent = delivery.shard.history.length
  stored : ∀ node, delivery.shard.replicas[0]? = some node →
    (delivery.shard.history.length + delivery.processed.length : Int) ≤
      node.database.generation + delivery.shard.sent.length + delivery.shard.unsent

omit [Arith α] [LinearOrder α] in
theorem initial_inOrder : InOrder (initial : Delivery α) where
  alone := rfl
  behind node hnode := by
    cases hnode
    trivial
  following node hnode := by
    cases hnode
    trivial
  attended hpending := absurd rfl hpending
  targets _ hrequest := by cases hrequest
  below _ hrequest := by cases hrequest
  increasing := .nil
  first := rfl
  waits := ⟨le_refl _, Nat.zero_le _⟩
  last _ hrequest := by cases hrequest
  stored node hnode := by
    cases hnode
    exact le_refl 0

omit [Arith α] [LinearOrder α] in
theorem InOrder.generations (h : InOrder delivery) : delivery.generations.Pairwise (· < ·) := by
  rw [Delivery.generations, h.first, filterMap_range _ _ h.waits.1, List.map_take]
  exact h.increasing.sublist (List.take_sublist _ _)

omit [Arith α] [LinearOrder α] in
-- A request that has not been processed is the last one sent.
theorem InOrder.waiting_last (h : InOrder delivery) {index : Nat} {request : ReplicationRequest}
    (hwaiting : index ∉ delivery.processed) (hrequest : delivery.shard.sent[index]? = some request) :
    index = delivery.processed.length ∧
      request.generation + delivery.shard.unsent = delivery.shard.history.length := by
  rw [h.first, List.mem_range] at hwaiting
  have hbound := (List.getElem?_eq_some_iff.mp hrequest).1
  have hwaits := h.waits
  have hindex : index = delivery.processed.length := by omega
  subst hindex
  exact ⟨rfl, h.last request hrequest⟩

-- What every step of the shard keeps: the replica follows and loses nothing it has stored.
structure Kept (delivery : Delivery α) (shard : Shard α) : Prop where
  alone : shard.replicas.length = 1
  behind : ∀ node, shard.replicas[0]? = some node → node.Behind
  following : ∀ node, shard.replicas[0]? = some node → node.Following
  attended : shard.Attended
  stored : ∀ node, shard.replicas[0]? = some node →
    (delivery.shard.history.length + delivery.processed.length : Int) ≤
      node.database.generation + delivery.shard.sent.length + delivery.shard.unsent

theorem step_kept {shard : Shard α} (hc : ctx.Contract) (hs : Shard.Settled ctx delivery.shard)
    (h : InOrder delivery) (hclear : delivery.shard.faultless 0 action = true)
    (hwaiting : ∀ index faults, action = .deliver index faults → index ∉ delivery.processed)
    (hstep : delivery.shard.step ctx action = some shard) : Kept delivery shard := by
  have hfresh := Shard.faultless_fresh hclear
  refine ⟨(Shard.step_alone hstep).trans h.alone,
    (Shard.step_reached hs.consistent h.behind hfresh hstep).1, ?_,
    (Shard.step_attended h.attended hstep).1, ?_⟩
  · refine Shard.step_follows hc hs hclear h.following ?_ hstep
    rintro index faults request node rfl hrequest - hnode
    have hlast := h.waiting_last (hwaiting index faults rfl) hrequest
    have hstored := h.stored node hnode
    have hwaits := h.waits
    omega
  · intro node hnode
    have hone := h.alone
    have hbefore := List.getElem?_eq_getElem (l := delivery.shard.replicas) (i := 0) (by omega)
    have hgrows := Shard.step_grows hs.consistent h.behind hfresh hstep hbefore hnode
    have hstored := h.stored _ hbefore
    omega

theorem step_cases (h : delivery.step ctx action = some next) :
    ∃ shard, delivery.shard.step ctx action = some shard ∧
      ((∃ index faults, action = .deliver index faults ∧ index ∉ delivery.processed ∧
        next = ⟨shard, delivery.processed ++ [index]⟩) ∨
      (∀ index faults, action ≠ .deliver index faults) ∧ next = ⟨shard, delivery.processed⟩) := by
  unfold step at h
  split at h
  · rename_i index faults
    split at h
    · cases h
    · rename_i hwaiting
      obtain ⟨shard, hshard, rfl⟩ := Option.map_eq_some_iff.mp h
      exact ⟨shard, hshard, .inl ⟨index, faults, rfl, hwaiting, rfl⟩⟩
  · rename_i hother
    obtain ⟨shard, hshard, rfl⟩ := Option.map_eq_some_iff.mp h
    exact ⟨shard, hshard, .inr ⟨hother, rfl⟩⟩

-- A processed request is stored.
theorem deliver_stores {shard : Shard α} {index : Nat} {faults : Faults} (hc : ctx.Contract)
    (hs : Shard.Settled ctx delivery.shard) (h : InOrder delivery)
    (hclear : delivery.shard.faultless 0 (.deliver index faults) = true)
    (htakes : delivery.takes index = true) (hwaiting : index ∉ delivery.processed)
    (hstep : delivery.shard.step ctx (.deliver index faults) = some shard) :
    index = delivery.processed.length ∧ index < delivery.shard.sent.length ∧
      ∀ node, shard.replicas[0]? = some node → (delivery.shard.history.length : Int) ≤
        node.database.generation + delivery.shard.unsent := by
  cases Shard.step_moves hstep with
  | delivered index faults request engine after resyncs result answered waiting serving effect told =>
      obtain ⟨hindex, hlast⟩ := h.waiting_last hwaiting waiting
      refine ⟨hindex, (List.getElem?_eq_some_iff.mp waiting).1, ?_⟩
      have htarget := h.targets request (List.mem_of_getElem? waiting)
      rw [htarget] at serving
      have hasked : delivery.shard.asked 0 (.deliver index faults) =
          some (request.applyAction faults) := by
        simp only [Shard.asked, waiting, htarget, if_true]
      have hnone : faults = .none := by
        have hown := Shard.faultless_asked hclear hasked serving
        rw [request.applyAction_eq] at hown
        exact Node.faultless_replicate hown
      simp only [takes, waiting, serving, decide_eq_true_iff] at htakes
      have hcounted := (h.following _ serving).stored (by simp)
      have hhealthy : engine.state = .ready → engine.Healthy ctx :=
        hs.healthy (List.mem_cons_of_mem _ (List.mem_of_getElem? serving))
      have hnear : request.generation ≤ engine.generation + 1 := by
        have hstored := h.stored _ serving
        have hwaits := h.waits
        rw [Node.database_up] at hstored
        omega
      have hreached := SearchEngine.applyReplicated_stores hc hhealthy hcounted request.mutation
        htakes hnear
      intro node hnode
      rcases Shard.step_asked hstep with ⟨hnothing, -⟩ | ⟨own, before, moved, hown, hbefore, hmoved,
        hafter⟩
      · rw [hasked] at hnothing
        cases hnothing
      · cases hasked.symm.trans hown
        cases serving.symm.trans hbefore
        cases hafter.symm.trans hnode
        rw [Node.step_applyAction hmoved, hnone, Node.database_up]
        omega

omit [Arith α] [LinearOrder α] in
-- A step that neither writes nor sends changes no count.
theorem InOrder.keep {shard : Shard α} (h : InOrder delivery) (hk : Kept delivery shard)
    (hsent : shard.sent = delivery.shard.sent) (hhistory : shard.history = delivery.shard.history)
    (hunsent : shard.unsent = delivery.shard.unsent) : InOrder ⟨shard, delivery.processed⟩ where
  alone := hk.alone
  behind := hk.behind
  following := hk.following
  attended := hk.attended
  targets := hsent ▸ h.targets
  below := by
    rw [hsent, hhistory, hunsent]
    exact h.below
  increasing := hsent ▸ h.increasing
  first := h.first
  waits := hsent ▸ h.waits
  last := by
    rw [hsent, hhistory, hunsent]
    exact h.last
  stored := by
    rw [hsent, hhistory, hunsent]
    exact hk.stored

omit [Arith α] [LinearOrder α] in
-- When the request that waits is processed, none waits.
theorem InOrder.deliver {shard : Shard α} (h : InOrder delivery) (hk : Kept delivery shard)
    (hsent : shard.sent = delivery.shard.sent) (hhistory : shard.history = delivery.shard.history)
    (hunsent : shard.unsent = delivery.shard.unsent)
    (hwaiting : delivery.processed.length < delivery.shard.sent.length)
    (hstored : ∀ node, shard.replicas[0]? = some node →
      (delivery.shard.history.length : Int) ≤ node.database.generation + delivery.shard.unsent) :
    InOrder ⟨shard, delivery.processed ++ [delivery.processed.length]⟩ where
  alone := hk.alone
  behind := hk.behind
  following := hk.following
  attended := hk.attended
  targets := hsent ▸ h.targets
  below := by
    rw [hsent, hhistory, hunsent]
    exact h.below
  increasing := hsent ▸ h.increasing
  first := by
    rw [List.length_append, List.length_singleton, List.range_succ, ← h.first]
  waits := by
    have hwaits := h.waits
    rw [hsent, List.length_append, List.length_singleton]
    omega
  last request hrequest := by
    have hwaits := h.waits
    have hbound := (List.getElem?_eq_some_iff.mp hrequest).1
    rw [hsent, List.length_append, List.length_singleton] at hbound
    omega
  stored node hnode := by
    have hall := hstored node hnode
    rw [hsent, hhistory, hunsent, List.length_append, List.length_singleton]
    omega

omit [Arith α] [LinearOrder α] in
-- A write adds to the history what is then yet to be sent.
theorem InOrder.write {shard : Shard α} (h : InOrder delivery) (hk : Kept delivery shard)
    (hidle : delivery.shard.unsent = 0) (hsent : shard.sent = delivery.shard.sent)
    (hgrown : shard.history.length = delivery.shard.history.length + shard.unsent) :
    InOrder ⟨shard, delivery.processed⟩ where
  alone := hk.alone
  behind := hk.behind
  following := hk.following
  attended := hk.attended
  targets := hsent ▸ h.targets
  below request hrequest := by
    have hbelow := h.below request (hsent ▸ hrequest)
    show request.generation + shard.unsent ≤ shard.history.length
    omega
  increasing := hsent ▸ h.increasing
  first := h.first
  waits := hsent ▸ h.waits
  last request hrequest := by
    have hlast := h.last request (hsent ▸ hrequest)
    show request.generation + shard.unsent = shard.history.length
    omega
  stored node hnode := by
    have hstored := hk.stored node hnode
    show (shard.history.length + delivery.processed.length : Int) ≤
      node.database.generation + shard.sent.length + shard.unsent
    rw [hsent]
    omega

omit [Arith α] [LinearOrder α] in
-- Sending the pending write makes it the request that waits.
theorem InOrder.send {shard : Shard α} {request : ReplicationRequest} (h : InOrder delivery)
    (hk : Kept delivery shard) (hnone : delivery.processed.length = delivery.shard.sent.length)
    (hpending : delivery.shard.unsent = 1) (hzero : shard.unsent = 0)
    (hhistory : shard.history = delivery.shard.history)
    (hsent : shard.sent = delivery.shard.sent ++ [request]) (htarget : request.target = 0)
    (hgeneration : request.generation = delivery.shard.history.length) :
    InOrder ⟨shard, delivery.processed⟩ where
  alone := hk.alone
  behind := hk.behind
  following := hk.following
  attended := hk.attended
  targets other hother := by
    rw [hsent] at hother
    rcases List.mem_append.mp hother with hold | hlast
    · exact h.targets other hold
    · rw [List.mem_singleton.mp hlast]
      exact htarget
  below other hother := by
    rw [hsent] at hother
    rw [hzero, hhistory]
    rcases List.mem_append.mp hother with hold | hlast
    · have hbelow := h.below other hold
      omega
    · rw [List.mem_singleton.mp hlast]
      omega
  increasing := by
    rw [hsent, List.map_append, List.pairwise_append]
    refine ⟨h.increasing, List.pairwise_singleton _ _, ?_⟩
    intro generation hearlier last hlast
    obtain ⟨earlier, hmem, rfl⟩ := List.mem_map.mp hearlier
    have hbelow := h.below earlier hmem
    rw [List.map_singleton, List.mem_singleton] at hlast
    omega
  first := h.first
  waits := by
    show delivery.processed.length ≤ shard.sent.length ∧
      shard.sent.length ≤ delivery.processed.length + 1
    rw [hsent, List.length_append, List.length_singleton]
    omega
  last other hother := by
    rw [hsent, hnone, List.getElem?_concat_length] at hother
    cases hother
    rw [hzero, hhistory]
    omega
  stored node hnode := by
    have hstored := hk.stored node hnode
    show (shard.history.length + delivery.processed.length : Int) ≤
      node.database.generation + shard.sent.length + shard.unsent
    rw [hsent, hzero, hhistory, List.length_append, List.length_singleton]
    omega

theorem step_send {shard : Shard α} (hs : Shard.Settled ctx delivery.shard) (h : InOrder delivery)
    (hstep : delivery.shard.step ctx .send = some shard) :
    delivery.shard.unsent = 1 ∧ shard.unsent = 0 ∧ shard.history = delivery.shard.history ∧
      ∃ request, shard.sent = delivery.shard.sent ++ [request] ∧ request.target = 0 ∧
        request.generation = (delivery.shard.history.length : Int) := by
  have halone := h.alone
  simp only [Shard.step] at hstep
  split at hstep
  · rename_i write hwrite
    split at hstep
    · rename_i hmore
      obtain ⟨hnext, hawaiting⟩ := hmore
      have hfirst : write.next = 0 := by omega
      cases hstep
      refine ⟨?_, ?_, rfl, _, rfl, hfirst, hs.latest write hwrite⟩
      · simp [Shard.unsent, hwrite, hfirst, hawaiting]
      · simp [Shard.unsent]
    · cases hstep
  · cases hstep

theorem step_inOrder (hc : ctx.Contract) (hs : Shard.Settled ctx delivery.shard)
    (h : InOrder delivery) (hclear : delivery.shard.faultless 0 action = true)
    (hunder : delivery.shard.underWay action = true) (horderly : delivery.orderly action = true)
    (hstep : delivery.step ctx action = some next) : InOrder next := by
  obtain ⟨shard, hshard, hcases⟩ := step_cases hstep
  have hwaiting : ∀ index faults, action = .deliver index faults → index ∉ delivery.processed := by
    intro index faults haction
    rcases hcases with ⟨other, others, hother, hnew, -⟩ | ⟨hnone, -⟩
    · cases haction.symm.trans hother
      exact hnew
    · exact absurd haction (hnone index faults)
  have hk := step_kept hc hs h hclear hwaiting hshard
  have hone := h.alone
  have hframe := Shard.step_unsent (by omega) h.attended hunder hshard
  rcases hcases with ⟨index, faults, rfl, hnew, rfl⟩ | ⟨hother, rfl⟩
  · obtain ⟨hsent, hhistory, hunsent⟩ := (hframe.resolve_left (by simp)).resolve_left (by simp)
    obtain ⟨rfl, hlt, hstored⟩ := deliver_stores hc hs h hclear horderly hnew hshard
    exact h.deliver hk hsent hhistory hunsent hlt hstored
  rcases hframe with ⟨mutation, faults, rfl⟩ | rfl | ⟨hsent, hhistory, hunsent⟩
  · obtain ⟨hidle, hsent, hwrite⟩ :=
      Shard.write_cases hc hs (Shard.faultless_write hclear) hshard
    refine h.write hk (Shard.unsent_of_idle hidle) hsent ?_
    rcases hwrite with ⟨hsame, hnone⟩ | ⟨hrecord, generation, created, hpending⟩
    · rw [hsame, Shard.unsent_of_idle hnone]
      rfl
    · rw [hrecord, List.length_append, List.length_singleton]
      simp [Shard.unsent, hpending]
  · obtain ⟨hpending, hzero, hhistory, request, hsent, htarget, hgeneration⟩ :=
      step_send hs h hshard
    exact h.send hk (of_decide_eq_true horderly) hpending hzero hhistory hsent htarget hgeneration
  · exact h.keep hk hsent hhistory hunsent

-- When a request is sent only once no earlier one waits, and the replica refuses none, the
-- replica processes them by increasing generation and stays in step.
theorem processed_in_order (hc : ctx.Contract)
    (h : Run.Reaches (step ctx)
      (fun delivery action => delivery.shard.faultless 0 action = true ∧
        delivery.shard.underWay action = true ∧ delivery.orderly action = true) initial delivery) :
    delivery.generations.Pairwise (· < ·) ∧
      ∀ engine phase resyncs, .up engine phase resyncs ∈ delivery.shard.replicas →
        engine.state ≠ .outOfSync := by
  obtain ⟨-, horder⟩ := @Run.invariant _ _ _ _
    (fun delivery : Delivery α => Shard.Settled ctx delivery.shard ∧ InOrder delivery) (by
      intro before action after hcond hstep hinv
      obtain ⟨hs, horder⟩ := hinv
      refine ⟨?_, step_inOrder hc hs horder hcond.1 hcond.2.1 hcond.2.2 hstep⟩
      obtain ⟨shard, hshard, ⟨_, _, -, -, rfl⟩ | ⟨-, rfl⟩⟩ := step_cases hstep
      · exact Shard.step_settled hs hshard
      · exact Shard.step_settled hs hshard)
    _ _ h ⟨Shard.initial_settled 1, initial_inOrder⟩
  refine ⟨horder.generations, fun engine phase resyncs hup => ?_⟩
  obtain ⟨index, hindex⟩ := List.mem_iff_getElem?.mp hup
  have hbound := (List.getElem?_eq_some_iff.mp hindex).1
  have hone := horder.alone
  obtain rfl : index = 0 := by omega
  exact (horder.following _ hindex).state

section Example

attribute [local instance] rationalArith

-- The request of the first write times out while it waits at the replica. The request of
-- the next write is processed before it.
def overtaken : List ShardAction :=
  Shard.startActions ++
    [.write (.put redFox) .none, .send, .replicationError, .write (.put red) .none, .send,
      .deliver 1 .none, .deliver 0 .none]

theorem overtaken_outOfSync : ∃ delivery : Delivery ℚ,
    Run.Reaches (step ⟨.ascii, defaultBM25Params, none⟩)
      (fun delivery action => delivery.shard.faultless 0 action = true ∧
        delivery.shard.underWay action = true) initial delivery ∧
    delivery.processed.length = delivery.shard.sent.length ∧ delivery.generations = [2, 1] ∧
    ∃ engine phase resyncs, delivery.shard.replicas = [.up engine phase resyncs] ∧
      engine.state = .outOfSync := by
  have hrun : (Run.checked (step (⟨.ascii, defaultBM25Params, none⟩ : EngineContext ℚ))
      (fun delivery action => delivery.shard.faultless 0 action && delivery.shard.underWay action)
      initial overtaken).map (fun delivery =>
        decide (delivery.processed.length = delivery.shard.sent.length ∧
          delivery.generations = [2, 1]) &&
        delivery.shard.onlyReplica fun engine => decide (engine.state = .outOfSync)) =
      some true := by
    decide +kernel
  obtain ⟨delivery, hreach, hcheck⟩ :=
    Run.exists_of_checked (fun _ _ hboth => Bool.and_eq_true_iff.mp hboth) hrun
  obtain ⟨hprocessed, hreplica⟩ := Bool.and_eq_true_iff.mp hcheck
  obtain ⟨engine, phase, resyncs, hreplicas, hstate⟩ := Shard.onlyReplica_iff.mp hreplica
  obtain ⟨hall, horder⟩ := of_decide_eq_true hprocessed
  exact ⟨delivery, hreach, hall, horder, engine, phase, resyncs, hreplicas,
    of_decide_eq_true hstate⟩

-- The same time-out, but the request has been processed when the next one is sent.
def lateReply : List ShardAction :=
  Shard.startActions ++
    [.write (.put redFox) .none, .send, .replicationError, .write (.put red) .none,
      .deliver 0 .none, .send, .deliver 1 .none, .reply, .acknowledge]

theorem lateReply_in_order : ∃ delivery : Delivery ℚ,
    Run.Reaches (step ⟨.ascii, defaultBM25Params, none⟩)
      (fun delivery action => delivery.shard.faultless 0 action = true ∧
        delivery.shard.underWay action = true ∧ delivery.orderly action = true) initial delivery ∧
    delivery.processed = [0, 1] ∧ delivery.generations.Pairwise (· < ·) ∧
    ∃ engine phase resyncs, delivery.shard.replicas = [.up engine phase resyncs] ∧
      engine.state ≠ .outOfSync := by
  have hrun : (Run.checked (step (⟨.ascii, defaultBM25Params, none⟩ : EngineContext ℚ))
      (fun delivery action => delivery.shard.faultless 0 action &&
        (delivery.shard.underWay action && delivery.orderly action))
      initial lateReply).map (fun delivery => decide (delivery.processed = [0, 1]) &&
        delivery.shard.onlyReplica fun _ => true) = some true := by
    decide +kernel
  obtain ⟨delivery, hreach, hcheck⟩ := Run.exists_of_checked (fun _ _ hall =>
    (Bool.and_eq_true_iff.mp hall).imp_right Bool.and_eq_true_iff.mp) hrun
  obtain ⟨hprocessed, hreplica⟩ := Bool.and_eq_true_iff.mp hcheck
  obtain ⟨engine, phase, resyncs, hreplicas, -⟩ := Shard.onlyReplica_iff.mp hreplica
  obtain ⟨horder, hstate⟩ := processed_in_order (fun _ h => by cases h) hreach
  exact ⟨delivery, hreach, of_decide_eq_true hprocessed, horder, engine, phase, resyncs, hreplicas,
    hstate engine phase resyncs (by simp [hreplicas])⟩

end Example

end Delivery

end PySearch
