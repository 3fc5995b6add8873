import PySearch.Cluster.Node.Theorems
import PySearch.Cluster.Replication

namespace PySearch.Shard

variable {α : Type} [Arith α] [LinearOrder α] {ctx : EngineContext α} {shard next : Shard α}

theorem stepReplica_step {index : Nat} {action : NodeAction}
    (h : shard.stepReplica ctx index action = some next) :
    ∃ node after, shard.replicas[index]? = some node ∧
      node.step ctx .replica action = some after ∧ next = shard.setReplica index after := by
  obtain ⟨node, hnode, hrest⟩ := Option.bind_eq_some_iff.mp h
  obtain ⟨after, hafter, hreturn⟩ := Option.bind_eq_some_iff.mp hrest
  exact ⟨node, after, hnode, hafter, (Option.some.inj hreturn).symm⟩

theorem stepReplica_cases {index : Nat} {action : NodeAction}
    (h : shard.stepReplica ctx index action = some next) :
    ∃ node after, shard.replicas[index]? = some node ∧ node.Moves ctx action after ∧
      next = shard.setReplica index after := by
  obtain ⟨node, after, hnode, hafter, hnext⟩ := stepReplica_step h
  exact ⟨node, after, hnode, Node.step_moves hafter, hnext⟩

omit [LinearOrder α] in
theorem commit_effect (engine : SearchEngine α) (mutation : Mutation) (faults : Faults) :
    engine.WriteEffect ctx mutation faults (commit ctx engine mutation faults).1
      (commit ctx engine mutation faults).2 := by
  cases mutation with
  | put document =>
      have h := @SearchEngine.indexDocument_effect _ _ ctx engine document faults
      unfold commit
      dsimp only
      cases hr : engine.indexDocument ctx document faults with
      | mk result after =>
          rw [hr] at h
          exact h.map some
  | delete documentId =>
      have h := @SearchEngine.deleteDocument_effect _ ctx engine documentId faults
      unfold commit
      dsimp only
      cases hr : engine.deleteDocument documentId faults with
      | mk result after =>
          rw [hr] at h
          exact h.map fun _ => none

-- Everything one step can do to a shard. `record` and `pending` are the history and the
-- pending write that a write leaves behind.
inductive Moves (ctx : EngineContext α) (shard : Shard α) : ShardAction → Shard α → Prop
  | wrote (engine after : SearchEngine α) (resyncs : List Resync) (mutation : Mutation)
      (faults : Faults) (result : Except PyError (Option Bool)) (record : List Mutation)
      (pending : Option PendingWrite) (idle : shard.write = none)
      (serving : shard.primary = .up engine .serving resyncs)
      (effect : engine.WriteEffect ctx mutation faults result after)
      (recorded : record = if after.generation = engine.generation then shard.history
        else shard.history ++ [mutation])
      (kept : ∀ write, pending = some write → ∃ created, result = .ok created ∧
        write.mutation = mutation ∧ write.generation = after.generation ∧ write.next = 0) :
      Moves ctx shard (.write mutation faults) { shard with
        primary := .up after .serving resyncs
        history := record
        write := pending }
  | sent (write : PendingWrite) (pending : shard.write = some write)
      (more : write.next < shard.replicas.length) :
      Moves ctx shard .send { shard with
        sent := shard.sent ++ [⟨write.next, write.mutation, write.generation⟩]
        write := some { write with awaiting := true } }
  | delivered (index : Nat) (faults : Faults) (request : ReplicationRequest)
      (engine after : SearchEngine α) (resyncs : List Resync)
      (result : Except PyError ReplicationOutcome) (answered : List (Nat × Int))
      (waiting : shard.sent[index]? = some request)
      (serving : shard.replicas[request.target]? = some (.up engine .serving resyncs))
      (effect : engine.ReplicaEffect ctx request.mutation request.generation result after)
      (told : answered = shard.answered ∨
        (result = .ok .applied ∨ result = .ok .duplicate) ∧
          answered = (request.target, request.generation) :: shard.answered) :
      Moves ctx shard (.deliver index faults)
        { shard.setReplica request.target (.up after .serving resyncs) with answered := answered }
  | replied (write : PendingWrite) (pending : shard.write = some write)
      (told : (write.next, write.generation) ∈ shard.answered) :
      Moves ctx shard .reply { shard with
        write := some { write with next := write.next + 1, awaiting := false } }
  | gaveUp (write : PendingWrite) (pending : shard.write = some write) :
      Moves ctx shard .replicationError { shard with write := none }
  | acknowledged (write : PendingWrite) (pending : shard.write = some write)
      (all : write.next = shard.replicas.length) :
      Moves ctx shard .acknowledge { shard with
        write := none
        acknowledged := write.generation :: shard.acknowledged }
  | exported (engine : SearchEngine α) (resyncs : List Resync) (replica index : Nat)
      (next : Shard α) (serving : shard.primary = .up engine .serving resyncs)
      (step : shard.stepReplica ctx replica (.receive index engine.exportSnapshot) = some next) :
      Moves ctx shard (.exportTo replica index) next
  | told (engine : SearchEngine α) (resyncs : List Resync) (replica : Nat) (next : Shard α)
      (serving : shard.primary = .up engine .serving resyncs)
      (step : shard.stepReplica ctx replica
        (.generation (.ok engine.status.generation)) = some next) :
      Moves ctx shard (.tell replica) next
  | primary (action : NodeAction) (node : Node α) (pending : Option PendingWrite)
      (ownAction : action.isLocal = true) (moves : shard.primary.Moves ctx action node)
      (kept : pending = shard.write ∨ pending = none) :
      Moves ctx shard (.primary action) { shard with primary := node, write := pending }
  | replica (index : Nat) (action : NodeAction) (next : Shard α) (ownAction : action.isLocal = true)
      (step : shard.stepReplica ctx index action = some next) :
      Moves ctx shard (.replica index action) next

-- The delivery of a request is the replica's own step.
theorem deliver_cases {request : ReplicationRequest} {faults : Faults} {engine : SearchEngine α}
    {resyncs : List Resync}
    (hserving : shard.replicas[request.target]? = some (.up engine .serving resyncs))
    (h : shard.stepReplica ctx request.target (request.applyAction faults) = some next) :
    ∃ result after,
      engine.ReplicaEffect ctx request.mutation request.generation result after ∧
      next = shard.setReplica request.target (.up after .serving resyncs) ∧
      (applied ctx engine request faults = true →
        result = .ok .applied ∨ result = .ok .duplicate) := by
  obtain ⟨target, mutation, generation⟩ := request
  simp only [stepReplica, hserving, Option.bind_eq_bind, Option.bind_some,
    ReplicationRequest.applyAction] at h
  cases mutation with
  | put document =>
      simp only [Node.step, if_true, Option.bind_some, Option.pure_def, Option.some.injEq] at h
      refine ⟨_, _, SearchEngine.applyReplicatedPut_effect engine document generation faults,
        h.symm, ?_⟩
      simp only [applied]
      split <;> simp_all
      rename_i outcome _ _
      cases outcome <;> simp_all
  | delete documentId =>
      simp only [Node.step, if_true, Option.bind_some, Option.pure_def, Option.some.injEq] at h
      refine ⟨_, _, SearchEngine.applyReplicatedDelete_effect engine documentId generation faults,
        h.symm, ?_⟩
      simp only [applied]
      split <;> simp_all
      rename_i outcome _ _
      cases outcome <;> simp_all

theorem step_moves {action : ShardAction} (h : shard.step ctx action = some next) :
    shard.Moves ctx action next := by
  cases action with
  | write mutation faults =>
      simp only [step] at h
      split at h
      · rename_i engine resyncs hidle hserving
        have heffect := @commit_effect _ _ ctx engine mutation faults
        cases hc : commit ctx engine mutation faults with
        | mk result after =>
            rw [hc] at h heffect
            cases h
            refine .wrote engine after resyncs mutation faults result _ _ hidle hserving heffect
              rfl ?_
            intro write hwrite
            cases result with
            | error error => cases hwrite
            | ok created =>
                cases hwrite
                exact ⟨created, rfl, rfl, rfl, rfl⟩
      · cases h
  | send =>
      simp only [step] at h
      split at h
      · rename_i write hwrite
        split at h
        · rename_i hmore
          cases h
          exact .sent write hwrite hmore.1
        · cases h
      · cases h
  | deliver index faults =>
      simp only [step] at h
      split at h
      · rename_i request hrequest
        split at h
        · rename_i engine resyncs hserving
          obtain ⟨moved, hmoved, hnext⟩ := Option.map_eq_some_iff.mp h
          obtain ⟨result, after, heffect, rfl, htold⟩ := deliver_cases hserving hmoved
          split at hnext
          · rename_i happlied
            subst hnext
            exact .delivered index faults request engine after resyncs result _ hrequest hserving
              heffect (.inr ⟨htold happlied, rfl⟩)
          · subst hnext
            exact .delivered index faults request engine after resyncs result _ hrequest hserving
              heffect (.inl rfl)
        · cases h
      · cases h
  | reply =>
      simp only [step] at h
      split at h
      · rename_i write hwrite
        split at h
        · rename_i htold
          cases h
          exact .replied write hwrite htold.2
        · cases h
      · cases h
  | replicationError =>
      simp only [step] at h
      split at h
      · rename_i write hwrite
        cases h
        exact .gaveUp write hwrite
      · cases h
  | acknowledge =>
      simp only [step] at h
      split at h
      · rename_i write hwrite
        split at h
        · rename_i hall
          cases h
          exact .acknowledged write hwrite hall
        · cases h
      · cases h
  | exportTo replica index =>
      simp only [step] at h
      split at h
      · rename_i engine resyncs hserving
        exact .exported engine resyncs replica index next hserving h
      · cases h
  | tell replica =>
      simp only [step] at h
      split at h
      · rename_i engine resyncs hserving
        exact .told engine resyncs replica next hserving h
      · cases h
  | primary action =>
      simp only [step] at h
      split at h
      · rename_i hlocal
        obtain ⟨node, hnode, hnext⟩ := Option.map_eq_some_iff.mp h
        have hmoves := Node.step_moves hnode
        cases node with
        | down database =>
            subst hnext
            exact .primary action _ none hlocal hmoves (.inr rfl)
        | up engine phase resyncs =>
            subst hnext
            exact .primary action _ shard.write hlocal hmoves (.inl rfl)
      · cases h
  | replica index action =>
      simp only [step] at h
      split at h
      · rename_i hlocal
        exact .replica index action next hlocal h
      · cases h

-- Only a write adds to the history, and only its own mutation.
theorem moves_history {action : ShardAction} (h : shard.Moves ctx action next) :
    next.history = shard.history ∨ ∃ mutation faults, action = .write mutation faults ∧
      next.history = shard.history ++ [mutation] := by
  have hreplica : ∀ {index action}, shard.stepReplica ctx index action = some next →
      next.history = shard.history := by
    intro index action hstep
    obtain ⟨_, _, _, _, rfl⟩ := stepReplica_cases hstep
    rfl
  cases h with
  | wrote engine after resyncs mutation faults result record pending idle serving effect recorded
      kept =>
      split at recorded
      · exact .inl recorded
      · exact .inr ⟨mutation, faults, rfl, recorded⟩
  | exported engine resyncs replica index next serving step => exact .inl (hreplica step)
  | told engine resyncs replica next serving step => exact .inl (hreplica step)
  | replica index action next ownAction step => exact .inl (hreplica step)
  | _ => exact .inl rfl

theorem moves_grown {action : ShardAction} (h : shard.Moves ctx action next) :
    shard.history.length ≤ next.history.length := by
  rcases moves_history h with heq | ⟨mutation, faults, -, heq⟩
  · rw [heq]
  · rw [heq, List.length_append]
    omega

-- The generations that clients were told grow by that of the pending write.
theorem moves_acknowledged {action : ShardAction} (h : shard.Moves ctx action next) :
    next.acknowledged = shard.acknowledged ∨ ∃ write, shard.write = some write ∧
      next.acknowledged = write.generation :: shard.acknowledged := by
  have hreplica : ∀ {index action}, shard.stepReplica ctx index action = some next →
      next.acknowledged = shard.acknowledged := by
    intro index action hstep
    obtain ⟨_, _, _, _, rfl⟩ := stepReplica_step hstep
    rfl
  cases h with
  | acknowledged write pending all => exact .inr ⟨write, pending, rfl⟩
  | exported engine resyncs replica index next serving step => exact .inl (hreplica step)
  | told engine resyncs replica next serving step => exact .inl (hreplica step)
  | replica index action next ownAction step => exact .inl (hreplica step)
  | _ => exact .inl rfl

-- What a step of the shard makes the replica with the given number do.
def asked (shard : Shard α) (replica : Nat) : ShardAction → Option NodeAction
  | .deliver index faults =>
      match shard.sent[index]? with
      | some request =>
          if request.target = replica then some (request.applyAction faults) else none
      | none => none
  | .exportTo target index =>
      match shard.primary with
      | .up engine .serving _ =>
          if target = replica then some (.receive index engine.exportSnapshot) else none
      | _ => none
  | .tell target =>
      match shard.primary with
      | .up engine .serving _ =>
          if target = replica then some (.generation (.ok engine.status.generation)) else none
      | _ => none
  | .replica target action => if target = replica then some action else none
  | _ => none

-- A replica that a step asks for nothing stays as it is.
theorem stepReplica_asked {replica target : Nat} {action : NodeAction}
    (h : shard.stepReplica ctx target action = some next) :
    (if target = replica then some action else none) = none ∧
        next.replicas[replica]? = shard.replicas[replica]? ∨
      ∃ own node after, (if target = replica then some action else none) = some own ∧
        shard.replicas[replica]? = some node ∧ node.step ctx .replica own = some after ∧
        next.replicas[replica]? = some after := by
  obtain ⟨node, after, hnode, hafter, rfl⟩ := stepReplica_step h
  by_cases htarget : target = replica
  · subst htarget
    have hbound := (List.getElem?_eq_some_iff.mp hnode).1
    exact .inr ⟨action, node, after, if_pos rfl, hnode, hafter, by simp [setReplica, hbound]⟩
  · exact .inl ⟨if_neg htarget, by simp [setReplica, htarget]⟩

theorem step_asked {replica : Nat} {action : ShardAction} (h : shard.step ctx action = some next) :
    shard.asked replica action = none ∧ next.replicas[replica]? = shard.replicas[replica]? ∨
      ∃ own node after, shard.asked replica action = some own ∧
        shard.replicas[replica]? = some node ∧ node.step ctx .replica own = some after ∧
        next.replicas[replica]? = some after := by
  cases step_moves h with
  | delivered index faults request engine after resyncs result answered waiting serving effect told =>
      simp only [step, waiting, serving] at h
      obtain ⟨moved, hmoved, hnext⟩ := Option.map_eq_some_iff.mp h
      have hreplicas := congrArg replicas hnext
      rw [apply_ite replicas] at hreplicas
      simp only [ite_self] at hreplicas
      simp only [asked, waiting, ← hreplicas]
      exact stepReplica_asked hmoved
  | exported engine resyncs target index next serving step =>
      simp only [asked, serving]
      exact stepReplica_asked step
  | told engine resyncs target next serving step =>
      simp only [asked, serving]
      exact stepReplica_asked step
  | replica target action next ownAction step => exact stepReplica_asked step
  | _ => exact .inl ⟨rfl, rfl⟩

-- What a replica can be asked to do: to apply a request that was sent, to take what a
-- primary that serves exports or tells it, or something of its own.
theorem asked_cases {replica : Nat} {action : ShardAction} {own : NodeAction}
    (hmoves : shard.Moves ctx action next) (hasked : shard.asked replica action = some own) :
    (∃ index faults request, action = .deliver index faults ∧ shard.sent[index]? = some request ∧
      request.target = replica ∧ own = request.applyAction faults) ∨
    (∃ engine resyncs index, shard.primary = .up engine .serving resyncs ∧
      own = .receive index engine.exportSnapshot) ∨
    (∃ engine resyncs, shard.primary = .up engine .serving resyncs ∧
      own = .generation (.ok engine.status.generation)) ∨
    action = .replica replica own ∧ own.isLocal = true := by
  cases hmoves with
  | delivered index faults request engine after resyncs result answered waiting serving effect told =>
      simp only [asked, waiting, Option.ite_none_right_eq_some, Option.some.injEq] at hasked
      exact .inl ⟨index, faults, request, rfl, waiting, hasked.1, hasked.2.symm⟩
  | exported engine resyncs target index next serving step =>
      simp only [asked, serving, Option.ite_none_right_eq_some, Option.some.injEq] at hasked
      exact .inr (.inl ⟨engine, resyncs, index, serving, hasked.2.symm⟩)
  | told engine resyncs target next serving step =>
      simp only [asked, serving, Option.ite_none_right_eq_some, Option.some.injEq] at hasked
      exact .inr (.inr (.inl ⟨engine, resyncs, serving, hasked.2.symm⟩))
  | replica target action next ownAction step =>
      simp only [asked, Option.ite_none_right_eq_some, Option.some.injEq] at hasked
      obtain ⟨rfl, rfl⟩ := hasked
      exact .inr (.inr (.inr ⟨rfl, ownAction⟩))
  | _ => cases hasked

-- The primary is moved by its writes and by its own steps.
theorem step_primary {action : ShardAction} (h : shard.step ctx action = some next) :
    next.primary = shard.primary ∨
      (∃ engine resyncs mutation faults, action = .write mutation faults ∧
        shard.primary = .up engine .serving resyncs ∧
        next.primary = .up (commit ctx engine mutation faults).2 .serving resyncs) ∨
      ∃ own, action = .primary own ∧ shard.primary.step ctx .primary own = some next.primary := by
  have hreplica : ∀ {index action}, shard.stepReplica ctx index action = some next →
      next.primary = shard.primary := by
    intro index action hstep
    obtain ⟨_, _, _, _, rfl⟩ := stepReplica_step hstep
    rfl
  cases step_moves h with
  | wrote engine after resyncs mutation faults result record pending idle serving effect recorded
      kept =>
      simp only [step, idle, serving] at h
      have hprimary := congrArg Shard.primary (Option.some.inj h)
      exact .inr (.inl ⟨engine, resyncs, mutation, faults, rfl, serving, hprimary.symm⟩)
  | primary own node pending ownAction moves kept =>
      simp only [step, ownAction, if_true] at h
      obtain ⟨found, hfound, hnext⟩ := Option.map_eq_some_iff.mp h
      have hprimary : found = node := by
        cases found <;> exact congrArg Shard.primary hnext
      exact .inr (.inr ⟨own, rfl, hprimary ▸ hfound⟩)
  | exported engine resyncs target index next serving step => exact .inl (hreplica step)
  | told engine resyncs target next serving step => exact .inl (hreplica step)
  | replica target action next ownAction step => exact .inl (hreplica step)
  | _ => exact .inl rfl

omit [LinearOrder α] in
theorem applied_eq (engine : SearchEngine α) (request : ReplicationRequest) (faults : Faults) :
    applied ctx engine request faults =
      match (engine.applyReplicated ctx request.mutation request.generation faults).1 with
      | .ok .gap | .error _ => false
      | .ok _ => true := by
  obtain ⟨target, mutation, generation⟩ := request
  cases mutation <;> rfl

-- The delivery of a request to a replica that serves.
theorem step_deliver {index : Nat} {request : ReplicationRequest} {engine : SearchEngine α}
    {resyncs : List Resync} (hrequest : shard.sent[index]? = some request)
    (hserving : shard.replicas[request.target]? = some (.up engine .serving resyncs))
    (faults : Faults) :
    let after := shard.setReplica request.target (.up
      (engine.applyReplicated ctx request.mutation request.generation faults).2 .serving resyncs)
    shard.step ctx (.deliver index faults) =
      some (if applied ctx engine request faults then
        { after with answered := (request.target, request.generation) :: after.answered }
      else after) := by
  intro after
  have hmoved : shard.stepReplica ctx request.target (request.applyAction faults) = some after := by
    obtain ⟨target, mutation, generation⟩ := request
    simp only [stepReplica, hserving, Option.bind_eq_bind, Option.bind_some]
    cases mutation <;> rfl
  simp only [step, hrequest, hserving, hmoved, Option.map_some]

end PySearch.Shard
