import PySearch.Cluster.Replication.Following

namespace PySearch.Shard

variable {α : Type}

-- The pending write has been sent to the replica with the given number.
def sentTo (replica : Nat) (shard : Shard α) : Bool :=
  match shard.write with
  | some write => decide (replica < write.next ∨ replica = write.next ∧ write.awaiting = true)
  | none => false

-- The replica with the given number has stored the pending write, if there is one.
def stored (replica : Nat) (shard : Shard α) : Bool :=
  match shard.write, shard.replicas[replica]? with
  | some write, some node => decide (write.generation ≤ node.database.generation)
  | _, _ => true

-- No write is given up that has been sent to the replica and has not been stored there.
def delivers (replica : Nat) (shard : Shard α) (action : ShardAction) : Bool :=
  !action.abandons || !shard.sentTo replica || shard.stored replica

-- No write is given up that the replica has not stored, whether it has been sent there or not.
def completes (replica : Nat) (shard : Shard α) (action : ShardAction) : Bool :=
  !action.abandons || shard.stored replica

-- The replica has stored everything that the primary has committed, up to a pending write.
structure InLine (replica : Nat) (shard : Shard α) : Prop where
  promised : Promised replica shard
  following : ∀ node, shard.replicas[replica]? = some node → node.Following
  stored : ∀ node, shard.replicas[replica]? = some node →
    node.database.generation = shard.history.length ∨
      node.database.generation + 1 = shard.history.length ∧ shard.write ≠ none
  attended : Attended shard

theorem initial_inLine (replicas replica : Nat) : InLine replica (initial replicas : Shard α) where
  promised := initial_promised replicas replica
  following node hnode := by
    rw [List.eq_of_mem_replicate (List.mem_of_getElem? hnode)]
    trivial
  stored node hnode := by
    rw [List.eq_of_mem_replicate (List.mem_of_getElem? hnode)]
    exact .inl rfl
  attended hpending := absurd rfl hpending

variable [Arith α] [LinearOrder α] {ctx : EngineContext α} {shard next : Shard α}
  {replica : Nat} {action : ShardAction}

-- When a write ends, the replica has stored it.
theorem InLine.ended (hs : Settled ctx shard) (h : InLine replica shard)
    (hcomplete : shard.completes replica action = true)
    (hstep : shard.step ctx action = some next) (hpending : shard.write ≠ none)
    (hended : next.write = none) {node : Node α} (hnode : shard.replicas[replica]? = some node) :
    shard.history.length ≤ node.database.generation := by
  rcases (step_attended h.attended hstep).2 hpending hended with habandons | ⟨write, hwrite, hall⟩
  · obtain ⟨write, hwrite⟩ := Option.ne_none_iff_exists'.mp hpending
    have hstored : shard.stored replica = true := by
      simpa [completes, habandons] using hcomplete
    simp only [Shard.stored, hwrite, hnode, decide_eq_true_iff] at hstored
    rwa [← hs.latest write hwrite]
  · have hbound := (List.getElem?_eq_some_iff.mp hnode).1
    rw [← hs.latest write hwrite]
    exact h.promised.write write hwrite (by omega) node hnode

theorem step_inLine (hc : ctx.Contract) (hs : Settled ctx shard) (h : InLine replica shard)
    (hclear : shard.faultless replica action = true)
    (hcomplete : shard.completes replica action = true)
    (hstep : shard.step ctx action = some next) : InLine replica next := by
  have hmoves := step_moves hstep
  have hfresh := faultless_fresh hclear
  refine ⟨step_promised hs.consistent h.promised hfresh hstep, ?_, ?_,
    (step_attended h.attended hstep).1⟩
  · refine step_follows hc hs hclear h.following ?_ hstep
    intro index faults request node _ hrequest _ hnode
    -- No request is for more than the history, of which the replica lacks at most one.
    have hwithin := (hs.consistent.requests request (List.mem_of_getElem? hrequest)).within
    rcases h.stored node hnode with hall | ⟨hone, -⟩ <;> omega
  · intro after hafter
    have hwithin := ((step_settled hs hstep).consistent.replicas after
      (List.mem_of_getElem? hafter)).within
    obtain ⟨node, hnode⟩ : ∃ node, shard.replicas[replica]? = some node := by
      rcases step_asked hstep with ⟨-, hsame⟩ | ⟨-, node, -, -, hnode, -⟩
      · exact ⟨after, hsame ▸ hafter⟩
      · exact ⟨node, hnode⟩
    have hgrows := step_grows hs.consistent h.promised.behind hfresh hstep hnode hafter
    by_cases hgrown : next.history = shard.history
    · rw [hgrown] at hwithin ⊢
      rcases h.stored node hnode with hall | ⟨hone, hpending⟩
      · exact .inl (by omega)
      · by_cases hended : next.write = none
        · have hstored := InLine.ended hs h hcomplete hstep hpending hended hnode
          omega
        · by_cases hlast : after.database.generation = shard.history.length
          · exact .inl hlast
          · exact .inr ⟨by omega, hended⟩
    · obtain ⟨mutation, faults, rfl, hrecord⟩ := (moves_history hmoves).resolve_left hgrown
      obtain ⟨hidle, -, ⟨hsame, -⟩ | ⟨-, generation, created, hpending⟩⟩ :=
        write_cases hc hs (faultless_write hclear) hstep
      · exact absurd hsame hgrown
      have hall : node.database.generation = shard.history.length :=
        (h.stored node hnode).resolve_right fun hone => hone.2 hidle
      rw [hrecord, List.length_append, List.length_singleton] at hwithin ⊢
      by_cases hlast : after.database.generation = shard.history.length + 1
      · exact .inl hlast
      · exact .inr ⟨by omega, by simp [hpending]⟩

-- A replica of whose own nothing fails stays in step when no write is given up before the
-- replica has stored it, whatever happens to the other replicas.
theorem spared_in_step (hc : ctx.Contract) {replicas : Nat}
    (h : Run.Reaches (step ctx)
      (fun shard action => shard.faultless replica action = true ∧
        shard.completes replica action = true) (initial replicas) shard)
    {engine : SearchEngine α} {phase : Phase} {resyncs : List Resync}
    (hup : shard.replicas[replica]? = some (.up engine phase resyncs)) :
    engine.state ≠ .outOfSync := by
  obtain ⟨-, hline⟩ := @Run.invariant _ _ _ _
    (fun shard : Shard α => Settled ctx shard ∧ InLine replica shard)
    (fun _ _ _ hcond hstep hinv => ⟨step_settled hinv.1 hstep,
      step_inLine hc hinv.1 hinv.2 hcond.1 hcond.2 hstep⟩)
    _ _ h ⟨initial_settled replicas, initial_inLine replicas replica⟩
  exact (hline.following _ hup).state

section Example

attribute [local instance] rationalArith

-- Start the replica with the given number under a primary that serves.
def joinActions (replica : Nat) : List ShardAction :=
  [.replica replica .start, .replica replica (.initializeEngine .none),
    .replica replica .synchronize, .tell replica, .replica replica .compare]

-- The first replica cannot be reached, so the write is given up before the second one is
-- sent it. The first replica fetches the corpus, and both are sent the next write.
def skippedReplica : List ShardAction :=
  startActions ++ joinActions 1 ++
    [.write (.put redFox) .none, .send, .replicationError,
      .replica 0 .resync, .exportTo 0 0, .replica 0 (.install 0 false .none),
      .write (.put red) .none, .send, .deliver 1 .none, .reply, .send, .deliver 2 .none]

-- The second replica is the one that ends out of sync.
theorem skippedReplica_outOfSync : ∃ shard : Shard ℚ,
    Run.Reaches (step ⟨.ascii, defaultBM25Params, none⟩)
      (fun shard action => shard.faultless 1 action = true ∧ shard.delivers 1 action = true)
      (initial 2) shard ∧
    ∃ engine phase resyncs, shard.replicas[1]? = some (.up engine phase resyncs) ∧
      engine.state = .outOfSync := by
  have hrun : (Run.checked (step (⟨.ascii, defaultBM25Params, none⟩ : EngineContext ℚ))
      (fun shard action => shard.faultless 1 action && shard.delivers 1 action) (initial 2)
      skippedReplica).map (fun shard => shard.replicas[1]?.any
        (Node.runs fun engine => decide (engine.state = .outOfSync))) = some true := by
    decide +kernel
  obtain ⟨shard, hreach, hcheck⟩ :=
    Run.exists_of_checked (fun _ _ hboth => Bool.and_eq_true_iff.mp hboth) hrun
  obtain ⟨node, hnode, hruns⟩ := (Option.any_eq_true _ _).mp hcheck
  obtain ⟨engine, phase, resyncs, rfl, hstate⟩ := Node.runs_iff.mp hruns
  exact ⟨shard, hreach, engine, phase, resyncs, hnode, of_decide_eq_true hstate⟩

-- Here it is the second replica that cannot be reached, and the first has the write.
def reachedReplica : List ShardAction :=
  startActions ++ joinActions 1 ++
    [.write (.put redFox) .none, .send, .deliver 0 .none, .reply, .send, .replicationError,
      .write (.put red) .none, .send, .deliver 2 .none, .reply]

theorem reachedReplica_in_step : ∃ shard : Shard ℚ,
    Run.Reaches (step ⟨.ascii, defaultBM25Params, none⟩)
      (fun shard action => shard.faultless 0 action = true ∧ shard.completes 0 action = true)
      (initial 2) shard ∧
    ∃ engine phase resyncs, shard.replicas[0]? = some (.up engine phase resyncs) ∧
      engine.generation = 2 ∧ engine.state ≠ .outOfSync := by
  have hrun : (Run.checked (step (⟨.ascii, defaultBM25Params, none⟩ : EngineContext ℚ))
      (fun shard action => shard.faultless 0 action && shard.completes 0 action) (initial 2)
      reachedReplica).map (fun shard => shard.replicas[0]?.any
        (Node.runs fun engine => decide (engine.generation = 2))) = some true := by
    decide +kernel
  obtain ⟨shard, hreach, hcheck⟩ :=
    Run.exists_of_checked (fun _ _ hboth => Bool.and_eq_true_iff.mp hboth) hrun
  obtain ⟨node, hnode, hruns⟩ := (Option.any_eq_true _ _).mp hcheck
  obtain ⟨engine, phase, resyncs, rfl, hgeneration⟩ := Node.runs_iff.mp hruns
  exact ⟨shard, hreach, engine, phase, resyncs, hnode, of_decide_eq_true hgeneration,
    spared_in_step (fun _ h => by cases h) hreach hnode⟩

end Example

end PySearch.Shard
