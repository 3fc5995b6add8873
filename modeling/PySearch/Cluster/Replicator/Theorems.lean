import PySearch.Cluster.Replication.Startup
import PySearch.Cluster.Replicator
import PySearch.Cluster.Serving

namespace PySearch

open Run (Reaches)

variable {α : Type}

-- A replica does with a mutation whose identifier gets through what its engine does.
theorem Internal.replicate_replica [Arith α] {ctx : EngineContext α} (engine : SearchEngine α)
    (mutation : Mutation) {parameter : Option String}
    (hparameter : parameter = some mutation.documentId) {generation : Int}
    (hpositive : 1 ≤ generation) (faults : Faults) :
    replicate ctx .replica engine parameter mutation generation faults =
      replicated (engine.applyReplicated ctx mutation generation faults) := by
  have hgeneration : ¬generation < 1 := by omega
  subst hparameter
  simp only [replicate, requireReplica, if_true, hgeneration, if_false, Mutation.addressedTo_self]

@[simp] theorem Internal.replicated_engine
    (outcome : Except PyError ReplicationOutcome × SearchEngine α) :
    (replicated outcome).2 = outcome.2 := by
  obtain ⟨result, engine⟩ := outcome
  cases result <;> rfl

namespace HttpNodeLink

variable {β : Type} {baseUrl : String} {failure : Option TransportFailure}

theorem request_ok {response : Option (Except Nat β)} {value : β}
    (h : request baseUrl failure response = .ok value) :
    failure = none ∧ response = some (.ok value) := by
  unfold request at h
  split at h <;> cases h
  exact ⟨rfl, rfl⟩

theorem ask_some {route : SearchEngine α → Except Nat β} {node : Node α} {response : Except Nat β}
    (h : ask route node = some response) :
    ∃ engine resyncs, node = .up engine .serving resyncs ∧ route engine = response := by
  unfold ask at h
  split at h
  · cases h
    exact ⟨_, _, rfl, rfl⟩
  · cases h

theorem answered_of_ok {result : Except PyError β} (h : result.map (fun _ => ()) = .ok ()) :
    ∃ value, result = .ok value := by
  cases result with
  | error error => cases h
  | ok value => exact ⟨value, rfl⟩

theorem request_unanswered (failure : Option TransportFailure) :
    ∃ error, request baseUrl failure (none : Option (Except Nat β)) = .error error := by
  cases hresult : request baseUrl failure (none : Option (Except Nat β)) with
  | error error => exact ⟨error, rfl⟩
  | ok value => cases (request_ok hresult).2

-- A request changes the replica that it arrives at as the route does, and a success of the
-- call is one of the route.
theorem applyMutation_cases [Arith α] {ctx : EngineContext α} {stack : HttpStack} (hop : Hop)
    (node : Node α) (target : Nat) {mutation : Mutation}
    (hcarried : stack.replicaId mutation.documentId = some mutation.documentId) {generation : Int}
    (hpositive : 1 ≤ generation) :
    (∃ engine resyncs, node = .up engine .serving resyncs ∧
      (applyMutation ctx stack baseUrl hop node mutation generation).2 =
        .up (engine.applyReplicated ctx mutation generation hop.faults).2 .serving resyncs ∧
      ((applyMutation ctx stack baseUrl hop node mutation generation).1 = .ok () →
        Shard.applied ctx engine ⟨target, mutation, generation⟩ hop.faults = true)) ∨
    ∃ error, applyMutation ctx stack baseUrl hop node mutation generation =
      (.error error, node) := by
  unfold applyMutation
  split
  · rename_i engine resyncs harrives
    refine .inl ⟨engine, resyncs, rfl, ?_⟩
    rw [Internal.replicate_replica engine mutation hcarried hpositive, Shard.applied_eq]
    generalize engine.applyReplicated ctx mutation generation hop.faults = outcome
    obtain ⟨result, after⟩ := outcome
    refine ⟨by cases result <;> rfl, fun hok => ?_⟩
    obtain ⟨value, hvalue⟩ := answered_of_ok hok
    have hresponse := (request_ok hvalue).2
    cases result with
    | error error => cases hresponse
    | ok outcome => cases outcome <;> first | rfl | cases hresponse
  · obtain ⟨error, herror⟩ := @request_unanswered Unit baseUrl hop.failure
    exact .inr ⟨error, by rw [herror]⟩

end HttpNodeLink

namespace Node

-- An action of its own, or one that takes what a primary that serves has answered.
def Heard (primary : Node α) (action : NodeAction) : Prop :=
  action.isLocal = true ∨ ∃ engine resyncs, primary = .up engine .serving resyncs ∧
    (action = .generation (.ok engine.status.generation) ∨
      ∃ pending snapshot, engine.exportSnapshot = .ok snapshot ∧
        action = .receive pending (.ok snapshot))

theorem generation_heard (url : String) (failure : Option TransportFailure) (primary : Node α) :
    Heard primary (.generation (HttpNodeLink.generation url failure primary)) := by
  cases hanswer : HttpNodeLink.generation url failure primary with
  | error error => exact .inl rfl
  | ok remote =>
      obtain ⟨-, hresponse⟩ := HttpNodeLink.request_ok hanswer
      obtain ⟨engine, resyncs, rfl, hroute⟩ := HttpNodeLink.ask_some hresponse
      cases hroute
      exact .inr ⟨engine, resyncs, rfl, .inl rfl⟩

theorem exportFrom_serving {url : String} {failure : Option TransportFailure} {primary : Node α}
    {snapshot : List Document × Int}
    (h : HttpNodeLink.exportFrom url failure primary = .ok snapshot) :
    ∃ engine resyncs, primary = .up engine .serving resyncs ∧
      engine.exportSnapshot = .ok snapshot := by
  obtain ⟨-, hresponse⟩ := HttpNodeLink.request_ok h
  obtain ⟨engine, resyncs, rfl, hroute⟩ := HttpNodeLink.ask_some hresponse
  exact ⟨engine, resyncs, rfl, HttpShardClient.respond_ok hroute⟩

theorem exportFrom_heard (url : String) (failure : Option TransportFailure) (primary : Node α)
    (pending : Nat) :
    Heard primary (.receive pending (HttpNodeLink.exportFrom url failure primary)) := by
  cases hanswer : HttpNodeLink.exportFrom url failure primary with
  | error error => exact .inl rfl
  | ok snapshot =>
      obtain ⟨engine, resyncs, hserving, hexport⟩ := exportFrom_serving hanswer
      exact .inr ⟨engine, resyncs, hserving, .inr ⟨pending, snapshot, hexport, rfl⟩⟩

variable [Arith α] [LinearOrder α] {ctx : EngineContext α}

section Repair

variable {primary : Node α} {answer : Except PyError (List Document × Int)}
  (hheard : ∀ pending, Heard primary (.receive pending answer))

-- A replica on its own, with the answers of its primary, which never takes its database back.
abbrev Follows (ctx : EngineContext α) (primary : Node α) : Node α → Node α → Prop :=
  Reaches (step ctx .replica) fun node action => node.fresh action = true ∧ Heard primary action

include hheard in
theorem repair_reaches {engine : SearchEngine α} {phase : Phase} (hphase : phase.resyncs = true)
    (hnewer : ∀ documents generation, answer = .ok (documents, generation) →
      engine.store.database.generation ≤ generation)
    (localGeneration : Int) (primaryGeneration : Option Int) (fault : Bool)
    (faults : RebuildFaults) :
    Follows ctx primary
      (up (ReplicaSynchronizer.beginResynchronize engine localGeneration primaryGeneration).1 phase
        [⟨localGeneration, primaryGeneration, .requested⟩])
      (up (ReplicaSynchronizer.resynchronizeFrom ctx engine localGeneration primaryGeneration answer
        fault faults).1 .serving []) := by
  have hafter : phase.afterResync = .serving := by
    cases phase <;> first | rfl | cases hphase
  generalize hbegun : (ReplicaSynchronizer.beginResynchronize engine localGeneration
    primaryGeneration).1 = begun
  have hstore : begun.store = engine.store := by rw [← hbegun]; rfl
  cases answer with
  | error error =>
      refine .single ⟨rfl, hheard 0⟩ ?_
      simp only [step, pending, hphase, if_true, List.getElem?_cons_zero,
        ReplicaSynchronizer.receive, continueResync, hafter, List.eraseIdx_zero, List.tail_cons,
        ReplicaSynchronizer.resynchronizeFrom, ← hbegun]
  | ok snapshot =>
      obtain ⟨documents, generation⟩ := snapshot
      have hreceived : (up begun phase [⟨localGeneration, primaryGeneration, .requested⟩]).step ctx
          .replica (.receive 0 (.ok (documents, generation))) = some (up begun phase
            [⟨localGeneration, primaryGeneration, .received documents generation⟩]) := by
        simp [step, pending, hphase, ReplicaSynchronizer.receive, continueResync]
      refine Reaches.trans (.single ⟨rfl, hheard 0⟩ hreceived) ?_
      have hfresh : (up begun phase
          [⟨localGeneration, primaryGeneration, .received documents generation⟩]).fresh
            (.install 0 fault faults) = true := by
        simp [fresh, resyncs, database, hstore, hnewer documents generation rfl]
      cases hinstall : begun.resynchronize ctx documents generation fault faults with
      | mk result after =>
          simp only [ReplicaSynchronizer.resynchronizeFrom, hbegun, hinstall]
          cases result with
          | error error =>
              have hfailed : (up begun phase
                  [⟨localGeneration, primaryGeneration, .received documents generation⟩]).step ctx
                    .replica (.install 0 fault faults) =
                      some (up after phase [⟨localGeneration, primaryGeneration, .failed⟩]) := by
                simp [step, pending, hphase, ReplicaSynchronizer.install, hinstall, continueResync]
              refine Reaches.trans (.single ⟨hfresh, .inl rfl⟩ hfailed) ?_
              refine @Reaches.single _ _ _ _ _ _ (.giveUp 0) ⟨rfl, .inl rfl⟩ ?_
              simp [step, pending, hphase, ReplicaSynchronizer.giveUp, continueResync, hafter]
          | ok report =>
              refine .single ⟨hfresh, .inl rfl⟩ ?_
              simp [step, pending, hphase, ReplicaSynchronizer.install, hinstall, continueResync,
                hafter]

include hheard in
theorem resynchronize_reaches {engine : SearchEngine α}
    (hnewer : ∀ documents generation, answer = .ok (documents, generation) →
      engine.store.database.generation ≤ generation) (fault : Bool) (faults : RebuildFaults) :
    Follows ctx primary (up engine .serving [])
      (up (ReplicaSynchronizer.resynchronize ctx engine answer fault faults).1 .serving []) := by
  refine Reaches.trans (@Reaches.single _ _ _ _ _ _ .resync ⟨rfl, .inl rfl⟩ ?_)
    (@repair_reaches _ _ _ ctx primary answer hheard engine .serving rfl hnewer engine.generation
      none fault faults)
  simp only [step, if_true, List.nil_append]
  rfl

omit [Arith α] [LinearOrder α] in
-- Only a replica that is behind goes on to resynchronize.
theorem compare_waiting {engine after : SearchEngine α} {localGeneration : Int}
    {remote : Except PyError Int} {resync : Resync}
    (h : ReplicaSynchronizer.compare engine localGeneration remote = (after, .waiting resync)) :
    ∃ generation,
      after = (ReplicaSynchronizer.beginResynchronize engine localGeneration (some generation)).1 ∧
      resync = ⟨localGeneration, some generation, .requested⟩ := by
  unfold ReplicaSynchronizer.compare at h
  split at h
  · cases h
  · rename_i generation
    split_ifs at h
    · cases h
    · cases h
    · cases h
      exact ⟨generation, rfl, rfl⟩

include hheard in
theorem synchronize_reaches {engine : SearchEngine α} {remote : Except PyError Int}
    (hremote : Heard primary (.generation remote))
    (hnewer : ∀ documents generation, answer = .ok (documents, generation) →
      engine.store.database.generation ≤ generation) (fault : Bool) (faults : RebuildFaults) :
    Follows ctx primary (up engine .recovered [])
      (up (ReplicaSynchronizer.synchronize ctx engine remote answer fault faults).1
        .serving []) := by
  let verifying := (ReplicaSynchronizer.beginSynchronize engine).1
  have hasked : (up engine .recovered []).step ctx .replica .synchronize =
      some (up verifying (.verifying engine.generation) []) := rfl
  have htold : (up verifying (.verifying engine.generation) []).step ctx .replica
      (.generation remote) = some (up verifying (.comparing engine.generation remote) []) := rfl
  refine Reaches.trans (.single ⟨rfl, .inl rfl⟩ hasked)
    (Reaches.trans (.single ⟨rfl, hremote⟩ htold) ?_)
  cases hcompare : ReplicaSynchronizer.compare verifying engine.generation remote with
  | mk after outcome =>
      cases outcome with
      | returned outcome =>
          have hsynchronize : ReplicaSynchronizer.synchronize ctx engine remote answer fault
              faults = (after, outcome) := by
            unfold ReplicaSynchronizer.synchronize
            simp only [show ReplicaSynchronizer.compare
              (ReplicaSynchronizer.beginSynchronize engine).1
              (ReplicaSynchronizer.beginSynchronize engine).2 remote = _ from hcompare]
          rw [hsynchronize]
          refine @Reaches.single _ _ _ _ _ _ .compare ⟨rfl, .inl rfl⟩ ?_
          simp only [step, hcompare]
      | waiting resync =>
          obtain ⟨generation, rfl, rfl⟩ := compare_waiting hcompare
          have hsynchronize : ReplicaSynchronizer.synchronize ctx engine remote answer fault
              faults = ReplicaSynchronizer.resynchronizeFrom ctx
                (ReplicaSynchronizer.beginResynchronize verifying engine.generation
                  (some generation)).1 engine.generation (some generation) answer fault faults := by
            unfold ReplicaSynchronizer.synchronize
            simp only [show ReplicaSynchronizer.compare
              (ReplicaSynchronizer.beginSynchronize engine).1
              (ReplicaSynchronizer.beginSynchronize engine).2 remote = _ from hcompare]
          rw [hsynchronize]
          refine Reaches.trans (@Reaches.single _ _ _ _ _ _ .compare ⟨rfl, .inl rfl⟩ ?_)
            (@repair_reaches _ _ _ ctx primary answer hheard
              (ReplicaSynchronizer.beginResynchronize verifying engine.generation
                (some generation)).1
              .repairing rfl hnewer engine.generation (some generation) fault faults)
          simp only [step, hcompare, List.nil_append]
          rfl

end Repair

-- A process that starts runs its startup hook to the end, or is gone again.
theorem lifespan_reaches (url : Option Nat → String) {primary : Node α} {database : Database}
    (hnewer : ∀ engine resyncs documents generation, primary = .up engine .serving resyncs →
      engine.exportSnapshot = .ok (documents, generation) → database.generation ≤ generation)
    (faults : RebuildFaults) (repair : Repair) :
    Follows ctx primary (down database)
      (SerialShard.lifespan ctx url .replica database primary faults repair) := by
  have hstart : (down database : Node α).step ctx .replica .start =
      some (up (.new ctx (.openDatabase database)) .created []) := rfl
  refine Reaches.trans (.single ⟨rfl, .inl rfl⟩ hstart) ?_
  unfold SerialShard.lifespan
  cases hresult : SearchEngine.initializeEngine ctx (.new ctx (.openDatabase database)) faults with
  | mk result engine =>
      cases result with
      | error error =>
          refine @Reaches.single _ _ _ _ _ _ (.initializeEngine faults) ⟨rfl, .inl rfl⟩ ?_
          simp only [step, hresult]
      | ok report =>
          have hinit : (up (.new ctx (.openDatabase database)) .created [] : Node α).step ctx
              .replica (.initializeEngine faults) = some (up engine .recovered []) := by
            simp only [step, hresult, if_true]
          refine Reaches.trans (.single ⟨rfl, .inl rfl⟩ hinit) ?_
          have hstored : engine.store.database = database := by
            rw [(SearchEngine.initializeEngine_ok hresult).1]
            rfl
          refine synchronize_reaches (exportFrom_heard _ _ _) (generation_heard _ _ _) ?_ _ _
          intro documents generation hanswer
          obtain ⟨source, resyncs, hserving, hexport⟩ := exportFrom_serving hanswer
          rw [hstored]
          exact hnewer source resyncs documents generation hserving hexport

end Node

namespace Shard

-- Runs of a shard in which no replica installs a snapshot older than what it has stored.
abbrev Fresh [Arith α] [LinearOrder α] (ctx : EngineContext α) : Shard α → Shard α → Prop :=
  Reaches (step ctx) fun shard action => freshSnapshots shard action = true

variable [Arith α] [LinearOrder α] {ctx : EngineContext α} {shard next : Shard α}

-- What a replica does with the answers of its primary is a run of the shard.
theorem follows_fresh {index : Nat} {node after : Node α} (hnode : shard.replicas[index]? = some node)
    (h : Node.Follows ctx shard.primary node after) :
    Fresh ctx shard (shard.setReplica index after) := by
  obtain ⟨hlt, rfl⟩ := List.getElem?_eq_some_iff.mp hnode
  have hself : shard = shard.setReplica index shard.replicas[index] := by
    rw [setReplica, List.set_getElem_self]
  have hlift : ∀ state action next,
      (state.fresh action = true ∧ Node.Heard shard.primary action) →
      Node.step ctx .replica state action = some next →
      Fresh ctx (shard.setReplica index state) (shard.setReplica index next) := by
    rintro state action next ⟨hfresh, hheard⟩ hnext
    have hreplica : (shard.setReplica index state).replicas[index]? = some state := by
      simp [setReplica, hlt]
    have hstep : (shard.setReplica index state).stepReplica ctx index action =
        some (shard.setReplica index next) := by
      simp [stepReplica, hreplica, hnext]
      simp [setReplica]
    rcases hheard with hlocal | ⟨engine, resyncs, hserving, rfl | ⟨pending, snapshot, hexport, rfl⟩⟩
    · refine @Reaches.single _ _ _ _ _ _ (.replica index action) ?_ ?_
      · simpa only [freshSnapshots, hreplica] using hfresh
      · simpa only [step, hlocal, if_true] using hstep
    · refine @Reaches.single _ _ _ _ _ _ (.tell index) rfl ?_
      simpa only [step, show (shard.setReplica index state).primary = _ from hserving] using hstep
    · refine @Reaches.single _ _ _ _ _ _ (.exportTo index pending) rfl ?_
      simpa only [step, show (shard.setReplica index state).primary = _ from hserving,
        hexport] using hstep
  have hreach := h.lift hlift
  rwa [← hself] at hreach

-- One turn of the loop of `_replicate` is a run of the shard.
theorem hop_fresh {stack : HttpStack} (baseUrl : String) (hop : Hop) {write : PendingWrite}
    {node : Node α} (hwrite : shard.write = some write)
    (hcarried : stack.replicaId write.mutation.documentId = some write.mutation.documentId)
    (hsent : write.awaiting = false)
    (hnode : shard.replicas[write.next]? = some node) (hpositive : 1 ≤ write.generation) :
    let hopped := HttpNodeLink.applyMutation ctx stack baseUrl hop node write.mutation
      write.generation
    ∃ answered, Fresh ctx shard { shard with
      replicas := shard.replicas.set write.next hopped.2
      sent := shard.sent ++ [⟨write.next, write.mutation, write.generation⟩]
      answered := answered
      write := if hopped.1 = .ok () then some { write with next := write.next + 1 } else none } := by
  intro hopped
  obtain ⟨hlt, hget⟩ := List.getElem?_eq_some_iff.mp hnode
  let sent : Shard α := { shard with
    sent := shard.sent ++ [⟨write.next, write.mutation, write.generation⟩]
    write := some { write with awaiting := true } }
  have hsend : shard.step ctx .send = some sent := by
    simp only [step, hwrite, hlt, hsent, and_self, if_true]
    rfl
  suffices hdelivered : ∃ answered, Fresh ctx sent { sent with
      replicas := shard.replicas.set write.next hopped.2
      answered := answered } ∧ (hopped.1 = .ok () → (write.next, write.generation) ∈ answered) by
    obtain ⟨answered, hreach, htold⟩ := hdelivered
    refine ⟨answered, Reaches.trans (.single rfl hsend) (hreach.trans ?_)⟩
    by_cases hok : hopped.1 = .ok ()
    · refine @Reaches.single _ _ _ _ _ _ .reply rfl ?_
      simp only [step, sent, htold hok, and_self, if_true, hok, hsent]
    · refine @Reaches.single _ _ _ _ _ _ .replicationError rfl ?_
      simp only [step, sent, hok, if_false]
  have hrequest : sent.sent[shard.sent.length]? =
      some ⟨write.next, write.mutation, write.generation⟩ := List.getElem?_concat_length
  rcases @HttpNodeLink.applyMutation_cases _ baseUrl _ ctx stack hop node write.next write.mutation
    hcarried write.generation hpositive with ⟨engine, resyncs, rfl, hafter, happlied⟩ |
    ⟨error, hrefused⟩
  · have hdeliver := @step_deliver _ _ _ ctx sent _ _ engine resyncs hrequest hnode hop.faults
    dsimp only at hdeliver
    by_cases htold : applied ctx engine ⟨write.next, write.mutation, write.generation⟩ hop.faults = true
    · rw [if_pos htold] at hdeliver
      refine ⟨(write.next, write.generation) :: shard.answered, ?_, fun _ => List.mem_cons_self⟩
      rw [show hopped.2 = _ from hafter]
      exact .single rfl hdeliver
    · rw [if_neg htold] at hdeliver
      refine ⟨shard.answered, ?_, fun hok => absurd (happlied hok) htold⟩
      rw [show hopped.2 = _ from hafter]
      exact .single rfl hdeliver
  · refine ⟨shard.answered, ?_, fun hok => ?_⟩
    · have hsame : shard.replicas.set write.next node = shard.replicas := by
        rw [← hget, List.set_getElem_self]
      simp only [hopped, hrefused, hsame]
      exact .refl sent
    · simp only [hopped, hrefused] at hok
      cases hok

-- The whole loop is a run of the shard, from the replicas that are already done.
theorem replicateOver_fresh {stack : HttpStack} (url : Option Nat → String) (hops : Nat → Hop)
    {mutation : Mutation}
    (hcarried : stack.replicaId mutation.documentId = some mutation.documentId) {generation : Int}
    (hpositive : 1 ≤ generation) (created : Option Bool) (rest done : List (Node α))
    {shard : Shard α}
    (hwrite : shard.write = some ⟨mutation, generation, created, done.length, false⟩)
    (hreplicas : shard.replicas = done ++ rest) :
    let looped := Replicator.replicateOver ctx stack url hops mutation generation done.length rest
    ∃ answered, Fresh ctx shard { shard with
      replicas := done ++ looped.2.1
      sent := shard.sent ++ looped.2.2
      answered := answered
      write := if looped.1 = .ok () then
        some ⟨mutation, generation, created, shard.replicas.length, false⟩ else none } := by
  intro looped
  induction rest generalizing done shard with
  | nil =>
      refine ⟨shard.answered, ?_⟩
      have hsame : shard = { shard with
          replicas := done ++ looped.2.1
          sent := shard.sent ++ looped.2.2
          write := if looped.1 = .ok () then
            some ⟨mutation, generation, created, shard.replicas.length, false⟩ else none } := by
        simp only [looped, Replicator.replicateOver, if_true, List.append_nil, hreplicas, ← hwrite]
        rw [← List.append_nil done, ← hreplicas]
      rw [← hsame]
      exact .refl shard
  | cons node rest ih =>
      have hnode : shard.replicas[done.length]? = some node := by
        rw [hreplicas, List.getElem?_append_right (le_refl _), Nat.sub_self]
        rfl
      obtain ⟨answered, hhop⟩ := @hop_fresh _ _ _ ctx shard stack (url (some done.length))
        (hops done.length) _ _ hwrite hcarried rfl hnode hpositive
      dsimp only at hhop
      have hset : ∀ after, shard.replicas.set done.length after = done ++ after :: rest := by
        intro after
        rw [hreplicas, List.set_append_right _ _ (le_refl _), Nat.sub_self]
        rfl
      rw [hset] at hhop
      cases hhopped : HttpNodeLink.applyMutation ctx stack (url (some done.length))
        (hops done.length) node mutation generation with
      | mk result after =>
          rw [hhopped] at hhop
          cases result with
          | error error =>
              refine ⟨answered, ?_⟩
              simpa [looped, Replicator.replicateOver, hhopped] using hhop
          | ok confirmed =>
              rw [if_pos rfl] at hhop
              let middle : Shard α := { shard with
                replicas := done ++ after :: rest
                sent := shard.sent ++ [⟨done.length, mutation, generation⟩]
                answered := answered
                write := some ⟨mutation, generation, created, done.length + 1, false⟩ }
              obtain ⟨later, hrest⟩ := @ih (done ++ [after]) middle (by simp [middle])
                (by simp [middle])
              refine ⟨later, hhop.trans ?_⟩
              have hlooped : looped =
                  let tail := Replicator.replicateOver ctx stack url hops mutation generation
                    (done ++ [after]).length rest
                  (tail.1, after :: tail.2.1,
                    ⟨done.length, mutation, generation⟩ :: tail.2.2) := by
                simp [looped, Replicator.replicateOver, hhopped]
              rw [hlooped]
              simpa [middle, hreplicas] using hrest

omit [LinearOrder α] in
theorem replicateOver_length (stack : HttpStack) (url : Option Nat → String) (hops : Nat → Hop)
    (mutation : Mutation) (generation : Int) (index : Nat) (replicas : List (Node α)) :
    (Replicator.replicateOver ctx stack url hops mutation generation index replicas).2.1.length =
      replicas.length := by
  induction replicas generalizing index with
  | nil => rfl
  | cons node rest ih =>
      unfold Replicator.replicateOver
      split
      · rfl
      · exact congrArg Nat.succ (ih (index + 1))

-- A call of the `Replicator` is a run of the shard. It returns exactly when the write is
-- acknowledged there, and otherwise the write may have been committed all the same.
theorem write_fresh (hs : Settled ctx shard) (hidle : shard.write = none)
    {engine : SearchEngine α} {resyncs : List Resync}
    (hserving : shard.primary = .up engine .serving resyncs) {stack : HttpStack}
    (url : Option Nat → String) {mutation : Mutation}
    (hcarried : stack.replicaId mutation.documentId = some mutation.documentId) (faults : Faults)
    (hops : Nat → Hop) :
    let written := Replicator.write ctx stack url engine shard.replicas mutation faults hops
    ∃ next, Fresh ctx shard next ∧ next.primary = .up written.2.1 .serving resyncs ∧
      next.replicas = written.2.2.1 ∧ next.sent = shard.sent ++ written.2.2.2 ∧
      next.write = none ∧
      ((∃ created, written.1 = .ok created) ∧ next.history = shard.history ++ [mutation] ∧
          next.acknowledged = (shard.history.length + 1 : Int) :: shard.acknowledged ∨
        (∃ error, written.1 = .error error) ∧ next.acknowledged = shard.acknowledged ∧
          (next.history = shard.history ∨ next.history = shard.history ++ [mutation])) := by
  intro written
  have heffect := @commit_effect _ _ ctx engine mutation faults
  have hlength := hs.primary_length hserving
  cases hcommit : commit ctx engine mutation faults with
  | mk result after =>
      rw [hcommit] at heffect
      dsimp only at heffect
      have hstep : shard.step ctx (.write mutation faults) = some { shard with
          primary := .up after .serving resyncs
          history := if after.generation = engine.generation then shard.history
            else shard.history ++ [mutation]
          write := result.toOption.map fun created =>
            ⟨mutation, after.generation, created, 0, false⟩ } := by
        simp only [step, hidle, hserving, hcommit]
        cases result <;> rfl
      cases heffect with
      | refused error commit =>
          rw [if_pos rfl] at hstep
          have hwritten : written = (.error error, engine, shard.replicas, []) := by
            simp only [written, Replicator.write, hcommit]
          rw [hwritten]
          exact ⟨_, .single rfl hstep, rfl, rfl, (List.append_nil _).symm, rfl,
            .inr ⟨⟨error, rfl⟩, rfl, .inl rfl⟩⟩
      | degraded reason after ready commit store generation state =>
          rw [if_neg (by omega)] at hstep
          have hwritten : written =
              (.error (.engineNotReady .degraded reason), after, shard.replicas, []) := by
            simp only [written, Replicator.write, hcommit]
          rw [hwritten]
          exact ⟨_, .single rfl hstep, rfl, rfl, (List.append_nil _).symm, rfl,
            .inr ⟨⟨_, rfl⟩, rfl, .inr rfl⟩⟩
      | applied created after ready commit store generation state exact =>
          rw [if_neg (by omega)] at hstep
          let committed : Shard α := { shard with
            primary := .up after .serving resyncs
            history := shard.history ++ [mutation]
            write := some ⟨mutation, after.generation, created, 0, false⟩ }
          obtain ⟨answered, hlooped⟩ := @replicateOver_fresh _ _ _ ctx stack url hops mutation
            hcarried after.generation (by omega) created shard.replicas [] committed rfl rfl
          have hloopLength := @replicateOver_length _ _ ctx stack url hops mutation
            after.generation 0 shard.replicas
          have hfirst : Fresh ctx shard committed := .single rfl hstep
          have hreached := hfirst.trans hlooped
          let looped := Replicator.replicateOver ctx stack url hops mutation after.generation 0
            shard.replicas
          have hwritten : written = (looped.1.map fun _ => created, after, looped.2) := by
            simp only [written, Replicator.write, hcommit]
            split <;> rename_i hlooped <;> simp only [looped, hlooped] <;> rfl
          rw [hwritten]
          dsimp only [List.length_nil, looped] at hreached ⊢
          generalize Replicator.replicateOver ctx stack url hops mutation after.generation 0
            shard.replicas = looped at hreached hloopLength
          obtain ⟨outcome, replicas, sent⟩ := looped
          cases outcome with
          | error error =>
              exact ⟨_, hreached, rfl, rfl, rfl, rfl, .inr ⟨⟨error, rfl⟩, rfl, .inr rfl⟩⟩
          | ok done =>
              rw [if_pos rfl] at hreached
              let last : Shard α := { committed with
                replicas := replicas
                sent := shard.sent ++ sent
                answered := answered
                write := none
                acknowledged := (shard.history.length + 1 : Int) :: shard.acknowledged }
              refine ⟨last, hreached.trans (@Reaches.single _ _ _ _ _ _ .acknowledge rfl ?_), rfl,
                rfl, rfl, rfl, .inl ⟨⟨created, rfl⟩, rfl, rfl⟩⟩
              have hall : committed.replicas.length = replicas.length := hloopLength.symm
              simp only [step, List.nil_append, hall, if_true, last, committed, generation, hlength]

end Shard

end PySearch
