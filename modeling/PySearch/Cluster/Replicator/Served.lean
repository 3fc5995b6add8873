import PySearch.Cluster.Replication.Deletes
import PySearch.Cluster.Replicator.Serial

namespace PySearch

variable {α : Type}

namespace SerialShard

-- The writes that were answered with success, and the writes that were asked for at all.
def confirmed (events : List SerialEvent) (statuses : List (Option Nat)) : List Mutation :=
  (events.zip statuses).flatMap fun (event, status) =>
    if status.any (· < 300) then event.mutation.toList else []

def requested (events : List SerialEvent) : List Mutation :=
  events.flatMap fun event => event.mutation.toList

-- The history holds what was confirmed, in that order and no later than it was acknowledged,
-- and nothing that was not asked for.
structure Recorded (confirmed requested : List Mutation) (shard : Shard α) : Prop where
  committed : shard.history.Sublist requested
  bounded : ∀ generation ∈ shard.acknowledged, generation ≤ shard.history.length
  kept : ∀ count : Nat, (∀ generation ∈ shard.acknowledged, generation ≤ count) →
    confirmed.Sublist (shard.history.take count)

variable [Arith α] [LinearOrder α] {ctx : EngineContext α} {stack : HttpStack}
  {shard next : Shard α}

theorem Answers.recorded {event : SerialEvent} {status : Option Nat}
    {confirmations requests : List Mutation} (h : Answers ctx shard event status next)
    (hr : Recorded confirmations requests shard) :
    Recorded (confirmations ++ confirmed [event] [status]) (requests ++ requested [event])
      next := by
  have hconfirmed : (confirmed [event] [status]).Sublist event.mutation.toList := by
    simp only [confirmed, List.zip_cons_cons, List.zip_nil_left, List.flatMap_cons,
      List.flatMap_nil, List.append_nil]
    split <;> simp
  have hrequested : requested [event] = event.mutation.toList := by simp [requested]
  have hgrown : shard.history.length ≤ next.history.length ∧
      ∀ count, (shard.history.take count).Sublist (next.history.take count) := by
    rcases h.committed with hsame | ⟨mutation, -, happend⟩
    · rw [hsame]
      exact ⟨le_refl _, fun count => .refl _⟩
    · rw [happend, List.length_append]
      refine ⟨by omega, fun count => ?_⟩
      rw [List.take_append]
      exact List.sublist_append_left _ _
  have hlonger : (shard.history.length : Int) ≤ next.history.length := by
    exact_mod_cast hgrown.1
  refine ⟨?_, ?_, ?_⟩
  · rw [hrequested]
    rcases h.committed with hsame | ⟨mutation, hasked, happend⟩
    · rw [hsame]
      exact hr.committed.trans (List.sublist_append_left _ _)
    · rw [happend, hasked]
      exact hr.committed.append (.refl _)
  · intro generation hgeneration
    rcases h.told with ⟨hsame, -⟩ | ⟨mutation, -, -, hcons⟩
    · exact (hr.bounded generation (hsame ▸ hgeneration)).trans hlonger
    · rcases List.mem_cons.mp (hcons ▸ hgeneration) with rfl | hold
      · exact le_refl _
      · exact (hr.bounded generation hold).trans hlonger
  · intro count hcount
    rcases h.told with ⟨hsame, hnone⟩ | ⟨mutation, hasked, happend, hcons⟩
    · have hempty : confirmed [event] [status] = [] := by
        rcases hnone with hunasked | hrefused
        · rw [hunasked] at hconfirmed
          exact List.eq_nil_of_sublist_nil hconfirmed
        · cases status with
          | none => rfl
          | some code =>
              have hcode := hrefused code rfl
              simp [confirmed]
              omega
      rw [hempty, List.append_nil]
      exact (hr.kept count (hsame ▸ hcount)).trans (hgrown.2 count)
    · have hwhole : next.history.length ≤ count := by
        exact_mod_cast hcount _ (hcons ▸ List.mem_cons_self)
      have hbefore := hr.kept shard.history.length hr.bounded
      rw [List.take_length] at hbefore
      rw [List.take_of_length_le hwhole, happend]
      rw [hasked] at hconfirmed
      exact hbefore.append hconfirmed

theorem traces_recorded {events : List SerialEvent} {statuses : List (Option Nat)}
    {confirmations requests : List Mutation}
    (h : Run.Traces (Answers ctx) shard events statuses next)
    (hr : Recorded confirmations requests shard) :
    Recorded (confirmations ++ confirmed events statuses) (requests ++ requested events) next := by
  induction h generalizing confirmations requests with
  | nil => simpa [confirmed, requested] using hr
  | @cons shard middle last event status events statuses first rest ih =>
      have hlast := ih (first.recorded hr)
      simpa [confirmed, requested] using hlast

-- When the calls of a shard do not overlap, every copy that serves holds every write that was
-- answered with success, whatever failed, crashed, arrived late or went astray in between.
-- Every identifier that is written is one that the replicas are asked for.
theorem serial_writes_served (stack : HttpStack) (url : Option Nat → String) (replicas : Nat)
    (events : List SerialEvent)
    (hcarried : ∀ event ∈ events, ∀ mutation, event.mutation = some mutation →
      stack.replicaId mutation.documentId = some mutation.documentId) :
    let run := Run.feed (occur ctx stack url) (initial replicas) events
    ∃ history, run.2.primary.database = .replay history ∧ history.Sublist (requested events) ∧
      ∀ engine phase resyncs, .up engine phase resyncs ∈ run.2.primary :: run.2.replicas →
        engine.state = .ready →
          (confirmed events run.1).Sublist (history.take engine.generation.toNat) ∧
          ∀ id, engine.derived.documents.get? id =
            (Database.replay (history.take engine.generation.toNat)).rows.get? id := by
  intro run
  obtain ⟨shard, htraces, hreach, htracks⟩ := @serial_traces _ _ _ ctx stack url replicas events
    hcarried
  obtain ⟨hconsistent, hdurable⟩ := Shard.fresh_durable hreach
  have hrecorded := @traces_recorded _ _ _ ctx _ _ _ _ [] [] htraces
    ⟨.refl _, by simp [Shard.initial], fun _ _ => List.nil_sublist _⟩
  refine ⟨shard.history, htracks.primary ▸ hconsistent.primary, hrecorded.committed, ?_⟩
  intro engine phase resyncs hcopy hready
  have hmem : .up engine phase resyncs ∈ shard.copies := by
    rw [Shard.copies, htracks.primary, htracks.replicas]
    exact hcopy
  refine ⟨hrecorded.kept engine.generation.toNat fun generation hgeneration => ?_,
    Shard.ready_copy_rows hconsistent hmem hready⟩
  have hle := hdurable.ready_acknowledged hconsistent hmem hready generation hgeneration
  exact hle.trans (Int.self_le_toNat _)

-- What the shard's own code does between two calls, the interleaving model can do: the same
-- processes, databases and requests, with a history that the primary has stored.
theorem serial_refines (stack : HttpStack) (url : Option Nat → String) (replicas : Nat)
    (events : List SerialEvent)
    (hcarried : ∀ event ∈ events, ∀ mutation, event.mutation = some mutation →
      stack.replicaId mutation.documentId = some mutation.documentId) :
    let run := Run.feed (occur ctx stack url) (initial replicas) events
    ∃ shard, Run.Reaches (Shard.step ctx)
        (fun shard action => Shard.freshSnapshots shard action = true) (Shard.initial replicas)
        shard ∧
      shard.primary = run.2.primary ∧ shard.replicas = run.2.replicas ∧
      shard.sent = run.2.sent ∧ shard.write = none ∧
      (confirmed events run.1).Sublist shard.history := by
  intro run
  obtain ⟨shard, htraces, hreach, htracks⟩ := @serial_traces _ _ _ ctx stack url replicas events
    hcarried
  have hrecorded := @traces_recorded _ _ _ ctx _ _ _ _ [] [] htraces
    ⟨.refl _, by simp [Shard.initial], fun _ _ => List.nil_sublist _⟩
  have hkept := hrecorded.kept shard.history.length hrecorded.bounded
  rw [List.take_length] at hkept
  exact ⟨shard, hreach, htracks.primary, htracks.replicas, htracks.sent, htracks.idle, hkept⟩

section Example

attribute [local instance] rationalArith

def fairRepair : Repair := ⟨none, none, false, .none⟩

-- The second write arrives, but its answer is lost. The replica refuses the third one, the
-- primary a request that is meant for the replica, and the replica knows the second write.
def serialEvents : List SerialEvent :=
  [.start none .none fairRepair, .start (some 0) .none fairRepair,
    .write none (.put redFox) .none fun _ => ⟨true, none, .none⟩,
    .write none (.put red) .none fun _ => ⟨true, some .timeout, .none⟩,
    .write (some 0) (.put red) .none fun _ => ⟨true, none, .none⟩,
    .arrive true 0 .none, .arrive false 1 .none, .crash (some 0),
    .write none (.delete "a") .none fun _ => ⟨true, none, .none⟩,
    .start (some 0) .none fairRepair, .resync (some 0) fairRepair]

def serialContext : EngineContext ℚ := ⟨.ascii, defaultBM25Params, some .constant⟩

def serialRun : List (Option Nat) × SerialShard ℚ :=
  Run.feed (occur serialContext .pathStack fun _ => "http://node") (initial 1) serialEvents

theorem serialRun_answers : serialRun.1 =
    [none, none, some 201, some 503, some 409, some 409, some 200, none, some 503, none,
      some 200] := by decide +kernel

theorem serialEvents_carried : ∀ event ∈ serialEvents, ∀ mutation,
    event.mutation = some mutation →
      HttpStack.pathStack.replicaId mutation.documentId = some mutation.documentId := by
  have hids : ∀ event ∈ serialEvents, ∀ mutation ∈ event.mutation,
      mutation.documentId ∈ ["a", "b", "c", " "] := by
    simp [serialEvents, SerialEvent.mutation, Mutation.documentId, redFox, red]
  exact fun event hevent mutation hmutation =>
    (HttpStack.pathStack_survives (hids event hevent mutation hmutation)).replicaId

theorem serialRun_confirmed : confirmed serialEvents serialRun.1 = [.put redFox] := by
  rw [serialRun_answers]
  decide

-- Both copies end ready, and with the write that was confirmed.
theorem serialRun_served : ∃ history, serialRun.2.primary.database = .replay history ∧
    ∀ node ∈ serialRun.2.primary :: serialRun.2.replicas, ∃ engine phase resyncs,
      node = .up engine phase resyncs ∧ engine.state = .ready ∧
        [.put redFox].Sublist (history.take engine.generation.toNat) := by
  have hready : (serialRun.2.primary :: serialRun.2.replicas).all (fun
      | .up engine _ _ => engine.state = .ready
      | .down _ => false) = true := by decide +kernel
  obtain ⟨history, hdatabase, -, hserved⟩ := @serial_writes_served _ _ _ serialContext .pathStack
    (fun _ => "http://node") 1 serialEvents serialEvents_carried
  refine ⟨history, hdatabase, fun node hnode => ?_⟩
  have hnodeReady := List.all_eq_true.mp hready node hnode
  match node with
  | .down database => cases hnodeReady
  | .up engine phase resyncs =>
      have hstate := of_decide_eq_true hnodeReady
      have hkept : (confirmed serialEvents serialRun.1).Sublist _ :=
        (hserved engine phase resyncs hnode hstate).1
      rw [serialRun_confirmed] at hkept
      exact ⟨engine, phase, resyncs, rfl, hstate, hkept⟩

theorem serialRun_refined : ∃ shard,
    Run.Reaches (Shard.step serialContext)
        (fun shard action => Shard.freshSnapshots shard action = true) (Shard.initial 1) shard ∧
      shard.primary = serialRun.2.primary ∧ shard.replicas = serialRun.2.replicas ∧
      [.put redFox].Sublist shard.history := by
  obtain ⟨shard, hreach, hprimary, hreplicas, -, -, hconfirmed⟩ := @serial_refines _ _ _
    serialContext .pathStack (fun _ => "http://node") 1 serialEvents serialEvents_carried
  have hkept : (confirmed serialEvents serialRun.1).Sublist shard.history := hconfirmed
  rw [serialRun_confirmed] at hkept
  exact ⟨shard, hreach, hprimary, hreplicas, hkept⟩

end Example

end SerialShard

end PySearch
