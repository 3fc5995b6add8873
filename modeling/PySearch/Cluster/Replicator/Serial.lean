import PySearch.Cluster.Replicator.Theorems

namespace PySearch

open Run (Reaches)

variable {α : Type}

-- Between two calls a process has finished its startup, and resynchronizes with nothing.
def Node.Quiet : Node α → Prop
  | down _ => True
  | up _ phase resyncs => phase = .serving ∧ resyncs = []

theorem Node.Quiet.serving {engine : SearchEngine α} {phase : Phase} {resyncs : List Resync}
    (h : (up engine phase resyncs).Quiet) : phase = .serving ∧ resyncs = [] := h

namespace SerialShard

-- The interleaving model between two calls. What was sent reaches the replicas under the
-- identifiers that it was sent under.
structure Tracks (stack : HttpStack) (serial : SerialShard α) (shard : Shard α) : Prop where
  primary : shard.primary = serial.primary
  replicas : shard.replicas = serial.replicas
  sent : shard.sent = serial.sent
  idle : shard.write = none
  quiet : ∀ node ∈ shard.copies, node.Quiet
  carried : ∀ request ∈ serial.sent,
    stack.replicaId request.mutation.documentId = some request.mutation.documentId

variable [Arith α] [LinearOrder α] {ctx : EngineContext α} {stack : HttpStack}

-- What one event comes to in the interleaving model: a run, which commits at most the
-- mutation that is asked for, and acknowledges it exactly if the answer is a success.
structure Answers (ctx : EngineContext α) (shard : Shard α) (event : SerialEvent)
    (status : Option Nat) (next : Shard α) : Prop where
  run : Shard.Fresh ctx shard next
  committed : next.history = shard.history ∨
    ∃ mutation, event.mutation = some mutation ∧ next.history = shard.history ++ [mutation]
  told : (next.acknowledged = shard.acknowledged ∧
      (event.mutation = none ∨ ∀ code, status = some code → 300 ≤ code)) ∨
    ∃ mutation, event.mutation = some mutation ∧ next.history = shard.history ++ [mutation] ∧
      next.acknowledged = (next.history.length : Int) :: shard.acknowledged

theorem answers_run {shard next : Shard α} {event : SerialEvent} {status : Option Nat}
    (hrun : Shard.Fresh ctx shard next) (hhistory : next.history = shard.history)
    (hacknowledged : next.acknowledged = shard.acknowledged)
    (hevent : event.mutation = none ∨ ∀ code, status = some code → 300 ≤ code) :
    Answers ctx shard event status next :=
  ⟨hrun, .inl hhistory, .inl ⟨hacknowledged, hevent⟩⟩

theorem answers_same (shard : Shard α) {event : SerialEvent} {status : Option Nat}
    (hevent : event.mutation = none ∨ ∀ code, status = some code → 300 ≤ code) :
    Answers ctx shard event status shard :=
  answers_run (.refl shard) rfl rfl hevent

omit [Arith α] [LinearOrder α] in
theorem statusCode_ge (error : PyError) : 400 ≤ error.statusCode := by
  cases error <;> simp [PyError.statusCode]

variable {serial : SerialShard α} {shard : Shard α}

omit [Arith α] [LinearOrder α] in
theorem Tracks.copy (h : Tracks stack serial shard) {target : Option Nat} {node : Node α}
    (hcopy : serial.copy target = some node) : node ∈ shard.copies := by
  cases target with
  | none =>
      cases hcopy
      exact h.primary ▸ List.mem_cons_self
  | some index =>
      refine List.mem_cons_of_mem _ ?_
      rw [h.replicas]
      exact List.mem_of_getElem? hcopy

omit [Arith α] [LinearOrder α] in
-- A replica that comes to rest again leaves the rest of the shard as it was.
theorem Tracks.setReplica (h : Tracks stack serial shard) {index : Nat} {after : Node α}
    (hquiet : after.Quiet) :
    Tracks stack (serial.setCopy (some index) after) (shard.setReplica index after) := by
  refine ⟨h.primary, ?_, h.sent, h.idle, ?_, h.carried⟩
  · show shard.replicas.set index after = serial.replicas.set index after
    rw [h.replicas]
  · intro node hnode
    rcases List.mem_cons.mp hnode with rfl | hreplica
    · exact h.quiet _ List.mem_cons_self
    · rcases List.mem_or_eq_of_mem_set hreplica with hold | rfl
      · exact h.quiet node (List.mem_cons_of_mem _ hold)
      · exact hquiet

omit [Arith α] [LinearOrder α] in
theorem Tracks.setPrimary (h : Tracks stack serial shard) {after : Node α} (hquiet : after.Quiet) :
    Tracks stack (serial.setCopy none after) { shard with primary := after } := by
  refine ⟨rfl, h.replicas, h.sent, h.idle, ?_, h.carried⟩
  intro node hnode
  rcases List.mem_cons.mp hnode with rfl | hreplica
  · exact hquiet
  · exact h.quiet node (List.mem_cons_of_mem _ hreplica)

omit [Arith α] [LinearOrder α] in
-- No export of the primary is older than what a copy has stored.
theorem export_newer (hs : Shard.Settled ctx shard) {node : Node α} (hnode : node ∈ shard.copies)
    {engine : SearchEngine α} {resyncs : List Resync}
    (hserving : shard.primary = .up engine .serving resyncs) {documents : List Document}
    {generation : Int} (hexport : engine.exportSnapshot = .ok (documents, generation)) :
    node.database.generation ≤ generation := by
  have hsound := hs.consistent.primarySound
  have hprimary := hs.consistent.primary
  rw [hserving] at hsound hprimary
  have hgeneration := (SearchEngine.exportSnapshot_rows (fun hready => hsound (.inl hready))
    hexport).1
  rw [hgeneration, show engine.store.database = _ from hprimary, Database.replay_generation]
  exact (hs.consistent.copy hnode).2.within

omit [LinearOrder α] in
theorem replicateOver_quiet (url : Option Nat → String) (hops : Nat → Hop) (mutation : Mutation)
    (generation : Int) (index : Nat) {replicas : List (Node α)}
    (h : ∀ node ∈ replicas, node.Quiet) :
    ∀ node ∈ (Replicator.replicateOver ctx stack url hops mutation generation index replicas).2.1,
      node.Quiet := by
  induction replicas generalizing index with
  | nil => exact h
  | cons node rest ih =>
      obtain ⟨hnode, hrest⟩ := List.forall_mem_cons.mp h
      have hafter : (HttpNodeLink.applyMutation ctx stack (url (some index)) (hops index) node
          mutation generation).2.Quiet := by
        unfold HttpNodeLink.applyMutation
        split
        · exact hnode
        · exact hnode
      unfold Replicator.replicateOver
      split <;> rename_i hhop <;> rw [hhop] at hafter
      · exact List.forall_mem_cons.mpr ⟨hafter, hrest⟩
      · exact List.forall_mem_cons.mpr ⟨hafter, ih (index + 1) hrest⟩

omit [LinearOrder α] in
theorem replicateOver_sent (url : Option Nat → String) (hops : Nat → Hop) (mutation : Mutation)
    (generation : Int) (index : Nat) (replicas : List (Node α)) :
    ∀ request ∈ (Replicator.replicateOver ctx stack url hops mutation generation index
      replicas).2.2, request.mutation = mutation := by
  induction replicas generalizing index with
  | nil => exact fun _ hmem => nomatch hmem
  | cons node rest ih =>
      unfold Replicator.replicateOver
      split
      · exact fun request hmem => congrArg _ (List.mem_singleton.mp hmem)
      · exact List.forall_mem_cons.mpr ⟨rfl, ih (index + 1)⟩

omit [LinearOrder α] in
theorem write_sent (url : Option Nat → String) (engine : SearchEngine α) (mutation : Mutation)
    (faults : Faults) (hops : Nat → Hop) (replicas : List (Node α)) :
    ∀ request ∈ (Replicator.write ctx stack url engine replicas mutation faults hops).2.2.2,
      request.mutation = mutation := by
  unfold Replicator.write
  split
  · exact fun _ hmem => nomatch hmem
  · rename_i created after hcommit
    have hlooped := @replicateOver_sent _ _ ctx stack url hops mutation after.generation 0 replicas
    split <;> rename_i hloop <;> rw [hloop] at hlooped <;> exact hlooped

omit [LinearOrder α] in
theorem write_quiet (url : Option Nat → String) (engine : SearchEngine α) (mutation : Mutation)
    (faults : Faults) (hops : Nat → Hop) {replicas : List (Node α)}
    (h : ∀ node ∈ replicas, node.Quiet) :
    ∀ node ∈ (Replicator.write ctx stack url engine replicas mutation faults hops).2.2.1,
      node.Quiet := by
  unfold Replicator.write
  split
  · exact h
  · rename_i created after hcommit
    have hlooped := @replicateOver_quiet _ _ ctx stack url hops mutation after.generation 0 _ h
    split <;> rename_i hloop <;> rw [hloop] at hlooped <;> exact hlooped

theorem write_answers (url : Option Nat → String) (hs : Shard.Settled ctx shard)
    (h : Tracks stack serial shard) (target : Option Nat) {mutation : Mutation}
    (hcarried : stack.replicaId mutation.documentId = some mutation.documentId) (faults : Faults)
    (hops : Nat → Hop) :
    ∃ next, Answers ctx shard (.write target mutation faults hops)
        (serial.occur ctx stack url (.write target mutation faults hops)).1 next ∧
      Tracks stack (serial.occur ctx stack url (.write target mutation faults hops)).2 next := by
  unfold occur
  dsimp only
  split
  · rename_i engine resyncs hcopy
    cases target with
    | some index =>
        refine ⟨shard, answers_same shard (.inr ?_), h⟩
        intro code hcode
        cases hcode
        omega
    | none =>
        have hserving := h.primary.trans (Option.some.inj hcopy)
        obtain ⟨-, rfl⟩ := (hserving ▸ h.quiet _ List.mem_cons_self : (Node.up engine .serving
          resyncs).Quiet)
        obtain ⟨next, hrun, hprimary, hreplicas, hsent, hidle, houtcome⟩ :=
          Shard.write_fresh hs h.idle hserving url hcarried faults hops
        rw [← h.replicas]
        simp only [role, requirePrimary, if_true]
        generalize hwritten : Replicator.write ctx stack url engine shard.replicas mutation faults
          hops = written at hprimary hreplicas hsent houtcome
        obtain ⟨result, after, replicas, sent⟩ := written
        refine ⟨next, ⟨hrun, ?_, ?_⟩, ⟨hprimary, hreplicas, ?_, hidle, ?_, ?_⟩⟩
        · rcases houtcome with ⟨-, hhistory, -⟩ | ⟨-, -, hhistory | hhistory⟩
          · exact .inr ⟨mutation, rfl, hhistory⟩
          · exact .inl hhistory
          · exact .inr ⟨mutation, rfl, hhistory⟩
        · rcases houtcome with ⟨-, hhistory, hacknowledged⟩ | ⟨⟨error, rfl⟩, hacknowledged, -⟩
          · refine .inr ⟨mutation, rfl, hhistory, ?_⟩
            rw [hacknowledged, hhistory, List.length_append, List.length_singleton,
              Int.natCast_succ]
          · refine .inl ⟨hacknowledged, .inr fun code hcode => ?_⟩
            cases hcode
            have hrefused := statusCode_ge error
            simp only [Internal.writeStatus]
            omega
        · rw [hsent, h.sent]
        · have hquiet := @write_quiet _ _ ctx stack url engine mutation faults hops shard.replicas
            fun node hnode => h.quiet node (List.mem_cons_of_mem _ hnode)
          rw [hwritten] at hquiet
          intro node hnode
          rcases List.mem_cons.mp hnode with rfl | hreplica
          · rw [hprimary]
            exact ⟨rfl, rfl⟩
          · exact hquiet node (hreplicas ▸ hreplica)
        · have hmutation := @write_sent _ _ ctx stack url engine mutation faults hops shard.replicas
          rw [hwritten] at hmutation
          intro request hmem
          rcases List.mem_append.mp hmem with hold | hnew
          · exact h.carried request hold
          · rw [hmutation request hnew]
            exact hcarried
  · exact ⟨shard, answers_same shard (.inr (by simp)), h⟩

-- A request that arrives late is judged by its generation, and one that goes astray by the
-- role of the node.
theorem arrive_answers (url : Option Nat → String) (hs : Shard.Settled ctx shard)
    (h : Tracks stack serial shard) (astray : Bool) (request : Nat) (faults : Faults) :
    ∃ next, Answers ctx shard (.arrive astray request faults)
        (serial.occur ctx stack url (.arrive astray request faults)).1 next ∧
      Tracks stack (serial.occur ctx stack url (.arrive astray request faults)).2 next := by
  unfold occur
  dsimp only
  split
  · exact ⟨shard, answers_same shard (.inl rfl), h⟩
  rename_i request hrequest
  have hcarried := h.carried request (List.mem_of_getElem? hrequest)
  rw [← h.sent] at hrequest
  split
  · rename_i engine resyncs hcopy
    cases astray with
    | true =>
        have hprimary : serial.primary = .up engine .serving resyncs := Option.some.inj hcopy
        have hsame : serial.setCopy none (.up engine .serving resyncs) = serial := by
          rw [setCopy, ← hprimary]
        refine ⟨shard, answers_same shard (.inl rfl), ?_⟩
        have hrefused : Internal.replicate ctx (role none) engine
            (stack.replicaId request.mutation.documentId) request.mutation request.generation
            faults = (.error 409, engine) := by rw [hcarried]; rfl
        simp only [if_true, hrefused, hsame]
        exact h
    | false =>
        have hmem := h.copy hcopy
        obtain ⟨-, rfl⟩ := (h.quiet _ hmem).serving
        have hserving : shard.replicas[request.target]? = some (.up engine .serving []) := by
          rw [h.replicas]
          exact hcopy
        have hpositive := (hs.consistent.requests request (List.mem_of_getElem? hrequest)).1
        have hstep := @Shard.step_deliver _ _ _ ctx _ _ _ _ _ hrequest hserving faults
        dsimp only at hstep
        let replied := Internal.replicate ctx .replica engine
          (stack.replicaId request.mutation.documentId) request.mutation request.generation faults
        have hafter : replied.2 =
            (engine.applyReplicated ctx request.mutation request.generation faults).2 := by
          simp only [replied, Internal.replicate_replica engine request.mutation hcarried hpositive,
            Internal.replicated_engine]
        have htracks : Tracks stack
            (serial.setCopy (some request.target) (.up replied.2 .serving []))
            (shard.setReplica request.target (.up (engine.applyReplicated ctx request.mutation
              request.generation faults).2 .serving [])) := by
          rw [hafter]
          exact h.setReplica ⟨rfl, rfl⟩
        split at hstep
        · refine ⟨_, answers_run (@Reaches.single _ _ _ _ _ _ (.deliver _ faults) rfl hstep) rfl rfl
            (.inl rfl), ?_⟩
          exact ⟨htracks.primary, htracks.replicas, htracks.sent, htracks.idle, htracks.quiet,
            htracks.carried⟩
        · exact ⟨_, answers_run (@Reaches.single _ _ _ _ _ _ (.deliver _ faults) rfl hstep) rfl rfl
            (.inl rfl), htracks⟩
  · exact ⟨shard, answers_same shard (.inl rfl), h⟩

theorem resync_answers (url : Option Nat → String) (hs : Shard.Settled ctx shard)
    (h : Tracks stack serial shard) (target : Option Nat) (repair : Repair) :
    ∃ next, Answers ctx shard (.resync target repair)
        (serial.occur ctx stack url (.resync target repair)).1 next ∧
      Tracks stack (serial.occur ctx stack url (.resync target repair)).2 next := by
  unfold occur
  dsimp only
  split
  · rename_i engine resyncs hcopy
    cases target with
    | none => exact ⟨shard, answers_same shard (.inl rfl), h⟩
    | some index =>
        have hmem := h.copy hcopy
        obtain ⟨-, rfl⟩ := (h.quiet _ hmem).serving
        have hreplica : shard.replicas[index]? = some (.up engine .serving []) := by
          rw [h.replicas]
          exact hcopy
        have hnewer : ∀ documents generation,
            HttpNodeLink.exportFrom (url none) repair.exported serial.primary =
              .ok (documents, generation) → engine.store.database.generation ≤ generation := by
          intro documents generation hanswer
          obtain ⟨source, resyncs, hserving, hexport⟩ := Node.exportFrom_serving hanswer
          exact export_newer hs hmem (h.primary.trans hserving) hexport
        have hrun := Shard.follows_fresh hreplica (@Node.resynchronize_reaches _ _ _ ctx
          shard.primary _ (fun _ => h.primary ▸ Node.exportFrom_heard _ _ _ _) engine hnewer
          repair.fault repair.faults)
        exact ⟨_, answers_run hrun rfl rfl (.inl rfl), h.setReplica ⟨rfl, rfl⟩⟩
  · exact ⟨shard, answers_same shard (.inl rfl), h⟩

theorem lifespan_quiet (url : Option Nat → String) (role : Role) (database : Database)
    (primary : Node α) (faults : RebuildFaults) (repair : Repair) :
    (lifespan ctx url role database primary faults repair).Quiet := by
  unfold lifespan
  split
  · trivial
  · split_ifs <;> exact ⟨rfl, rfl⟩

-- Nothing is asked of a primary while it is down or starts, so no write is under way.
theorem start_answers (url : Option Nat → String) (hs : Shard.Settled ctx shard)
    (h : Tracks stack serial shard) (target : Option Nat) (faults : RebuildFaults)
    (repair : Repair) :
    ∃ next, Answers ctx shard (.start target faults repair)
        (serial.occur ctx stack url (.start target faults repair)).1 next ∧
      Tracks stack (serial.occur ctx stack url (.start target faults repair)).2 next := by
  unfold occur
  dsimp only
  split
  · rename_i database hcopy
    cases target with
    | none =>
        have hdown : shard.primary = .down database := h.primary.trans (Option.some.inj hcopy)
        let started : Shard α :=
          { shard with primary := .up (.new ctx (.openDatabase database)) .created [] }
        have hstart : shard.step ctx (.primary .start) = some started := by
          simp only [Shard.step, NodeAction.isLocal, if_true, hdown, Node.step, Option.map_some,
            started]
        have hinit : started.step ctx (.primary (.initializeEngine faults)) = some { shard with
            primary := lifespan ctx url .primary database serial.primary faults repair } := by
          have hmoved : (Node.up (.new ctx (.openDatabase database)) .created [] : Node α).step ctx
              .primary (.initializeEngine faults) =
                some (lifespan ctx url .primary database serial.primary faults repair) := by
            simp only [Node.step, lifespan]
            generalize SearchEngine.initializeEngine ctx _ faults = outcome
            rcases outcome with ⟨_ | _, engine⟩ <;> rfl
          simp only [Shard.step, NodeAction.isLocal, if_true, started, hmoved, Option.map_some]
          generalize lifespan ctx url .primary database serial.primary faults repair = node
          cases node with
          | down database => simp only [h.idle]
          | up engine phase resyncs => rfl
        have hrun : Shard.Fresh ctx shard { shard with
            primary := lifespan ctx url .primary database serial.primary faults repair } :=
          Reaches.trans (.single rfl hstart) (.single rfl hinit)
        exact ⟨_, answers_run hrun rfl rfl (.inl rfl), h.setPrimary (lifespan_quiet url _ _ _ _ _)⟩
    | some index =>
        have hmem := h.copy hcopy
        have hreplica : shard.replicas[index]? = some (.down database) := by
          rw [h.replicas]
          exact hcopy
        have hnewer : ∀ engine resyncs documents generation,
            serial.primary = .up engine .serving resyncs →
            engine.exportSnapshot = .ok (documents, generation) →
            database.generation ≤ generation := by
          intro engine resyncs documents generation hserving hexport
          exact export_newer hs hmem (h.primary.trans hserving) hexport
        have hstarts := @Node.lifespan_reaches _ _ _ ctx url serial.primary database hnewer faults
          repair
        have hrun := Shard.follows_fresh hreplica (by rw [h.primary]; exact hstarts)
        exact ⟨_, answers_run hrun rfl rfl (.inl rfl), h.setReplica (lifespan_quiet url _ _ _ _ _)⟩
  · exact ⟨shard, answers_same shard (.inl rfl), h⟩

theorem crash_answers (url : Option Nat → String) (h : Tracks stack serial shard)
    (target : Option Nat) :
    ∃ next, Answers ctx shard (.crash target) (serial.occur ctx stack url (.crash target)).1 next ∧
      Tracks stack (serial.occur ctx stack url (.crash target)).2 next := by
  unfold occur
  dsimp only
  split
  · rename_i engine phase resyncs hcopy
    cases target with
    | none =>
        have hprimary : shard.primary = .up engine phase resyncs :=
          h.primary.trans (Option.some.inj hcopy)
        have hcrash : shard.step ctx (.primary .crash) =
            some { shard with primary := .down engine.store.database } := by
          simp only [Shard.step, NodeAction.isLocal, if_true, hprimary, Node.step, Option.map_some,
            h.idle]
        exact ⟨_, answers_run (@Reaches.single _ _ _ _ _ _ (.primary .crash) rfl hcrash) rfl rfl
          (.inl rfl), h.setPrimary trivial⟩
    | some index =>
        have hreplica : shard.replicas[index]? = some (.up engine phase resyncs) := by
          rw [h.replicas]
          exact hcopy
        have hcrash : (Node.up engine phase resyncs).step ctx .replica .crash =
            some (.down engine.store.database) := by simp only [Node.step]
        have hrun := Shard.follows_fresh hreplica (@Reaches.single _ _ _ _ _ _ .crash
          ⟨rfl, .inl rfl⟩ hcrash)
        exact ⟨_, answers_run hrun rfl rfl (.inl rfl), h.setReplica trivial⟩
  · exact ⟨shard, answers_same shard (.inl rfl), h⟩

theorem occur_answers (url : Option Nat → String) (hs : Shard.Settled ctx shard)
    (h : Tracks stack serial shard) (event : SerialEvent)
    (hcarried : ∀ mutation, event.mutation = some mutation →
      stack.replicaId mutation.documentId = some mutation.documentId) :
    ∃ next, Answers ctx shard event (serial.occur ctx stack url event).1 next ∧
      Tracks stack (serial.occur ctx stack url event).2 next := by
  cases event with
  | write target mutation faults hops =>
      exact write_answers url hs h target (hcarried mutation rfl) faults hops
  | arrive astray request faults => exact arrive_answers url hs h astray request faults
  | resync target repair => exact resync_answers url hs h target repair
  | start target faults repair => exact start_answers url hs h target faults repair
  | crash target => exact crash_answers url h target

omit [Arith α] [LinearOrder α] in
theorem initial_tracks (replicas : Nat) :
    Tracks stack (initial replicas : SerialShard α) (Shard.initial replicas) := by
  refine ⟨rfl, rfl, rfl, rfl, ?_, fun _ hmem => nomatch hmem⟩
  intro node hnode
  rcases List.mem_cons.mp hnode with rfl | hreplica
  · trivial
  · rw [List.eq_of_mem_replicate hreplica]
    trivial

-- A shard whose calls do not overlap is explained by the interleaving model, event by event.
theorem serial_traces (url : Option Nat → String) (replicas : Nat) (events : List SerialEvent)
    (hcarried : ∀ event ∈ events, ∀ mutation, event.mutation = some mutation →
      stack.replicaId mutation.documentId = some mutation.documentId) :
    let run := Run.feed (occur ctx stack url) (initial replicas) events
    ∃ shard, Run.Traces (Answers ctx) (Shard.initial replicas) events run.1 shard ∧
      Shard.Fresh ctx (Shard.initial replicas) shard ∧ Tracks stack run.2 shard := by
  intro run
  have hstep : ∀ serial shard, ∀ event ∈ events,
      (Shard.Fresh ctx (Shard.initial replicas) shard ∧ Tracks stack serial shard) →
      ∃ next, Answers ctx shard event (serial.occur ctx stack url event).1 next ∧
        Shard.Fresh ctx (Shard.initial replicas) next ∧
          Tracks stack (serial.occur ctx stack url event).2 next := by
    rintro serial shard event hevent ⟨hreach, htracks⟩
    obtain ⟨next, hanswers, hnext⟩ :=
      occur_answers url (Shard.reaches_settled hreach) htracks event (hcarried event hevent)
    exact ⟨next, hanswers, hreach.trans hanswers.run, hnext⟩
  exact Run.feed_traces hstep ⟨.refl _, initial_tracks replicas⟩

end SerialShard

end PySearch
