import PySearch.Cluster.Replication.Acknowledged
import PySearch.Cluster.Replication.Copies

namespace PySearch

variable {α : Type}

theorem ReplicationRequest.applyAction_eq (request : ReplicationRequest) (faults : Faults) :
    request.applyAction faults = Node.replicate request.mutation request.generation faults := by
  unfold applyAction Node.replicate
  cases request.mutation <;> rfl

theorem ReplicationRequest.replicate_generation (request : ReplicationRequest) {faults : Faults}
    {mutation : Mutation} {generation : Int} {others : Faults}
    (h : request.applyAction faults = Node.replicate mutation generation others) :
    request.generation = generation := by
  have hasks := congrArg Node.asks h
  rw [request.asks_applyAction] at hasks
  cases mutation <;> simp_all [Node.asks, Node.replicate]

namespace Node

-- The store of the node's process takes writes.
def storing : Node α → Bool
  | down _ => true
  | up engine _ _ => !engine.store.closed

-- A step in which nothing of the node's own fails: its store, its embedder and its derived
-- updates work, the corpus it has asked for arrives, and it is not older than the stored one.
def faultless (node : Node α) (action : NodeAction) : Bool :=
  node.fresh action && match action with
    | .receive _ answer => answer.isOk
    | .install _ fault faults => !fault && decide (faults = .none) && node.storing
    | .applyReplicatedPut _ _ faults => decide (faults = .none)
    | .applyReplicatedDelete _ _ faults => decide (faults = .none)
    | _ => true

-- A process that follows the primary: it is not out of sync, it counts what it has stored
-- from its startup on, it was told of no generation below its own, and its
-- resynchronizations have snapshots that can be installed.
structure InStep (engine : SearchEngine α) (phase : Phase) (resyncs : List Resync) : Prop where
  state : engine.state ≠ .outOfSync
  counted : phase = .created ∨ engine.generation = engine.store.database.generation
  verifying : ∀ localGeneration, phase = .verifying localGeneration →
    localGeneration = engine.generation
  comparing : ∀ localGeneration remote, phase = .comparing localGeneration (.ok remote) →
    localGeneration ≤ remote
  running : ∀ resync ∈ resyncs, resync.stage ≠ .failed
  snapshots : ∀ documents generation, Holds resyncs documents generation →
    (documents.map Document.documentId).Nodup

def Following : Node α → Prop
  | down _ => True
  | up engine phase resyncs => InStep engine phase resyncs

section InStep

variable {engine after : SearchEngine α} {phase later : Phase} {resyncs : List Resync}

theorem InStep.stored (h : InStep engine phase resyncs) (hphase : phase ≠ .created) :
    engine.generation = engine.store.database.generation := h.counted.resolve_left hphase

-- Once the process serves or repairs, what it was told at its startup is spent.
theorem InStep.serve (h : InStep engine phase resyncs)
    (hlater : later = .serving ∨ later = .repairing) (hstate : after.state ≠ .outOfSync)
    (hcounted : after.generation = after.store.database.generation) :
    InStep after later resyncs where
  state := hstate
  counted := .inr hcounted
  verifying localGeneration heq := by
    subst heq
    simp at hlater
  comparing localGeneration remote heq := by
    subst heq
    simp at hlater
  running := h.running
  snapshots := h.snapshots

theorem holds_append {resync : Resync} {documents : List Document} {generation : Int}
    (h : Holds (resyncs ++ [resync]) documents generation) :
    Holds resyncs documents generation ∨ resync.stage = .received documents generation := by
  obtain ⟨found, hfound, hstage⟩ := h
  rcases List.mem_append.mp hfound with hold | hnew
  · exact .inl ⟨found, hold, hstage⟩
  · rw [List.mem_singleton.mp hnew] at hstage
    exact .inr hstage

theorem InStep.request (h : InStep engine phase resyncs) {resync : Resync}
    (hstage : resync.stage = .requested) : InStep engine phase (resyncs ++ [resync]) where
  state := h.state
  counted := h.counted
  verifying := h.verifying
  comparing := h.comparing
  running found hfound := by
    rcases List.mem_append.mp hfound with hold | hnew
    · exact h.running found hold
    · rw [List.mem_singleton.mp hnew, hstage]
      simp
  snapshots documents generation hholds := by
    rcases holds_append hholds with hold | hnew
    · exact h.snapshots documents generation hold
    · rw [hstage] at hnew
      cases hnew

theorem InStep.receive (h : InStep engine phase resyncs) {index : Nat} {resync : Resync}
    {documents : List Document} {generation : Int}
    (hnodup : (documents.map Document.documentId).Nodup) :
    InStep engine phase
      (resyncs.set index { resync with stage := .received documents generation }) where
  state := h.state
  counted := h.counted
  verifying := h.verifying
  comparing := h.comparing
  running found hfound := by
    rcases List.mem_or_eq_of_mem_set hfound with hold | rfl
    · exact h.running found hold
    · simp
  snapshots other carried hholds := by
    obtain ⟨found, hfound, hstage⟩ := hholds
    rcases List.mem_or_eq_of_mem_set hfound with hold | rfl
    · exact h.snapshots other carried ⟨found, hold, hstage⟩
    · cases hstage
      exact hnodup

theorem InStep.erase (h : InStep engine phase resyncs) (index : Nat) :
    InStep engine phase (resyncs.eraseIdx index) where
  state := h.state
  counted := h.counted
  verifying := h.verifying
  comparing := h.comparing
  running found hfound := h.running found (List.mem_of_mem_eraseIdx hfound)
  snapshots documents generation hholds := by
    obtain ⟨found, hfound, hstage⟩ := hholds
    exact h.snapshots documents generation ⟨found, List.mem_of_mem_eraseIdx hfound, hstage⟩

end InStep

variable [Arith α] [LinearOrder α] {ctx : EngineContext α} {node next : Node α}
  {action : NodeAction}

theorem InStep.applyReplicated {engine : SearchEngine α} {resyncs : List Resync}
    (hc : ctx.Contract) (h : InStep engine .serving resyncs)
    (hhealthy : engine.state = .ready → engine.Healthy ctx) (mutation : Mutation)
    {generation : Int} (hnear : generation ≤ engine.generation + 1) :
    InStep (engine.applyReplicated ctx mutation generation .none).2 .serving resyncs := by
  have heffect := @SearchEngine.applyReplicated_effect _ _ ctx engine mutation generation .none
  generalize hresult : engine.applyReplicated ctx mutation generation .none = pair at heffect ⊢
  obtain ⟨result, after⟩ := pair
  dsimp only at heffect ⊢
  cases heffect with
  | refused error => exact h
  | duplicate known => exact h
  | gap after ahead store derived kept state => omega
  | degraded reason after ready inLine store kept state =>
      obtain ⟨applied, happlied⟩ := (hhealthy ready).applyReplicated hc mutation
      rw [inLine, happlied] at hresult
      cases hresult
  | applied after ready inLine store advanced state exact =>
      refine h.serve (.inl rfl) (by simp [state]) ?_
      rw [advanced, store, SearchEngine.committed, Database.apply_generation]

-- An installation that meets no failure goes through.
theorem InStep.install {engine after : SearchEngine α} {phase : Phase} {resyncs : List Resync}
    {index : Nat} {resync : Resync} {documents : List Document} {generation : Int}
    {result : Except PyError RebuildReport} (hc : ctx.Contract) (h : InStep engine phase resyncs)
    (hopen : engine.store.closed = false) (hheld : pending phase resyncs index = some resync)
    (hstage : resync.stage = .received documents generation)
    (hresult : engine.resynchronize ctx documents generation false .none = (result, after)) :
    (∃ report, result = .ok report) ∧ InStep after phase.afterResync (resyncs.eraseIdx index) := by
  have hnodup := h.snapshots documents generation
    ⟨resync, List.mem_of_getElem? (pending_phase hheld).2.2, hstage⟩
  obtain ⟨report, rebuilt, htotal⟩ := SearchEngine.resynchronize_total hc hopen hnodup generation
  cases hresult.symm.trans htotal
  have heffect := @SearchEngine.resynchronize_effect _ _ _ ctx engine documents generation false .none
  rw [htotal] at heffect
  cases heffect with
  | installed report last nodup store advanced state exact =>
      refine ⟨⟨report, rfl⟩, ?_⟩
      have hstate : after.state ≠ .outOfSync := by
        rw [show after.state = .ready from state]
        simp
      rw [(pending_phase hheld).2.1]
      exact (h.serve (.inl rfl) hstate exact.generation).erase index

omit [Arith α] [LinearOrder α] in
theorem faultless_install {index : Nat} {fault : Bool} {faults : RebuildFaults}
    {engine : SearchEngine α} {phase : Phase} {resyncs : List Resync}
    (h : (up engine phase resyncs).faultless (.install index fault faults) = true) :
    fault = false ∧ faults = .none ∧ engine.store.closed = false := by
  simp only [faultless, storing, Bool.and_eq_true, Bool.not_eq_true', decide_eq_true_iff] at h
  exact ⟨h.2.1.1, h.2.1.2, h.2.2⟩

omit [Arith α] [LinearOrder α] in
theorem faultless_replicate {mutation : Mutation} {generation : Int} {faults : Faults}
    (h : node.faultless (replicate mutation generation faults) = true) : faults = .none := by
  cases mutation <;> simpa [replicate, faultless] using (Bool.and_eq_true_iff.mp h).2

-- A replica whose own steps do not fail follows the primary as long as no mutation that it
-- is given is further ahead than the next one.
theorem step_following (hc : ctx.Contract) (h : Steps ctx .replica node action next)
    (hf : node.Following) (hclear : node.faultless action = true)
    (hhealthy : ∀ engine phase resyncs, node = up engine phase resyncs → engine.state = .ready →
      engine.Healthy ctx)
    (hrequest : ∀ mutation generation faults, action = replicate mutation generation faults →
      generation ≤ node.database.generation + 1)
    (htold : ∀ remote, action = .generation (.ok remote) → node.database.generation ≤ remote)
    (hreceived : ∀ index documents generation,
      action = .receive index (.ok (documents, generation)) →
      (documents.map Document.documentId).Nodup) : next.Following := by
  cases h with
  | started database =>
      exact ⟨by simp [SearchEngine.new], .inl rfl, by simp, by simp, by simp,
        fun _ _ hholds => absurd hholds (by simp [Holds])⟩
  | notStarted engine after resyncs faults error raised => trivial
  | initialized engine after resyncs faults report rebuilt =>
      obtain ⟨-, hready, hexact⟩ := SearchEngine.initializeEngine_ok rebuilt
      exact ⟨by simp [hready], .inr hexact.generation, by simp, by simp, hf.running, hf.snapshots⟩
  | asked engine resyncs detail =>
      have hcounted := hf.stored (by simp)
      exact ⟨by simp [SearchEngine.markRecovering], .inr hcounted,
        fun localGeneration heq => by cases heq; rfl, by simp, hf.running, hf.snapshots⟩
  | told engine localGeneration remote resyncs =>
      have hcounted := hf.stored (by simp)
      refine ⟨hf.state, .inr hcounted, by simp, ?_, hf.running, hf.snapshots⟩
      intro own answer heq
      cases heq
      rw [hf.verifying _ rfl, hcounted]
      exact htold answer rfl
  | unverified engine localGeneration error resyncs detail =>
      exact hf.serve (.inl rfl) (by simp [SearchEngine.markRecovering]) (hf.stored (by simp))
  | verified engine localGeneration resyncs =>
      exact hf.serve (.inl rfl) (by simp [SearchEngine.markReady]) (hf.stored (by simp))
  | ahead engine localGeneration remote resyncs detail more =>
      have hle := hf.comparing localGeneration remote rfl
      omega
  | behind engine localGeneration remote resyncs detail less =>
      have hserve : InStep (engine.markRecovering detail) .repairing resyncs :=
        hf.serve (.inr rfl) (by simp [SearchEngine.markRecovering]) (hf.stored (by simp))
      exact hserve.request rfl
  | called engine resyncs detail replica =>
      have hserve : InStep (engine.markRecovering detail) .serving resyncs :=
        hf.serve (.inl rfl) (by simp [SearchEngine.markRecovering]) (hf.stored (by simp))
      exact hserve.request rfl
  | notExported engine phase resyncs index resync error detail pending stage =>
      simp [faultless, Except.isOk, Except.toBool] at hclear
  | exported engine phase resyncs index resync documents generation pending stage =>
      exact hf.receive (hreceived index documents generation rfl)
  | notInstalled engine after phase resyncs index resync documents generation fault faults error
      pending stage raised =>
      obtain ⟨rfl, rfl, hopen⟩ := faultless_install hclear
      obtain ⟨⟨report, hreport⟩, -⟩ := hf.install hc hopen pending stage raised
      cases hreport
  | installed engine after phase resyncs index resync documents generation fault faults report
      pending stage rebuilt =>
      obtain ⟨rfl, rfl, hopen⟩ := faultless_install hclear
      exact (hf.install hc hopen pending stage rebuilt).2
  | gaveUp engine phase resyncs index resync detail pending stage =>
      exact absurd stage (hf.running resync (List.mem_of_getElem? (pending_phase pending).2.2))
  | wrote engine after resyncs action mutation faults result writer effect =>
      exact absurd rfl writer
  | replicated engine resyncs mutation generation faults replica =>
      have hcounted := hf.stored (by simp)
      rw [faultless_replicate hclear]
      exact hf.applyReplicated hc (hhealthy engine .serving resyncs rfl) mutation
        (hcounted ▸ hrequest mutation generation faults rfl)
  | closed engine resyncs =>
      exact hf.serve (.inl rfl) (by simp [SearchEngine.close]) (hf.stored (by simp))
  | crashed engine phase resyncs => trivial

end Node

-- The pending write is given up, or it dies with the process that handles it.
def ShardAction.abandons : ShardAction → Bool
  | replicationError | primary .crash => true
  | _ => false

namespace Shard

-- A step in which the primary's store and derived updates work, and in which nothing of the
-- given replica's own fails.
def faultless (replica : Nat) (shard : Shard α) (action : ShardAction) : Bool :=
  (match action with
    | .write _ faults => !faults.store && decide (faults.derived = none)
    | _ => true) &&
  match shard.asked replica action, shard.replicas[replica]? with
    | some own, some node => node.faultless own
    | _, _ => true

variable [Arith α] [LinearOrder α] {ctx : EngineContext α} {shard next : Shard α}

omit [Arith α] [LinearOrder α] in
theorem faultless_asked {replica : Nat} {action : ShardAction} {own : NodeAction} {node : Node α}
    (hclear : shard.faultless replica action = true) (hasked : shard.asked replica action = some own)
    (hnode : shard.replicas[replica]? = some node) : node.faultless own = true := by
  have hown := (Bool.and_eq_true_iff.mp hclear).2
  rwa [hasked, hnode] at hown

omit [Arith α] [LinearOrder α] in
theorem faultless_fresh {replica : Nat} {action : ShardAction}
    (hclear : shard.faultless replica action = true) (own : NodeAction) (node : Node α)
    (hasked : shard.asked replica action = some own)
    (hnode : shard.replicas[replica]? = some node) : node.fresh own = true :=
  (Bool.and_eq_true_iff.mp (faultless_asked hclear hasked hnode)).1

omit [Arith α] [LinearOrder α] in
theorem faultless_write {replica : Nat} {mutation : Mutation} {faults : Faults}
    (hclear : shard.faultless replica (.write mutation faults) = true) :
    faults.derived = none := by
  simp only [faultless, Bool.and_eq_true, decide_eq_true_iff] at hclear
  exact hclear.1.2

-- A replica follows as long as the requests that reach it are at most for the generation
-- after its own.
theorem step_follows {replica : Nat} {action : ShardAction} (hc : ctx.Contract)
    (hs : Settled ctx shard) (hclear : shard.faultless replica action = true)
    (hf : ∀ node, shard.replicas[replica]? = some node → node.Following)
    (hnear : ∀ index faults request node, action = .deliver index faults →
      shard.sent[index]? = some request → request.target = replica →
      shard.replicas[replica]? = some node → request.generation ≤ node.database.generation + 1)
    (hstep : shard.step ctx action = some next) :
    ∀ node, next.replicas[replica]? = some node → node.Following := by
  have hmoves := step_moves hstep
  intro found hfound
  rcases step_asked hstep with ⟨-, hsame⟩ | ⟨own, node, after, hasked, hnode, hown, hafter⟩
  · exact hf found (hsame ▸ hfound)
  cases hafter.symm.trans hfound
  have hmem := List.mem_of_getElem? hnode
  have hcases := asked_cases hmoves hasked
  refine Node.step_following hc (Node.steps_of_step hown) (hf node hnode)
    (faultless_asked hclear hasked hnode) ?_ ?_ ?_ ?_
  · rintro engine phase resyncs rfl hready
    exact hs.healthy (List.mem_cons_of_mem _ hmem) hready
  · rintro mutation generation faults rfl
    rcases hcases with ⟨index, others, request, haction, hsent, htarget, heq⟩ |
      ⟨engine, resyncs, index, -, heq⟩ | ⟨engine, resyncs, -, heq⟩ | ⟨-, hlocal⟩
    · rw [← request.replicate_generation heq.symm]
      exact hnear index others request node haction hsent htarget hnode
    · cases mutation <;> cases heq
    · cases mutation <;> cases heq
    · cases mutation <;> cases hlocal
  · rintro remote rfl
    rcases hcases with ⟨index, others, request, -, -, -, heq⟩ |
      ⟨engine, resyncs, index, -, heq⟩ | ⟨engine, resyncs, hserving, heq⟩ | ⟨-, hlocal⟩
    · have hasks := request.asks_applyAction others
      rw [← heq] at hasks
      cases hasks
    · cases heq
    · cases heq
      rw [show engine.status.generation = shard.history.length from hs.primary_length hserving]
      exact (hs.consistent.replicas node hmem).within
    · cases hlocal
  · rintro index documents generation rfl
    rcases hcases with ⟨other, others, request, -, -, -, heq⟩ |
      ⟨engine, resyncs, other, hserving, heq⟩ | ⟨engine, resyncs, -, heq⟩ | ⟨-, hlocal⟩
    · have hasks := request.asks_applyAction others
      rw [← heq] at hasks
      cases hasks
    · have hsound := hs.consistent.primarySound
      rw [hserving] at hsound
      exact (SearchEngine.exportSnapshot_rows (fun hready => hsound (.inl hready))
        (by injection heq with _ hexport; exact hexport.symm)).2.1
    · cases heq
    · cases hlocal

-- A primary that serves holds the pending write.
def Attended (shard : Shard α) : Prop :=
  shard.write ≠ none → ∃ engine resyncs, shard.primary = .up engine .serving resyncs

-- A pending write ends when it is given up, when the primary's process ends, and when every
-- replica has confirmed it.
theorem step_attended {action : ShardAction} (h : Attended shard)
    (hstep : shard.step ctx action = some next) : Attended next ∧
      (shard.write ≠ none → next.write = none → action.abandons = true ∨
        ∃ write, shard.write = some write ∧ write.next = shard.replicas.length) := by
  have hreplica : ∀ {index action}, shard.stepReplica ctx index action = some next →
      Attended next ∧ (shard.write ≠ none → next.write ≠ none) := by
    intro index action hreplica
    obtain ⟨_, _, _, _, rfl⟩ := stepReplica_step hreplica
    exact ⟨h, fun hpending => hpending⟩
  have hkeeps : (Attended next ∧ (shard.write ≠ none → next.write ≠ none)) → Attended next ∧
      (shard.write ≠ none → next.write = none → action.abandons = true ∨
        ∃ write, shard.write = some write ∧ write.next = shard.replicas.length) :=
    fun hkept => ⟨hkept.1, fun hpending hnone => absurd hnone (hkept.2 hpending)⟩
  cases step_moves hstep with
  | wrote engine after resyncs mutation faults result record pending idle serving effect recorded
      kept => exact ⟨fun _ => ⟨after, resyncs, rfl⟩, fun hpending => absurd idle hpending⟩
  | sent write pending more => exact hkeeps ⟨fun _ => h (by simp [pending]), fun _ => by simp⟩
  | delivered index faults request engine after resyncs result answered waiting serving effect told =>
      exact hkeeps ⟨h, fun hpending => hpending⟩
  | replied write pending told => exact hkeeps ⟨fun _ => h (by simp [pending]), fun _ => by simp⟩
  | gaveUp write pending => exact ⟨fun hsome => absurd rfl hsome, fun _ _ => .inl rfl⟩
  | acknowledged write pending all =>
      exact ⟨fun hsome => absurd rfl hsome, fun _ _ => .inr ⟨write, pending, all⟩⟩
  | exported engine resyncs replica index next serving step => exact hkeeps (hreplica step)
  | told engine resyncs replica next serving step => exact hkeeps (hreplica step)
  | primary own node pending ownAction moves kept =>
      by_cases hidle : shard.write = none
      · have hnone : pending = none := by
          rcases kept with rfl | rfl
          · exact hidle
          · rfl
        exact ⟨fun hsome => absurd hnone hsome, fun hpending => absurd hidle hpending⟩
      · obtain ⟨engine, resyncs, hserving⟩ := h hidle
        simp only [step, ownAction, if_true] at hstep
        obtain ⟨found, hfound, hnext⟩ := Option.map_eq_some_iff.mp hstep
        rw [hserving] at hfound
        rcases Node.steps_serving (Node.steps_of_step hfound) with ⟨after, later, rfl⟩ |
          ⟨rfl, database, rfl⟩
        · cases hnext
          exact hkeeps ⟨fun _ => ⟨after, later, rfl⟩, fun hpending => hpending⟩
        · cases hnext
          exact ⟨fun hsome => absurd rfl hsome, fun _ _ => .inl rfl⟩
  | replica index action next ownAction step => exact hkeeps (hreplica step)

-- A healthy primary whose derived updates do not fail finishes what it commits.
theorem commit_of_commits {engine : SearchEngine α} {mutation : Mutation} {faults : Faults}
    (hc : ctx.Contract) (h : engine.Healthy ctx) (hderived : faults.derived = none)
    (hcommit : engine.commits ctx mutation faults = true) :
    ∃ created after, commit ctx engine mutation faults = (.ok created, after) := by
  cases mutation with
  | put document =>
      obtain ⟨after, hafter, -⟩ := h.indexDocument hc document
      refine ⟨some (!engine.store.database.rows.contains document.documentId), after, ?_⟩
      simp only [commit, SearchEngine.indexDocument_of_commits hcommit hderived, hafter]
      rfl
  | delete documentId =>
      have hpresent := SearchEngine.present_of_commits hcommit
      rw [Dict.contains, h.exact.derived.documents] at hpresent
      obtain ⟨document, hrow⟩ := Option.isSome_iff_exists.mp hpresent
      obtain ⟨after, hafter, -⟩ := h.deleteDocument hrow
      refine ⟨none, after, ?_⟩
      simp only [commit, SearchEngine.deleteDocument_of_commits hcommit hderived, hafter]
      rfl

-- So a write is refused and leaves no trace, or it is pending and the last of the history.
theorem write_cases {mutation : Mutation} {faults : Faults} (hc : ctx.Contract)
    (hs : Settled ctx shard) (hderived : faults.derived = none)
    (hstep : shard.step ctx (.write mutation faults) = some next) :
    shard.write = none ∧ next.sent = shard.sent ∧
      (next.history = shard.history ∧ next.write = none ∨
        next.history = shard.history ++ [mutation] ∧ ∃ generation created,
          next.write = some ⟨mutation, generation, created, 0, false⟩) := by
  simp only [step] at hstep
  split at hstep
  · rename_i engine resyncs hidle hserving
    refine ⟨hidle, ?_⟩
    have hcopy : .up engine .serving resyncs ∈ shard.copies := by
      rw [← hserving]
      exact List.mem_cons_self
    have hpending : ∀ ready : engine.state = .ready, engine.commits ctx mutation faults = true →
        ∃ created after, commit ctx engine mutation faults = (.ok created, after) :=
      fun ready hcommit => commit_of_commits hc (hs.healthy hcopy ready) hderived hcommit
    have heffect := @commit_effect _ _ ctx engine mutation faults
    generalize hresult : commit ctx engine mutation faults = pair at heffect hstep hpending
    obtain ⟨result, after⟩ := pair
    dsimp only at heffect hstep
    cases heffect with
    | refused error commit =>
        cases hstep
        exact ⟨rfl, .inl ⟨if_pos rfl, rfl⟩⟩
    | degraded reason after ready commit store generation state =>
        obtain ⟨created, last, hlast⟩ := hpending ready commit
        cases hlast
    | applied created after ready commit store generation state exact =>
        cases hstep
        exact ⟨rfl, .inr ⟨if_neg (by omega), _, created, rfl⟩⟩
  · cases hstep

end Shard

end PySearch
