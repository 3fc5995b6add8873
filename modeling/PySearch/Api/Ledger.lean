import PySearch.Api.Public
import PySearch.Cluster.Routing.Theorems
import PySearch.Search.Engine.Recovery

namespace PySearch

open Api
open SearchEngine (Healthy initializeEngine)

variable {α : Type}

-- The write that a request asks for. A blank identifier makes no document.
def Api.Request.mutation : Request → Option Mutation
  | .putDocument documentId text => (Document.create documentId text).toOption.map .put
  | .deleteDocument documentId => some (.delete documentId)
  | _ => none

-- What happens to a single node: it serves a request, or its process dies, perhaps while it
-- serves a request whose answer then nobody sees, and is started again.
inductive NodeEvent
  | serve (request : Request) (faults : Faults)
  | crash (during : Option (Request × Faults))

def NodeEvent.mutation : NodeEvent → Option Mutation
  | .serve request _ => request.mutation
  | .crash during => during.bind fun interrupted => interrupted.1.mutation

-- What a single node is for: a list of writes that only grows, and whether everything else
-- is answered from it.
structure Ledger where
  mutations : List Mutation
  trusted : Bool

namespace Ledger

def empty : Ledger := ⟨[], true⟩

def rows (ledger : Ledger) : Dict String Document := (Database.replay ledger.mutations).rows

-- A delete of what is not there is not recorded.
def records (ledger : Ledger) : Mutation → Bool
  | .put _ => true
  | .delete documentId => ledger.rows.contains documentId

def record (ledger : Ledger) (mutation : Mutation) : Ledger :=
  { ledger with mutations := ledger.mutations ++ [mutation] }

def after (ledger : Ledger) (request : Request) : Ledger :=
  match request.mutation with
  | some mutation => if ledger.records mutation then ledger.record mutation else ledger
  | none => ledger

variable [Arith α] [LinearOrder α] (ctx : EngineContext α)

-- A node that has just been started on a database with these writes.
def node (ledger : Ledger) : SearchEngine α :=
  (initializeEngine ctx (.new ctx (.openDatabase (.replay ledger.mutations))) .none).2

def answer (ledger : Ledger) (request : Request) : Response α :=
  ((ledger.node ctx).serve ctx .none request).1

-- A request is answered from the ledger. Only a failure makes it a 5xx, which leaves open
-- for a write whether it is recorded, unless the status is not 503.
inductive Allows : Ledger → NodeEvent → Option (Response α) → Ledger → Prop
  | answered (ledger : Ledger) (request : Request) (faults : Faults) :
      Allows ledger (.serve request faults) (some (ledger.answer ctx request))
        (ledger.after request)
  | refused (ledger : Ledger) (request : Request) (faults : Faults) (response : Response α)
      (cause : ledger.trusted = false ∨ faults ≠ .none) (status : 500 ≤ response.status) :
      Allows ledger (.serve request faults) (some response) ledger
  | unacknowledged (ledger : Ledger) (request : Request) (faults : Faults)
      (response : Response α) (mutation : Mutation) (cause : faults ≠ .none)
      (asked : request.mutation = some mutation) (recorded : ledger.records mutation = true)
      (status : response.status = 503) :
      Allows ledger (.serve request faults) (some response)
        { ledger.record mutation with trusted := false }
  | restarted (ledger : Ledger) (during : Option (Request × Faults)) :
      Allows ledger (.crash during) none { ledger with trusted := true }
  | restartedLate (ledger : Ledger) (request : Request) (faults : Faults) (mutation : Mutation)
      (asked : request.mutation = some mutation) (recorded : ledger.records mutation = true) :
      Allows ledger (.crash (some (request, faults))) none
        { ledger.record mutation with trusted := true }

variable {ctx} in
-- A node that dies while it serves leaves what it had recorded by then.
theorem Allows.interrupted {ledger next : Ledger} {request : Request} {faults : Faults}
    {response : Option (Response α)}
    (h : Allows ctx ledger (.serve request faults) response next) :
    Allows ctx ledger (.crash (some (request, faults))) none ⟨next.mutations, true⟩ := by
  cases h with
  | answered =>
      unfold after
      split
      · rename_i mutation hasked
        split
        · rename_i hrecorded
          exact .restartedLate ledger request faults mutation hasked hrecorded
        · exact .restarted ledger _
      · exact .restarted ledger _
  | refused => exact .restarted ledger _
  | unacknowledged _ _ response mutation cause asked recorded =>
      exact .restartedLate ledger request faults mutation asked recorded

end Ledger

namespace SearchEngine

variable [Arith α] [LinearOrder α] (ctx : EngineContext α)

-- A startup that fails changes nothing and is tried again.
def restart (engine : SearchEngine α) : SearchEngine α :=
  (initializeEngine ctx (.new ctx (.openDatabase engine.store.database)) .none).2

def occur (engine : SearchEngine α) : NodeEvent → Option (Response α) × SearchEngine α
  | .serve request faults =>
      let (response, engine) := engine.serve ctx faults request
      (some response, engine)
  | .crash none => (none, engine.restart ctx)
  | .crash (some (request, faults)) => (none, (engine.serve ctx faults request).2.restart ctx)

-- What is known about a node while the ledger describes it.
structure Follows (engine : SearchEngine α) (ledger : Ledger) : Prop where
  stored : engine.store.database = .replay ledger.mutations
  opened : engine.store.closed = false
  ready : engine.state = .ready ↔ ledger.trusted = true
  exact : engine.state = .ready → engine.Exact ctx
  detail : engine.state = .ready → engine.detail = "ready"

section Answers

variable {ctx} {engine : SearchEngine α} {faults : Faults} {error : PyError}

omit [Arith α] [LinearOrder α] in
theorem requireOperational_error (h : engine.requireOperational = .error error) :
    500 ≤ error.statusCode := by
  unfold requireOperational at h
  split at h
  · cases h
  · cases h
    exact Nat.le_add_right 500 3

omit [Arith α] [LinearOrder α] in
-- An update that returns leaves the explanation of the state alone.
theorem degradeOnFailure_answered (reason : String)
    (script : List (Script.Stmt (Derived α) PyError)) (fault : Option (Nat × PyError))
    (engine : SearchEngine α) :
    ((degradeOnFailure reason script fault engine).1 = .ok () ∧
      (degradeOnFailure reason script fault engine).2.detail = engine.detail) ∨
    ∃ error, (degradeOnFailure reason script fault engine).1 = .error error ∧
      error.statusCode = 503 := by
  obtain ⟨derived, -, heq⟩ | ⟨derived, heq⟩ := degradeOnFailure_cases reason script fault engine
  · exact .inl (by simp [heq])
  · exact .inr ⟨_, by rw [heq], rfl⟩

omit [LinearOrder α] in
-- A write that does not return meets a failure of the node, never one of the request.
theorem indexDocument_answered (engine : SearchEngine α) (document : Document) (faults : Faults) :
    ((engine.indexDocument ctx document faults).1 =
        .ok (!engine.store.database.rows.contains document.documentId) ∧
      (engine.indexDocument ctx document faults).2.detail = engine.detail) ∨
    ∃ error, (engine.indexDocument ctx document faults).1 = .error error ∧
      500 ≤ error.statusCode := by
  unfold indexDocument
  split
  · rename_i error hanalysis
    unfold analyzeDocument at hanalysis
    split at hanalysis
    · cases hanalysis
      exact .inr ⟨_, rfl, le_refl 500⟩
    · cases hanalysis
  rename_i tokens _
  split
  · rename_i error hembed
    unfold embedDocument at hembed
    split at hembed
    · cases hembed
    · split at hembed
      · cases hembed
        exact .inr ⟨_, rfl, Nat.le_add_right 500 3⟩
      · cases hembed
  rename_i vector _
  split
  · rename_i error hstate
    exact .inr ⟨error, rfl, requireOperational_error hstate⟩
  unfold SqliteDocumentStore.put
  split_ifs
  · exact .inr ⟨_, rfl, Nat.le_add_right 500 3⟩
  dsimp only
  obtain ⟨hok, hdetail⟩ | ⟨error, hfailed, hstatus⟩ := degradeOnFailure_answered
    "failed to update derived state after a durable write"
    (engine.derived.applyScript document tokens vector) faults.derived { engine with
      store := { engine.store with
        database := engine.store.database.put document (engine.generation + 1) }
      generation := engine.generation + 1 }
  · generalize degradeOnFailure _ _ _ _ = outcome at hok hdetail ⊢
    obtain ⟨result, after⟩ := outcome
    obtain rfl : result = .ok () := hok
    exact .inl ⟨rfl, hdetail⟩
  · generalize degradeOnFailure _ _ _ _ = outcome at hfailed ⊢
    obtain ⟨result, after⟩ := outcome
    obtain rfl : result = .error error := hfailed
    exact .inr ⟨error, rfl, by omega⟩

omit [Arith α] [LinearOrder α] in
-- A delete that does not return has found nothing, or meets a failure of the node.
theorem deleteDocument_answered (engine : SearchEngine α) (documentId : String) (faults : Faults) :
    ((engine.deleteDocument documentId faults).1 = .ok () ∧
      (engine.deleteDocument documentId faults).2.detail = engine.detail) ∨
    (engine.state = .ready ∧ engine.derived.documents.contains documentId = false) ∨
    ∃ error, (engine.deleteDocument documentId faults).1 = .error error ∧
      500 ≤ error.statusCode := by
  unfold deleteDocument
  split
  · rename_i error hstate
    exact .inr (.inr ⟨error, rfl, requireOperational_error hstate⟩)
  rename_i hoperational
  split_ifs with habsent
  · exact .inr (.inl ⟨requireOperational_ok hoperational, by simpa using habsent⟩)
  unfold SqliteDocumentStore.delete
  split_ifs
  · exact .inr (.inr ⟨_, rfl, Nat.le_add_right 500 3⟩)
  dsimp only
  obtain h | ⟨error, hfailed, hstatus⟩ := degradeOnFailure_answered
    "failed to update derived state after a durable delete"
    (engine.derived.removeScript documentId) faults.derived { engine with
      store := { engine.store with
        database := engine.store.database.delete documentId (engine.generation + 1) }
      generation := engine.generation + 1 }
  · exact .inl h
  · exact .inr (.inr ⟨error, hfailed, by omega⟩)

end Answers

section Following

variable {ctx} {engine : SearchEngine α} {ledger : Ledger}

omit [Arith α] [LinearOrder α] in
theorem Follows.healthy (h : Follows ctx engine ledger) (hstate : engine.state = .ready) :
    Healthy ctx engine :=
  ⟨hstate, h.opened, h.exact hstate⟩

theorem restart_follows (hc : ctx.Contract) {engine : SearchEngine α} {mutations : List Mutation}
    (h : engine.store.database = .replay mutations) :
    Follows ctx (engine.restart ctx) ⟨mutations, true⟩ := by
  obtain ⟨report, after, hstart, hhealthy, hstored⟩ :=
    initializeEngine_healthy hc engine.store.database
  have hdetail : after.detail = "ready" := by
    unfold initializeEngine at hstart
    split at hstart
    · cases hstart
    · cases hstart
      rfl
  have hrestart : engine.restart ctx = after := congrArg Prod.snd hstart
  rw [hrestart]
  exact ⟨hstored.trans h, hhealthy.opened, iff_of_true hhealthy.ready rfl,
    fun _ => hhealthy.exact, fun _ => hdetail⟩

theorem node_follows (hc : ctx.Contract) (ledger : Ledger) :
    Follows ctx (ledger.node ctx) ⟨ledger.mutations, true⟩ := by
  have h := @restart_follows _ _ _ ctx hc (.new ctx (.openDatabase (.replay ledger.mutations)))
    ledger.mutations rfl
  exact h

omit [Arith α] [LinearOrder α] in
-- A limit out of bounds is refused before the route is asked.
theorem withLimit_refused {limit : Option Int} {route : Int → Response α}
    (h : ∀ limit, 500 ≤ (route limit).status) (other : Int → Response α) :
    withLimit limit route = withLimit limit other ∨ 500 ≤ (withLimit limit route).status := by
  unfold withLimit
  by_cases hlimit : 1 ≤ limit.getD defaultLimit ∧ limit.getD defaultLimit ≤ Api.maxLimit
  · refine .inr ?_
    rw [if_pos hlimit]
    exact h _
  · exact .inl (by rw [if_neg hlimit, if_neg hlimit])

omit [Arith α] [LinearOrder α] in
theorem errorResponse_status {error : PyError} (h : 500 ≤ error.statusCode) :
    500 ≤ (errorResponse error : Response α).status := by
  cases error <;> simp_all [errorResponse, PyError.statusCode]

-- A question is answered as without a failure, unless the model fails on the query.
theorem serve_read (engine : SearchEngine α) {request : Request} (hread : request.mutation = none)
    (faults : Faults) :
    engine.serve ctx faults request = engine.serve ctx .none request ∨
      faults ≠ .none ∧ (engine.serve ctx faults request).2 = engine ∧
        500 ≤ (engine.serve ctx faults request).1.status := by
  by_cases hembed : faults.embed = false
  · refine .inl ?_
    cases request with
    | putDocument documentId text =>
        simp only [serve]
        cases hdocument : Document.create documentId text with
        | error error => rfl
        | ok document => simp [Request.mutation, hdocument, Except.toOption] at hread
    | deleteDocument documentId => cases hread
    | _ => simp only [serve, hembed, Faults.none]
  · have hfails : faults.embed = true := Bool.eq_true_of_not_eq_false hembed
    have hfaults : faults ≠ .none := fun hnone => hembed (hnone ▸ rfl)
    cases request with
    | putDocument documentId text =>
        simp only [serve]
        cases hdocument : Document.create documentId text with
        | error error => exact .inl rfl
        | ok document => simp [Request.mutation, hdocument, Except.toOption] at hread
    | deleteDocument documentId => cases hread
    | semanticSearch q limit =>
        simp only [serve, embedQuery, hfails]
        refine (withLimit_refused (fun _ => ?_) _).imp (congrArg (·, engine))
          fun hstatus => ⟨hfaults, trivial, hstatus⟩
        cases ctx.embedder <;> exact Nat.le_add_right 500 3
    | hybridSearch q limit explain =>
        by_cases hterms : Analysis.analyze ctx.unicode q = []
        · exact .inl (by simp only [serve, hybridSearchWith, hterms, if_true])
        · simp only [serve, hybridSearchWith, hfails, hterms, if_false]
          refine (withLimit_refused (fun _ => ?_) _).imp (congrArg (·, engine))
            fun hstatus => ⟨hfaults, trivial, hstatus⟩
          cases ctx.embedder <;> exact Nat.le_add_right 500 3
    | _ => exact .inl rfl

-- A node that is trusted answers a question as one that has just been started.
theorem Follows.read_trusted (hc : ctx.Contract) (h : Follows ctx engine ledger)
    (hstate : engine.state = .ready) {request : Request} (hread : request.mutation = none) :
    engine.serve ctx .none request = (ledger.answer ctx request, engine) := by
  have hnode := node_follows hc ledger
  have hready := hnode.ready.mpr rfl
  have hrows : (ledger.node ctx).store.database.rows = engine.store.database.rows := by
    rw [hnode.stored, h.stored]
  have hexact := (hnode.exact hready).derived
  rw [hrows] at hexact
  have hsame := sameAnswers (h.exact hstate).derived hexact hstate hready
  unfold Ledger.answer
  cases request with
  | putDocument documentId text =>
      simp only [serve]
      cases hdocument : Document.create documentId text with
      | error error => rfl
      | ok document => simp [Request.mutation, hdocument, Except.toOption] at hread
  | deleteDocument documentId => cases hread
  | search q limit => simp only [serve, hsame.search]
  | semanticSearch q limit => simp only [serve, hsame.semanticSearch]
  | hybridSearch q limit explain =>
      have hhybrid := fun limit => hsame.hybridSearch q limit .default
      simp only [hybridSearch] at hhybrid
      simp only [serve, Faults.none, hhybrid]
  | indexStats => simp only [serve, hsame.stats]
  | health => rfl
  | ready =>
      simp only [serve, status, hstate, hready, h.detail hstate, hnode.detail hready]

-- A node that is not trusted refuses a question, unless no node would look at its corpus.
theorem read_untrusted (hstate : engine.state ≠ .ready) {request : Request}
    (hread : request.mutation = none) (ledger : Ledger) :
    (engine.serve ctx .none request).2 = engine ∧
      ((engine.serve ctx .none request).1 = ledger.answer ctx request ∨
        500 ≤ (engine.serve ctx .none request).1.status) := by
  have hoperational : engine.requireOperational = .error (.engineNotReady engine.state
      engine.detail) := if_neg hstate
  unfold Ledger.answer
  cases request with
  | putDocument documentId text =>
      simp only [serve]
      cases hdocument : Document.create documentId text with
      | error error => exact ⟨rfl, .inl rfl⟩
      | ok document => simp [Request.mutation, hdocument, Except.toOption] at hread
  | deleteDocument documentId => cases hread
  | search q limit =>
      simp only [serve, search, hoperational, Bind.bind, Except.bind, true_and]
      exact withLimit_refused (fun _ => Nat.le_add_right 500 3) _
  | semanticSearch q limit =>
      simp only [serve, embedQuery, semanticSearch, hoperational, Bind.bind, Except.bind, true_and]
      refine withLimit_refused (fun _ => ?_) _
      cases ctx.embedder <;> exact Nat.le_add_right 500 3
  | hybridSearch q limit explain =>
      by_cases hterms : Analysis.analyze ctx.unicode q = []
      · simp only [serve, hybridSearchWith, hterms, if_true, true_or, and_self]
      · simp only [serve, hybridSearchWith, hterms, if_false, hoperational, Bind.bind, Except.bind,
          true_and]
        refine withLimit_refused (fun _ => ?_) _
        cases ctx.embedder <;> exact Nat.le_add_right 500 3
  | indexStats =>
      refine ⟨rfl, .inr ?_⟩
      simp only [serve, stats, hoperational, Bind.bind, Except.bind]
      exact Nat.le_add_right 500 3
  | health => exact ⟨rfl, .inl rfl⟩
  | ready =>
      refine ⟨rfl, .inr ?_⟩
      simp [serve, status, hstate, readinessResponse]

omit [Arith α] [LinearOrder α] in
theorem Follows.recorded (h : Follows ctx engine ledger) (hstate : engine.state = .ready)
    {mutation : Mutation} {after : SearchEngine α}
    (hstore : after.store = engine.committed mutation (engine.generation + 1)) :
    after.store.database = .replay (ledger.mutations ++ [mutation]) ∧
      after.store.closed = false := by
  rw [hstore]
  refine ⟨?_, h.opened⟩
  rw [Database.replay_append, ← h.stored, ← (h.exact hstate).generation]
  rfl

omit [Arith α] [LinearOrder α] in
-- A commit that the structures follow.
theorem Follows.applied (h : Follows ctx engine ledger) (hstate : engine.state = .ready)
    {mutation : Mutation} {after : SearchEngine α}
    (hstore : after.store = engine.committed mutation (engine.generation + 1))
    (hready : after.state = .ready) (hexact : after.Exact ctx)
    (hdetail : after.detail = engine.detail) : Follows ctx after (ledger.record mutation) := by
  obtain ⟨hstored, hopened⟩ := h.recorded hstate hstore
  exact ⟨hstored, hopened, iff_of_true hready (h.ready.mp hstate), fun _ => hexact,
    fun _ => hdetail.trans (h.detail hstate)⟩

omit [Arith α] [LinearOrder α] in
-- A commit that the structures do not follow.
theorem Follows.degraded (h : Follows ctx engine ledger) (hstate : engine.state = .ready)
    {mutation : Mutation} {after : SearchEngine α}
    (hstore : after.store = engine.committed mutation (engine.generation + 1))
    (hdegraded : after.state = .degraded) :
    Follows ctx after { ledger.record mutation with trusted := false } := by
  obtain ⟨hstored, hopened⟩ := h.recorded hstate hstore
  have hnot : after.state ≠ .ready := by simp [hdegraded]
  exact ⟨hstored, hopened, iff_of_false hnot Bool.false_ne_true, fun hready => absurd hready hnot,
    fun hready => absurd hready hnot⟩

omit [Arith α] [LinearOrder α] in
-- A call that fails has met an exception, or an engine that is not trusted.
theorem Follows.faulty (h : Follows ctx engine ledger) {faults : Faults} (failed : Faults → Prop)
    (hnone : engine.state = .ready → ¬ failed .none) (hfailed : failed faults) :
    ledger.trusted = false ∨ faults ≠ .none := by
  by_contra hnot
  obtain ⟨htrusted, rfl⟩ := not_or.mp hnot |>.imp_right not_not.mp
  exact hnone (h.ready.mpr (Bool.eq_true_of_not_eq_false htrusted)) hfailed

theorem Follows.put (hc : ctx.Contract) (h : Follows ctx engine ledger) {documentId text : String}
    {document : Document} (hdocument : Document.create documentId text = .ok document)
    (faults : Faults) :
    ∃ next, Ledger.Allows ctx ledger (.serve (.putDocument documentId text) faults)
        (some (engine.serve ctx faults (.putDocument documentId text)).1) next ∧
      Follows ctx (engine.serve ctx faults (.putDocument documentId text)).2 next := by
  have hasked : (Request.putDocument documentId text).mutation = some (.put document) := by
    simp [Request.mutation, hdocument, Except.toOption]
  have hfaulty : ∀ error, (engine.indexDocument ctx document faults).1 = .error error →
      ledger.trusted = false ∨ faults ≠ .none := by
    intro error
    refine h.faulty (fun faults => (engine.indexDocument ctx document faults).1 = .error error)
      fun hstate hfailed => ?_
    obtain ⟨after, hcall, -⟩ := (h.healthy hstate).indexDocument hc document
    simp only [hcall] at hfailed
    cases hfailed
  have hanswer : ledger.answer ctx (.putDocument documentId text) =
      documentResponse documentId none (!ledger.rows.contains document.documentId) := by
    have hnode := node_follows hc ledger
    obtain ⟨after, hcall, -⟩ := (hnode.healthy (hnode.ready.mpr rfl)).indexDocument hc document
    simp only [Ledger.answer, serve, hdocument, hcall, hnode.stored]
    rfl
  have hafter : ledger.after (.putDocument documentId text) = ledger.record (.put document) := by
    simp [Ledger.after, hasked, Ledger.records]
  have hanswered := @indexDocument_answered _ _ ctx engine document faults
  have heffect := @indexDocument_effect _ _ ctx engine document faults
  rw [h.stored] at hanswered
  simp only [serve, hdocument]
  generalize engine.indexDocument ctx document faults = outcome at *
  obtain ⟨result, after⟩ := outcome
  cases heffect with
  | refused error commit =>
      refine ⟨ledger, .refused _ _ _ _ (hfaulty error rfl) ?_, h⟩
      obtain ⟨hok, -⟩ | ⟨_, hfailed, hstatus⟩ := hanswered
      · cases hok
      · cases hfailed
        exact errorResponse_status hstatus
  | degraded reason after ready commit store generation state =>
      refine ⟨_, .unacknowledged _ _ _ _ (.put document) ?_ hasked rfl rfl,
        h.degraded ready store state⟩
      exact (hfaulty _ rfl).resolve_left (by simp [h.ready.mp ready])
  | applied created after ready commit store generation state exact =>
      obtain ⟨hok, hdetail⟩ | ⟨_, hfailed, -⟩ := hanswered
      · refine ⟨_, ?_, h.applied ready store state (exact (h.exact ready)) hdetail⟩
        have hallowed := @Ledger.Allows.answered _ _ _ ctx ledger (.putDocument documentId text)
          faults
        rw [hafter, hanswer] at hallowed
        obtain rfl := Except.ok.inj hok
        exact hallowed
      · cases hfailed

-- A delete of what is not there is refused without a failure, and changes nothing.
theorem Follows.delete (hc : ctx.Contract) (h : Follows ctx engine ledger) (documentId : String)
    (faults : Faults) :
    ∃ next, Ledger.Allows ctx ledger (.serve (.deleteDocument documentId) faults)
        (some (engine.serve ctx faults (.deleteDocument documentId)).1) next ∧
      Follows ctx (engine.serve ctx faults (.deleteDocument documentId)).2 next := by
  have hnode := node_follows hc ledger
  have hhealthy := hnode.healthy (hnode.ready.mpr rfl)
  have hallowed := @Ledger.Allows.answered _ _ _ ctx ledger (.deleteDocument documentId) faults
  by_cases habsent : engine.state = .ready ∧ ledger.rows.get? documentId = none
  · obtain ⟨hstate, hrow⟩ := habsent
    have hcall := (h.healthy hstate).deleteDocument_absent (by rw [h.stored]; exact hrow) faults
    have hanswer := hhealthy.deleteDocument_absent (by rw [hnode.stored]; exact hrow) .none
    refine ⟨ledger, ?_, by simp only [serve, hcall]; exact h⟩
    have hafter : ledger.after (.deleteDocument documentId) = ledger := by
      simp [Ledger.after, Request.mutation, Ledger.records, Dict.contains, hrow]
    rw [hafter] at hallowed
    simp only [Ledger.answer, serve, hanswer] at hallowed
    simp only [serve, hcall]
    exact hallowed
  · have hfaulty : ∀ error, (engine.deleteDocument documentId faults).1 = .error error →
        ledger.trusted = false ∨ faults ≠ .none := by
      intro error
      refine h.faulty (fun faults => (engine.deleteDocument documentId faults).1 = .error error)
        fun hstate hfailed => ?_
      obtain ⟨document, hrow⟩ := Option.ne_none_iff_exists'.mp (not_and.mp habsent hstate)
      obtain ⟨after, hcall, -⟩ := (h.healthy hstate).deleteDocument (by rw [h.stored]; exact hrow)
      simp only [hcall] at hfailed
      cases hfailed
    have hrecorded : engine.state = .ready → ledger.records (.delete documentId) = true :=
      fun hstate => Option.isSome_iff_ne_none.mpr (not_and.mp habsent hstate)
    have hpresent : engine.state = .ready →
        engine.derived.documents.contains documentId = true := by
      intro hstate
      rw [Dict.contains, (h.exact hstate).derived.documents, h.stored]
      exact hrecorded hstate
    have hanswered := deleteDocument_answered engine documentId faults
    have heffect := @deleteDocument_effect _ ctx engine documentId faults
    simp only [serve]
    generalize engine.deleteDocument documentId faults = outcome at *
    obtain ⟨result, after⟩ := outcome
    cases heffect with
    | refused error commit =>
        refine ⟨ledger, .refused _ _ _ _ (hfaulty error rfl) ?_, h⟩
        obtain ⟨hok, -⟩ | ⟨hstate, hmissing⟩ | ⟨_, hfailed, hstatus⟩ := hanswered
        · cases hok
        · simp [hpresent hstate] at hmissing
        · cases hfailed
          exact errorResponse_status hstatus
    | degraded reason after ready commit store generation state =>
        refine ⟨_, .unacknowledged _ _ _ _ (.delete documentId) ?_ rfl (hrecorded ready) rfl,
          h.degraded ready store state⟩
        exact (hfaulty _ rfl).resolve_left (by simp [h.ready.mp ready])
    | applied value after ready commit store generation state exact =>
        obtain ⟨-, hdetail⟩ | ⟨hstate, hmissing⟩ | ⟨_, hfailed, -⟩ := hanswered
        · refine ⟨_, ?_, h.applied ready store state (exact (h.exact ready)) hdetail⟩
          obtain ⟨document, hrow⟩ := Option.isSome_iff_exists.mp (hrecorded ready)
          obtain ⟨other, hcall, -⟩ := hhealthy.deleteDocument (by rw [hnode.stored]; exact hrow)
          have hafter : ledger.after (.deleteDocument documentId) =
              ledger.record (.delete documentId) := by
            simp [Ledger.after, Request.mutation, hrecorded ready]
          rw [hafter] at hallowed
          simp only [Ledger.answer, serve, hcall] at hallowed
          exact hallowed
        · simp [hpresent hstate] at hmissing
        · cases hfailed

theorem Follows.serve (hc : ctx.Contract) (h : Follows ctx engine ledger) (request : Request)
    (faults : Faults) :
    ∃ next, Ledger.Allows ctx ledger (.serve request faults)
        (some (engine.serve ctx faults request).1) next ∧
      Follows ctx (engine.serve ctx faults request).2 next := by
  cases hasked : request.mutation with
  | none =>
      have hallowed := @Ledger.Allows.answered _ _ _ ctx ledger request faults
      simp only [Ledger.after, hasked] at hallowed
      obtain hsame | ⟨hfaults, hkept, hstatus⟩ := @serve_read _ _ _ ctx engine request hasked faults
      · rw [hsame]
        by_cases hstate : engine.state = .ready
        · rw [h.read_trusted hc hstate hasked]
          exact ⟨ledger, hallowed, h⟩
        · obtain ⟨hkept, hanswer | hstatus⟩ :=
            @read_untrusted _ _ _ ctx engine hstate request hasked ledger
          · exact ⟨ledger, hanswer ▸ hallowed, hkept.symm ▸ h⟩
          · have huntrusted : ledger.trusted = false :=
              Bool.eq_false_of_not_eq_true fun htrusted => hstate (h.ready.mpr htrusted)
            exact ⟨ledger, .refused _ _ _ _ (.inl huntrusted) hstatus, hkept.symm ▸ h⟩
      · exact ⟨ledger, .refused _ _ _ _ (.inr hfaults) hstatus, hkept.symm ▸ h⟩
  | some mutation =>
      cases request with
      | putDocument documentId text =>
          cases hdocument : Document.create documentId text with
          | error error => simp [Request.mutation, hdocument, Except.toOption] at hasked
          | ok document => exact h.put hc hdocument faults
      | deleteDocument documentId => exact h.delete hc documentId faults
      | _ => cases hasked

-- Whatever happens to the node, the ledger goes along.
theorem Follows.occur (hc : ctx.Contract) (h : Follows ctx engine ledger) (event : NodeEvent) :
    ∃ next, Ledger.Allows ctx ledger event (engine.occur ctx event).1 next ∧
      Follows ctx (engine.occur ctx event).2 next := by
  cases event with
  | serve request faults => exact h.serve hc request faults
  | crash during =>
      cases during with
      | none => exact ⟨_, .restarted ledger none, restart_follows hc h.stored⟩
      | some interrupted =>
          obtain ⟨request, faults⟩ := interrupted
          obtain ⟨next, hallowed, hnext⟩ := h.serve hc request faults
          have hrestart : Follows ctx (engine.occur ctx (.crash (some (request, faults)))).2
              ⟨next.mutations, true⟩ := restart_follows hc hnext.stored
          exact ⟨_, hallowed.interrupted, hrestart⟩

end Following

end SearchEngine

namespace Ledger

-- The writes that were answered with success, and the writes that were asked for at all.
def acknowledged (events : List NodeEvent) (responses : List (Option (Response α))) :
    List Mutation :=
  (events.zip responses).flatMap fun (event, response) =>
    if response.any fun response => response.status < 300 then event.mutation.toList else []

def requested (events : List NodeEvent) : List Mutation :=
  events.flatMap fun event => event.mutation.toList

variable [Arith α] [LinearOrder α] {ctx : EngineContext α}

-- Only a delete of what is not there goes unrecorded, and it is answered with 404.
theorem answer_unrecorded (hc : ctx.Contract) {ledger : Ledger} {request : Request}
    {mutation : Mutation} (hasked : request.mutation = some mutation)
    (h : ledger.records mutation = false) : (ledger.answer ctx request).status = 404 := by
  have hnode := SearchEngine.node_follows hc ledger
  cases request with
  | putDocument documentId text =>
      obtain ⟨document, -, rfl⟩ := Option.map_eq_some_iff.mp hasked
      cases h
  | deleteDocument documentId =>
      obtain rfl := Option.some.inj hasked
      have hrow : (ledger.node ctx).store.database.rows.get? documentId = none := by
        rw [hnode.stored]
        exact Option.not_isSome_iff_eq_none.mp (ne_true_of_eq_false h)
      have hcall := (hnode.healthy (hnode.ready.mpr rfl)).deleteDocument_absent hrow .none
      simp only [answer, SearchEngine.serve, hcall]
      rfl
  | _ => cases hasked

theorem Allows.grows (hc : ctx.Contract) {ledger next : Ledger} {event : NodeEvent}
    {response : Option (Response α)} (h : Allows ctx ledger event response next) :
    ∃ added, next.mutations = ledger.mutations ++ added ∧
      (acknowledged [event] [response]).Sublist added ∧ added.Sublist event.mutation.toList := by
  cases h with
  | answered request faults =>
      unfold after
      cases hasked : request.mutation with
      | none => exact ⟨[], by simp [acknowledged, NodeEvent.mutation, hasked]⟩
      | some mutation =>
          dsimp only
          by_cases hrecorded : ledger.records mutation = true
          · refine ⟨[mutation], by simp [hrecorded, record], ?_, by
              simp [NodeEvent.mutation, hasked]⟩
            simp only [acknowledged, NodeEvent.mutation, hasked, List.zip_cons_cons,
              List.zip_nil_left, List.flatMap_cons, List.flatMap_nil, List.append_nil]
            split <;> simp
          · have hstatus := answer_unrecorded hc hasked (Bool.eq_false_of_not_eq_true hrecorded)
            exact ⟨[], by simp [hrecorded], by simp [acknowledged, hstatus], by simp⟩
  | refused request faults response cause status =>
      exact ⟨[], by simp, by simp [acknowledged]; omega, by simp⟩
  | unacknowledged request faults response mutation cause asked recorded status =>
      exact ⟨[mutation], rfl, by simp [acknowledged, status], by simp [NodeEvent.mutation, asked]⟩
  | restarted during => exact ⟨[], by simp, by simp [acknowledged], by simp⟩
  | restartedLate request faults mutation asked recorded =>
      exact ⟨[mutation], rfl, by simp [acknowledged], by simp [NodeEvent.mutation, asked]⟩

theorem traces_grow (hc : ctx.Contract) {ledger last : Ledger} {events : List NodeEvent}
    {responses : List (Option (Response α))}
    (h : Run.Traces (Allows ctx) ledger events responses last) :
    ∃ added, last.mutations = ledger.mutations ++ added ∧
      (acknowledged events responses).Sublist added ∧ added.Sublist (requested events) := by
  induction h with
  | nil => exact ⟨[], by simp [acknowledged, requested]⟩
  | @cons ledger next last event response events responses first rest ih =>
      obtain ⟨added, hnext, hacknowledged, hadded⟩ := first.grows hc
      obtain ⟨more, hlast, hrest, hmore⟩ := ih
      refine ⟨added ++ more, by rw [hlast, hnext, List.append_assoc], ?_, ?_⟩
      · have happend := hacknowledged.append hrest
        simpa [acknowledged] using happend
      · simpa [requested] using hadded.append hmore

-- Every run of a node, through any failures and crashes, is explained by one list of writes:
-- it is what the database holds, it contains every write that was answered with success and
-- nothing that was not asked for, and every answer that is no 5xx is the one it determines.
theorem runs_explained (hc : ctx.Contract) (events : List NodeEvent) :
    let run := Run.feed (SearchEngine.occur ctx) (empty.node ctx) events
    ∃ ledger, Run.Traces (Allows ctx) empty events run.1 ledger ∧
      run.2.store.database = .replay ledger.mutations ∧
      (acknowledged events run.1).Sublist ledger.mutations ∧
      ledger.mutations.Sublist (requested events) := by
  intro run
  have hstep : ∀ engine ledger, ∀ event ∈ events, SearchEngine.Follows ctx engine ledger →
      ∃ next, Allows ctx ledger event (engine.occur ctx event).1 next ∧
        SearchEngine.Follows ctx (engine.occur ctx event).2 next :=
    fun _ _ event _ h => h.occur hc event
  obtain ⟨ledger, htraces, hfollows⟩ :=
    Run.feed_traces hstep (SearchEngine.node_follows hc empty)
  obtain ⟨added, hmutations, hacknowledged, hrequested⟩ := traces_grow hc htraces
  rw [empty, List.nil_append] at hmutations
  exact ⟨ledger, htraces, hfollows.stored, hmutations ▸ hacknowledged, hmutations ▸ hrequested⟩

section Example

attribute [local instance] rationalArith

def ledgerContext : EngineContext ℚ := ⟨.ascii, defaultBM25Params, some .constant⟩

-- The second write stops between the store and the index, the next one is refused, the model
-- fails on a query, the last write loses its answer.
def ledgerEvents : List NodeEvent :=
  [.serve (.putDocument "a" "red fox") .none,
    .serve (.putDocument "b" "red") { Faults.none with derived := some (1, .storage "") },
    .serve (.putDocument "c" "fox") .none, .serve (.search "red" none) .none, .crash none,
    .serve (.search "red" none) .none,
    .serve (.semanticSearch "red" none) { Faults.none with embed := true },
    .serve (.deleteDocument "a") .none, .serve (.deleteDocument "a") .none,
    .crash (some (.putDocument "c" "fox", .none)), .serve .indexStats .none]

theorem ledgerEvents_explained :
    let run := Run.feed (SearchEngine.occur ledgerContext) (empty.node ledgerContext) ledgerEvents
    run.1.map (Option.map Response.status) =
        [some 201, some 503, some 503, some 503, none, some 200, some 503, some 204, some 404,
          none, some 200] ∧
      ∃ ledger, Run.Traces (Allows ledgerContext) empty ledgerEvents run.1 ledger ∧
        run.2.store.database = .replay ledger.mutations ∧
        (acknowledged ledgerEvents run.1).Sublist ledger.mutations ∧
        ledger.mutations.Sublist (requested ledgerEvents) :=
  ⟨by decide +kernel, runs_explained
    (EngineContext.contract_of_some rfl Embedder.constant_contract) ledgerEvents⟩

end Example

end Ledger

end PySearch
