import Recordkeeper.Document.Repository
import Recordkeeper.Proofs.Action
import Recordkeeper.Proofs.Transaction

/-!
Contract: repository requests as data, and the calls they make.

Owns:
- the requests on records and the callbacks of transactions, as trees that know no store;
- clients whose calls move a view of the state along the steps of a relation;
- that every request, and every callback, moves the view along these steps.

Does not own: the answers of a request.
-/

set_option autoImplicit false

namespace Recordkeeper

/-! ### Callbacks -/

/-- A request on records, by the type of its answer. -/
inductive Ask (E : Type) : Type → Type
  | create (ctx : Context) (entity : E) : Ask E (Except Error E)
  | createBatch (ctx : Context) (entities : List E) : Ask E (BatchResult E)
  | findById (ctx : Context) (id : Value) : Ask E (Except Error E)
  | findAll (ctx : Context) (q : Query) : Ask E (Except Error (List E))
  | update (ctx : Context) (entity : E) : Ask E (Except Error Unit)
  | updatePartial (ctx : Context) (id : Value) (fields : Record) : Ask E (Except Error Unit)
  | delete (ctx : Context) (id : Value) : Ask E (Except Error Unit)
  | deleteByCondition (ctx : Context) (q : Query) : Ask E (Except Error Nat)
  | query (ctx : Context) (q : Query) : Ask E (Except Error (List Record))
  | queryOne (ctx : Context) (q : Query) : Ask E (Except Error Record)
  | count (ctx : Context) (q : Query) : Ask E (Except Error Nat)
  | existsAny (ctx : Context) (q : Query) : Ask E (Except Error Bool)
  /-- Answered where pipelines are. -/
  | aggregate (ctx : Context) (pipeline : List Json) :
      Ask E (Option (Except Error (List Record)))

def Ask.perform {σ E α : Type} (ops : Operations σ E) : Ask E α → StateM σ α
  | .create ctx entity => ops.create ctx entity
  | .createBatch ctx entities => ops.createBatch ctx entities
  | .findById ctx id => ops.findById ctx id
  | .findAll ctx q => ops.findAll ctx q
  | .update ctx entity => ops.update ctx entity
  | .updatePartial ctx id fields => ops.updatePartial ctx id fields
  | .delete ctx id => ops.delete ctx id
  | .deleteByCondition ctx q => ops.deleteByCondition ctx q
  | .query ctx q => ops.query ctx q
  | .queryOne ctx q => ops.queryOne ctx q
  | .count ctx q => ops.count ctx q
  | .existsAny ctx q => ops.existsAny ctx q
  | .aggregate ctx pipeline =>
    match ops.document with
    | some pipelines => fun s =>
      let (answer, s) := pipelines.aggregate ctx pipeline s
      (some answer, s)
    | none => pure none

/-- The callback of a transaction: it asks for one request after another, each depending on the
answers so far, and ends. -/
inductive Callback (E : Type) : Type 1
  | finish (ending : Ending Unit)
  | request {α : Type} (ask : Ask E α) (next : α → Callback E)

def Callback.body {σ E : Type} : Callback E → TxBody σ E
  | .finish ending, _, s => (ending, s)
  | .request ask next, handle, s =>
    let (answer, s) := ask.perform handle s
    (next answer).body handle s

namespace Document

variable {σ τ E α : Type}

/-! ### Clients -/

/-- The calls of a client in a session take steps of a relation. -/
structure Client.Follows (client : Client σ) (view : σ → τ) (session : Option SessionId)
    (step : τ → τ → Prop) : Prop where
  insertOne : ∀ name doc, Moves view step (client.insertOne session name doc)
  find : ∀ name filter options, Moves view step (client.find session name filter options)
  count : ∀ name filter, Moves view step (client.count session name filter)
  updateOne : ∀ name filter set, Moves view step (client.updateOne session name filter set)
  replaceOne : ∀ name filter doc, Moves view step (client.replaceOne session name filter doc)
  deleteMany : ∀ name filter, Moves view step (client.deleteMany session name filter)
  aggregate : ∀ name pipeline, Moves view step (client.aggregate session name pipeline)

/-- All calls of a client take steps of a relation. -/
structure Client.Runs (client : Client σ) (view : σ → τ) (step : τ → τ → Prop) : Prop where
  follows : ∀ session, client.Follows view session step
  startSession : Moves view step client.startSession
  startTransaction : ∀ id, Moves view step (client.startTransaction id)
  commitTransaction : ∀ id, Moves view step (client.commitTransaction id)
  abortTransaction : ∀ id, Moves view step (client.abortTransaction id)
  endSession : ∀ id, Moves view step fun s => ((), client.endSession id s)

/-! ### Requests -/

namespace Records

variable {d : Records σ E} {view : σ → τ} {step : τ → τ → Prop} {session : Option SessionId}
  (apart : d.env.Apart view) (follows : d.client.Follows view session step)

include apart

theorem effective_moves (ctx : Context) : Moves view step (d.effective ctx) :=
  Moves.effective apart ctx _

theorem call_moves {native : σ → Outcome α × σ} (moves : Moves view step native) (ctx : Context) :
    Moves view step (d.call ctx native) :=
  moves.call apart ctx _

omit apart in
theorem requireSome_moves (id : Value) (touched : Nat) :
    Moves view step (d.requireSome id touched) := by
  unfold requireSome
  split
  · exact .refuse _
  · exact .pure _

include follows

theorem create_moves (ctx : Context) (entity : E) :
    Moves view step (d.create session ctx entity) := by
  unfold create
  refine (Moves.ofExcept _).bind fun r => ?_
  refine (Moves.prepareId apart _ r).bind fun prepared => ?_
  obtain ⟨id, r⟩ := prepared
  cases id with
  | none => exact .refuse _
  | some id =>
      refine (call_moves apart (follows.insertOne _ _) ctx).bind fun _ => ?_
      split
      · exact .pure _
      · exact .ofExcept _

theorem createBatch_moves (ctx : Context) (entities : List E) :
    Moves view step (d.createBatch session ctx entities) := by
  unfold createBatch
  refine (Moves.insertEach (create_moves apart follows ctx) entities 0).bindState fun _ => ?_
  exact .of_same fun _ => rfl

theorem findById_moves (ctx : Context) (id : Value) :
    Moves view step (d.findById session ctx id) := by
  unfold findById
  refine (Moves.ofExcept _).bind fun filter => ?_
  refine (call_moves apart (follows.find _ _ _) ctx).bind fun docs => ?_
  cases docs with
  | nil => exact .refuse _
  | cons doc rest => exact .ofExcept _

theorem query_moves (ctx : Context) (q : Query) : Moves view step (d.query session ctx q) := by
  unfold query
  refine (Moves.ofExcept _).bind fun compiled => ?_
  obtain ⟨command, degradations⟩ := compiled
  cases command with
  | find filter options => exact (call_moves apart (follows.find _ _ _) ctx).bind fun _ => .pure _
  | aggregate pipeline =>
      exact (call_moves apart (follows.aggregate _ _) ctx).bind fun _ => .pure _
  | count filter => exact (call_moves apart (follows.count _ _) ctx).bind fun _ => .pure _

theorem findAll_moves (ctx : Context) (q : Query) : Moves view step (d.findAll session ctx q) := by
  unfold findAll
  exact (query_moves apart follows ctx q).bind fun _ => .ofExcept _

theorem update_moves (ctx : Context) (entity : E) :
    Moves view step (d.update session ctx entity) := by
  unfold update
  refine (Moves.ofExcept _).bind fun identified => ?_
  obtain ⟨id, r⟩ := identified
  refine (Moves.ofExcept _).bind fun filter => ?_
  refine (call_moves apart (follows.replaceOne _ _ _) ctx).bind fun touched => ?_
  exact requireSome_moves id touched

theorem updatePartial_moves (ctx : Context) (id : Value) (fields : Record) :
    Moves view step (d.updatePartial session ctx id fields) := by
  unfold updatePartial
  refine (Moves.ofExcept _).bind fun _ => ?_
  refine (Moves.ofExcept _).bind fun filter => ?_
  refine (call_moves apart (follows.updateOne _ _ _) ctx).bind fun touched => ?_
  exact requireSome_moves id touched

theorem delete_moves (ctx : Context) (id : Value) :
    Moves view step (d.delete session ctx id) := by
  unfold delete
  refine (Moves.ofExcept _).bind fun filter => ?_
  refine (call_moves apart (follows.deleteMany _ _) ctx).bind fun touched => ?_
  exact requireSome_moves id touched

theorem deleteByCondition_moves (ctx : Context) (q : Query) :
    Moves view step (d.deleteByCondition session ctx q) := by
  unfold deleteByCondition
  refine (Moves.ofExcept _).bind fun _ => ?_
  refine (Moves.ofExcept _).bind fun _ => ?_
  have rest : Moves view step (Action.ofExcept (d.compiler.compileFilter q.conditions)
      >>= fun compiled => d.call ctx (d.client.deleteMany session d.schema.name compiled.1)) :=
    (Moves.ofExcept _).bind fun _ => call_moves apart (follows.deleteMany _ _) ctx
  exact Moves.ite ((Moves.refuse _).bind fun _ => rest) rest

theorem queryOne_moves (ctx : Context) (q : Query) :
    Moves view step (d.queryOne session ctx q) := by
  unfold queryOne
  exact (query_moves apart follows ctx _).bind fun _ => .ofExcept _

theorem count_moves (ctx : Context) (q : Query) : Moves view step (d.count session ctx q) := by
  unfold count
  refine (Moves.ofExcept _).bind fun compiled => ?_
  obtain ⟨command, degradations⟩ := compiled
  cases command with
  | find filter options => exact call_moves apart (follows.count _ _) ctx
  | aggregate pipeline =>
      exact (call_moves apart (follows.aggregate _ _) ctx).bind fun _ => .pure _
  | count filter => exact call_moves apart (follows.count _ _) ctx

theorem existsAny_moves (ctx : Context) (q : Query) :
    Moves view step (d.existsAny session ctx q) := by
  unfold existsAny
  exact (query_moves apart follows ctx _).bind fun _ => .pure _

theorem aggregate_moves (ctx : Context) (pipeline : List Json) :
    Moves view step (d.aggregate session ctx pipeline) := by
  unfold aggregate
  exact (call_moves apart (follows.aggregate _ _) ctx).bind fun _ => .pure _

/-- Every request in a session takes steps of the calls in this session. -/
theorem ask_moves {enter : Context → Action σ Context}
    (enters : ∀ ctx, Moves view step (enter ctx)) (ask : Ask E α) :
    Moves view step (ask.perform (d.operations session enter)) := by
  cases ask with
  | create ctx entity => exact (enters ctx).bind fun c => create_moves apart follows c entity
  | createBatch ctx entities =>
      refine (enters ctx).bindState fun entered => ?_
      cases entered with
      | ok c => exact createBatch_moves apart follows c entities
      | error e => exact .of_same fun _ => rfl
  | findById ctx id => exact (enters ctx).bind fun c => findById_moves apart follows c id
  | findAll ctx q => exact (enters ctx).bind fun c => findAll_moves apart follows c q
  | update ctx entity => exact (enters ctx).bind fun c => update_moves apart follows c entity
  | updatePartial ctx id fields =>
      exact (enters ctx).bind fun c => updatePartial_moves apart follows c id fields
  | delete ctx id => exact (enters ctx).bind fun c => delete_moves apart follows c id
  | deleteByCondition ctx q =>
      exact (enters ctx).bind fun c => deleteByCondition_moves apart follows c q
  | query ctx q => exact (enters ctx).bind fun c => query_moves apart follows c q
  | queryOne ctx q => exact (enters ctx).bind fun c => queryOne_moves apart follows c q
  | count ctx q => exact (enters ctx).bind fun c => count_moves apart follows c q
  | existsAny ctx q => exact (enters ctx).bind fun c => existsAny_moves apart follows c q
  | aggregate ctx pipeline =>
      exact (enters ctx).bind fun c => aggregate_moves apart follows c pipeline

/-- A callback takes steps of the calls in its session. -/
theorem callback_moves {enter : Context → Action σ Context}
    (enters : ∀ ctx, Moves view step (enter ctx)) (callback : Callback E) :
    Moves view step (callback.body (d.operations session enter)) := by
  induction callback with
  | finish ending => exact .of_same fun _ => rfl
  | request ask next inductionHypothesis =>
      have first := ask_moves apart follows enters ask
      exact first.bindState inductionHypothesis

end Records

/-! ### Transactions -/

namespace Records

/-- The session of a transaction, opened while the context lives. -/
def enter (d : Records σ E) (ctx : Context) : Action σ SessionId := do
  let ctx ← d.effective ctx
  Action.check d.env ctx
  fun s =>
    let (r, s) := d.client.startSession s
    (r.mapError .document, s)

/-- A callback that is given the handle of a transaction takes steps of the calls in its session. -/
theorem handle_moves {d : Records σ E} {view : σ → τ} {step : τ → τ → Prop} {id : SessionId}
    (apart : d.env.Apart view) (follows : d.client.Follows view (some id) step)
    (machine : TxState) (callback : Callback E) :
    Moves view step (callback.body (d.handle id machine)) := by
  refine callback_moves apart follows (fun ctx => ?_) callback
  exact (Moves.ofExcept _).bind fun _ => effective_moves apart ctx

/-- A body in a transaction of a session that is open: it runs, is settled, and leaves the
session. -/
def runIn (d : Records σ E) (id : SessionId) (body : TxBody σ E) (s : σ) : Ending Unit × σ :=
  match d.client.startTransaction id s with
  | (.error failure, s) => (.error (.document failure), d.client.endSession id s)
  | (.ok (), s) =>
    let ran := body (d.handle id .active) s
    let settled := (d.scope id).settle ran.1 ran.2
    (settled.1, d.leave id settled.1 settled.2)

theorem transaction_eq (d : Records σ E) (ctx : Context) (body : TxBody σ E) (s : σ) :
    d.transaction ctx body s
      = if !d.client.supportsTransactions s then (.error (.refused .noTransactions), s)
        else
          match d.enter ctx s with
          | (.error e, s) => (.error e, s)
          | (.ok id, s) => d.runIn id body s := by
  unfold transaction
  split
  · rfl
  · show (match d.enter ctx s with | (.error e, s) => _ | (.ok session, s) => _) = _
    rcases d.enter ctx s with ⟨entered, opened⟩
    cases entered with
    | error e => rfl
    | ok id =>
        rcases begins : d.client.startTransaction id opened with ⟨answer, begun⟩
        cases answer with
        | error failure =>
            simp -proj only [runIn, begins]
            rfl
        | ok =>
            obtain ⟨machine, settled⟩ :=
              runInScope_settles (d.scope id) (fun machine => body (d.handle id machine)) begun
            simp -proj only [runIn, begins]
            exact congrArg (fun r => (r.1, d.leave id r.1 r.2.2)) settled

end Records

/-! ### Repositories -/

/-- What a repository is asked for: a request, or a transaction. -/
inductive Errand (E : Type) : Type 1
  | request {α : Type} (ask : Ask E α)
  | transaction (ctx : Context) (callback : Callback E)

namespace Records

variable {d : Records σ E} {view : σ → τ} {step : τ → τ → Prop}

def run (d : Records σ E) (s : σ) : Errand E → σ
  | .request ask => (ask.perform d.repository.toOperations s).2
  | .transaction ctx callback => (d.transaction ctx callback.body s).2

def runAll (d : Records σ E) (s : σ) (errands : List (Errand E)) : σ := errands.foldl d.run s

/-- A transaction is settled by the commit or by the abort of its session. -/
theorem settle_moves {id : SessionId}
    (commits : Moves view step (d.client.commitTransaction id))
    (aborts : Moves view step (d.client.abortTransaction id)) (ending : Ending Unit) :
    Moves view step ((d.scope id).settle ending) := by
  intro s
  cases ending with
  | value a =>
      rw [TxScope.settle_value]
      exact commits s
  | error e => exact aborts s
  | panic => exact aborts s

variable (apart : d.env.Apart view) (runs : d.client.Runs view step)

include apart runs

theorem enter_moves (ctx : Context) : Moves view step (d.enter ctx) := by
  unfold enter
  refine (effective_moves apart ctx).bind fun c => ?_
  refine (Moves.check apart c).bind fun _ => ?_
  exact fun s => runs.startSession s

omit apart in
theorem leave_moves (id : SessionId) (ending : Ending Unit) :
    Moves view step fun s => ((), d.leave id ending s) := by
  cases ending with
  | value _ => exact runs.endSession id
  | error _ => exact runs.endSession id
  | panic => exact .of_same fun _ => rfl

theorem runIn_moves (id : SessionId) (callback : Callback E) :
    Moves view step (d.runIn id callback.body) := by
  intro s
  have begins := runs.startTransaction id s
  unfold runIn
  generalize d.client.startTransaction id s = outcome at begins ⊢
  obtain ⟨answer, begun⟩ := outcome
  cases answer with
  | error failure => exact begins.trans (runs.endSession id begun)
  | ok =>
      have asked := handle_moves apart (runs.follows (some id)) .active callback begun
      have settled := settle_moves (runs.commitTransaction id) (runs.abortTransaction id)
      exact begins.trans (asked.trans ((settled _ _).trans (leave_moves runs id _ _)))

theorem transaction_moves (ctx : Context) (callback : Callback E) :
    Moves view step (d.transaction ctx callback.body) := by
  intro s
  rw [transaction_eq]
  split
  · exact .refl
  · have opens := enter_moves apart runs ctx s
    generalize d.enter ctx s = outcome at opens ⊢
    obtain ⟨entered, opened⟩ := outcome
    cases entered with
    | error e => exact opens
    | ok id => exact opens.trans (runIn_moves apart runs id callback opened)

theorem run_moves (errand : Errand E) : Moves view step fun s => ((), d.run s errand) := by
  intro s
  cases errand with
  | request ask =>
      exact ask_moves apart (runs.follows none) (fun ctx => effective_moves apart ctx) ask s
  | transaction ctx callback => exact transaction_moves apart runs ctx callback s

theorem runAll_moves (errands : List (Errand E)) :
    Moves view step fun s => ((), d.runAll s errands) := by
  induction errands with
  | nil => exact .of_same fun _ => rfl
  | cons errand rest inductionHypothesis =>
      intro s
      exact (run_moves apart runs errand s).trans (inductionHypothesis (d.run s errand))

end Records

end Document

end Recordkeeper
