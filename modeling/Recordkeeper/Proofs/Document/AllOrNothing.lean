import Recordkeeper.Proofs.Document.Scene
import Recordkeeper.Proofs.Transaction

/-!
Contract: a transaction takes place as a whole or not at all.

Owns:
- the course of a transaction as a repository runs it;
- the open session of a running transaction, amid the calls of everybody else;
- what the commit of this session does, told by the history;
- the statement about every callback, every ending and every schedule of other calls.

Does not own: serializability of the store (`Proofs.Document.Serial`).
-/

set_option autoImplicit false

namespace Recordkeeper.Document

variable {σ E : Type}

/-! ### The course of a transaction -/

namespace Records

/-- The check of the context that a transaction begins with. -/
def checkLive (d : Records σ E) (ctx : Context) : Action σ Unit := do
  let ctx ← d.effective ctx
  Action.check d.env ctx

/-- Once its session is open and its transaction started, the body of a transaction runs with the
handle, is settled, and leaves the session. -/
theorem transaction_course (d : Records σ E) {ctx : Context} (body : TxBody σ E)
    {s checked opened begun : σ} {id : SessionId}
    (supported : d.client.supportsTransactions s = true)
    (live : d.checkLive ctx s = (.ok (), checked))
    (opens : d.client.startSession checked = (.ok id, opened))
    (begins : d.client.startTransaction id opened = (.ok (), begun)) :
    let ran := body (d.handle id .active) begun
    let settled := (d.scope id).settle ran.1 ran.2
    d.transaction ctx body s = (settled.1, d.leave id settled.1 settled.2) := by
  intro ran settled
  have entered : d.enter ctx s = (.ok id, opened) := by
    rw [checkLive, Action.run_bind, Action.run_lift] at live
    dsimp only at live
    rw [enter, Action.run_bind, Action.run_lift]
    dsimp only
    rw [Action.run_bind, live]
    show (((d.client.startSession checked).1.mapError Error.document),
      (d.client.startSession checked).2) = _
    rw [opens]
    rfl
  rw [transaction_eq, supported, entered]
  simp -proj only [runIn, begins]
  rfl

end Records

/-! ### What a unit of work leaves -/

/-- The writes of a unit of work that succeeded, applied one after another. -/
def withWrites (work : List Performed) (cols : Collections) : Collections :=
  (work.filter fun done => done.op.isWrite && done.answer.toOption.isSome).foldl
    (fun cols done => (done.op.apply cols).2) cols

theorem Replays.withWrites_eq {start last : Collections} {work : List Performed}
    (replays : Replays start work last) : withWrites work start = last := by
  induction replays with
  | nil => rfl
  | @snoc done cols op _ inductionHypothesis =>
      rw [withWrites, List.filter_append, List.foldl_append]
      show List.foldl _ (withWrites done start) _ = _
      rw [inductionHypothesis, List.filter_cons]
      split
      next => rfl
      next fails =>
        by_cases writes : op.isWrite
        · have failed : (op.apply cols).1.toOption = none := by
            simpa [writes] using fails
          exact (Operation.apply_error failed).symm
        · exact (Operation.apply_read_only (Bool.eq_false_iff.2 writes) cols).symm

theorem withWrites_none {work : List Performed} (readOnly : work.any (·.op.isWrite) = false)
    (cols : Collections) : withWrites work cols = cols := by
  have none : work.filter (fun done => done.op.isWrite && done.answer.toOption.isSome) = [] := by
    rw [List.filter_eq_nil_iff]
    intro done member writes
    have silent := List.any_eq_false.1 readOnly done member
    rw [Bool.and_eq_true] at writes
    exact silent writes.1
  rw [withWrites, none]
  rfl

/-! ### A running transaction -/

namespace Scene

/-- The calls between two scenes. -/
def After (x y : Scene) : Prop :=
  ∃ calls, y.events = x.events ++ (serve x.store calls).1 ∧ y.store = (serve x.store calls).2

theorem After.act {x y : Scene} (later : After x y) (calls : List Call) :
    After x (y.act calls) := by
  obtain ⟨earlier, events, store⟩ := later
  refine ⟨earlier ++ calls, ?_, ?_⟩
  · show y.events ++ (serve y.store calls).1 = _
    rw [serve_append, events, store, List.append_assoc]
  · show (serve y.store calls).2 = _
    rw [serve_append, store]

/-- A transaction is open in a session, on a copy of the collections that were committed when it
began, and everything done in it is hidden so far. -/
structure Working (id : SessionId) (begun x : Scene) : Prop where
  veiled : Veiled id begun x
  later : After begun x
  copy : ∃ copy, x.store.sessions.lookup id = some (some copy) ∧
    copy.baseVersion = begun.store.version

namespace Working

variable {id : SessionId} {begun x : Scene}

theorem outside (working : Working id begun x) {call : Call} (foreign : Outside id call) :
    Working id begun (x.act [call]) := by
  obtain ⟨copy, inside, base⟩ := working.copy
  exact ⟨working.veiled.outside foreign, working.later.act [call], copy,
    (call.does x.store).lookup_eq foreign inside, base⟩

theorem yield (working : Working id begun x) (foreign : x.Foreign id) :
    Working id begun x.yield :=
  yield_holds (Working id begun) (fun foreign held => outside held foreign)
    (fun _ held => ⟨⟨held.veiled.hidden, held.veiled.known⟩, held.later, held.copy⟩) foreign working

/-- An operation in the transaction. -/
theorem works (working : Working id begun x) (op : Operation) :
    Working id begun (x.act [.operation (some id) op]) := by
  obtain ⟨copy, found, base⟩ := working.copy
  have inside : x.store.copyOf? (some id) = some copy := Option.join_eq_some_iff.2 found
  have request := op.request_inside inside
  have kept : (op.request (some id) x.store).2.version = x.store.version := by
    rw [request]
    split <;> rfl
  refine ⟨working.veiled.inside rfl kept, working.later.act _, ?_⟩
  show ∃ copy, (op.request (some id) x.store).2.sessions.lookup id = some (some copy) ∧ _
  rw [request]
  split
  · refine ⟨{ copy with collections := (op.apply copy.collections).2, dirty := true }, ?_, base⟩
    show (x.store.sessions.set id _).lookup id = _
    rw [Sessions.lookup_set, if_pos rfl, found]
    rfl
  · exact ⟨copy, found, base⟩

/-- A transaction stays open while its callback runs. -/
theorem follows {start x : Scene}
    (steps : Relation.ReflTransGen (Asks fun call => ∃ op, call = .operation (some id) op) start x)
    (working : Working id begun start) (foreign : start.Foreign id) {first : Store}
    (since : start.Since first) :
    Working id begun x ∧ x.Foreign id ∧ x.Since first := by
  induction steps with
  | refl => exact ⟨working, foreign, since⟩
  | tail _ step inductionHypothesis =>
      obtain ⟨held, stillForeign, stillSince⟩ := inductionHypothesis
      obtain ⟨call, ⟨op, rfl⟩, rfl⟩ := step
      exact ⟨(held.yield stillForeign).works op, stillForeign.yield, stillSince.yield.act _⟩

end Working

/-! ### The beginning -/

/-- Everybody else has a turn, and a session is opened. -/
def opened (x : Scene) : Scene := x.yield.act [.startSession]

/-- Everybody else has a turn, and a transaction is started. -/
def begun (x : Scene) (id : SessionId) : Scene := x.opened.yield.act [.startTransaction id]

theorem startTransaction_idle {s : Store} {id : SessionId} (supported : s.transactions = true)
    (idle : s.sessions.lookup id = some none) :
    Store.startTransaction id s
      = (.ok (), s.withCopy id (some ⟨s.version, s.collections, false⟩)) := by
  unfold Store.startTransaction
  rw [if_neg (by rw [supported]; decide), idle]
  rfl

/-- A session that has just been opened, before its transaction. -/
structure Ready (id : SessionId) (x : Scene) : Prop where
  supported : x.store.transactions = true
  idle : x.store.sessions.lookup id = some none
  known : id < x.store.nextSession

theorem Ready.outside {id : SessionId} {x : Scene} {call : Call} (ready : Ready id x)
    (foreign : Outside id call) : Ready id (x.act [call]) := by
  have does := call.does x.store
  exact ⟨does.transactions_eq.trans ready.supported, does.lookup_eq foreign ready.idle,
    Nat.lt_of_lt_of_le ready.known does.nextSession_le⟩

section Beginning

variable {first : Store} (fresh : first.sessions = []) {x : Scene} (since : x.Since first)
  (supported : x.store.transactions = true) (foreign : x.Foreign x.yield.store.nextSession)

include fresh since supported foreign

theorem opened_ready : Ready x.yield.store.nextSession x.opened := by
  have numbered := since.yield.numbered fresh
  have stillSupported : x.yield.store.transactions = true :=
    yield_holds (fun y => y.store.transactions = true)
      (fun {y call} _ held => (call.does y.store).transactions_eq.trans held) (fun _ held => held)
      foreign supported
  refine ⟨stillSupported, ?_, Nat.lt_succ_self _⟩
  have new : x.yield.store.sessions.lookup x.yield.store.nextSession = none := by
    rw [List.lookup_eq_none_iff]
    intro entry member
    exact bne_iff_ne.2 (Nat.ne_of_gt (numbered entry member))
  show List.lookup _ (x.yield.store.sessions ++ [(x.yield.store.nextSession, none)]) = _
  rw [List.lookup_append, new, lookup_cons_if, if_pos rfl]
  rfl

/-- After the beginning a transaction is open, and nothing has been done in it. -/
theorem begun_working :
    let id := x.yield.store.nextSession
    (Store.startTransaction id x.opened.yield.store).1 = .ok () ∧
      Working id (x.begun id) (x.begun id) ∧ (x.begun id).Foreign id ∧
      (x.begun id).Since first := by
  intro id
  have ready : Ready id x.opened.yield :=
    yield_holds (Ready id) (fun foreign held => held.outside foreign)
      (fun _ held => ⟨held.supported, held.idle, held.known⟩) foreign.yield
      (opened_ready fresh since supported foreign)
  have starts := startTransaction_idle ready.supported ready.idle
  have store : (x.begun id).store = (Store.startTransaction id x.opened.yield.store).2 := rfl
  rw [starts] at store
  refine ⟨by rw [starts], ?_, Foreign.yield foreign.yield, (since.yield.act _).yield.act _⟩
  refine ⟨⟨.refl id _, ?_⟩, ⟨[], (List.append_nil _).symm, rfl⟩,
    ⟨x.opened.yield.store.version, x.opened.yield.store.collections, false⟩, ?_, ?_⟩
  · rw [store]
    exact ready.known
  · rw [store]
    show (x.opened.yield.store.sessions.set id _).lookup id = _
    rw [Sessions.lookup_set, if_pos rfl, ready.idle]
    rfl
  · rw [store]
    rfl

end Beginning

/-! ### The end -/

/-- The commit of a transaction takes place and applies the writes of its work, or it conflicts.
It conflicts exactly when anything was written in the transaction and a unit has been committed
since it began; then it changes nothing but its session. -/
theorem Working.commit {first : Store} (fresh : first.sessions = []) {id : SessionId}
    {begun x : Scene} (began : begun.Since first) (since : x.Since first)
    (working : Working id begun x) :
    let work := (x.history.pending id).getD []
    let committed := Store.commitTransaction id x.store
    (committed.1 = .ok () ∧ committed.2.collections = withWrites work x.store.collections ∧
        (work.any (·.op.isWrite) → x.history.committed = begun.history.committed)) ∨
      ∃ failure, committed.1 = .error failure ∧ failure.kind = .transaction ∧
        committed.2.version = x.store.version ∧
        work.any (·.op.isWrite) ∧ x.history.committed ≠ begun.history.committed := by
  intro work committed
  obtain ⟨copy, found, base⟩ := working.copy
  obtain ⟨calls, events, store⟩ := working.later
  have tied := since.tied fresh
  obtain ⟨done, pending, tiedCopy⟩ := tied.exists_work (Option.join_eq_some_iff.2 found)
  have same : work = done := by
    show (x.history.pending id).getD [] = done
    rw [pending]
    rfl
  have unraised : x.store.version = begun.store.version
      ↔ x.history.committed = begun.history.committed := by
    have counted := serve_version_eq_iff calls (began.tied fresh)
    have history : x.history = (serve begun.store calls).1.foldl History.record begun.history := by
      rw [Scene.history, events, History.ofEvents, List.foldl_append]
      rfl
    rw [store, history]
    exact counted
  have commits := Store.commitTransaction_copy found
  rw [← same] at tiedCopy
  by_cases written : copy.dirty
  · by_cases current : x.store.version = copy.baseVersion
    · left
      rw [if_pos written, if_pos current] at commits
      obtain ⟨start, replays, sameStart⟩ := tiedCopy.replays
      rw [sameStart current.symm] at replays
      have outcome : committed = _ := commits
      rw [outcome, replays.withWrites_eq]
      refine ⟨rfl, rfl, fun _ => ?_⟩
      exact unraised.1 (current.trans base)
    · right
      rw [if_pos written, if_neg current] at commits
      have outcome : committed = _ := commits
      rw [outcome]
      refine ⟨_, rfl, rfl, rfl, ?_, ?_⟩
      · rw [← tiedCopy.marked]
        exact written
      · intro kept
        exact current ((unraised.2 kept).trans base.symm)
  · left
    have readOnly : work.any (·.op.isWrite) = false := by
      rw [← tiedCopy.marked]
      exact Bool.eq_false_iff.2 written
    rw [if_neg written] at commits
    have outcome : committed = _ := commits
    rw [outcome, withWrites_none readOnly, readOnly]
    refine ⟨rfl, rfl, fun impossible => ?_⟩
    cases impossible

/-- What is hidden stays hidden, whatever everybody else does then. -/
theorem Veiled.later {id : SessionId} {x y : Scene} (veiled : Veiled id x y) {later : List Call}
    (others : ∀ call ∈ later, Outside id call) : Hidden id x (y.act later) :=
  (act_holds (Veiled id x) (fun foreign held => held.outside foreign) later others veiled).hidden

theorem Veiled.ended {id : SessionId} {x y : Scene} (veiled : Veiled id x y)
    (foreign : y.Foreign id) : Veiled id x (y.yield.act [.endSession id]) := by
  have yielded : Veiled id x y.yield :=
    yield_holds (Veiled id x) (fun foreign held => held.outside foreign)
      (fun _ held => ⟨held.hidden, held.known⟩) foreign veiled
  exact yielded.inside rfl rfl

theorem Veiled.aborted {id : SessionId} {x y : Scene} (veiled : Veiled id x y) :
    Veiled id x (y.act [.abortTransaction id]) := by
  refine veiled.inside rfl ?_
  show (Store.abortTransaction id y.store).2.version = _
  unfold Store.abortTransaction
  rcases y.store.sessions.lookup id with _ | _ | copy <;> rfl

end Scene

/-! ### All or nothing -/

section Transaction

open Scene (Outside Foreign Hidden)

variable {d : Records σ E} {p : Part σ Scene} (lawful : p.Lawful) (among : d.client = .among p)
  (apart : d.env.Apart p.view)

include apart in
theorem Records.checkLive_view {ctx : Context} {s checked : σ} {answer : Except Error Unit}
    (live : d.checkLive ctx s = (answer, checked)) : p.view checked = p.view s := by
  have moves : Moves p.view (fun _ _ => False) (d.checkLive ctx) :=
    (effective_moves apart ctx).bind fun c => Moves.check apart c
  have kept := moves.view_eq s
  rwa [live] at kept

include lawful among apart

/-- A callback keeps its transaction open. -/
theorem Records.callback_working (callback : Callback E) {id : SessionId} {begun : σ}
    {first : Store} (working : Scene.Working id (p.view begun) (p.view begun))
    (foreign : (p.view begun).Foreign id) (since : (p.view begun).Since first) :
    let done := (callback.body (d.handle id .active) begun).2
    Scene.Working id (p.view begun) (p.view done) ∧ (p.view done).Foreign id ∧
      (p.view done).Since first := by
  intro done
  have follows : d.client.Follows p.view (some id)
      (Scene.Asks fun call => ∃ op, call = .operation (some id) op) := by
    rw [among]
    exact Client.among_follows lawful fun op => ⟨op, rfl⟩
  have steps := handle_moves apart follows .active callback begun
  exact Scene.Working.follows steps working foreign since

omit apart

theorem Records.endSession_view (id : SessionId) (s : σ) :
    p.view (d.client.endSession id s) = (p.view s).yield.act [.endSession id] := by
  rw [among]
  exact Part.view_modify lawful (fun x => x.yield.act [.endSession id]) s

theorem Records.commitTransaction_view (id : SessionId) (s : σ) :
    (d.client.commitTransaction id s).1
        = (Store.commitTransaction id (p.view s).yield.store).1 ∧
      p.view (d.client.commitTransaction id s).2
        = (p.view s).yield.act [.commitTransaction id] := by
  rw [among]
  exact Scene.run_ask lawful (by rfl) s

theorem Records.abortTransaction_view (id : SessionId) (s : σ) :
    p.view (d.client.abortTransaction id s).2 = (p.view s).yield.act [.abortTransaction id] := by
  rw [among]
  exact (Scene.run_ask lawful (by rfl) s).2

/-- How a transaction ends, by the ending of its callback and the history of the store. -/
theorem Records.settle_all_or_nothing {first : Store} (fresh : first.sessions = [])
    {id : SessionId} {begun before : Scene} {done : σ} (yielded : (p.view done).yield = before)
    (began : begun.Since first) (since : before.Since first)
    (working : Scene.Working id begun before) (foreign : before.Foreign id)
    {work : List Performed} (worked : (before.history.pending id).getD [] = work)
    (returned : Ending Unit) {result : Ending Unit × σ}
    (settled : result = (((d.scope id).settle returned done).1,
      d.leave id ((d.scope id).settle returned done).1 ((d.scope id).settle returned done).2)) :
    ((result.1 = .value () ∧
        (before.act [.commitTransaction id]).store.collections
          = withWrites work before.store.collections ∧
        p.view result.2 = (before.act [.commitTransaction id]).yield.act [.endSession id]) ∨
      (result.1 ≠ .value () ∧ ∀ later : List Call, (∀ call ∈ later, Outside id call) →
        Hidden id begun ((p.view result.2).act later))) ∧
    (result.1 = .value () ↔ returned = .value () ∧
      (work.any (·.op.isWrite) → before.history.committed = begun.history.committed)) ∧
    (returned = .value () → result.1 ≠ .value () →
      ∃ e, result.1 = .error e ∧ e.kind = .transaction) ∧
    (returned ≠ .value () → result.1 = returned) := by
  have commits := d.commitTransaction_view lawful among id done
  have aborts := d.abortTransaction_view lawful among id done
  rw [yielded] at commits aborts
  have hidden {t : σ} {y : Scene} (view : p.view t = y) (veiled : Scene.Veiled id begun y)
      (outsiders : y.Foreign id) (later : List Call) (others : ∀ call ∈ later, Outside id call) :
      Hidden id begun ((p.view (d.client.endSession id t)).act later) := by
    rw [d.endSession_view lawful among, view]
    exact (veiled.ended outsiders).later others
  cases returned with
  | value =>
      have scopeCommit : (d.scope id).commit done
          = ((Store.commitTransaction id before.store).1.mapError .document,
              (d.client.commitTransaction id done).2) := by
        rw [← commits.1]
        rfl
      rw [TxScope.settle, scopeCommit] at settled
      have outcome := working.commit fresh began since
      rw [worked] at outcome
      rcases outcome with
        ⟨succeeds, applied, unconflicted⟩ | ⟨failure, fails, kind, kept, wrote, conflicted⟩
      · rw [succeeds] at settled
        subst settled
        refine ⟨Or.inl ⟨rfl, applied, ?_⟩, ⟨fun _ => ⟨rfl, unconflicted⟩, fun _ => rfl⟩,
          fun _ failed => absurd rfl failed, fun other => absurd rfl other⟩
        rw [← commits.2]
        exact d.endSession_view lawful among id _
      · rw [fails] at settled
        subst settled
        have veiled : Scene.Veiled id begun (before.act [.commitTransaction id]) :=
          working.veiled.inside rfl kept
        have failed : (Ending.error (.document failure) : Ending Unit) ≠ .value () := by simp
        refine ⟨Or.inr ⟨failed, hidden commits.2 veiled foreign⟩,
          ⟨fun value => absurd value failed, fun both => ?_⟩,
          fun _ _ => ⟨_, rfl, kind⟩, fun other => absurd rfl other⟩
        exact absurd (both.2 wrote) conflicted
  | error e =>
      subst settled
      have failed : (Ending.error e : Ending Unit) ≠ .value () := by simp
      exact ⟨Or.inr ⟨failed, hidden aborts working.veiled.aborted foreign⟩,
        ⟨fun value => absurd value failed, fun both => absurd both.1 failed⟩,
        fun value => absurd value failed, fun _ => rfl⟩
  | panic =>
      subst settled
      have failed : (Ending.panic : Ending Unit) ≠ .value () := by simp
      have left (later : List Call) (others : ∀ call ∈ later, Outside id call) :
          Hidden id begun ((p.view (d.client.abortTransaction id done).2).act later) := by
        rw [aborts]
        exact working.veiled.aborted.later others
      exact ⟨Or.inr ⟨failed, left⟩,
        ⟨fun value => absurd value failed, fun both => absurd both.1 failed⟩,
        fun value => absurd value failed, fun _ => rfl⟩

include apart

/-- A transaction is all or nothing, whatever its callback asks for, however it ends, and whatever
everybody else does to the store beside it, as long as nobody else uses its session.

If the answer is a value, the transaction takes place at its commit: the committed collections are
those just before, with the writes of the callback that succeeded applied to them.  If it is not,
what the callback did is hidden from everybody else, then and ever after.  It is hidden until the
commit in any case.

The answer is a value exactly when the callback ended with one and, if a write of the callback got
as far as the data of the store, no unit with a write was committed since the transaction began.
Otherwise a callback that ended with a value has met a conflict, and any other ending is passed
on. -/
theorem Records.transaction_all_or_nothing {first : Store} (fresh : first.sessions = [])
    {s checked : σ} (since : (p.view s).Since first)
    (supported : (p.view s).store.transactions = true) {ctx : Context}
    (live : d.checkLive ctx s = (.ok (), checked)) (callback : Callback E)
    (foreign : (p.view s).Foreign (p.view s).yield.store.nextSession) :
    let id := (p.view s).yield.store.nextSession
    let begun := (d.client.startTransaction id (d.client.startSession checked).2).2
    let ran := callback.body (d.handle id .active) begun
    let before := (p.view ran.2).yield
    let work := (before.history.pending id).getD []
    let result := d.transaction ctx callback.body s
    Hidden id (p.view begun) before ∧
    ((result.1 = .value () ∧
        (before.act [.commitTransaction id]).store.collections
          = withWrites work before.store.collections ∧
        p.view result.2 = (before.act [.commitTransaction id]).yield.act [.endSession id]) ∨
      (result.1 ≠ .value () ∧ ∀ later : List Call, (∀ call ∈ later, Outside id call) →
        Hidden id (p.view begun) ((p.view result.2).act later))) ∧
    (result.1 = .value () ↔ ran.1 = .value () ∧
      (work.any (·.op.isWrite) → before.history.committed = (p.view begun).history.committed)) ∧
    (ran.1 = .value () → result.1 ≠ .value () →
      ∃ e, result.1 = .error e ∧ e.kind = .transaction) ∧
    (ran.1 ≠ .value () → result.1 = ran.1) := by
  intro id begun ran before work result
  have checkedView : p.view checked = p.view s := checkLive_view apart live
  -- the session is opened and the transaction started
  have opens : (d.client.startSession checked).1 = .ok id ∧
      p.view (d.client.startSession checked).2 = (p.view s).opened := by
    have same : Call.startSession.request = replied .session Store.startSession := rfl
    have asked := Scene.run_ask lawful same checked
    rw [checkedView] at asked
    rw [among]
    exact asked
  have begins : (d.client.startTransaction id (d.client.startSession checked).2).1
        = (Store.startTransaction id (p.view s).opened.yield.store).1 ∧
      p.view begun = (p.view s).begun id := by
    rw [Scene.begun, ← opens.2]
    show _ ∧ p.view (d.client.startTransaction id _).2 = _
    rw [among]
    exact Scene.run_ask lawful (by rfl) _
  obtain ⟨starts, began, beganForeign, beganSince⟩ :=
    Scene.begun_working fresh since supported foreign
  rw [← begins.2] at began beganForeign beganSince
  have course : result = (((d.scope id).settle ran.1 ran.2).1,
      d.leave id ((d.scope id).settle ran.1 ran.2).1 ((d.scope id).settle ran.1 ran.2).2) := by
    refine d.transaction_course callback.body ?_ live (Prod.ext opens.1 rfl)
      (Prod.ext (begins.1.trans starts) rfl)
    rw [among]
    exact supported
  obtain ⟨working, outsiders, stillSince⟩ :=
    d.callback_working lawful among apart callback began beganForeign beganSince
  have yielded := working.yield outsiders
  refine ⟨yielded.veiled.hidden, ?_⟩
  exact d.settle_all_or_nothing lawful among fresh rfl beganSince stillSince.yield yielded
    outsiders.yield rfl ran.1 course

end Transaction

/-- A repository of notes whose id the caller gives, on a store among others. -/
def sharedNotes : Records Scene Json where
  client := .among .whole
  env := ⟨fun x => ({}, x), fun x => ("", x)⟩
  schema :=
    { name := "notes", primaryKey := "id"
      fields := [⟨"id", "id", .text, false, false⟩, ⟨"title", "title", .text, true, false⟩] }
  config := {}
  type := .anyDocument

def note (id : String) : Json := .object [("id", .text id), ("title", .text "t")]

/-- Everybody else writes before the transaction starts and reads while it runs. -/
def busyStore : Scene where
  store := .new
  others :=
    [[.startSession], [.operation none (.insertOne "notes" (.object [(idField, .text "z")]))],
     [.operation (some 1) (.find "notes" (.object []) {})],
     [.operation none (.count "notes" (.object []))]]

/-- Two notes, the second of which has the id of the first, and no matter. -/
def noteTwice : Callback Json :=
  .request (.create .background (note "a")) fun _ =>
    .request (.create .background (note "a")) fun _ => .finish (.value ())

theorem noteTwice_takes_place :
    Part.Lawful (.whole : Part Scene Scene) ∧ sharedNotes.env.Apart (Part.whole).view ∧
      busyStore.Since .new ∧ busyStore.store.transactions = true ∧
      sharedNotes.checkLive .background busyStore = (.ok (), busyStore) ∧
      busyStore.Foreign busyStore.yield.store.nextSession ∧
      (let result := sharedNotes.transaction .background noteTwice.body busyStore
       result.1 = .value () ∧ (Store.docsOf result.2.store.collections "notes").length = 2) := by
  have lawful : Part.Lawful (.whole : Part Scene Scene) := fun _ _ => rfl
  have apart : sharedNotes.env.Apart (Part.whole).view := ⟨fun _ => rfl, fun _ => rfl⟩
  have foreign : busyStore.Foreign busyStore.yield.store.nextSession := by decide +kernel
  have fresh : Store.new.sessions = [] := rfl
  have since : (Part.whole.view busyStore).Since .new := rfl
  have live : sharedNotes.checkLive .background busyStore = (.ok (), busyStore) := rfl
  have all := Records.transaction_all_or_nothing lawful rfl apart fresh since rfl live noteTwice
    foreign
  refine ⟨lawful, apart, since, rfl, live, foreign, ?_, by decide +kernel⟩
  exact all.2.2.1.2 ⟨rfl, fun _ => rfl⟩

end Recordkeeper.Document
