import Recordkeeper.Faults
import Recordkeeper.Proofs.Document.Callback
import Recordkeeper.Proofs.Document.Calls

/-!
Contract: the sessions that a transaction leaves in a document store.

Owns:
- the session table but for the slot of one session, which the calls of a transaction keep;
- clients that attend a store: they open and end sessions as the store does, and may fail;
- the course of the table through a transaction, whatever its callback and its ending;
- `Records.transaction_sessions_iff`: a transaction that answers leaves the table as it was, and one
  that passes a panic on leaves its own session behind.

Does not own: what is committed (`Proofs.Document.AllOrNothing`).

The table is followed with the slot of the own session emptied.  So it does not matter whether the
start, the commit or the abort of the transaction takes place.
-/

set_option autoImplicit false

namespace Recordkeeper

variable {σ τ E : Type}

/-! ### Calls that fail on purpose -/

section Plans

variable {μ φ α : Type} [DecidableEq μ] {view : σ → τ} {step : τ → τ → Prop}
  (plan : FaultPlan μ φ) {log : Part σ (CallLog μ)}
  (logApart : ∀ note s, view (log.put note s) = view s) {native : σ → Except φ α × σ}
  (moves : Moves view step native)

include logApart moves

theorem Moves.guard (method : μ) : Moves view step (plan.guard log method native) := by
  intro s
  unfold FaultPlan.guard Part.modify
  dsimp only
  split
  · rw [logApart]
  · have run := moves (log.put { log.view s with calls := method :: (log.view s).calls } s)
    rwa [logApart] at run

theorem Moves.guardWrite {cancel : σ → σ} (cancels : ∀ s, view (cancel s) = view s) (method : μ) :
    Moves view step (plan.guardWrite log cancel method native) := by
  intro s
  have run := Moves.guard plan logApart moves method s
  unfold FaultPlan.guardWrite Part.modify
  generalize plan.guard log method native s = outcome at run ⊢
  obtain ⟨answer, after⟩ := outcome
  cases answer with
  | error failure => exact run
  | ok a =>
      dsimp only at run ⊢
      split
      · rwa [cancels, logApart]
      · rwa [logApart]

end Plans

namespace Document

/-! ### The table beside a session -/

/-- The session table, with the slot of one session emptied. -/
def Store.tableBeside (id : SessionId) (s : Store) : Sessions := s.sessions.set id none

namespace Sessions

theorem set_set (sessions : Sessions) (id : SessionId) (first last : Option Snapshot) :
    (sessions.set id first).set id last = sessions.set id last := by
  unfold set
  rw [List.map_map]
  refine List.map_congr_left fun entry _ => ?_
  by_cases own : entry.1 = id
  · simp [own]
  · simp [own]

/-- A session is entered at the end of a table that did not know it. -/
theorem eq_concat_of_set {sessions before : Sessions} {id : SessionId}
    (unknown : ∀ entry ∈ before, entry.1 ≠ id)
    (beside : sessions.set id none = before ++ [(id, none)]) :
    ∃ copy, sessions = before ++ [(id, copy)] := by
  obtain ⟨front, back, rfl, fronts, backs⟩ := List.map_eq_append_iff.1 beside
  obtain ⟨entry, rfl, own⟩ := List.map_eq_singleton_iff.1 backs
  have kept (other : SessionId × Option Snapshot) (member : other ∈ front) :
      (if other.1 = id then (id, none) else other) = other := by
    refine if_neg fun same => ?_
    have listed := List.mem_map_of_mem member (f := fun x => if x.1 = id then (id, none) else x)
    rw [fronts, if_pos same] at listed
    exact unknown _ listed rfl
  have same : front = before :=
    ((List.map_congr_left kept).trans (List.map_id' front)).symm.trans fronts
  refine ⟨entry.2, ?_⟩
  rw [same]
  refine congrArg (fun last => before ++ [last]) (Prod.ext ?_ rfl)
  show entry.1 = id
  by_cases matched : entry.1 = id
  · exact matched
  · rw [if_neg matched] at own
    rw [own]

/-- Ending the last session of a table that did not know it before. -/
theorem filter_concat {before : Sessions} {id : SessionId}
    (unknown : ∀ entry ∈ before, entry.1 ≠ id) (copy : Option Snapshot) :
    (before ++ [(id, copy)]).filter (fun entry => entry.1 != id) = before := by
  rw [List.filter_append, List.filter_eq_self.2 fun entry member => bne_iff_ne.2 (unknown entry member),
    List.filter_singleton, bne_self_eq_false]
  exact List.append_nil before

end Sessions

/-- A call in a session other than its end keeps the rest of the table. -/
theorem Call.request_beside {call : Call} {id : SessionId} (own : call.session? = some id)
    (stays : call ≠ .endSession id) (s : Store) :
    (call.request s).2.tableBeside id = s.tableBeside id := by
  have does := call.does s
  generalize (call.request s).2 = after at does ⊢
  cases does with
  | nothing => rfl
  | commits => rfl
  | opens => cases own
  | works | starts | publishes =>
      obtain rfl := Option.some.inj own
      exact Sessions.set_set _ _ _ _
  | drops same =>
      obtain rfl := Option.some.inj (own.symm.trans same)
      exact Sessions.set_set _ _ _ _
  | ends =>
      obtain rfl := Option.some.inj own
      exact absurd rfl stays

/-! ### Clients that attend a store -/

/-- The computation keeps the session table, but for the slot of one session. -/
abbrev KeepsBeside {β : Type} (view : σ → Store) (id : SessionId) (f : σ → β × σ) : Prop :=
  Moves (fun s => (view s).tableBeside id) (fun _ _ => False) f

/-- The client works on the sessions of a store.  Any of its calls may fail.  Those in a session keep
the other sessions; a session is opened, if at all, and ended as the store does it. -/
structure Client.Attends (client : Client σ) (view : σ → Store) : Prop where
  follows : ∀ id, client.Follows (fun s => (view s).tableBeside id) (some id) fun _ _ => False
  startTransaction : ∀ id, KeepsBeside view id (client.startTransaction id)
  commitTransaction : ∀ id, KeepsBeside view id (client.commitTransaction id)
  abortTransaction : ∀ id, KeepsBeside view id (client.abortTransaction id)
  startSession : ∀ s,
    ((∃ failure, (client.startSession s).1 = .error failure) ∧
      view (client.startSession s).2 = view s) ∨
    ((client.startSession s).1 = .ok (view s).nextSession ∧
      view (client.startSession s).2 = (Store.startSession (view s)).2)
  endSession : ∀ id s, view (client.endSession id s) = (view s).endSession id

namespace Client

variable {p : Part σ Store}

theorem run_keepsBeside {α : Type} (lawful : p.Lawful) (call : Call) {id : SessionId}
    (own : call.session? = some id) (stays : call ≠ .endSession id) {wrap : α → Reply}
    {request : Request α} (same : call.request = replied wrap request) :
    KeepsBeside p.view id (p.run request) := by
  refine .of_same fun s => ?_
  have kept := call.request_beside own stays (p.view s)
  rw [p.view_run lawful]
  rwa [same] at kept

theorem memory_follows (lawful : p.Lawful) (id : SessionId) :
    (Client.memory p).Follows (fun s => (p.view s).tableBeside id) (some id) fun _ _ => False := by
  have inside (op : Operation) {α : Type} {wrap : α → Reply} {request : Request α}
      (same : (Call.operation (some id) op).request = replied wrap request) :
      KeepsBeside p.view id (p.run request) :=
    run_keepsBeside lawful (.operation (some id) op) rfl nofun same
  exact {
    insertOne := fun name doc => inside (.insertOne name doc) rfl
    find := fun name filter options => inside (.find name filter options) rfl
    count := fun name filter => inside (.count name filter) rfl
    updateOne := fun name filter set => inside (.updateOne name filter set) rfl
    replaceOne := fun name filter doc => inside (.replaceOne name filter doc) rfl
    deleteMany := fun name filter => inside (.deleteMany name filter) rfl
    aggregate := fun name pipeline => inside (.aggregate name pipeline) rfl }

theorem memory_attends (lawful : p.Lawful) : (Client.memory p).Attends p.view where
  follows := memory_follows lawful
  startTransaction id := run_keepsBeside lawful (.startTransaction id) rfl nofun rfl
  commitTransaction id := run_keepsBeside lawful (.commitTransaction id) rfl nofun rfl
  abortTransaction id := run_keepsBeside lawful (.abortTransaction id) rfl nofun rfl
  startSession s := .inr ⟨rfl, p.view_run lawful Store.startSession s⟩
  endSession id s := p.view_modify lawful (Store.endSession id) s

/-- Calls may fail on purpose, and a token may be cancelled by a write that succeeds. -/
theorem Attends.faulty {client : Client σ} {view : σ → Store} (attends : client.Attends view)
    (plan : FaultPlan Method DocumentFailure) {log : Part σ (CallLog Method)}
    (logApart : ∀ note s, view (log.put note s) = view s) {cancel : σ → σ}
    (cancels : ∀ s, view (cancel s) = view s) :
    (Client.faulty plan log cancel client).Attends view := by
  have apart (id : SessionId) (note : CallLog Method) (s : σ) :
      (view (log.put note s)).tableBeside id = (view s).tableBeside id :=
    congrArg (Store.tableBeside id) (logApart note s)
  have stays (id : SessionId) (s : σ) :
      (view (cancel s)).tableBeside id = (view s).tableBeside id :=
    congrArg (Store.tableBeside id) (cancels s)
  refine ⟨fun id => ?_, fun id => ?_, fun id => ?_, fun id => ?_, fun s => ?_, attends.endSession⟩
  · have follows := attends.follows id
    exact {
      insertOne := fun name doc =>
        .guardWrite plan (apart id) (follows.insertOne name doc) (stays id) _
      find := fun name filter options => .guard plan (apart id) (follows.find name filter options) _
      count := fun name filter => .guard plan (apart id) (follows.count name filter) _
      updateOne := fun name filter set =>
        .guardWrite plan (apart id) (follows.updateOne name filter set) (stays id) _
      replaceOne := fun name filter doc =>
        .guardWrite plan (apart id) (follows.replaceOne name filter doc) (stays id) _
      deleteMany := fun name filter =>
        .guardWrite plan (apart id) (follows.deleteMany name filter) (stays id) _
      aggregate := fun name pipeline =>
        .guard plan (apart id) (follows.aggregate name pipeline) _ }
  · exact .guard plan (apart id) (attends.startTransaction id) _
  · exact .guard plan (apart id) (attends.commitTransaction id) _
  · exact .guard plan (apart id) (attends.abortTransaction id) _
  · show _ ∨ _
    unfold Client.faulty FaultPlan.guard Part.modify
    dsimp only
    generalize noted : log.put _ s = t
    have same : view t = view s := noted ▸ logApart _ s
    split
    next failure planned => exact .inl ⟨⟨failure, rfl⟩, same⟩
    next =>
      rw [← same]
      exact attends.startSession t

end Client

/-! ### The course of the table -/

/-- The session of a transaction was entered at the end of the table, and is still there. -/
structure Amid (view : σ → Store) (before : Sessions) (id : SessionId) (s : σ) : Prop where
  unknown : ∀ entry ∈ before, entry.1 ≠ id
  beside : (view s).tableBeside id = before ++ [(id, none)]

namespace Amid

variable {view : σ → Store} {before : Sessions} {id : SessionId} {s : σ}
  (amid : Amid view before id s)

include amid

theorem keeps {β : Type} {f : σ → β × σ} (kept : KeepsBeside view id f) :
    Amid view before id (f s).2 :=
  ⟨amid.unknown, (kept.view_eq s).trans amid.beside⟩

theorem sessions_eq : ∃ copy, (view s).sessions = before ++ [(id, copy)] :=
  Sessions.eq_concat_of_set amid.unknown amid.beside

theorem ended {client : Client σ} (attends : client.Attends view) :
    (view (client.endSession id s)).sessions = before := by
  obtain ⟨copy, sessions⟩ := amid.sessions_eq
  rw [attends.endSession]
  show (view s).sessions.filter (fun entry => entry.1 != id) = before
  rw [sessions]
  exact Sessions.filter_concat amid.unknown copy

end Amid

theorem Store.startSession_amid {view : σ → Store} {s t : σ} (numbered : (view s).Numbered)
    (opened : view t = (Store.startSession (view s)).2) :
    Amid view (view s).sessions (view s).nextSession t := by
  have unknown (entry : SessionId × Option Snapshot) (member : entry ∈ (view s).sessions) :
      entry.1 ≠ (view s).nextSession := Nat.ne_of_lt (numbered entry member)
  refine ⟨unknown, ?_⟩
  show (view t).sessions.set _ none = _
  rw [opened]
  show ((view s).sessions ++ [((view s).nextSession, none)]).map _ = _
  rw [List.map_append, List.map_singleton, if_pos rfl]
  refine congrArg (· ++ _) ((List.map_congr_left fun entry member => ?_).trans (List.map_id' _))
  exact if_neg (unknown entry member)

namespace Records

variable {d : Records σ E} {view : σ → Store} (apart : d.env.Apart view)
  (attends : d.client.Attends view)

include apart attends

/-- A transaction is entered by a session that the store opens, or it fails and nothing changes. -/
theorem enter_opens (ctx : Context) (s : σ) :
    (∃ e t, d.enter ctx s = (.error e, t) ∧ view t = view s) ∨
      ∃ t, d.enter ctx s = (.ok (view s).nextSession, t) ∧
        view t = (Store.startSession (view s)).2 := by
  have bounded : view (d.effective ctx s).2 = view s := apart.observe s
  have entered : d.enter ctx s = Action.call d.env (d.effective ctx s).1 Error.document
      d.client.startSession (d.effective ctx s).2 := rfl
  rw [entered]
  obtain ⟨t, observed, ⟨e, stopped⟩ | called⟩ := Action.call_cases apart (d.effective ctx s).1
    Error.document d.client.startSession (d.effective ctx s).2
  · exact .inl ⟨e, t, stopped, observed.trans bounded⟩
  · have same : view t = view s := observed.trans bounded
    rw [called]
    rcases attends.startSession t with ⟨⟨failure, failed⟩, kept⟩ | ⟨answered, opened⟩
    · exact .inl ⟨.document failure, _, by rw [failed]; rfl, kept.trans same⟩
    · rw [same] at answered opened
      exact .inr ⟨_, by rw [answered]; rfl, opened⟩

/-- A transaction in an open session ends the session, or passes a panic on and leaves it. -/
theorem runIn_sessions (callback : Callback E) {before : Sessions} {id : SessionId} {s : σ}
    (amid : Amid view before id s) :
    let result := d.runIn id callback.body s
    (result.1 ≠ .panic ∧ (view result.2).sessions = before) ∨
      (result.1 = .panic ∧ Amid view before id result.2) := by
  intro result
  have begun := amid.keeps (attends.startTransaction id)
  rcases starts : d.client.startTransaction id s with ⟨answer, t⟩
  rw [starts] at begun
  cases answer with
  | error failure =>
      have left : result = (.error (.document failure), d.client.endSession id t) := by
        simp only [result, runIn, starts]
      rw [left]
      exact .inl ⟨by simp, begun.ended attends⟩
  | ok =>
      have asks := handle_moves (apart.comp (Store.tableBeside id)) (attends.follows id) .active
        callback
      let ran := callback.body (d.handle id .active) t
      have settles :=
        settle_moves (attends.commitTransaction id) (attends.abortTransaction id) ran.1
      have settled : Amid view before id ((d.scope id).settle ran.1 ran.2).2 :=
        (begun.keeps asks).keeps settles
      have left : result = (((d.scope id).settle ran.1 ran.2).1,
          d.leave id ((d.scope id).settle ran.1 ran.2).1 ((d.scope id).settle ran.1 ran.2).2) := by
        simp only [result, runIn, starts, ran]
      rw [left]
      generalize (d.scope id).settle ran.1 ran.2 = outcome at settled ⊢
      obtain ⟨ending, u⟩ := outcome
      cases ending with
      | value a => exact .inl ⟨by simp, settled.ended attends⟩
      | error e => exact .inl ⟨by simp, settled.ended attends⟩
      | panic => exact .inr ⟨rfl, settled⟩

/-- A transaction leaves the sessions of the store as they were exactly when it answers, whatever its
callback asks for and however it ends, and whichever of the calls to start, commit and abort the
transaction fail.  If it passes a panic on, its own session stays at the end of the table. -/
theorem transaction_sessions_iff (ctx : Context) (callback : Callback E) {s : σ}
    (numbered : (view s).Numbered) :
    let result := d.transaction ctx callback.body s
    ((view result.2).sessions = (view s).sessions ↔ result.1 ≠ .panic) ∧
      (result.1 = .panic → ∃ copy,
        (view result.2).sessions = (view s).sessions ++ [((view s).nextSession, copy)]) := by
  intro result
  have outcome : (result.1 ≠ .panic ∧ (view result.2).sessions = (view s).sessions) ∨
      (result.1 = .panic ∧ Amid view (view s).sessions (view s).nextSession result.2) := by
    have course : result = _ := d.transaction_eq ctx callback.body s
    rw [course]
    split
    · exact .inl ⟨nofun, rfl⟩
    · rcases enter_opens apart attends ctx s with ⟨e, t, entered, same⟩ | ⟨t, entered, opened⟩
      · rw [entered]
        exact .inl ⟨nofun, congrArg Store.sessions same⟩
      · rw [entered]
        exact runIn_sessions apart attends callback (Store.startSession_amid numbered opened)
  rcases outcome with ⟨answered, same⟩ | ⟨panicked, amid⟩
  · exact ⟨iff_of_true same answered, fun panicked => absurd panicked answered⟩
  · obtain ⟨copy, sessions⟩ := amid.sessions_eq
    refine ⟨iff_of_false (fun same => ?_) (not_not_intro panicked), fun _ => ⟨copy, sessions⟩⟩
    rw [sessions] at same
    exact absurd (List.append_right_eq_self.1 same) (List.cons_ne_nil _ _)

end Records

/-! ### Notes whose commits fail -/

abbrev Logged := Store × CallLog Method

def loggedStore : Part Logged Store := ⟨Prod.fst, fun store s => (store, s.2)⟩

def callLog : Part Logged (CallLog Method) := ⟨Prod.snd, fun note s => (s.1, note)⟩

/-- A repository of notes on a store that refuses every commit. -/
def uncommittedNotes : Records Logged Json where
  client := .faulty { failures := [(.commitTransaction, 0, .coded 91 "shutting down")] } callLog id
    (.memory loggedStore)
  env := ⟨fun s => ({}, s), fun s => ("1", s)⟩
  schema :=
    { name := "notes", primaryKey := "id"
      fields := [⟨"id", "id", .text, false, false⟩, ⟨"title", "title", .text, true, false⟩] }
  config := {}
  type := .anyDocument

theorem uncommittedNotes_attends : uncommittedNotes.client.Attends loggedStore.view :=
  (Client.memory_attends fun _ _ => rfl).faulty _ (fun _ _ => rfl) fun _ => rfl

/-- One note, and an ending. -/
def noteThen (ending : Ending Unit) : Callback Json :=
  .request (.create .background (.object [("id", .text "a")])) fun _ => .finish ending

/-- A store in which a session of somebody else is open. -/
def visitedStore : Logged := ((Store.startSession .new).2, {})

theorem noteThen_value_sessions :
    uncommittedNotes.env.Apart loggedStore.view ∧
      uncommittedNotes.client.Attends loggedStore.view ∧ visitedStore.1.Numbered ∧
      (let result := uncommittedNotes.transaction .background (noteThen (.value ())).body visitedStore
       result.1 = .error (.document (.coded 91 "shutting down")) ∧
        result.2.1.sessions = visitedStore.1.sessions) := by
  have apart : uncommittedNotes.env.Apart loggedStore.view := ⟨fun _ => rfl, fun _ => rfl⟩
  have numbered : (loggedStore.view visitedStore).Numbered := by
    intro entry member
    obtain rfl := List.mem_singleton.1 member
    decide
  have failed : (uncommittedNotes.transaction .background (noteThen (.value ())).body
      visitedStore).1 = .error (.document (.coded 91 "shutting down")) := by rfl
  refine ⟨apart, uncommittedNotes_attends, numbered, failed, ?_⟩
  refine (Records.transaction_sessions_iff apart uncommittedNotes_attends .background
    (noteThen (.value ())) numbered).1.2 ?_
  rw [failed]
  nofun

/-- A callback that panics leaves the session 2 behind, the transaction in it aborted. -/
theorem noteThen_panic_sessions :
    let result := uncommittedNotes.transaction .background (noteThen .panic).body visitedStore
    result.1 = .panic ∧ visitedStore.1.sessions = [(1, none)] ∧
      result.2.1.sessions = [(1, none), (2, none)] ∧
      result.2.1.sessions ≠ visitedStore.1.sessions := by
  have left : (uncommittedNotes.transaction .background (noteThen .panic).body
      visitedStore).2.1.sessions = [(1, none), (2, none)] := by rfl
  refine ⟨by rfl, rfl, left, ?_⟩
  rw [left]
  nofun

end Document

end Recordkeeper
