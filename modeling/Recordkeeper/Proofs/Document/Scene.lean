import Recordkeeper.Proofs.Document.Callback
import Recordkeeper.Proofs.Document.Calls

/-!
Contract: a document store among several clients.

Owns:
- scenes: a store, the calls that everybody else is about to make, and the events so far;
- the client whose every call comes after a turn of everybody else;
- that events are those of a run, so that they tell the history of the store;
- what is hidden: a session whose calls nobody else can tell from their absence.

Does not own: what a single call does (`Proofs.Document.Calls`).
-/

set_option autoImplicit false

namespace Recordkeeper.Document

/-- A store with the calls that everybody else makes in front of each of our calls, and with all
events so far. -/
structure Scene where
  store : Store
  /-- One list of calls for each of our next calls. -/
  others : List (List Call) := []
  events : List Event := []

namespace Scene

variable {α : Type}

def act (calls : List Call) (x : Scene) : Scene :=
  { x with store := (serve x.store calls).2, events := x.events ++ (serve x.store calls).1 }

/-- Everybody else has a turn. -/
def yield (x : Scene) : Scene :=
  match x.others with
  | [] => x
  | turn :: rest => act turn { x with others := rest }

/-- A call of our own. -/
def ask (call : Call) (wrap : α → Reply) (request : Request α) (x : Scene) : Outcome α × Scene :=
  let x := x.yield
  let (answer, store) := request x.store
  (answer, { x with store, events := x.events ++ [⟨call, answer.map wrap⟩] })

end Scene

/-- The client of a store in memory that is not the only one. -/
def Client.among {σ : Type} (p : Part σ Scene) : Client σ where
  insertOne session name doc :=
    p.run (Scene.ask (.operation session (.insertOne name doc)) (fun _ => .done)
      (Store.insertOne session name doc))
  find session name filter options :=
    p.run (Scene.ask (.operation session (.find name filter options)) .documents
      (Store.find session name filter options))
  count session name filter :=
    p.run (Scene.ask (.operation session (.count name filter)) .number
      (Store.count session name filter))
  updateOne session name filter set :=
    p.run (Scene.ask (.operation session (.updateOne name filter set)) .number
      (Store.updateOne session name filter set))
  replaceOne session name filter doc :=
    p.run (Scene.ask (.operation session (.replaceOne name filter doc)) .number
      (Store.replaceOne session name filter doc))
  deleteMany session name filter :=
    p.run (Scene.ask (.operation session (.deleteMany name filter)) .number
      (Store.deleteMany session name filter))
  aggregate session name pipeline :=
    p.run (Scene.ask (.operation session (.aggregate name pipeline)) .documents
      (Store.aggregate session name pipeline))
  supportsTransactions s := (p.view s).store.transactions
  startSession := p.run (Scene.ask .startSession .session Store.startSession)
  startTransaction id :=
    p.run (Scene.ask (.startTransaction id) (fun _ => .done) (Store.startTransaction id))
  commitTransaction id :=
    p.run (Scene.ask (.commitTransaction id) (fun _ => .done) (Store.commitTransaction id))
  abortTransaction id :=
    p.run (Scene.ask (.abortTransaction id) (fun _ => .done) (Store.abortTransaction id))
  endSession id := p.modify fun x => x.yield.act [.endSession id]

namespace Scene

variable {σ α : Type}

theorem act_append (front back : List Call) (x : Scene) :
    x.act (front ++ back) = (x.act front).act back := by
  simp only [act, serve_append, List.append_assoc]

theorem act_nil (x : Scene) : x.act [] = x := by
  show { x with store := x.store, events := x.events ++ [] } = x
  rw [List.append_nil]

/-- A call is asked in its turn: it is one of the calls that the store serves. -/
theorem ask_eq {call : Call} {wrap : α → Reply} {request : Request α}
    (same : call.request = replied wrap request) (x : Scene) :
    (ask call wrap request x).1 = (request x.yield.store).1 ∧
      (ask call wrap request x).2 = x.yield.act [call] := by
  refine ⟨rfl, ?_⟩
  show _ = { x.yield with
    store := (call.request x.yield.store).2,
    events := x.yield.events ++ [Event.mk call (call.request x.yield.store).1] }
  rw [same]
  rfl

theorem run_ask {p : Part σ Scene} (lawful : p.Lawful) {call : Call} {wrap : α → Reply}
    {request : Request α} (same : call.request = replied wrap request) (s : σ) :
    (p.run (ask call wrap request) s).1 = (request (p.view s).yield.store).1 ∧
      p.view (p.run (ask call wrap request) s).2 = (p.view s).yield.act [call] := by
  rw [Part.view_run lawful]
  exact ask_eq same (p.view s)

/-- A call of ours after everybody else had a turn. -/
def Asks (allowed : Call → Prop) (x y : Scene) : Prop :=
  ∃ call, allowed call ∧ y = x.yield.act [call]

theorem ask_moves {p : Part σ Scene} (lawful : p.Lawful) {allowed : Call → Prop} {call : Call}
    (fits : allowed call) {wrap : α → Reply} {request : Request α}
    (same : call.request = replied wrap request) :
    Moves p.view (Asks allowed) (p.run (ask call wrap request)) := by
  refine Moves.of_step fun s => ?_
  exact ⟨call, fits, (run_ask lawful same s).2⟩

end Scene

namespace Client

open Scene (Asks ask_moves)

variable {σ : Type} {p : Part σ Scene} (lawful : p.Lawful) {allowed : Call → Prop}

include lawful

theorem among_follows {session : Option SessionId}
    (fits : ∀ op, allowed (.operation session op)) :
    (Client.among p).Follows p.view session (Asks allowed) where
  insertOne _ _ := ask_moves lawful (fits _) rfl
  find _ _ _ := ask_moves lawful (fits _) rfl
  count _ _ := ask_moves lawful (fits _) rfl
  updateOne _ _ _ := ask_moves lawful (fits _) rfl
  replaceOne _ _ _ := ask_moves lawful (fits _) rfl
  deleteMany _ _ := ask_moves lawful (fits _) rfl
  aggregate _ _ := ask_moves lawful (fits _) rfl

theorem among_runs (fits : ∀ call, allowed call) :
    (Client.among p).Runs p.view (Asks allowed) where
  follows _ := among_follows lawful fun _ => fits _
  startSession := ask_moves lawful (fits _) rfl
  startTransaction _ := ask_moves lawful (fits _) rfl
  commitTransaction _ := ask_moves lawful (fits _) rfl
  abortTransaction _ := ask_moves lawful (fits _) rfl
  endSession id := .of_step fun s => ⟨.endSession id, fits _,
    Part.view_modify lawful (fun x => x.yield.act [.endSession id]) s⟩

end Client

namespace Scene

/-! ### History -/

/-- The events are those of a run that began with a store. -/
def Since (first : Store) (x : Scene) : Prop :=
  serve first (x.events.map (·.call)) = (x.events, x.store)

def history (x : Scene) : History := .ofEvents x.events

theorem serve_calls (s : Store) (calls : List Call) :
    (serve s calls).1.map (·.call) = calls := by
  induction calls generalizing s with
  | nil => rfl
  | cons call rest inductionHypothesis =>
      show call :: (serve (call.request s).2 rest).1.map (·.call) = _
      rw [inductionHypothesis]

theorem Since.act {first : Store} {x : Scene} (since : x.Since first) (calls : List Call) :
    (x.act calls).Since first := by
  show serve first ((x.events ++ (serve x.store calls).1).map (·.call))
    = (x.events ++ (serve x.store calls).1, (serve x.store calls).2)
  rw [List.map_append, serve_append, since, serve_calls]

theorem Since.tied {first : Store} (fresh : first.sessions = []) {x : Scene}
    (since : x.Since first) : Tied first.collections x.history x.store := by
  have idle (id : SessionId) : first.copyOf? (some id) = none := by
    rw [Store.copyOf?, Option.bind_some, fresh]
    rfl
  have tied := serve_tied (x.events.map (·.call)) (tied_idle idle)
  rwa [since] at tied

theorem serve_numbered (calls : List Call) {s : Store} (numbered : s.Numbered) :
    (serve s calls).2.Numbered := by
  induction calls generalizing s with
  | nil => exact numbered
  | cons call rest inductionHypothesis =>
      exact inductionHypothesis ((call.does s).numbered numbered)

theorem Since.numbered {first : Store} (fresh : first.sessions = []) {x : Scene}
    (since : x.Since first) : x.store.Numbered := by
  have start : first.Numbered := by
    intro entry member
    rw [fresh] at member
    cases member
  have numbered := serve_numbered (x.events.map (·.call)) start
  rwa [since] at numbered

/-! ### A hidden session -/

def Outside (id : SessionId) (call : Call) : Prop := call.session? ≠ some id

instance (id : SessionId) (call : Call) : Decidable (Outside id call) := by
  unfold Outside
  infer_instance

/-- Nobody else makes a call in a session. -/
def Foreign (id : SessionId) (x : Scene) : Prop :=
  ∀ turn ∈ x.others, ∀ call ∈ turn, Outside id call

instance (id : SessionId) (x : Scene) : Decidable (x.Foreign id) := by
  unfold Foreign
  infer_instance

def eventsOutside (id : SessionId) (events : List Event) : List Event :=
  events.filter fun event => Outside id event.call

theorem eventsOutside_outside {id : SessionId} {event : Event} (foreign : Outside id event.call)
    (events : List Event) :
    eventsOutside id (events ++ [event]) = eventsOutside id events ++ [event] := by
  rw [eventsOutside, List.filter_append, List.filter_cons, if_pos (decide_eq_true foreign)]
  rfl

theorem eventsOutside_inside {id : SessionId} {event : Event}
    (own : event.call.session? = some id) (events : List Event) :
    eventsOutside id (events ++ [event]) = eventsOutside id events := by
  have hidden : ¬ Outside id event.call := fun foreign => foreign own
  rw [eventsOutside, List.filter_append, List.filter_cons, if_neg (by simpa using hidden)]
  exact List.append_nil _

/-- What happened between two scenes looks to everybody outside of a session as if no call had been
made in it: the run without these calls answers them the same, and leaves the same store but for
the session itself. -/
def Hidden (id : SessionId) (x y : Scene) : Prop :=
  ∃ added rest, y.events = x.events ++ added ∧
    serve x.store ((eventsOutside id added).map (·.call)) = (eventsOutside id added, rest) ∧
    y.store.endSession id = rest.endSession id

theorem Hidden.refl (id : SessionId) (x : Scene) : Hidden id x x :=
  ⟨[], x.store, (List.append_nil _).symm, rfl, rfl⟩

/-- A session that is hidden since an earlier scene. -/
structure Veiled (id : SessionId) (x y : Scene) : Prop where
  hidden : Hidden id x y
  known : id < y.store.nextSession

namespace Veiled

variable {id : SessionId} {x y : Scene}

/-- A call of somebody else. -/
theorem outside (veiled : Veiled id x y) {call : Call} (foreign : Outside id call) :
    Veiled id x (y.act [call]) := by
  obtain ⟨added, rest, events, served, same⟩ := veiled.hidden
  have restKnown : id < rest.nextSession := by
    have next : (y.store.endSession id).nextSession = (rest.endSession id).nextSession := by
      rw [same]
    exact Nat.lt_of_lt_of_eq veiled.known next
  have ours := Call.request_end foreign veiled.known
  have theirs := Call.request_end foreign restKnown
  rw [same, theirs] at ours
  obtain ⟨answers, after⟩ := Prod.mk.inj ours
  refine ⟨?_, Nat.lt_of_lt_of_le veiled.known (call.does y.store).nextSession_le⟩
  refine ⟨added ++ [⟨call, (call.request y.store).1⟩], (call.request rest).2, ?_, ?_, after.symm⟩
  · show y.events ++ [_] = _
    rw [events, List.append_assoc]
  · rw [eventsOutside_outside foreign, List.map_append, serve_append, served, ← answers]
    rfl

/-- A call in the session that commits nothing. -/
theorem inside (veiled : Veiled id x y) {call : Call} (own : call.session? = some id)
    (kept : (call.request y.store).2.version = y.store.version) :
    Veiled id x (y.act [call]) := by
  obtain ⟨added, rest, events, served, same⟩ := veiled.hidden
  have does := call.does y.store
  refine ⟨?_, Nat.lt_of_lt_of_le veiled.known does.nextSession_le⟩
  refine ⟨added ++ [⟨call, (call.request y.store).1⟩], rest, ?_, ?_, ?_⟩
  · show y.events ++ [_] = _
    rw [events, List.append_assoc]
  · rw [eventsOutside_inside own, served]
  · exact (does.end_eq own kept).trans same

end Veiled

/-! ### Turns of everybody else -/

section Turns

variable {allowed : Call → Prop} (holds : Scene → Prop)
  (step : ∀ {x : Scene} {call : Call}, allowed call → holds x → holds (x.act [call]))

include step

/-- What the calls of everybody else keep, one by one, their turn keeps. -/
theorem act_holds (calls : List Call) (fits : ∀ call ∈ calls, allowed call) {x : Scene}
    (start : holds x) : holds (x.act calls) := by
  induction calls generalizing x with
  | nil =>
      rw [act_nil]
      exact start
  | cons call rest inductionHypothesis =>
      obtain ⟨first, others⟩ := List.forall_mem_cons.1 fits
      have rested := inductionHypothesis others (step first start)
      rwa [← act_append] at rested

theorem yield_holds (free : ∀ {x : Scene} (others : List (List Call)), holds x →
    holds { x with others }) {x : Scene} (fit : ∀ turn ∈ x.others, ∀ call ∈ turn, allowed call)
    (start : holds x) : holds x.yield := by
  unfold yield
  split
  · exact start
  next turn rest turns =>
    rw [turns] at fit
    exact act_holds holds step turn (List.forall_mem_cons.1 fit).1 (free rest start)

end Turns

theorem Foreign.yield {id : SessionId} {x : Scene} (foreign : x.Foreign id) :
    x.yield.Foreign id := by
  unfold Scene.yield
  split
  · exact foreign
  next turn rest turns =>
    rw [Foreign, turns] at foreign
    exact (List.forall_mem_cons.1 foreign).2

theorem Since.yield {first : Store} {x : Scene} (since : x.Since first) :
    x.yield.Since first := by
  unfold Scene.yield
  split
  · exact since
  next turn rest turns =>
    have waiting : Since first { x with others := rest } := since
    exact waiting.act turn

end Scene

end Recordkeeper.Document
