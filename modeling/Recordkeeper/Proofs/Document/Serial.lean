import Recordkeeper.Document.Store
import Recordkeeper.Proofs.Lookup

/-!
Contract: the transactions of a document store are serializable.

Owns:
- the calls of any number of sessions as data, and the events that a run of calls leaves;
- the history that events alone tell: the operations of every open transaction and the units
  committed so far, in the order of their commits;
- the invariant that ties each open copy to the collections it was taken from;
- the equality of a run with the run of its committed units, one after another.

Does not own: what an operation answers on given collections, which is the store's.

The history is computed from calls and answers only.  It never looks at versions, marks or copies,
so the main statement relates what callers see to what the store keeps.
-/

set_option autoImplicit false

namespace Recordkeeper.Document

/-! ### Calls -/

inductive Operation where
  | insertOne (collection : String) (doc : Json)
  | find (collection : String) (filter : Json) (options : FindOptions)
  | count (collection : String) (filter : Json)
  | updateOne (collection : String) (filter set : Json)
  | replaceOne (collection : String) (filter doc : Json)
  | deleteMany (collection : String) (filter : Json)
  | aggregate (collection : String) (pipeline : List Json)

inductive Reply where
  | done
  | number (n : Nat)
  | documents (docs : List Json)
  | session (id : SessionId)
  | flag (value : Bool)

inductive Call where
  | operation (session : Option SessionId) (op : Operation)
  | supportsTransactions
  | startSession
  | startTransaction (id : SessionId)
  | commitTransaction (id : SessionId)
  | abortTransaction (id : SessionId)
  | endSession (id : SessionId)

def replied {α : Type} (wrap : α → Reply) (request : Request α) : Request Reply :=
  fun s => ((request s).1.map wrap, (request s).2)

def Operation.request (session : Option SessionId) : Operation → Request Reply
  | .insertOne name doc => replied (fun _ => .done) (Store.insertOne session name doc)
  | .find name filter options => replied .documents (Store.find session name filter options)
  | .count name filter => replied .number (Store.count session name filter)
  | .updateOne name filter set => replied .number (Store.updateOne session name filter set)
  | .replaceOne name filter doc => replied .number (Store.replaceOne session name filter doc)
  | .deleteMany name filter => replied .number (Store.deleteMany session name filter)
  | .aggregate name pipeline => replied .documents (Store.aggregate session name pipeline)

def Call.request : Call → Request Reply
  | .operation session op => op.request session
  | .supportsTransactions => fun s => (.ok (.flag s.transactions), s)
  | .startSession => replied .session Store.startSession
  | .startTransaction id => replied (fun _ => .done) (Store.startTransaction id)
  | .commitTransaction id => replied (fun _ => .done) (Store.commitTransaction id)
  | .abortTransaction id => replied (fun _ => .done) (Store.abortTransaction id)
  | .endSession id => fun s => (.ok .done, s.endSession id)

structure Event where
  call : Call
  answer : Outcome Reply

def serve (s : Store) : List Call → List Event × Store
  | [] => ([], s)
  | call :: rest =>
    let served := serve (call.request s).2 rest
    (⟨call, (call.request s).1⟩ :: served.1, served.2)

theorem serve_append (s : Store) (front back : List Call) :
    serve s (front ++ back)
      = ((serve s front).1 ++ (serve (serve s front).2 back).1,
          (serve (serve s front).2 back).2) := by
  induction front generalizing s with
  | nil => rfl
  | cons call rest inductionHypothesis =>
      simp only [List.cons_append, serve, inductionHypothesis]

/-! ### Histories -/

structure Performed where
  op : Operation
  answer : Outcome Reply

def Performed.alone (p : Performed) : Event := ⟨.operation none p.op, p.answer⟩

/-- Whether an operation is a write with arguments that a store accepts. -/
def Operation.isWrite : Operation → Bool
  | .insertOne _ doc => doc.fields?.isSome && !((lookup doc idField).getD .null).isNull
  | .updateOne _ _ (.object fields) => !Fields.has fields idField
  | .replaceOne _ _ (.object _) => true
  | .deleteMany .. => true
  | _ => false

/-- What events tell of transactions. -/
structure History where
  /-- What each open transaction has done so far. -/
  pending : SessionId → Option (List Performed) := fun _ => none
  /-- Writes outside of transactions and transactions with writes, in the order of commits. -/
  committed : List (List Performed) := []

namespace History

def setPending (h : History) (id : SessionId) (work : Option (List Performed)) : History :=
  { h with pending := fun other => if other = id then work else h.pending other }

def commit (h : History) (work : List Performed) : History :=
  { h with committed := h.committed ++ [work] }

/-- The work of the transaction that a caller has open. -/
def workOf (h : History) (session : Option SessionId) : Option (List Performed) :=
  session.bind h.pending

/-- An operation belongs to the open transaction of its caller.  Outside of transactions a
successful write is a unit of its own. -/
def recordOperation (h : History) (session : Option SessionId) (done : Performed) : History :=
  match session, h.workOf session with
  | some id, some work => h.setPending id (some (work ++ [done]))
  | _, _ => if done.op.isWrite && done.answer.toOption.isSome then h.commit [done] else h

/-- A transaction that commits becomes a unit, if it has written anything. -/
def recordCommit (h : History) (id : SessionId) : History :=
  match h.pending id with
  | some work =>
    if work.any (·.op.isWrite) then (h.setPending id none).commit work else h.setPending id none
  | none => h

/-- What an event adds.  A transaction whose commit fails is dropped, like an aborted one. -/
def record (h : History) (event : Event) : History :=
  match event.call, event.answer with
  | .operation session op, answer => h.recordOperation session ⟨op, answer⟩
  | .startTransaction id, .ok _ => h.setPending id (some [])
  | .commitTransaction id, .ok _ => h.recordCommit id
  | .commitTransaction id, .error _ => h.setPending id none
  | .abortTransaction id, _ => h.setPending id none
  | .endSession id, _ => h.setPending id none
  | _, _ => h

def ofEvents (events : List Event) : History := events.foldl record {}

end History

/-! ### What an operation does to collections -/

/-- An operation as its effect on the collections that its caller sees. -/
inductive Effect where
  | refuse (failure : DocumentFailure)
  | read (answer : Collections → Outcome Reply)
  | write (change : Change Reply)

namespace Effect

def request (session : Option SessionId) : Effect → Request Reply
  | .refuse failure => fun s => (.error failure, s)
  | .read answer => Store.read session answer
  | .write change => Store.write session change

def isWrite : Effect → Bool
  | .write _ => true
  | _ => false

/-- The answer on given collections and the collections after it. -/
def apply : Effect → Collections → Outcome Reply × Collections
  | .refuse failure, cols => (.error failure, cols)
  | .read answer, cols => (answer cols, cols)
  | .write change, cols =>
    match change cols with
    | .ok (reply, changed) => (.ok reply, changed)
    | .error failure => (.error failure, cols)

theorem apply_read_only {effect : Effect} (readOnly : effect.isWrite = false)
    (cols : Collections) : (effect.apply cols).2 = cols := by
  cases effect with
  | refuse failure => rfl
  | read answer => rfl
  | write change => cases readOnly

/-- A failed operation leaves the collections unchanged. -/
theorem apply_error {effect : Effect} {cols : Collections} {failure : DocumentFailure}
    (failed : (effect.apply cols).1 = .error failure) : (effect.apply cols).2 = cols := by
  cases effect with
  | refuse other => rfl
  | read answer => rfl
  | write change =>
      simp only [apply] at failed ⊢
      cases outcome : change cols with
      | ok result => rw [outcome] at failed; cases failed
      | error other => rfl

end Effect

def Change.replied {α : Type} (wrap : α → Reply) (change : Change α) : Change Reply :=
  fun cols => (change cols).map fun result => (wrap result.1, result.2)

theorem replied_read {α : Type} (wrap : α → Reply) (session : Option SessionId)
    (answer : Collections → Outcome α) :
    replied wrap (Store.read session answer)
      = (Effect.read fun cols => (answer cols).map wrap).request session := by
  funext s
  show ((s.visible session >>= answer).map wrap, s)
    = (s.visible session >>= fun cols => (answer cols).map wrap, s)
  cases s.visible session <;> rfl

theorem replied_write {α : Type} (wrap : α → Reply) (session : Option SessionId)
    (change : Change α) :
    replied wrap (Store.write session change)
      = (Effect.write (Change.replied wrap change)).request session := by
  have committed (s : Store) :
      replied wrap (Store.commitChange change) s
        = Store.commitChange (Change.replied wrap change) s := by
    unfold replied Store.commitChange Change.replied
    cases change s.collections <;> rfl
  funext s
  cases session with
  | none => exact committed s
  | some id =>
      show replied wrap (Store.write (some id) change) s
        = Store.write (some id) (Change.replied wrap change) s
      cases found : s.sessions.lookup id with
      | none => simp only [replied, Store.write, found, Except.map]
      | some slot =>
          cases slot with
          | none =>
              have plain := committed s
              simp only [replied] at plain
              simp only [replied, Store.write, found]
              exact plain
          | some copy =>
              simp only [replied, Store.write, found, Change.replied]
              cases change copy.collections <;> rfl

/-- Every operation has one effect, whoever calls it, and it is a write exactly when its
arguments say so. -/
theorem Operation.request_effect (op : Operation) :
    ∃ effect : Effect,
      (∀ session, op.request session = effect.request session) ∧ effect.isWrite = op.isWrite := by
  cases op with
  | insertOne name doc =>
      by_cases hasId : doc.fields?.isSome && !((lookup doc idField).getD .null).isNull
      · refine ⟨.write (Change.replied (fun _ => .done) (insertDoc name doc)), fun session => ?_,
          hasId.symm⟩
        rw [← replied_write]
        funext s
        simp only [request, replied, Store.insertOne, if_pos hasId]
      · refine ⟨.refuse (.badValue "document must be an object with an _id"), fun session => ?_,
          (Bool.eq_false_iff.2 hasId).symm⟩
        funext s
        simp only [request, replied, Store.insertOne, if_neg hasId]
        rfl
  | find name filter options => exact ⟨_, fun session => replied_read _ session _, rfl⟩
  | count name filter => exact ⟨_, fun session => replied_read _ session _, rfl⟩
  | updateOne name filter set =>
      cases set with
      | object fields =>
          by_cases hasId : Fields.has fields idField
          · refine ⟨.refuse (.badValue "the _id field is immutable"), fun session => ?_, ?_⟩
            · funext s
              simp only [request, replied, Store.updateOne, if_pos hasId]
              rfl
            · simp only [isWrite, hasId]
              rfl
          · refine ⟨.write (Change.replied .number (changeFirst name filter (setFields fields))),
              fun session => ?_, ?_⟩
            · rw [← replied_write]
              funext s
              simp only [request, replied, Store.updateOne, if_neg hasId]
            · simp only [isWrite, Bool.eq_false_iff.2 hasId]
              rfl
      | _ => exact ⟨.refuse (.badValue "$set needs an object"), fun session => rfl, rfl⟩
  | replaceOne name filter doc =>
      cases doc with
      | object fields =>
          exact ⟨_, fun session => replied_write .number session
            (changeFirst name filter (replaceKeepingId fields)), rfl⟩
      | _ => exact ⟨.refuse (.badValue "replacement must be an object"), fun session => rfl, rfl⟩
  | deleteMany name filter => exact ⟨_, fun session => replied_write _ session _, rfl⟩
  | aggregate name pipeline => exact ⟨_, fun session => replied_read _ session _, rfl⟩

def Operation.apply (op : Operation) (cols : Collections) : Outcome Reply × Collections :=
  ((op.request none { collections := cols }).1,
    (op.request none { collections := cols }).2.collections)

def Store.copyOf? (s : Store) (session : Option SessionId) : Option Snapshot :=
  session.bind fun id => (s.sessions.lookup id).join

def Store.withCopy (s : Store) (id : SessionId) (copy : Option Snapshot) : Store :=
  { s with sessions := s.sessions.set id copy }

namespace Effect

theorem apply_eq_alone (effect : Effect) (cols : Collections) :
    ((effect.request none { collections := cols }).1,
        (effect.request none { collections := cols }).2.collections) = effect.apply cols := by
  cases effect with
  | refuse failure => rfl
  | read answer => rfl
  | write change =>
      show ((Store.commitChange change { collections := cols }).1,
        (Store.commitChange change { collections := cols }).2.collections) = _
      unfold Store.commitChange apply
      dsimp only
      cases change cols <;> rfl

/-- On committed collections a write that succeeds raises the version; nothing else changes. -/
theorem request_committed (effect : Effect) (s : Store) :
    effect.request none s = ((effect.apply s.collections).1,
      if effect.isWrite && (effect.apply s.collections).1.toOption.isSome then
        { s with collections := (effect.apply s.collections).2, version := s.version + 1 }
      else s) := by
  cases effect with
  | refuse failure => rfl
  | read answer => rfl
  | write change =>
      show Store.commitChange change s = _
      rcases outcome : change s.collections with failure | ⟨reply, changed⟩
      · simp only [Store.commitChange, apply, outcome]
        rfl
      · simp only [Store.commitChange, apply, outcome]
        rfl

/-- In a session without a transaction an operation acts as without a session. -/
theorem request_session {s : Store} {id : SessionId} (effect : Effect)
    (found : s.sessions.lookup id = some none) :
    effect.request (some id) s = effect.request none s := by
  cases effect with
  | refuse failure => rfl
  | read answer => simp only [request, Store.read, Store.visible, found]
  | write change => simp only [request, Store.write, found]

theorem request_ended {s : Store} {id : SessionId} (effect : Effect)
    (missing : s.sessions.lookup id = none) :
    ∃ failure, effect.request (some id) s = (.error failure, s) := by
  cases effect with
  | refuse failure => exact ⟨failure, rfl⟩
  | read answer =>
      refine ⟨endedSession id, ?_⟩
      simp only [request, Store.read, Store.visible, missing]
      rfl
  | write change => exact ⟨endedSession id, by simp only [request, Store.write, missing]⟩

/-- In a transaction an operation acts on the copy, and a write marks it. -/
theorem request_copy {s : Store} {id : SessionId} {copy : Snapshot} (effect : Effect)
    (found : s.sessions.lookup id = some (some copy)) :
    effect.request (some id) s = ((effect.apply copy.collections).1,
      if effect.isWrite then
        s.withCopy id (some { copy with
          collections := (effect.apply copy.collections).2, dirty := true })
      else s) := by
  cases effect with
  | refuse failure => rfl
  | read answer =>
      simp only [request, Store.read, Store.visible, found]
      rfl
  | write change =>
      simp only [request, Store.write, found, apply]
      cases change copy.collections <;> rfl

end Effect

theorem Operation.apply_eq {op : Operation} {effect : Effect}
    (request : ∀ session, op.request session = effect.request session) (cols : Collections) :
    op.apply cols = effect.apply cols := by
  rw [Operation.apply, request none]
  exact effect.apply_eq_alone cols

theorem Operation.request_alone (op : Operation) (s : Store) :
    op.request none s = ((op.apply s.collections).1,
      if op.isWrite && (op.apply s.collections).1.toOption.isSome then
        { s with collections := (op.apply s.collections).2, version := s.version + 1 }
      else s) := by
  obtain ⟨effect, request, kind⟩ := op.request_effect
  rw [request none, apply_eq request, ← kind]
  exact effect.request_committed s

/-- An operation outside of transactions fails and changes nothing, or acts as without a
session. -/
theorem Operation.request_outside (op : Operation) {s : Store} {session : Option SessionId}
    (outside : s.copyOf? session = none) :
    (∃ failure, op.request session s = (.error failure, s)) ∨
      op.request session s = op.request none s := by
  obtain ⟨effect, request, -⟩ := op.request_effect
  rw [request session, request none]
  cases session with
  | none => exact Or.inr rfl
  | some id =>
      cases found : s.sessions.lookup id with
      | none => exact Or.inl (effect.request_ended found)
      | some slot =>
          have noCopy : slot = none := by
            simpa only [Store.copyOf?, Option.bind_some, found, Option.join_some] using outside
          subst noCopy
          exact Or.inr (effect.request_session found)

/-- An operation in a transaction acts on the copy, and a write marks it. -/
theorem Operation.request_inside (op : Operation) {s : Store} {id : SessionId} {copy : Snapshot}
    (inside : s.copyOf? (some id) = some copy) :
    op.request (some id) s = ((op.apply copy.collections).1,
      if op.isWrite then
        s.withCopy id (some { copy with
          collections := (op.apply copy.collections).2, dirty := true })
      else s) := by
  obtain ⟨effect, request, kind⟩ := op.request_effect
  have found : s.sessions.lookup id = some (some copy) := by
    rw [Store.copyOf?, Option.bind_some] at inside
    exact Option.join_eq_some_iff.1 inside
  rw [request (some id), apply_eq request, ← kind]
  exact effect.request_copy found

theorem Operation.apply_read_only {op : Operation} (readOnly : op.isWrite = false)
    (cols : Collections) : (op.apply cols).2 = cols := by
  obtain ⟨effect, request, kind⟩ := op.request_effect
  rw [apply_eq request]
  exact Effect.apply_read_only (kind.trans readOnly) cols

theorem Operation.apply_error {op : Operation} {cols : Collections}
    (failed : (op.apply cols).1.toOption = none) : (op.apply cols).2 = cols := by
  obtain ⟨effect, request, -⟩ := op.request_effect
  rw [apply_eq request] at failed ⊢
  cases outcome : (effect.apply cols).1 with
  | ok reply => rw [outcome] at failed; cases failed
  | error failure => exact Effect.apply_error outcome

/-! ### Replays -/

/-- The operations with their answers lead from some collections to others, one after another. -/
inductive Replays (start : Collections) : List Performed → Collections → Prop
  | nil : Replays start [] start
  | snoc {done : List Performed} {cols : Collections} (op : Operation) :
      Replays start done cols →
      Replays start (done ++ [⟨op, (op.apply cols).1⟩]) (op.apply cols).2

theorem Replays.append {start middle last : Collections} {front back : List Performed}
    (first : Replays start front middle) (second : Replays middle back last) :
    Replays start (front ++ back) last := by
  induction second with
  | nil => rwa [List.append_nil]
  | snoc op _ inductionHypothesis =>
      rw [← List.append_assoc]
      exact inductionHypothesis.snoc op

theorem Replays.serve {start last : Collections} {done : List Performed}
    (replays : Replays start done last) {s : Store} (starts : s.collections = start) :
    (Document.serve s (done.map fun p => .operation none p.op)).1 = done.map Performed.alone ∧
      (Document.serve s (done.map fun p => .operation none p.op)).2.collections = last := by
  induction replays with
  | nil => exact ⟨rfl, starts⟩
  | @snoc done cols op _ inductionHypothesis =>
      obtain ⟨answers, collections⟩ := inductionHypothesis
      rw [List.map_append, serve_append]
      generalize (Document.serve s (done.map fun p => .operation none p.op)).2 = between
        at collections
      subst collections
      have served : op.request none between = ((op.apply between.collections).1, _) :=
        op.request_alone between
      constructor
      · show _ ++ [Event.mk _ (op.request none between).1] = _
        rw [answers, served, List.map_append]
        rfl
      · show (op.request none between).2.collections = _
        rw [served]
        split
        next => rfl
        next fails =>
          by_cases writes : op.isWrite
          · rw [writes, Bool.true_and, Bool.not_eq_true, Option.isSome_eq_false_iff,
              Option.isNone_iff_eq_none] at fails
            exact (Operation.apply_error fails).symm
          · exact (Operation.apply_read_only (Bool.eq_false_iff.2 writes) _).symm

/-! ### Sessions -/

theorem Sessions.lookup_set (sessions : Sessions) (id other : SessionId)
    (copy : Option Snapshot) :
    (sessions.set id copy).lookup other
      = if other = id then (sessions.lookup other).map fun _ => copy
        else sessions.lookup other := by
  induction sessions with
  | nil => exact (ite_self _).symm
  | cons entry rest inductionHypothesis =>
      rw [show Sessions.set (entry :: rest) id copy
          = (if entry.1 = id then (id, copy) else entry) :: Sessions.set rest id copy from rfl,
        lookup_cons_if, lookup_cons_if, inductionHypothesis]
      by_cases own : entry.1 = id <;> by_cases asked : other = id <;>
        by_cases first : other = entry.1 <;> simp_all

namespace Store

theorem copyOf?_withCopy (s : Store) (id other : SessionId) (copy : Option Snapshot) :
    (s.withCopy id copy).copyOf? (some other)
      = if other = id then (s.sessions.lookup id).bind fun _ => copy
        else s.copyOf? (some other) := by
  show ((s.sessions.set id copy).lookup other).join = _
  rw [Sessions.lookup_set]
  by_cases own : other = id
  · subst own
    cases s.sessions.lookup other <;> simp
  · rw [if_neg own, if_neg own]
    rfl

theorem copyOf?_end (s : Store) (id other : SessionId) :
    (s.endSession id).copyOf? (some other)
      = if other = id then none else s.copyOf? (some other) := by
  show (List.lookup other (s.sessions.filter fun entry => entry.1 != id)).join = _
  rw [lookup_filter (· != id)]
  by_cases own : other = id
  · rw [if_pos own, own, bne_self_eq_false, if_neg Bool.false_ne_true]
    rfl
  · rw [if_neg own, if_pos (bne_iff_ne.2 own)]
    rfl

/-- The commit of a copy: it succeeds unless the copy was written to and the version has been
raised since, and the copy is gone in any case. -/
theorem commitTransaction_copy {s : Store} {id : SessionId} {copy : Snapshot}
    (found : s.sessions.lookup id = some (some copy)) :
    commitTransaction id s
      = if copy.dirty then
          if s.version = copy.baseVersion then
            (.ok (), { s.withCopy id none with
              collections := copy.collections, version := s.version + 1 })
          else
            (.error { code := some 112, labels := [DocumentFailure.transientLabel],
                      message := "WriteConflict" }, s.withCopy id none)
        else (.ok (), s.withCopy id none) := by
  unfold commitTransaction
  rw [found]
  dsimp only
  by_cases written : copy.dirty
  · by_cases current : s.version = copy.baseVersion
    · simp [written, current, withCopy]
    · simp [written, current, withCopy]
  · simp [written, withCopy]

theorem copyOf?_startSession (s : Store) (session : Option SessionId) :
    (startSession s).2.copyOf? session = s.copyOf? session := by
  cases session with
  | none => rfl
  | some id =>
      show (List.lookup id (s.sessions ++ [(s.nextSession, none)])).join = _
      rw [List.lookup_append]
      show _ = (s.sessions.lookup id).join
      cases s.sessions.lookup id with
      | some slot => rfl
      | none =>
          rw [Option.none_or, lookup_cons_if]
          by_cases asked : id = s.nextSession <;> simp [asked]

end Store

/-! ### The invariant -/

/-- What the open copy of a transaction owes to the work done in it.  As long as nobody else has
committed, the work started from the collections that are committed now. -/
structure CopyTied (s : Store) (work : List Performed) (copy : Snapshot) : Prop where
  replays : ∃ start, Replays start work copy.collections ∧
    (copy.baseVersion = s.version → start = s.collections)
  marked : copy.dirty = work.any (·.op.isWrite)
  past : copy.baseVersion ≤ s.version

/-- What a store owes to its history. -/
structure Tied (initial : Collections) (h : History) (s : Store) : Prop where
  committed : Replays initial h.committed.flatten s.collections
  copies : ∀ id, Option.Rel (CopyTied s) (h.pending id) (s.copyOf? (some id))

theorem CopyTied.fresh (s : Store) : CopyTied s [] ⟨s.version, s.collections, false⟩ where
  replays := ⟨s.collections, .nil, fun _ => rfl⟩
  marked := rfl
  past := Nat.le_refl _

/-- A copy stays tied when the committed collections stay, or the version is raised. -/
theorem CopyTied.mono {s after : Store} {work : List Performed} {copy : Snapshot}
    (tied : CopyTied s work copy)
    (kept : (after.version = s.version ∧ after.collections = s.collections) ∨
      s.version < after.version) : CopyTied after work copy := by
  obtain ⟨start, replays, current⟩ := tied.replays
  have past := tied.past
  rcases kept with ⟨version, collections⟩ | raised
  · exact ⟨⟨start, replays, by rw [version, collections]; exact current⟩, tied.marked,
      by rw [version]; exact past⟩
  · exact ⟨⟨start, replays, fun same => by omega⟩, tied.marked, by omega⟩

theorem CopyTied.rel_mono {s after : Store} {work : Option (List Performed)}
    {copy : Option Snapshot} (tied : Option.Rel (CopyTied s) work copy)
    (kept : (after.version = s.version ∧ after.collections = s.collections) ∨
      s.version < after.version) : Option.Rel (CopyTied after) work copy := by
  cases tied with
  | none => exact .none
  | some tied => exact .some (tied.mono kept)

/-- An operation in a transaction carries the copy on. -/
theorem CopyTied.perform {s : Store} {work : List Performed} {copy : Snapshot}
    (tied : CopyTied s work copy) (op : Operation) :
    CopyTied s (work ++ [⟨op, (op.apply copy.collections).1⟩])
      { copy with
        collections := (op.apply copy.collections).2, dirty := copy.dirty || op.isWrite } where
  replays := by
    obtain ⟨start, replays, current⟩ := tied.replays
    exact ⟨start, replays.snoc op, current⟩
  marked := by
    rw [List.any_append, ← tied.marked]
    simp
  past := tied.past

namespace Tied

variable {initial : Collections} {h : History} {s after : Store}

theorem setPending (tied : Tied initial h s) {id : SessionId} {work : Option (List Performed)}
    (version : after.version = s.version) (collections : after.collections = s.collections)
    (others : ∀ other, other ≠ id → after.copyOf? (some other) = s.copyOf? (some other))
    (own : Option.Rel (CopyTied s) work (after.copyOf? (some id))) :
    Tied initial (h.setPending id work) after where
  committed := by
    rw [collections]
    exact tied.committed
  copies other := by
    have kept : (after.version = s.version ∧ after.collections = s.collections) ∨
        s.version < after.version := Or.inl ⟨version, collections⟩
    show Option.Rel _ (if other = id then work else h.pending other) _
    by_cases asked : other = id
    · subst asked
      rw [if_pos rfl]
      exact CopyTied.rel_mono own kept
    · rw [if_neg asked, others other asked]
      exact CopyTied.rel_mono (tied.copies other) kept

/-- A step that commits a unit of work done from the committed collections. -/
theorem commit (tied : Tied initial h s) {work : List Performed}
    (replays : Replays s.collections work after.collections)
    (raised : s.version < after.version)
    (copies : ∀ id, after.copyOf? (some id) = s.copyOf? (some id)) :
    Tied initial (h.commit work) after where
  committed := by
    show Replays initial (h.committed ++ [work]).flatten _
    rw [List.flatten_append, List.flatten_singleton]
    exact tied.committed.append replays
  copies id := by
    rw [copies id]
    exact CopyTied.rel_mono (tied.copies id) (Or.inr raised)

theorem congr (tied : Tied initial h s) (version : after.version = s.version)
    (collections : after.collections = s.collections)
    (copies : ∀ id, after.copyOf? (some id) = s.copyOf? (some id)) : Tied initial h after where
  committed := by
    rw [collections]
    exact tied.committed
  copies id := by
    rw [copies id]
    exact CopyTied.rel_mono (tied.copies id) (Or.inl ⟨version, collections⟩)

theorem drop (tied : Tied initial h s) (id : SessionId) :
    Tied initial (h.setPending id none) (s.withCopy id none) := by
  refine tied.setPending rfl rfl (fun other different => ?_) ?_
  · rw [Store.copyOf?_withCopy, if_neg different]
  · rw [Store.copyOf?_withCopy, if_pos rfl]
    cases s.sessions.lookup id <;> exact .none

theorem drop_none (tied : Tied initial h s) {id : SessionId}
    (idle : s.copyOf? (some id) = none) : Tied initial (h.setPending id none) s := by
  refine tied.setPending rfl rfl (fun _ _ => rfl) ?_
  rw [idle]
  exact .none

theorem workOf_eq_none (tied : Tied initial h s) {session : Option SessionId}
    (outside : s.copyOf? session = none) : h.workOf session = none := by
  cases session with
  | none => rfl
  | some id =>
      have related := tied.copies id
      rw [outside] at related
      cases work : h.pending id with
      | none => exact work
      | some done => rw [work] at related; cases related

theorem exists_work (tied : Tied initial h s) {id : SessionId} {copy : Snapshot}
    (inside : s.copyOf? (some id) = some copy) :
    ∃ work, h.pending id = some work ∧ CopyTied s work copy := by
  have related := tied.copies id
  rw [inside] at related
  cases work : h.pending id with
  | none => rw [work] at related; cases related
  | some done =>
      rw [work] at related
      cases related with
      | some tiedCopy => exact ⟨done, rfl, tiedCopy⟩

/-! ### Steps -/

theorem recordOperation_outside {session : Option SessionId} (done : Performed)
    (outside : h.workOf session = none) :
    h.recordOperation session done
      = if done.op.isWrite && done.answer.toOption.isSome then h.commit [done] else h := by
  unfold History.recordOperation
  rw [outside]
  cases session <;> rfl

theorem operation_outside (tied : Tied initial h s) {session : Option SessionId}
    (outside : s.copyOf? session = none) (op : Operation) :
    Tied initial (h.recordOperation session ⟨op, (op.request session s).1⟩)
      (op.request session s).2 := by
  rw [recordOperation_outside _ (tied.workOf_eq_none outside)]
  rcases op.request_outside outside with ⟨failure, failed⟩ | alone
  · rw [failed]
    show Tied initial (if op.isWrite && false then _ else h) s
    rw [Bool.and_false, if_neg Bool.false_ne_true]
    exact tied
  · rw [alone, op.request_alone]
    by_cases commits : op.isWrite && (op.apply s.collections).1.toOption.isSome
    · rw [if_pos commits, if_pos commits]
      exact tied.commit (Replays.nil.snoc op) (Nat.lt_succ_self _) fun id => rfl
    · rw [if_neg commits, if_neg commits]
      exact tied

theorem operation_inside (tied : Tied initial h s) {id : SessionId} {copy : Snapshot}
    (inside : s.copyOf? (some id) = some copy) (op : Operation) :
    Tied initial (h.recordOperation (some id) ⟨op, (op.request (some id) s).1⟩)
      (op.request (some id) s).2 := by
  obtain ⟨work, pending, tiedCopy⟩ := tied.exists_work inside
  have carried := tiedCopy.perform op
  rw [show h.recordOperation (some id) ⟨op, (op.request (some id) s).1⟩
      = h.setPending id (some (work ++ [⟨op, (op.request (some id) s).1⟩])) by
    simp only [History.recordOperation, History.workOf, Option.bind_some, pending],
    op.request_inside inside]
  by_cases writes : op.isWrite
  · rw [if_pos writes]
    rw [writes, Bool.or_true] at carried
    refine tied.setPending rfl rfl (fun other different => ?_) ?_
    · rw [Store.copyOf?_withCopy, if_neg different]
    · have known : s.sessions.lookup id = some (some copy) := Option.join_eq_some_iff.1 inside
      rw [Store.copyOf?_withCopy, if_pos rfl, known]
      exact .some carried
  · rw [if_neg writes]
    rw [Bool.eq_false_iff.2 writes, Bool.or_false,
      Operation.apply_read_only (Bool.eq_false_iff.2 writes)] at carried
    refine tied.setPending rfl rfl (fun other different => rfl) ?_
    rw [inside]
    exact .some carried

theorem startTransaction (tied : Tied initial h s) (id : SessionId) :
    Tied initial (h.record ⟨.startTransaction id, ((Call.startTransaction id).request s).1⟩)
      ((Call.startTransaction id).request s).2 := by
  show Tied initial (h.record ⟨_, (Store.startTransaction id s).1.map _⟩)
    (Store.startTransaction id s).2
  unfold Store.startTransaction
  split
  · exact tied
  · cases found : s.sessions.lookup id with
    | none => exact tied
    | some slot =>
        cases slot with
        | some copy => exact tied
        | none =>
            show Tied initial (h.setPending id (some [])) (s.withCopy id (some _))
            refine tied.setPending rfl rfl (fun other different => ?_) ?_
            · rw [Store.copyOf?_withCopy, if_neg different]
            · rw [Store.copyOf?_withCopy, if_pos rfl, found]
              exact .some (CopyTied.fresh s)

theorem abortTransaction (tied : Tied initial h s) (id : SessionId) :
    Tied initial (h.setPending id none) (Store.abortTransaction id s).2 := by
  unfold Store.abortTransaction
  cases found : s.sessions.lookup id with
  | none => exact tied.drop_none (by rw [Store.copyOf?, Option.bind_some, found]; rfl)
  | some slot =>
      cases slot with
      | none => exact tied.drop_none (by rw [Store.copyOf?, Option.bind_some, found]; rfl)
      | some copy => exact tied.drop id

theorem endSession (tied : Tied initial h s) (id : SessionId) :
    Tied initial (h.setPending id none) (s.endSession id) := by
  refine tied.setPending rfl rfl (fun other different => ?_) ?_
  · rw [Store.copyOf?_end, if_neg different]
  · rw [Store.copyOf?_end, if_pos rfl]
    exact .none

theorem startSession (tied : Tied initial h s) : Tied initial h (Store.startSession s).2 :=
  tied.congr rfl rfl fun id => s.copyOf?_startSession (some id)

/-- A commit drops the copy.  If it succeeds and the copy was written to, nobody else has
committed since the copy was taken, so the work is a unit done from the committed collections. -/
theorem commitTransaction (tied : Tied initial h s) (id : SessionId) :
    Tied initial (h.record ⟨.commitTransaction id, ((Call.commitTransaction id).request s).1⟩)
      ((Call.commitTransaction id).request s).2 := by
  show Tied initial (h.record ⟨_, (Store.commitTransaction id s).1.map _⟩)
    (Store.commitTransaction id s).2
  cases inside : s.copyOf? (some id) with
  | none =>
      have idle : s.sessions.lookup id = none ∨ s.sessions.lookup id = some none := by
        cases found : s.sessions.lookup id with
        | none => exact Or.inl rfl
        | some slot =>
            cases slot with
            | none => exact Or.inr rfl
            | some copy => rw [Store.copyOf?, Option.bind_some, found] at inside; cases inside
      unfold Store.commitTransaction
      rcases idle with found | found <;> rw [found] <;> exact tied.drop_none inside
  | some copy =>
      obtain ⟨work, pending, tiedCopy⟩ := tied.exists_work inside
      have found : s.sessions.lookup id = some (some copy) := Option.join_eq_some_iff.1 inside
      have dropped : Tied initial (h.setPending id none) (s.withCopy id none) := tied.drop id
      have recorded (answer : Outcome Reply) (succeeded : answer.toOption.isSome) :
          h.record ⟨.commitTransaction id, answer⟩
            = if copy.dirty then (h.setPending id none).commit work
              else h.setPending id none := by
        cases answer with
        | error failure => cases succeeded
        | ok reply => simp only [History.record, History.recordCommit, pending, tiedCopy.marked]
      rw [Store.commitTransaction_copy found]
      by_cases written : copy.dirty
      · rw [if_pos written]
        by_cases current : s.version = copy.baseVersion
        · rw [if_pos current, recorded _ rfl, if_pos written]
          obtain ⟨start, replays, sameStart⟩ := tiedCopy.replays
          rw [sameStart current.symm] at replays
          exact dropped.commit replays (Nat.lt_succ_self _) fun _ => rfl
        · rw [if_neg current]
          exact dropped
      · rw [if_neg written, recorded _ rfl, if_neg written]
        exact dropped

end Tied

/-- Every call keeps a store tied to its history. -/
theorem Call.tied {initial : Collections} {h : History} {s : Store} (call : Call)
    (tied : Tied initial h s) :
    Tied initial (h.record ⟨call, (call.request s).1⟩) (call.request s).2 := by
  cases call with
  | operation session op =>
      show Tied initial (h.recordOperation session ⟨op, (op.request session s).1⟩) _
      cases inside : s.copyOf? session with
      | none => exact tied.operation_outside inside op
      | some copy =>
          cases session with
          | none => cases inside
          | some id => exact tied.operation_inside inside op
  | supportsTransactions => exact tied
  | startSession => exact tied.startSession
  | startTransaction id => exact tied.startTransaction id
  | commitTransaction id => exact tied.commitTransaction id
  | abortTransaction id => exact tied.abortTransaction id
  | endSession id => exact tied.endSession id

theorem serve_tied {initial : Collections} (calls : List Call) {h : History} {s : Store}
    (tied : Tied initial h s) :
    Tied initial ((serve s calls).1.foldl History.record h) (serve s calls).2 := by
  induction calls generalizing h s with
  | nil => exact tied
  | cons call rest inductionHypothesis => exact inductionHypothesis (call.tied tied)

/-- A store without open transactions starts tied to the empty history. -/
theorem tied_idle {s : Store} (idle : ∀ id, s.copyOf? (some id) = none) :
    Tied s.collections {} s where
  committed := .nil
  copies id := by
    rw [idle id]
    exact .none

/-- The committed collections after any calls are those that the committed units leave when a
single caller without a session performs them one after another, and this caller gets the answers
that the units' own callers got. -/
theorem serve_serializable (s : Store) (calls : List Call)
    (idle : ∀ id, s.copyOf? (some id) = none) :
    let units := (History.ofEvents (serve s calls).1).committed
    let alone := serve s (units.flatten.map fun p => .operation none p.op)
    alone.2.collections = (serve s calls).2.collections ∧
      alone.1 = units.flatten.map Performed.alone := by
  have committed := (serve_tied calls (tied_idle idle)).committed
  exact (committed.serve rfl).symm

/-- Two transactions that write beside each other and a caller without a session in between. -/
def contendedCalls : List Call :=
  let doc (id : String) : Json := .object [(idField, .text id)]
  [.startSession, .startSession, .operation none (.insertOne "notes" (doc "a")),
   .startTransaction 1, .startTransaction 2,
   .operation (some 1) (.insertOne "notes" (doc "b")),
   .operation (some 1) (.count "notes" (.object [])),
   .operation (some 2) (.insertOne "notes" (doc "c")), .commitTransaction 1, .commitTransaction 2,
   .operation (some 2) (.deleteMany "notes" (doc "a"))]

/-- The first transaction and the two single writes are units, and the second transaction, whose
commit conflicts, is none. -/
theorem contendedCalls_serializable :
    (∀ id, Store.new.copyOf? (some id) = none) ∧
      (History.ofEvents (serve Store.new contendedCalls).1).committed.map List.length
        = [1, 2, 1] ∧
      (let units := (History.ofEvents (serve Store.new contendedCalls).1).committed
       let alone := serve Store.new (units.flatten.map fun p => .operation none p.op)
       alone.2.collections = (serve Store.new contendedCalls).2.collections ∧
         alone.1 = units.flatten.map Performed.alone) :=
  ⟨fun _ => rfl, by decide +kernel, serve_serializable Store.new contendedCalls fun _ => rfl⟩

end Recordkeeper.Document
