import Recordkeeper.Proofs.Insertion
import Recordkeeper.Proofs.Relational.Insertion

/-!
Contract: a batch of insertions on a relational engine stores all of its entities or none.

Owns:
- clients whose savepoints are those of a connection, and whose requests may fail at any time;
- the rows that a batch stores, and the entities with their ids;
- `createBatch_allOrNothing`: a batch that fails leaves the database as it was, and no batch leaves
  its savepoint open.

Does not own: what becomes of the batch when the transaction around it is settled.

While a batch runs its savepoint is the latest one, with the database from before.  Whatever a
failing request has done to the database since, going back to the savepoint undoes it.
-/

set_option autoImplicit false

namespace Recordkeeper.Engine.Connection

/-! ### The latest savepoint -/

section Latest

variable {name : String} {database : Database} {outer : List Mark} {c : Connection}
  (latest : c.marks = ⟨some name, database⟩ :: outer)

include latest

theorem fromSavepoint_latest : fromSavepoint name c.marks = ⟨some name, database⟩ :: outer := by
  rw [latest]
  exact if_pos (beq_self_eq_true name.toLower)

theorem rollbackTo_latest : rollbackTo name c = (.ok (), { c with database }) := by
  unfold rollbackTo
  rw [fromSavepoint_latest latest, latest]

theorem release_latest : release name c = (.ok (), { c with marks := outer }) := by
  unfold release
  rw [fromSavepoint_latest latest]

end Latest

end Recordkeeper.Engine.Connection

namespace Recordkeeper.Relational

open Engine

variable {σ E : Type}

/-! ### Clients -/

/-- A request that does on the connection what the native one does. -/
def Acts {α : Type} (connection : σ → Connection) (request : σ → Except SqlFailure α × σ)
    (native : Connection.Request α) (s : σ) : Prop :=
  (request s).1 = (native (connection s)).1 ∧ connection (request s).2 = (native (connection s)).2

/-- A request that fails, whatever it has done to the database, with all savepoints still open. -/
def FailsOpen {α : Type} (connection : σ → Connection) (request : σ → Except SqlFailure α × σ)
    (s : σ) : Prop :=
  (∃ failure, (request s).1 = .error failure) ∧
    (connection (request s).2).marks = (connection s).marks

/-- The requests of a client take place on a connection, or fail.  A savepoint that was opened can
be gone back to, and it can be given up then. -/
structure Client.Follows (c : Client σ) (connection : σ → Connection) : Prop where
  execute : ∀ sql params s,
    Acts connection (c.execute sql params) (Connection.execute sql params) s ∨
      FailsOpen connection (c.execute sql params) s
  lastRow : ∀ s, c.lastRow s = (connection s).lastRow
  savepoint : ∀ name s, Acts connection (c.savepoint name) (Connection.savepoint name) s ∨
    (∃ failure, (c.savepoint name s).1 = .error failure) ∧
      connection (c.savepoint name s).2 = connection s
  rollbackTo : ∀ name s, Acts connection (c.rollbackTo name) (Connection.rollbackTo name) s
  release : ∀ name s, Acts connection (c.release name) (Connection.release name) s ∨
    FailsOpen connection (c.release name) s
  releaseRolledBack : ∀ name s, (c.rollbackTo name s).1 = .ok () →
    Acts connection (c.release name) (Connection.release name) (c.rollbackTo name s).2
  lock : ∀ limit s, connection (c.lock limit s).2 = connection s
  unlock : ∀ s, connection (c.unlock s) = connection s

theorem Client.memory_follows {p : Part σ (World Shared)} (lawful : p.Lawful) :
    (Client.memory p).Follows fun s => (p.view s).store.connection := by
  have acts {α : Type} (native : Connection.Request α) (s : σ) :
      Acts (fun s => (p.view s).store.connection)
        (((p.inside World.storePart).inside Shared.connectionPart).run native) native s := by
    refine ⟨rfl, ?_⟩
    show (p.view (p.put _ s)).store.connection = _
    rw [lawful]
    rfl
  exact {
    execute := fun _ _ s => .inl (acts _ s)
    lastRow := fun _ => rfl
    savepoint := fun _ s => .inl (acts _ s)
    rollbackTo := fun _ s => acts _ s
    release := fun _ s => .inl (acts _ s)
    releaseRolledBack := fun _ s _ => acts _ _
    lock := (Client.memory_insertsWhole lawful).lock
    unlock := (Client.memory_insertsWhole lawful).unlock }

/-! ### Rows of a batch -/

/-- How a new record comes by its id: it brings one, one is drawn, or its row is numbered.  With the
id the record that is inserted, and the fields of it. -/
inductive Supplies (schema : Schema) (own : Record) (row : StoredRow) :
    Value → Record → List String → Prop
  | given {id : Value} (has : schema.idOf? own = some id) :
      Supplies schema own row id own (schema.fields.map (·.name))
  | drawn {text : String} (missing : schema.idOf? own = none)
      (strategy : schema.idStrategy = .uuid) :
      Supplies schema own row (.text text) (own.insert schema.primaryKey (.text text))
        (schema.fields.map (·.name))
  | numbered (missing : schema.idOf? own = none) (strategy : schema.idStrategy = .autoIncrement) :
      Supplies schema own row (.int row.number) (own.erase schema.primaryKey)
        ((schema.fields.map (·.name)).filter (· != schema.primaryKey))

/-- A record is stored under an id: its table has gained a row with the values of the record in the
columns of its fields. -/
def Inserted (schema : Schema) (own : Record) (id : Value) (before after : Database) : Prop :=
  ∃ row r fields, Supplies schema own row id r fields ∧
    Database.Gains schema.name (fields.map schema.columnFor) (fields.map fun name =>
      bind (r.valueAt name)) row before after

/-- An id that the record did not bring along is a generated one. -/
theorem Inserted.generated {schema : Schema} {own : Record} {id : Value} {before after : Database}
    (inserted : Inserted schema own id before after) (missing : schema.idOf? own = none) :
    Generated schema.idStrategy id := by
  obtain ⟨row, r, fields, supplied, -⟩ := inserted
  cases supplied with
  | given has =>
      rw [missing] at has
      cases has
  | drawn _ strategy => exact strategy ▸ .text _
  | numbered _ strategy => exact strategy ▸ .number _

/-- Records that are stored one after another, with the ids that are to be written back. -/
def InsertedAll (schema : Schema) : List Record → List (Option Value) → Database → Database → Prop
  | [], [], before, after => before = after
  | own :: records, out :: ids, before, after =>
    ∃ id middle, Inserted schema own id before middle ∧
      out = (if (schema.idOf? own).isSome then none else some id) ∧
      InsertedAll schema records ids middle after
  | _, _, _, _ => False

/-- Entities that are stored one after another.  An entity that had no id is given the one it is
stored under; any other one stays as it is. -/
def StoredAll (schema : Schema) (type : EntityType E) :
    List E → List E → Database → Database → Prop
  | [], [], before, after => before = after
  | entity :: entities, created :: others, before, after =>
    ∃ own id middle, schema.toRecord type entity = .ok own ∧ Inserted schema own id before middle ∧
      (if (schema.idOf? own).isSome then created = entity
        else schema.assignId type entity id = .ok created) ∧
      StoredAll schema type entities others middle after
  | _, _, _, _ => False

/-! ### Inside of a savepoint -/

/-- What an action does inside of the open savepoints: they stay as they are, and if the action
answers something holds of the answer and the connection then. -/
def Contained {α : Type} (connection : σ → Connection) (action : Action σ α) (s : σ)
    (holds : α → Connection → Prop) : Prop :=
  (connection (action s).2).marks = (connection s).marks ∧
    ∀ a, (action s).1 = .ok a → holds a (connection (action s).2)

section Contained

variable {α β : Type} {connection : σ → Connection} {s : σ}

theorem Contained.ofExcept (r : Except Error α) :
    Contained connection (Action.ofExcept r) s fun a after => r = .ok a ∧ after = connection s :=
  ⟨rfl, fun _ answered => ⟨answered, rfl⟩⟩

theorem Contained.within {holds : α → Connection → Prop} {action : Action σ α} (words : String)
    (contained : Contained connection action s holds) :
    Contained connection (action.within words) s holds := by
  unfold Contained Action.within at *
  rcases outcome : action s with ⟨answer, after⟩
  rw [outcome] at contained
  cases answer with
  | error e => exact ⟨contained.1, fun _ answered => nomatch answered⟩
  | ok a => exact contained

theorem Contained.bind {action : Action σ α} {next : α → Action σ β}
    {holds : α → Connection → Prop} {result : β → Connection → Prop}
    (first : Contained connection action s holds)
    (rest : ∀ a t, action s = (.ok a, t) → holds a (connection t) →
      Contained connection (next a) t result) :
    Contained connection (action >>= next) s result := by
  unfold Contained at first ⊢
  rw [Action.run_bind]
  rcases outcome : action s with ⟨answer, after⟩
  rw [outcome] at first
  cases answer with
  | error e => exact ⟨first.1, fun _ answered => nomatch answered⟩
  | ok a =>
      obtain ⟨marks, answered⟩ := rest a after outcome (first.2 a rfl)
      exact ⟨marks.trans first.1, answered⟩

end Contained

namespace Records

variable {d : Records σ E} {connection : σ → Connection} (follows : d.client.Follows connection)
  (apart : d.env.Apart connection)

theorem prepareId_contained (apart : d.env.Apart connection) (own : Record) (s : σ) :
    Contained connection (d.schema.prepareId d.env own) s fun prepared after =>
      after = connection s ∧ ∀ row id, (match prepared.1 with
          | some given => id = given
          | none => id = .int row.number) →
        Supplies d.schema own row id prepared.2 ((d.schema.fields.map (·.name)).filter fun name =>
          name != d.schema.primaryKey || prepared.1.isSome) := by
  have kept : connection (d.schema.prepareId d.env own s).2 = connection s := by
    rcases d.schema.prepareId_state d.env own s with same | issued
    · rw [same]
    · rw [issued]
      exact apart.freshId s
  refine ⟨congrArg Connection.marks kept, fun prepared answered => ⟨kept, fun row id same => ?_⟩⟩
  have all : ((d.schema.fields.map (·.name)).filter fun name =>
      name != d.schema.primaryKey || true) = d.schema.fields.map (·.name) := by
    simp only [Bool.or_true, List.filter_true]
  obtain ⟨t, prepared⟩ := Schema.prepared_of_ok answered
  cases prepared with
  | given has =>
      subst same
      have supplied : Supplies d.schema own row id own (d.schema.fields.map (·.name)) := .given has
      rw [← all] at supplied
      exact supplied
  | numbered missing strategy =>
      subst same
      simp only [Option.isSome_none, Bool.or_false]
      exact .numbered missing strategy
  | drawn missing strategy =>
      subst same
      have supplied : Supplies d.schema own row (.text (d.env.freshId s).1)
          (own.insert d.schema.primaryKey (.text (d.env.freshId s).1))
          (d.schema.fields.map (·.name)) := .drawn missing strategy
      rw [← all] at supplied
      exact supplied

include follows apart

/-- An insertion that the engine runs is contained in the savepoints and adds its row. -/
theorem execute_contained {fields : List String} {r : Record} {statement : Statement}
    (compiled : d.compiler.compileInsert d.schema.name fields r = .ok statement) (ctx : Context)
    (s : σ) :
    Contained connection (d.execute ctx statement.sql statement.params) s fun _ after => ∃ row,
      Database.Gains d.schema.name (fields.map d.schema.columnFor)
        ((fields.map r.valueAt).map bind) row (connection s).database after.database ∧
      after.lastRow = row.number := by
  unfold execute call Contained
  obtain ⟨t, observed, ⟨e, stopped⟩ | ran⟩ := Action.call_cases apart ctx Error.sql
    (d.client.execute statement.sql (statement.params.map bind)) s
  · rw [stopped]
    exact ⟨congrArg Connection.marks observed, fun _ answered => nomatch answered⟩
  · rw [ran]
    rcases follows.execute statement.sql (statement.params.map bind) t with
      ⟨answer, after⟩ | ⟨⟨failure, failed⟩, marks⟩
    · rw [observed] at answer after
      rw [answer, after]
      cases ran : (Connection.execute statement.sql (statement.params.map bind)
          (connection s)).1 with
      | error failure =>
          rw [Connection.execute_failed ran]
          exact ⟨rfl, fun _ answered => nomatch answered⟩
      | ok changes =>
          obtain ⟨row, gains, marks, lastRow⟩ := execute_compiled rfl compiled ran
          exact ⟨marks, fun _ _ => ⟨row, gains, lastRow⟩⟩
    · rw [failed, marks, observed]
      exact ⟨rfl, fun _ answered => nomatch answered⟩

theorem insert_contained (ctx : Context) (own : Record) (s : σ) :
    Contained connection (d.insert ctx own) s fun id after =>
      Inserted d.schema own id (connection s).database after.database := by
  unfold insert
  refine (prepareId_contained apart own s).bind ?_
  rintro ⟨provided, r⟩ t - ⟨same, supplies⟩
  refine (Contained.ofExcept _).bind ?_
  rintro statement u - ⟨compiled, same'⟩
  refine (execute_contained follows apart compiled ctx u).bind ?_
  rintro changes v - ⟨row, gains, lastRow⟩
  rw [same', same, List.map_map] at gains
  cases provided with
  | some id =>
      refine ⟨rfl, fun answer answered => ?_⟩
      cases answered
      exact ⟨row, r, _, supplies row id rfl, gains⟩
  | none =>
      refine ⟨rfl, fun answer answered => ?_⟩
      cases answered
      refine ⟨row, r, _, supplies row _ ?_, gains⟩
      show Value.int (d.client.lastRow v) = _
      rw [follows.lastRow, lastRow]

theorem insertAll_contained (ctx : Context) (records : List Record) (position : Nat) (s : σ) :
    Contained connection (d.insertAll ctx position records) s fun ids after =>
      InsertedAll d.schema records ids (connection s).database after.database := by
  induction records generalizing position s with
  | nil =>
      refine ⟨rfl, fun ids answered => ?_⟩
      cases answered
      rfl
  | cons own rest inductionHypothesis =>
      rw [insertAll]
      refine ((insert_contained follows apart ctx own s).within _).bind ?_
      rintro id t - inserted
      refine (inductionHypothesis (position + 1) t).bind ?_
      rintro ids u - later
      refine ⟨rfl, fun outs answered => ?_⟩
      cases answered
      exact ⟨id, _, inserted, rfl, later⟩

/-! ### The savepoint of a batch -/

omit apart in
/-- Undoing a batch goes back to the database from before and closes its savepoint, which is the
latest one. -/
theorem abandon_restores {s : σ} {database : Database} {outer : List Mark}
    (opened : (connection s).marks = ⟨some batchMark, database⟩ :: outer) :
    (connection (d.abandon s).2).database = database ∧
      (connection (d.abandon s).2).marks = outer := by
  obtain ⟨answer, after⟩ := follows.rollbackTo batchMark s
  rw [Connection.rollbackTo_latest opened] at answer after
  obtain ⟨-, closed⟩ := follows.releaseRolledBack batchMark s answer
  unfold abandon
  generalize d.client.rollbackTo batchMark s = outcome at answer after closed ⊢
  obtain ⟨back, t⟩ := outcome
  obtain rfl : back = .ok () := answer
  dsimp only at after closed ⊢
  have still : (connection t).marks = ⟨some batchMark, database⟩ :: outer := by
    rw [after]
    exact opened
  rw [Connection.release_latest still, after] at closed
  rw [closed]
  exact ⟨rfl, rfl⟩

theorem openSavepoint_cases (ctx : Context) (s : σ) :
    (∃ e, (d.call ctx (d.client.savepoint batchMark) s).1 = .error e) ∧
        connection (d.call ctx (d.client.savepoint batchMark) s).2 = connection s ∨
      (d.call ctx (d.client.savepoint batchMark) s).1 = .ok () ∧
        connection (d.call ctx (d.client.savepoint batchMark) s).2
          = { connection s with
              marks := ⟨some batchMark, (connection s).database⟩ :: (connection s).marks } := by
  unfold call
  obtain ⟨t, observed, ⟨e, stopped⟩ | ran⟩ :=
    Action.call_cases apart ctx Error.sql (d.client.savepoint batchMark) s
  · rw [stopped]
    exact .inl ⟨⟨e, rfl⟩, observed⟩
  · rw [ran]
    rcases follows.savepoint batchMark t with ⟨answer, after⟩ | ⟨⟨failure, failed⟩, same⟩
    · rw [answer, after, observed]
      exact .inr ⟨rfl, rfl⟩
    · rw [failed, same, observed]
      exact .inl ⟨⟨_, rfl⟩, rfl⟩

/-- Records are inserted all together, or the database is as it was; the savepoint is closed. -/
theorem insertTogether_cases (ctx : Context) (records : List Record) (s : σ) :
    (connection (d.insertTogether ctx records s).2).marks = (connection s).marks ∧
      ((∃ ids, (d.insertTogether ctx records s).1 = .ok ids ∧
          InsertedAll d.schema records ids (connection s).database
            (connection (d.insertTogether ctx records s).2).database) ∨
        (∃ e, (d.insertTogether ctx records s).1 = .error e) ∧
          (connection (d.insertTogether ctx records s).2).database = (connection s).database) := by
  unfold insertTogether
  rw [Action.run_bind]
  have opening := openSavepoint_cases follows apart ctx s
  generalize d.call ctx (d.client.savepoint batchMark) s = outcome at opening ⊢
  obtain ⟨answer, t⟩ := outcome
  rcases opening with ⟨⟨e, rfl⟩, same⟩ | ⟨rfl, opened⟩
  · rw [same]
    exact ⟨rfl, .inr ⟨⟨e, rfl⟩, rfl⟩⟩
  · dsimp only at opened ⊢
    obtain ⟨marks, answered⟩ := insertAll_contained follows apart ctx records 0 t
    rw [opened] at marks answered
    generalize d.insertAll ctx 0 records t = run at marks answered ⊢
    obtain ⟨inserted, u⟩ := run
    -- Whatever fails from here on, the savepoint with the database from before is the latest one.
    have undone {v : σ} (open' : (connection v).marks = (connection u).marks) :=
      abandon_restores follows (open'.trans marks)
    cases inserted with
    | error e =>
        obtain ⟨database, outer⟩ := undone (v := u) rfl
        exact ⟨outer, .inr ⟨⟨e, rfl⟩, database⟩⟩
    | ok ids =>
        have stored := answered ids rfl
        dsimp only
        rcases follows.release batchMark u with ⟨given, closed⟩ | ⟨⟨failure, failed⟩, open'⟩
        · rw [Connection.release_latest marks] at given closed
          generalize d.client.release batchMark u = last at given closed ⊢
          obtain ⟨released, v⟩ := last
          obtain rfl : released = .ok () := given
          dsimp only at closed ⊢
          rw [closed]
          exact ⟨rfl, .inl ⟨ids, rfl, stored⟩⟩
        · generalize d.client.release batchMark u = last at failed open' ⊢
          obtain ⟨given, v⟩ := last
          obtain rfl : given = .error failure := failed
          obtain ⟨database, outer⟩ := undone open'
          exact ⟨outer, .inr ⟨⟨_, rfl⟩, database⟩⟩

/-! ### Whole batches -/

omit follows apart in
theorem assignIds_stored {entities : List E}
    (takes : ∀ entity ∈ entities, ∀ e, ¬ RefusesId d.schema d.type entity e) {records : List Record}
    {ids : List (Option Value)} {before after : Database}
    (converted : entities.mapM (d.schema.toRecord d.type) = .ok records)
    (inserted : InsertedAll d.schema records ids before after) :
    ∃ created, d.assignIds ids entities = (.ok (), created) ∧
      StoredAll d.schema d.type entities created before after := by
  induction entities generalizing records ids before with
  | nil =>
      obtain rfl := Except.ok.inj converted
      cases ids with
      | nil => exact ⟨[], rfl, inserted⟩
      | cons out ids => exact inserted.elim
  | cons entity rest inductionHypothesis =>
      obtain ⟨takesOwn, takesRest⟩ := List.forall_mem_cons.1 takes
      rw [List.mapM_cons] at converted
      obtain ⟨own, first, converted⟩ := exists_of_bind converted
      obtain ⟨others, later, same⟩ := exists_of_bind converted
      obtain rfl := Except.ok.inj same
      cases ids with
      | nil => exact inserted.elim
      | cons out ids =>
          obtain ⟨id, middle, stored, rfl, inserted⟩ := inserted
          obtain ⟨created, assigned, storedRest⟩ := inductionHypothesis takesRest later inserted
          cases has : d.schema.idOf? own with
          | some v =>
              refine ⟨entity :: created, ?_, own, id, middle, first, stored, ?_, storedRest⟩
              · rw [Option.isSome_some, if_pos rfl, assignIds, assigned]
              · rw [has, Option.isSome_some, if_pos rfl]
          | none =>
              rw [Option.isSome_none, if_neg Bool.false_ne_true, assignIds, assigned]
              cases given : d.schema.assignId d.type entity id with
              | error e =>
                  exact absurd ⟨own, id, first, has, stored.generated has, given⟩ (takesOwn e)
              | ok changed =>
                  refine ⟨changed :: created, rfl, own, id, middle, first, stored, ?_, storedRest⟩
                  rw [has, Option.isSome_none, if_neg Bool.false_ne_true]
                  exact given

/-- What a batch answers and leaves on a connection.  All entities are stored and counted and have
their ids, or the database and the entities are as they were; either way the savepoints that are
open are those that were. -/
def AllOrNothing (d : Records σ E) (connection : σ → Connection) (entities : List E) (s : σ)
    (batch : BatchResult E × σ) : Prop :=
  (connection batch.2).marks = (connection s).marks ∧
    ((∃ created, batch.1 = (.ok ⟨entities.length, []⟩, created) ∧
        StoredAll d.schema d.type entities created (connection s).database
          (connection batch.2).database) ∨
      (∃ e, batch.1 = (.error e, entities)) ∧
        (connection batch.2).database = (connection s).database)

theorem createBatch_cases (ctx : Context) {entities : List E}
    (takes : ∀ entity ∈ entities, ∀ e, ¬ RefusesId d.schema d.type entity e) (s : σ) :
    AllOrNothing d connection entities s (d.createBatch ctx entities s) := by
  unfold createBatch AllOrNothing
  cases converted : entities.mapM (d.schema.toRecord d.type) with
  | error e => exact ⟨rfl, .inr ⟨⟨e, rfl⟩, rfl⟩⟩
  | ok records =>
      have together := insertTogether_cases follows apart ctx records s
      dsimp only
      generalize d.insertTogether ctx records s = outcome at together ⊢
      obtain ⟨answer, t⟩ := outcome
      obtain ⟨marks, ⟨ids, rfl, inserted⟩ | ⟨⟨e, rfl⟩, database⟩⟩ := together
      · obtain ⟨created, assigned, stored⟩ := assignIds_stored takes converted inserted
        dsimp only
        rw [assigned, (getElem?_of_mapM converted).1]
        exact ⟨marks, .inl ⟨created, rfl, stored⟩⟩
      · exact ⟨marks, .inr ⟨⟨e, rfl⟩, database⟩⟩

omit follows apart in
/-- A batch that is refused, or that runs under some context with nothing but itself on the
connection, is one of the records. -/
theorem operations_createBatch
    {enter : {α : Type} → Context → (Context → Action σ α) → Action σ α} {ctx : Context}
    {entities : List E} {s : σ}
    (batch : ∀ own t, connection t = connection s →
      AllOrNothing d connection entities t (d.createBatch own entities t))
    (entered : ∀ request : Context → Action σ (BatchResult E),
      (∃ e, (enter ctx request s).1 = .error e) ∧
          connection (enter ctx request s).2 = connection s ∨
        ∃ own t, connection t = connection s ∧ (enter ctx request s).1 = (request own t).1 ∧
          connection (enter ctx request s).2 = connection (request own t).2) :
    AllOrNothing d connection entities s ((d.operations enter).createBatch ctx entities s) := by
  dsimp only [operations]
  have cases' := entered fun own => Action.ofState (d.createBatch own entities)
  generalize enter ctx (fun own => Action.ofState (d.createBatch own entities)) s = outcome
    at cases' ⊢
  obtain ⟨answer, u⟩ := outcome
  rcases cases' with ⟨⟨e, rfl⟩, same⟩ | ⟨own, t, same, answered, kept⟩
  · exact ⟨congrArg Connection.marks same, .inr ⟨⟨e, rfl⟩, congrArg Connection.database same⟩⟩
  · obtain rfl : answer = .ok (d.createBatch own entities t).1 := answered
    have done := batch own t same
    unfold AllOrNothing at done ⊢
    rw [show connection (d.createBatch own entities t).2 = connection u from kept.symm, same]
      at done
    exact done

theorem onConnection_entered {α : Type} (ctx : Context) (request : Context → Action σ α) (s : σ) :
    (∃ e, (d.onConnection ctx request s).1 = .error e) ∧
        connection (d.onConnection ctx request s).2 = connection s ∨
      ∃ own t, connection t = connection s ∧
        (d.onConnection ctx request s).1 = (request own t).1 ∧
        connection (d.onConnection ctx request s).2 = connection (request own t).2 := by
  have observed : connection (d.effective ctx s).2 = connection s := apart.observe s
  have taken := (acquire_moves apart follows.lock (d.effective ctx s).1).view_eq (d.effective ctx s).2
  unfold onConnection
  rw [Action.run_bind, Action.run_lift]
  dsimp only
  rw [Action.run_bind]
  generalize d.acquire (d.effective ctx s).1 (d.effective ctx s).2 = outcome at taken ⊢
  obtain ⟨answer, t⟩ := outcome
  cases answer with
  | error e => exact .inl ⟨⟨e, rfl⟩, taken.trans observed⟩
  | ok held => exact .inr ⟨_, t, taken.trans observed, rfl, follows.unlock _⟩

omit follows in
theorem handle_entered {α : Type} (machine : TxState) (ctx : Context)
    (request : Context → Action σ α) (s : σ) :
    let entered : Action σ α := do
      Action.ofExcept machine.ensureActive
      request (← d.effective ctx)
    (∃ e, (entered s).1 = .error e) ∧ connection (entered s).2 = connection s ∨
      ∃ own t, connection t = connection s ∧ (entered s).1 = (request own t).1 ∧
        connection (entered s).2 = connection (request own t).2 := by
  dsimp only
  rw [Action.run_bind]
  cases active : machine.ensureActive with
  | error e => exact .inl ⟨⟨e, rfl⟩, rfl⟩
  | ok live => exact .inr ⟨_, (d.effective ctx s).2, apart.observe s, rfl, rfl⟩

/-- A batch on a relational repository, or on an open transaction of one, stores all of its entities
or none, whatever fails in it and whenever its context ends. -/
theorem createBatch_allOrNothing {requests : Operations σ E}
    (offered : (Backing.relational d).Offers requests) (ctx : Context) {entities : List E}
    (takes : ∀ entity ∈ entities, ∀ e, ¬ RefusesId d.schema d.type entity e) (s : σ) :
    AllOrNothing d connection entities s (requests.createBatch ctx entities s) := by
  have batch (own : Context) (t : σ) (_ : connection t = connection s) :=
    createBatch_cases follows apart own takes t
  cases offered with
  | repository =>
      show AllOrNothing d connection entities s
        ((d.operations d.onConnection).createBatch ctx entities s)
      exact operations_createBatch batch fun request =>
        onConnection_entered follows apart ctx request s
  | transaction _ machine =>
      exact operations_createBatch batch fun request =>
        handle_entered apart machine ctx request s

end Records

/-! ### Errands -/

def errandSchema : Schema where
  name := "errands"
  primaryKey := "id"
  idStrategy := .autoIncrement
  fields :=
    [{ name := "id", column := "id", kind := .int },
      { name := "title", column := "title", kind := .text, unique := true }]

def errands : Records (World Shared) Json where
  client := .memory .whole
  env := World.environment .whole
  schema := errandSchema
  config := {}
  type := .anyDocument

/-- A connection to the table of errands, with a transaction open. -/
def openErrands : World Shared :=
  match Shared.ofSchema errandSchema with
  | .ok store => (errands.client.begin ⟨store, {}, 0⟩).2
  | .error _ => ⟨{ connection := {} }, {}, 0⟩

def titled (titles : List String) : List Json :=
  titles.map fun title => .object [("title", .text title)]

/-- In an open transaction two errands are stored, and another two that have one title are not. -/
theorem errandBatches_allOrNothing :
    errands.client.Follows (fun w => w.store.connection) ∧
      errands.env.Apart (fun w => w.store.connection) ∧
      (Backing.relational errands).Offers (errands.handle .active) ∧
      (∀ errand ∈ titled ["a", "b"], ∀ e, ¬ RefusesId errandSchema .anyDocument errand e) ∧
      openErrands.store.connection.marks.length = 1 ∧
      ((errands.handle .active).createBatch .background (titled ["a", "b"]) openErrands).1.1
        = .ok ⟨2, []⟩ ∧
      errands.AllOrNothing (fun w => w.store.connection) (titled ["a", "b"]) openErrands
        ((errands.handle .active).createBatch .background (titled ["a", "b"]) openErrands) ∧
      ((errands.handle .active).createBatch .background (titled ["c", "c"])
        openErrands).1.1.toOption.isNone ∧
      errands.AllOrNothing (fun w => w.store.connection) (titled ["c", "c"]) openErrands
        ((errands.handle .active).createBatch .background (titled ["c", "c"]) openErrands) := by
  have lawful : Part.Lawful (.whole : Part (World Shared) (World Shared)) := fun _ _ => rfl
  have follows : errands.client.Follows fun w => w.store.connection :=
    Client.memory_follows lawful
  have apart : errands.env.Apart fun w => w.store.connection :=
    (World.environment_apart lawful).comp Shared.connection
  have offered := Backing.Offers.transaction errands .active
  exact ⟨follows, apart, offered, fun _ _ => anyDocument_takes, by decide +kernel,
    by decide +kernel,
    Records.createBatch_allOrNothing follows apart offered .background
      (fun _ _ => anyDocument_takes) openErrands,
    by decide +kernel,
    Records.createBatch_allOrNothing follows apart offered .background
      (fun _ _ => anyDocument_takes) openErrands⟩

end Recordkeeper.Relational
