import Recordkeeper.Config
import Recordkeeper.Entity.Basic
import Recordkeeper.Relational.Binding
import Recordkeeper.Relational.Client
import Recordkeeper.Relational.Compiler

/-!
Contract: a repository on a relational engine.

Owns:
- the requests, as compiled statements with bound values;
- batches, which insert all of their entities or none;
- transactions, which keep the connection until they are settled.

Does not own: the text of statements, and running them.
-/

set_option autoImplicit false

namespace Recordkeeper.Relational

variable {σ E : Type}

structure Records (σ E : Type) where
  client : Client σ
  env : Environment σ
  schema : Schema
  config : Config
  type : EntityType E

namespace Records

def compiler (d : Records σ E) : Compiler := { dialect := .sqlite, schema := some d.schema }

def effective (d : Records σ E) (ctx : Context) : StateM σ Context :=
  Action.effective d.env ctx d.config.defaultTimeout

def call {α : Type} (d : Records σ E) (ctx : Context) (native : σ → Except SqlFailure α × σ) :
    Action σ α :=
  Action.call d.env ctx Error.sql native

/-! ### Statements -/

/-- Runs a statement; answers how many rows it changed. -/
def execute (d : Records σ E) (ctx : Context) (sql : String) (params : List Value) :
    Action σ Nat :=
  d.call ctx (d.client.execute sql (params.map bind))

/-- The records of a statement, by the schema or by the names and cells alone. -/
def fetch (d : Records σ E) (ctx : Context) (sql : String) (params : List Value)
    (schema : Option Schema) : Action σ (List Record) := do
  let answer ← d.call ctx (d.client.query sql (params.map bind))
  return decodeRows schema answer

def fetchStatement (d : Records σ E) (ctx : Context) (s : Statement) : Action σ (List Record) :=
  d.fetch ctx s.sql s.params (some d.schema)

def numberOf (answer : Engine.Answer) : Except SqlFailure Int64 :=
  match answer.rows with
  | [] => .error .noRows
  | (.integer n :: _) :: _ => .ok n
  | _ => .error .columnType

def number (d : Records σ E) (ctx : Context) (s : Statement) : Action σ Int64 :=
  d.call ctx fun state =>
    let (r, state) := d.client.query s.sql (s.params.map bind) state
    (r.bind numberOf, state)

/-! ### Requests on a connection -/

def byId (d : Records σ E) (id : Value) : Except Error Query := do
  d.schema.checkId id
  return { conditions := [.basic ⟨d.schema.primaryKey, .equal, id⟩] }

def notFound (d : Records σ E) (id : Value) : Refusal := .noRecordWithId d.schema.name id.display

def requireSome (d : Records σ E) (id : Value) (touched : Nat) : Action σ Unit :=
  if touched = 0 then Action.refuse (d.notFound id) else return ()

/-- Inserts a record; answers the id it is stored under. -/
def insert (d : Records σ E) (ctx : Context) (r : Record) : Action σ Value := do
  let (provided, r) ← d.schema.prepareId d.env r
  let fields := (d.schema.fields.map (·.name)).filter fun name =>
    name != d.schema.primaryKey || provided.isSome
  let s ← Action.ofExcept (d.compiler.compileInsert d.schema.name fields r)
  let _ ← d.execute ctx s.sql s.params
  match provided with
  | some id => return id
  | none => Action.ofState fun state => (.int (d.client.lastRow state), state)

/-- Stores a new record.  A generated id is written back into the entity. -/
def create (d : Records σ E) (ctx : Context) (entity : E) : Action σ E := do
  let r ← Action.ofExcept (d.schema.toRecord d.type entity)
  let id ← d.insert ctx r
  if (d.schema.idOf? r).isSome then return entity
  else Action.ofExcept (d.schema.assignId d.type entity id)

/-! #### Batches -/

def batchMark : String := "create_batch"

/-- Inserts records one by one up to the first failure.  Answers the ids that are to be written
back. -/
def insertAll (d : Records σ E) (ctx : Context) : Nat → List Record → Action σ (List (Option Value))
  | _, [] => return []
  | position, r :: rest => do
    let id ← Action.within ("batch item " ++ toString position) (d.insert ctx r)
    let ids ← insertAll d ctx (position + 1) rest
    return (if (d.schema.idOf? r).isSome then none else some id) :: ids

/-- Undoes a batch.  What the engine reports is dropped: the batch has failed already. -/
def abandon (d : Records σ E) : StateM σ Unit := fun s =>
  match d.client.rollbackTo batchMark s with
  | (.error _, s) => ((), s)
  | (.ok (), s) => ((), (d.client.release batchMark s).2)

/-- Inserts records under a savepoint, all of them or none.  Once the records are inserted the
savepoint is given up whatever the context says. -/
def insertTogether (d : Records σ E) (ctx : Context) (records : List Record) :
    Action σ (List (Option Value)) := do
  d.call ctx (d.client.savepoint batchMark)
  fun s =>
    match d.insertAll ctx 0 records s with
    | (.error e, s) => (.error e, (d.abandon s).2)
    | (.ok ids, s) =>
      match d.client.release batchMark s with
      | (.ok (), s) => (.ok ids, s)
      | (.error e, s) => (.error (.within "batch release" (.sql e)), (d.abandon s).2)

/-- Writes generated ids into entities up to the first failure. -/
def assignIds (d : Records σ E) : List (Option Value) → List E → Except Error Unit × List E
  | some id :: ids, entity :: rest =>
    match d.schema.assignId d.type entity id with
    | .error e => (.error e, entity :: rest)
    | .ok entity =>
      let (r, rest) := d.assignIds ids rest
      (r, entity :: rest)
  | none :: ids, entity :: rest =>
    let (r, rest) := d.assignIds ids rest
    (r, entity :: rest)
  | _, rest => (.ok (), rest)

/-- Inserts all entities or none; a savepoint makes it work inside of a transaction as well. -/
def createBatch (d : Records σ E) (ctx : Context) (entities : List E) :
    StateM σ (BatchResult E) := fun s =>
  match entities.mapM (d.schema.toRecord d.type) with
  | .error e => ((.error e, entities), s)
  | .ok records =>
    match d.insertTogether ctx records s with
    | (.error e, s) => ((.error e, entities), s)
    | (.ok ids, s) =>
      let (r, entities) := d.assignIds ids entities
      ((r.map fun _ => ⟨records.length, []⟩, entities), s)

/-! #### Reading -/

def query (d : Records σ E) (ctx : Context) (q : Query) : Action σ (List Record) := do
  let s ← Action.ofExcept (d.compiler.compileSelect d.schema.name q)
  d.fetchStatement ctx s

def queryOne (d : Records σ E) (ctx : Context) (q : Query) : Action σ Record := do
  let records ← d.query ctx q.firstOnly
  Action.ofExcept (firstRecord d.schema.name records)

def findById (d : Records σ E) (ctx : Context) (id : Value) : Action σ E := do
  let q ← Action.ofExcept (d.byId id)
  let r ← Action.within (d.schema.name ++ "/" ++ id.display) (d.queryOne ctx q)
  Action.ofExcept (d.schema.ofRecord d.type r)

def findAll (d : Records σ E) (ctx : Context) (q : Query) : Action σ (List E) := do
  let records ← d.query ctx q
  Action.ofExcept (records.mapM (d.schema.ofRecord d.type))

def count (d : Records σ E) (ctx : Context) (q : Query) : Action σ Nat := do
  let s ← Action.ofExcept (d.compiler.compileCount d.schema.name q)
  let n ← d.number ctx s
  return n.toInt.toNat

def existsAny (d : Records σ E) (ctx : Context) (q : Query) : Action σ Bool := do
  let s ← Action.ofExcept (d.compiler.compileExists d.schema.name q)
  let records ← d.fetchStatement ctx s
  return !records.isEmpty

/-! #### Changing -/

def applyUpdate (d : Records σ E) (ctx : Context) (id : Value) (fields : List (String × Value)) :
    Action σ Unit := do
  Action.ofExcept (d.schema.checkId id)
  let s ← Action.ofExcept
    (d.compiler.compileUpdate d.schema.name d.schema.primaryKey id fields)
  let touched ← d.execute ctx s.sql s.params
  d.requireSome id touched

/-- Replaces a record: fields the entity does not have become null. -/
def update (d : Records σ E) (ctx : Context) (entity : E) : Action σ Unit := do
  let (id, r) ← Action.ofExcept (d.schema.identified d.type entity)
  let names := (d.schema.fields.map (·.name)).filter (· != d.schema.primaryKey)
  d.applyUpdate ctx id (names.map fun name => (name, r.valueAt name))

def updatePartial (d : Records σ E) (ctx : Context) (id : Value) (fields : Record) :
    Action σ Unit := do
  Action.ofExcept (d.schema.checkPartial fields)
  d.applyUpdate ctx id fields.entries

def deleteByCondition (d : Records σ E) (ctx : Context) (q : Query) : Action σ Nat := do
  let s ← Action.ofExcept (d.compiler.compileDelete d.schema.name q)
  d.execute ctx s.sql s.params

def delete (d : Records σ E) (ctx : Context) (id : Value) : Action σ Unit := do
  let q ← Action.ofExcept (d.byId id)
  let touched ← d.deleteByCondition ctx q
  d.requireSome id touched

/-- The requests.  `enter` gives the context a call runs under and whatever has to stand around
it, and may refuse the call. -/
def operations (d : Records σ E)
    (enter : {α : Type} → Context → (Context → Action σ α) → Action σ α) : Operations σ E where
  create ctx entity := enter ctx fun ctx => d.create ctx entity
  createBatch ctx entities := fun s =>
    match enter ctx (fun ctx => Action.ofState (d.createBatch ctx entities)) s with
    | (.ok r, s) => (r, s)
    | (.error e, s) => ((.error e, entities), s)
  findById ctx id := enter ctx fun ctx => d.findById ctx id
  findAll ctx q := enter ctx fun ctx => d.findAll ctx q
  update ctx entity := enter ctx fun ctx => d.update ctx entity
  updatePartial ctx id fields := enter ctx fun ctx => d.updatePartial ctx id fields
  delete ctx id := enter ctx fun ctx => d.delete ctx id
  deleteByCondition ctx q := enter ctx fun ctx => d.deleteByCondition ctx q
  query ctx q := enter ctx fun ctx => d.query ctx q
  queryOne ctx q := enter ctx fun ctx => d.queryOne ctx q
  count ctx q := enter ctx fun ctx => d.count ctx q
  existsAny ctx q := enter ctx fun ctx => d.existsAny ctx q
  relational := some {
    execute := fun ctx sql params => enter ctx fun ctx => d.execute ctx sql params
    query := fun ctx sql params => enter ctx fun ctx => d.fetch ctx sql params none }

/-! ### The connection -/

/-- Takes the connection, waiting until the deadline of the context at most. -/
def acquire (d : Records σ E) (ctx : Context) : Action σ Unit := do
  Action.check d.env ctx
  let surroundings ← Action.ofState d.env.observe
  let taken ← Action.ofState (d.client.lock (ctx.remaining? surroundings))
  if !taken then Action.refuse .connectionBusy

/-- Runs a request on the connection, which is free again afterwards. -/
def onConnection {α : Type} (d : Records σ E) (ctx : Context) (request : Context → Action σ α) :
    Action σ α := do
  let ctx ← d.effective ctx
  d.acquire ctx
  fun s =>
    let (r, s) := request ctx s
    (r, d.client.unlock s)

/-! ### Transactions -/

/-- Commits or rolls back.  A transaction that cannot be committed is rolled back. -/
def scope (d : Records σ E) : TxScope σ where
  commit s :=
    match d.client.commit s with
    | (.ok (), s) => (.ok (), s)
    | (.error e, s) => (.error (.sql e), (d.client.rollback s).2)
  rollback s :=
    let (r, s) := d.client.rollback s
    (r.mapError .sql, s)

/-- The requests of an open transaction; they are refused once it is settled. -/
def handle (d : Records σ E) (machine : TxState) : Operations σ E :=
  d.operations fun ctx request => do
    Action.ofExcept machine.ensureActive
    request (← d.effective ctx)

/-- Runs a body in a transaction, which keeps the connection to itself. -/
def transaction (d : Records σ E) (ctx : Context) (body : TxBody σ E) (s : σ) :
    Ending Unit × σ :=
  let entry : Action σ Unit := do
    d.acquire (← d.effective ctx)
  match entry s with
  | (.error e, s) => (.error e, s)
  | (.ok (), s) =>
    let (ending, s) :=
      match d.client.begin s with
      | (.error e, s) => (.error (.sql e), s)
      | (.ok (), s) =>
        let (ending, _, s) := runInScope d.scope
          (fun (machine, s) =>
            let (ending, s) := body (d.handle machine) s
            (ending, (machine, s)))
          (.idle, s)
        (ending, s)
    (ending, d.client.unlock s)

/-! ### The repository -/

def accept (schema : Schema) (config : Config) : Except Error Unit := do
  config.validate
  schema.validate
  if config.dialect ≠ .sqlite then refuse (.noDriver config.dialect)

def repository (d : Records σ E) : Repository σ E where
  toOperations := d.operations d.onConnection
  transaction := d.transaction

end Records

/-- The repository of a client, if it accepts the schema and the settings. -/
def open? (client : Client σ) (env : Environment σ) (schema : Schema) (config : Config)
    (type : EntityType E) : Except Error (Records σ E) := do
  Records.accept schema config
  return { client, env, schema, config, type }

end Recordkeeper.Relational
