import Recordkeeper.Document.Client
import Recordkeeper.Entity.Basic
import Recordkeeper.Sql.Source

/-!
Contract: a repository on a document store.

Owns:
- the document of a record, with the primary key as the id and columns for all other fields;
- the requests, inside and outside a session;
- transactions, which run in a session of their own and end it when they answer.

Does not own: filters, commands and pipelines.
-/

set_option autoImplicit false

namespace Recordkeeper.Document

variable {σ E : Type}

structure Records (σ E : Type) where
  client : Client σ
  env : Environment σ
  schema : Schema
  config : Config
  type : EntityType E

namespace Records

def compiler (d : Records σ E) : Compiler :=
  { policy := d.config.subqueryPolicy, schema := some d.schema,
    collectionOf := Sql.Source.sourceTable? }

def effective (d : Records σ E) (ctx : Context) : StateM σ Context :=
  Action.effective d.env ctx d.config.defaultTimeout

def call {α : Type} (d : Records σ E) (ctx : Context) (native : σ → Outcome α × σ) :
    Action σ α :=
  Action.call d.env ctx Error.document native

/-- The document of a record: the id first, then the other fields under their columns. -/
def toDoc (d : Records σ E) (r : Record) : Json :=
  let id : Fields :=
    match r.get? d.schema.primaryKey with
    | some v => [(idField, v.toJson)]
    | none => []
  .object ((r.entries.filter fun f => f.1 != d.schema.primaryKey).foldl
    (fun (fields : Fields) f => fields.insert (d.schema.columnFor f.1) f.2.toJson) id)

def nameOf (d : Records σ E) (key : String) : String :=
  if key = idField then d.schema.primaryKey else d.schema.fieldForColumn key

def ofDoc (d : Records σ E) (doc : Json) : Record := Record.rename (Record.ofJson doc) d.nameOf

def idFilter (d : Records σ E) (id : Value) : Except Error Json := do
  d.schema.checkId id
  return .single idField id.toJson

def notFound (d : Records σ E) (id : Value) : Refusal := .noRecordWithId d.schema.name id.display

def requireSome (d : Records σ E) (id : Value) (touched : Nat) : Action σ Unit :=
  if touched = 0 then Action.refuse (d.notFound id) else return ()

/-! ### Requests in a session -/

/-- Stores a new record.  A generated id is written back into the entity. -/
def create (d : Records σ E) (session : Option SessionId) (ctx : Context) (entity : E) :
    Action σ E := do
  let r ← Action.ofExcept (d.schema.toRecord d.type entity)
  let hadId := (d.schema.idOf? r).isSome
  match ← d.schema.prepareId d.env r with
  | (none, _) => Action.refuse (.recordsNeedId .document)
  | (some id, r) => do
    d.call ctx (d.client.insertOne session d.schema.name (d.toDoc r))
    if hadId then return entity
    else Action.ofExcept (d.schema.assignId d.type entity id)

/-- Inserts what it can.  Once the context is done every remaining entity fails. -/
def createBatch (d : Records σ E) (session : Option SessionId) (ctx : Context)
    (entities : List E) : StateM σ (BatchResult E) := do
  let (outcome, entities) ← insertEach (d.create session ctx) 0 entities
  return (.ok outcome, entities)

def findById (d : Records σ E) (session : Option SessionId) (ctx : Context) (id : Value) :
    Action σ E := do
  let filter ← Action.ofExcept (d.idFilter id)
  match ← d.call ctx (d.client.find session d.schema.name filter { limit := some 1 }) with
  | doc :: _ => Action.ofExcept (d.schema.ofRecord d.type (d.ofDoc doc))
  | [] => Action.refuse (d.notFound id)

def query (d : Records σ E) (session : Option SessionId) (ctx : Context) (q : Query) :
    Action σ (List Record) := do
  let (command, _) ← Action.ofExcept (d.compiler.compileQuery q)
  match command with
  | .find filter options => do
    let docs ← d.call ctx (d.client.find session d.schema.name filter options)
    return docs.map d.ofDoc
  | .aggregate pipeline => do
    let docs ← d.call ctx (d.client.aggregate session d.schema.name pipeline)
    return docs.map d.ofDoc
  | .count filter => do
    let n ← d.call ctx (d.client.count session d.schema.name filter)
    return [NameMap.empty.insert Query.countField (.int (Int64.ofNat n))]

def findAll (d : Records σ E) (session : Option SessionId) (ctx : Context) (q : Query) :
    Action σ (List E) := do
  let records ← d.query session ctx q
  Action.ofExcept (records.mapM (d.schema.ofRecord d.type))

def update (d : Records σ E) (session : Option SessionId) (ctx : Context) (entity : E) :
    Action σ Unit := do
  let (id, r) ← Action.ofExcept (d.schema.identified d.type entity)
  let filter ← Action.ofExcept (d.idFilter id)
  let touched ← d.call ctx (d.client.replaceOne session d.schema.name filter (d.toDoc r))
  d.requireSome id touched

def updatePartial (d : Records σ E) (session : Option SessionId) (ctx : Context) (id : Value)
    (fields : Record) : Action σ Unit := do
  Action.ofExcept (d.schema.checkPartial fields)
  let filter ← Action.ofExcept (d.idFilter id)
  let touched ← d.call ctx (d.client.updateOne session d.schema.name filter (d.toDoc fields))
  d.requireSome id touched

def delete (d : Records σ E) (session : Option SessionId) (ctx : Context) (id : Value) :
    Action σ Unit := do
  let filter ← Action.ofExcept (d.idFilter id)
  let touched ← d.call ctx (d.client.deleteMany session d.schema.name filter)
  d.requireSome id touched

/-- Deletes what the conditions select.  Subqueries are refused: stored documents carry no
joined arrays, and a degraded subquery selects everything. -/
def deleteByCondition (d : Records σ E) (session : Option SessionId) (ctx : Context)
    (q : Query) : Action σ Nat := do
  Action.ofExcept q.checkDelete
  Action.ofExcept q.validate
  if Condition.anySubquery q.conditions then Action.refuse .deleteBySubquery
  let (filter, _) ← Action.ofExcept (d.compiler.compileFilter q.conditions)
  d.call ctx (d.client.deleteMany session d.schema.name filter)

def queryOne (d : Records σ E) (session : Option SessionId) (ctx : Context) (q : Query) :
    Action σ Record := do
  let records ← d.query session ctx q.firstOnly
  Action.ofExcept (firstRecord d.schema.name records)

/-- The number a counting pipeline answers; it answers no document for nothing. -/
def countOf (docs : List Json) : Nat :=
  ((docs.head?.bind fun doc => doc.field? Query.countField).bind fun v =>
    v.number?.bind Number.toNat?).getD 0

def count (d : Records σ E) (session : Option SessionId) (ctx : Context) (q : Query) :
    Action σ Nat := do
  let (command, _) ← Action.ofExcept (d.compiler.compileCount q)
  match command with
  | .aggregate pipeline => do
    let docs ← d.call ctx (d.client.aggregate session d.schema.name pipeline)
    return countOf docs
  | .count filter | .find filter _ => d.call ctx (d.client.count session d.schema.name filter)

def existsAny (d : Records σ E) (session : Option SessionId) (ctx : Context) (q : Query) :
    Action σ Bool := do
  let records ← d.query session ctx q.firstOnly
  return !records.isEmpty

def aggregate (d : Records σ E) (session : Option SessionId) (ctx : Context)
    (pipeline : List Json) : Action σ (List Record) := do
  let docs ← d.call ctx (d.client.aggregate session d.schema.name pipeline)
  return docs.map d.ofDoc

/-- The requests in a session.  `enter` gives the context a call runs under, and may refuse the
call. -/
def operations (d : Records σ E) (session : Option SessionId)
    (enter : Context → Action σ Context) : Operations σ E where
  create ctx entity := do d.create session (← enter ctx) entity
  createBatch ctx entities := do
    match ← enter ctx with
    | .ok ctx => d.createBatch session ctx entities
    | .error e => return (.error e, entities)
  findById ctx id := do d.findById session (← enter ctx) id
  findAll ctx q := do d.findAll session (← enter ctx) q
  update ctx entity := do d.update session (← enter ctx) entity
  updatePartial ctx id fields := do d.updatePartial session (← enter ctx) id fields
  delete ctx id := do d.delete session (← enter ctx) id
  deleteByCondition ctx q := do d.deleteByCondition session (← enter ctx) q
  query ctx q := do d.query session (← enter ctx) q
  queryOne ctx q := do d.queryOne session (← enter ctx) q
  count ctx q := do d.count session (← enter ctx) q
  existsAny ctx q := do d.existsAny session (← enter ctx) q
  document := some { aggregate := fun ctx pipeline => do d.aggregate session (← enter ctx) pipeline }

/-! ### Transactions -/

def scope (d : Records σ E) (session : SessionId) : TxScope σ where
  commit s :=
    let (r, s) := d.client.commitTransaction session s
    (r.mapError .document, s)
  rollback s :=
    let (r, s) := d.client.abortTransaction session s
    (r.mapError .document, s)

/-- The requests of an open transaction; they are refused once it is settled. -/
def handle (d : Records σ E) (session : SessionId) (machine : TxState) : Operations σ E :=
  d.operations (some session) fun ctx => do
    Action.ofExcept machine.ensureActive
    d.effective ctx

/-- A transaction that answers ends its session.  A panic is passed on before that. -/
def leave (d : Records σ E) (session : SessionId) : Ending Unit → σ → σ
  | .panic, s => s
  | .value (), s | .error _, s => d.client.endSession session s

/-- Runs a body in a transaction of a new session. -/
def transaction (d : Records σ E) (ctx : Context) (body : TxBody σ E) (s : σ) :
    Ending Unit × σ :=
  if !d.client.supportsTransactions s then (.error (.refused .noTransactions), s)
  else
    let entry : Action σ SessionId := do
      let ctx ← d.effective ctx
      Action.check d.env ctx
      fun s =>
        let (r, s) := d.client.startSession s
        (r.mapError .document, s)
    match entry s with
    | (.error e, s) => (.error e, s)
    | (.ok session, s) =>
      let (started, s) := d.client.startTransaction session s
      let (ending, s) :=
        match started with
        | .error f => (.error (.document f), s)
        | .ok () =>
          let (ending, _, s) := runInScope (d.scope session)
            (fun (machine, s) =>
              let (ending, s) := body (d.handle session machine) s
              (ending, (machine, s)))
            (.idle, s)
          (ending, s)
      (ending, d.leave session ending s)

/-! ### The repository -/

/-- The settings and the schema a repository accepts.  Nobody numbers records here. -/
def accept (schema : Schema) (config : Config) : Except Error Unit := do
  config.validate
  schema.validate
  if schema.idStrategy = .autoIncrement then refuse .autoIncrementUnsupported

def repository (d : Records σ E) : Repository σ E where
  toOperations := d.operations none fun ctx => d.effective ctx
  transaction := d.transaction

end Records

/-- The repository of a client, if it accepts the schema and the settings. -/
def open? (client : Client σ) (env : Environment σ) (schema : Schema) (config : Config)
    (type : EntityType E) : Except Error (Records σ E) := do
  Records.accept schema config
  return { client, env, schema, config, type }

end Recordkeeper.Document
