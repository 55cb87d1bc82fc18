import Recordkeeper.Entity.Basic
import Recordkeeper.KeyValue.Client
import Recordkeeper.KeyValue.Codec
import Recordkeeper.KeyValue.Plan

/-!
Contract: a repository on a key-value store.

Owns:
- the key of a record, which is the prefix, the name of the schema and the text form of the id;
- scans over all records, which visit every key once and are bounded;
- the requests, of which queries test records one by one.

Does not own: plans and codecs.

The JSON codec gives byte values back as text; the binary codec keeps them.
-/

set_option autoImplicit false

namespace Recordkeeper.KeyValue

variable {σ E : Type}

structure Records (σ E : Type) where
  client : Client σ
  env : Environment σ
  schema : Schema
  config : Config
  type : EntityType E

namespace Records

def keyHead (k : Records σ E) : String := k.config.keyPrefix ++ k.schema.name ++ ":"

/-- The key of the record with an id.  Ids with one text form name one record. -/
def keyFor (k : Records σ E) (id : Value) : Except Error String := do
  k.schema.checkId id
  if id.coerced = "" then refuse .emptyId
  return k.keyHead ++ id.coerced

def pattern (k : Records σ E) : String := k.keyHead ++ "*"

def call {α : Type} (k : Records σ E) (ctx : Context) (native : σ → Outcome α × σ) :
    Action σ α :=
  Action.call k.env ctx Error.keyValue native

def effective (k : Records σ E) (ctx : Context) : StateM σ Context :=
  Action.effective k.env ctx k.config.defaultTimeout

/-- A record as the store keeps it, with columns for fields. -/
def encode (k : Records σ E) (r : Record) : Bytes :=
  Codec.encode k.config.codec (Record.rename r k.schema.columnFor)

def decode (k : Records σ E) (key : String) (raw : Bytes) : Except Error Record :=
  match Codec.decode k.config.codec raw with
  | .ok r => .ok (Record.rename r k.schema.fieldForColumn)
  | .error .json => .error (.within key (.refused .jsonSyntax))
  | .error .binary => .error (.within key (.refused .malformedRecord))

/-- Reads the records under keys that were not seen before; gives them with their keys, and all
keys seen.  A key that expired or was deleted after it was listed is passed over. -/
def visit (k : Records σ E) (ctx : Context) :
    List String → List String → Action σ (List (String × Record) × List String)
  | [], seen => return ([], seen)
  | key :: rest, seen =>
    if seen.contains key then k.visit ctx rest seen
    else do
      let seen := key :: seen
      if k.config.maxScanKeys < seen.length then
        Action.refuse (.scanBound k.schema.name k.config.maxScanKeys)
      match ← k.call ctx (k.client.get key) with
      | none => k.visit ctx rest seen
      | some raw => do
        let r ← Action.ofExcept (k.decode key raw)
        let (others, seen) ← k.visit ctx rest seen
        return ((key, r) :: others, seen)

/-- Follows a scan from a cursor on, for a number of pages at most. -/
def scanFrom (k : Records σ E) (ctx : Context) :
    Nat → Nat → List String → Action σ (List (String × Record))
  | 0, _, _ => return []
  | pages + 1, cursor, seen => do
    let (next, keys) ← k.call ctx (k.client.scan cursor k.pattern k.config.scanBatchSize)
    let (found, seen) ← k.visit ctx keys seen
    if next = 0 then return found
    else
      let others ← k.scanFrom ctx pages next seen
      return found ++ others

def scan (k : Records σ E) (ctx : Context) : Action σ (List (String × Record)) :=
  k.scanFrom ctx k.client.pages 0 []

def all (k : Records σ E) (ctx : Context) : Action σ (List Record) := do
  let found ← k.scan ctx
  return found.map (·.2)

/-! ### Requests -/

/-- Stores a new record.  A generated id is written back into the entity. -/
def insert (k : Records σ E) (ctx : Context) (ttl : Option Micros) (entity : E) :
    Action σ E := do
  let r ← Action.ofExcept (k.schema.toRecord k.type entity)
  let hadId := (k.schema.idOf? r).isSome
  match ← k.schema.prepareId k.env r with
  | (none, _) => Action.refuse (.recordsNeedId .keyValue)
  | (some id, r) => do
    let key ← Action.ofExcept (k.keyFor id)
    let written ← k.call ctx (k.client.setIfMissing key (k.encode r) ttl)
    if !written then Action.refuse (.keyExists key)
    if hadId then return entity
    else Action.ofExcept (k.schema.assignId k.type entity id)

def load (k : Records σ E) (ctx : Context) (key : String) : Action σ Record := do
  match ← k.call ctx (k.client.get key) with
  | some raw => Action.ofExcept (k.decode key raw)
  | none => Action.refuse (.noRecordAt key)

/-- Replaces the record under a key, which has to be there and keeps its expiry. -/
def storeExisting (k : Records σ E) (ctx : Context) (key : String) (r : Record) :
    Action σ Unit := do
  let written ← k.call ctx (k.client.setIfPresent key (k.encode r))
  if !written then Action.refuse (.noRecordAt key)

def create (k : Records σ E) (ctx : Context) (entity : E) : Action σ E := do
  let ctx ← k.effective ctx
  k.insert ctx none entity

/-- Inserts what it can.  Once the context is done every remaining entity fails. -/
def createBatch (k : Records σ E) (ctx : Context) (entities : List E) :
    StateM σ (BatchResult E) := do
  let ctx ← k.effective ctx
  let (outcome, entities) ← insertEach (k.insert ctx none) 0 entities
  return (.ok outcome, entities)

def findById (k : Records σ E) (ctx : Context) (id : Value) : Action σ E := do
  let key ← Action.ofExcept (k.keyFor id)
  let ctx ← k.effective ctx
  let r ← k.load ctx key
  Action.ofExcept (k.schema.ofRecord k.type r)

def query (k : Records σ E) (ctx : Context) (q : Query) : Action σ (List Record) := do
  let plan ← Action.ofExcept (Plan.compile q)
  let ctx ← k.effective ctx
  let records ← k.all ctx
  return plan.execute records

def findAll (k : Records σ E) (ctx : Context) (q : Query) : Action σ (List E) := do
  let records ← k.query ctx q
  Action.ofExcept (records.mapM (k.schema.ofRecord k.type))

def update (k : Records σ E) (ctx : Context) (entity : E) : Action σ Unit := do
  let (id, r) ← Action.ofExcept (k.schema.identified k.type entity)
  let key ← Action.ofExcept (k.keyFor id)
  let ctx ← k.effective ctx
  k.storeExisting ctx key r

/-- Reads, changes and writes back; another writer of the same key may come between. -/
def updatePartial (k : Records σ E) (ctx : Context) (id : Value) (fields : Record) :
    Action σ Unit := do
  Action.ofExcept (k.schema.checkPartial fields)
  let ctx ← k.effective ctx
  let key ← Action.ofExcept (k.keyFor id)
  let r ← k.load ctx key
  k.storeExisting ctx key (r.overlay fields)

def delete (k : Records σ E) (ctx : Context) (id : Value) : Action σ Unit := do
  let key ← Action.ofExcept (k.keyFor id)
  let ctx ← k.effective ctx
  let removed ← k.call ctx (k.client.delete key)
  if !removed then Action.refuse (.noRecordAt key)

/-- Deletes the selected records one by one; counts those that were still there. -/
def deleteSelected (k : Records σ E) (ctx : Context) (plan : Plan) :
    List (String × Record) → Action σ Nat
  | [] => return 0
  | (key, r) :: rest =>
    if plan.selects r then do
      let removed ← k.call ctx (k.client.delete key)
      let others ← k.deleteSelected ctx plan rest
      return if removed then others + 1 else others
    else k.deleteSelected ctx plan rest

def deleteByCondition (k : Records σ E) (ctx : Context) (q : Query) : Action σ Nat := do
  Action.ofExcept q.checkDelete
  let plan ← Action.ofExcept (Plan.compile q)
  let ctx ← k.effective ctx
  let found ← k.scan ctx
  k.deleteSelected ctx plan found

def queryOne (k : Records σ E) (ctx : Context) (q : Query) : Action σ Record := do
  let records ← k.query ctx q.firstOnly
  Action.ofExcept (firstRecord k.schema.name records)

def count (k : Records σ E) (ctx : Context) (q : Query) : Action σ Nat := do
  let plan ← Action.ofExcept (Plan.compile q.unpaged)
  let ctx ← k.effective ctx
  let records ← k.all ctx
  return (plan.execute records).length

def existsAny (k : Records σ E) (ctx : Context) (q : Query) : Action σ Bool := do
  let records ← k.query ctx q.firstOnly
  return !records.isEmpty

/-! ### Expiring records -/

def positiveTtl (ttl : Micros) : Except Error Unit := if ttl = 0 then refuse .zeroTtl else .ok ()

def createWithTtl (k : Records σ E) (ctx : Context) (entity : E) (ttl : Micros) :
    Action σ E := do
  Action.ofExcept (positiveTtl ttl)
  let ctx ← k.effective ctx
  k.insert ctx (some ttl) entity

def expire (k : Records σ E) (ctx : Context) (id : Value) (ttl : Micros) : Action σ Unit := do
  Action.ofExcept (positiveTtl ttl)
  let key ← Action.ofExcept (k.keyFor id)
  let ctx ← k.effective ctx
  let present ← k.call ctx (k.client.expire key ttl)
  if !present then Action.refuse (.noRecordAt key)

def ttl (k : Records σ E) (ctx : Context) (id : Value) : Action σ (Option Micros) := do
  let key ← Action.ofExcept (k.keyFor id)
  let ctx ← k.effective ctx
  match ← k.call ctx (k.client.ttl key) with
  | .missing => Action.refuse (.noRecordAt key)
  | .noExpiry => return none
  | .remaining span => return some span

/-! ### The repository -/

/-- The settings and the schema a repository accepts.  Nobody numbers records here. -/
def accept (schema : Schema) (config : Config) : Except Error Unit := do
  config.validate
  schema.validate
  if schema.idStrategy = .autoIncrement then refuse .autoIncrementUnsupported

def repository (k : Records σ E) : Repository σ E where
  create := k.create
  createBatch := k.createBatch
  findById := k.findById
  findAll := k.findAll
  update := k.update
  updatePartial := k.updatePartial
  delete := k.delete
  deleteByCondition := k.deleteByCondition
  query := k.query
  queryOne := k.queryOne
  count := k.count
  existsAny := k.existsAny
  keyValue := some { createWithTtl := k.createWithTtl, expire := k.expire, ttl := k.ttl }
  transaction := fun _ _ s => (.error (.refused .keyValueTransaction), s)

end Records

/-- The repository of a client, if it accepts the schema and the settings. -/
def open? (client : Client σ) (env : Environment σ) (schema : Schema) (config : Config)
    (type : EntityType E) : Except Error (Records σ E) := do
  Records.accept schema config
  return { client, env, schema, config, type }

end Recordkeeper.KeyValue
