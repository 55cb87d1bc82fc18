import Recordkeeper.Document.Repository
import Recordkeeper.Entity.Shape
import Recordkeeper.KeyValue.Repository
import Recordkeeper.Proofs.Action
import Recordkeeper.Proofs.Document.Calls
import Recordkeeper.Proofs.Engine.Failure
import Recordkeeper.Relational.Repository

/-!
Contract: a creation that fails stores nothing, up to the writing back of a generated id.

Owns:
- the ids that are generated, and the only failure that comes after the native insertion;
- creations on each of the three backends, given native insertions that store all or nothing;
- that insertions into the stores in memory do so.

Does not own: what a native insertion stores.
-/

set_option autoImplicit false

namespace Recordkeeper

variable {σ ρ E : Type}

/-! ### Generated ids -/

/-- The ids that are generated under a strategy. -/
inductive Generated : IdStrategy → Value → Prop
  | text (t : String) : Generated .uuid (.text t)
  | number (n : Int64) : Generated .autoIncrement (.int n)

/-- An entity without an id was to be given a generated one, and its type refused the document
with the id. -/
def RefusesId (schema : Schema) (type : EntityType E) (entity : E) (e : Error) : Prop :=
  ∃ r id, schema.toRecord type entity = .ok r ∧ schema.idOf? r = none ∧
    Generated schema.idStrategy id ∧ schema.assignId type entity id = .error e

/-- A record that brings no id is given one here, or is left to the engine to number. -/
theorem Schema.prepareId_generated {schema : Schema} {env : Environment σ} {r stored : Record}
    {s : σ} {id : Option Value} (prepared : (schema.prepareId env r s).1 = .ok (id, stored))
    (missing : schema.idOf? r = none) :
    match id with
    | some id => Generated schema.idStrategy id
    | none => schema.idStrategy = .autoIncrement := by
  obtain ⟨t, prepared⟩ := Schema.prepared_of_ok prepared
  cases prepared with
  | given has =>
      rw [missing] at has
      cases has
  | numbered missing strategy => exact strategy
  | drawn missing strategy => exact strategy ▸ .text _

/-- What is left to do after the native insertion fails only if the entity refuses its id. -/
theorem writeBack_error {schema : Schema} {type : EntityType E} {entity : E} {r : Record}
    {id : Value} (converted : schema.toRecord type entity = .ok r)
    (generated : schema.idOf? r = none → Generated schema.idStrategy id) {s : σ} {e : Error}
    (failed : ((if (schema.idOf? r).isSome then pure entity
      else Action.ofExcept (schema.assignId type entity id) : Action σ E) s).1 = .error e) :
    RefusesId schema type entity e := by
  cases own : schema.idOf? r with
  | some v =>
      rw [own] at failed
      cases failed
  | none =>
      rw [own] at failed
      exact ⟨r, id, converted, own, generated own, failed⟩

/-! ### Documents -/

namespace Document

/-- An insertion that fails, in a session or outside of any, leaves what is held as it was. -/
def Client.InsertsWhole (c : Client σ) (held : σ → ρ) : Prop :=
  ∀ session name doc s failure, (c.insertOne session name doc s).1 = .error failure →
    held (c.insertOne session name doc s).2 = held s

theorem Records.create_spares {d : Records σ E} {held : σ → ρ} (apart : d.env.Apart held)
    (whole : d.client.InsertsWhole held) (session : Option SessionId) (ctx : Context)
    (entity : E) : Spares held (RefusesId d.schema d.type entity) (d.create session ctx entity) := by
  unfold create
  refine Spares.bind (Moves.ofExcept _) fun s r converted => ?_
  refine Spares.bind (Moves.prepareId apart _ r) fun _ prepared answered => ?_
  obtain ⟨id, stored⟩ := prepared
  cases id with
  | none => exact .of_moves (.refuse _)
  | some id =>
      refine Spares.before (Spares.call apart (whole session _ _) ctx _) fun _ _ _ t e failed => ?_
      exact writeBack_error converted (Schema.prepareId_generated answered) failed

theorem Client.memory_insertsWhole {p : Part σ Store} (lawful : p.Lawful) :
    (Client.memory p).InsertsWhole fun s session => (p.view s).visible session := by
  intro session name doc s failure failed
  funext caller
  show (p.view (p.run _ s).2).visible caller = _
  rw [p.view_run lawful]
  have refused : (Store.insertOne session name doc (p.view s)).1 = .error failure := failed
  have unanswered :
      ((Operation.insertOne name doc).request session (p.view s)).1.toOption = none := by
    show ((Store.insertOne session name doc (p.view s)).1.map _).toOption = none
    rw [refused]
    rfl
  exact Operation.failed_visible unanswered caller

end Document

/-! ### Keys and values -/

namespace KeyValue

/-- A conditional insertion that does not write leaves what is held as it was. -/
def Client.InsertsWhole (c : Client σ) (held : σ → ρ) : Prop :=
  ∀ key value ttl s, (c.setIfMissing key value ttl s).1 ≠ .ok true →
    held (c.setIfMissing key value ttl s).2 = held s

theorem Records.call_unwritten {k : Records σ E} {held : σ → ρ} (apart : k.env.Apart held)
    {native : σ → Outcome Bool × σ}
    (whole : ∀ s, (native s).1 ≠ .ok true → held (native s).2 = held s) {ctx : Context} {s : σ}
    (unwritten : (k.call ctx native s).1 ≠ .ok true) :
    held (k.call ctx native s).2 = held s := by
  unfold call at unwritten ⊢
  rw [Action.run_call] at unwritten ⊢
  cases alive : ctx.check (k.env.observe s).1 with
  | error e => exact apart.observe s
  | ok live =>
      rw [alive] at unwritten
      refine (whole _ fun written => unwritten ?_).trans (apart.observe s)
      dsimp -proj only
      rw [written]
      rfl

theorem Records.insert_spares {k : Records σ E} {held : σ → ρ} (apart : k.env.Apart held)
    (whole : k.client.InsertsWhole held) (ctx : Context) (ttl : Option Micros) (entity : E) :
    Spares held (RefusesId k.schema k.type entity) (k.insert ctx ttl entity) := by
  unfold insert
  refine Spares.bind (Moves.ofExcept _) fun s r converted => ?_
  refine Spares.bind (Moves.prepareId apart _ r) fun _ prepared answered => ?_
  obtain ⟨id, stored⟩ := prepared
  cases id with
  | none => exact .of_moves (.refuse _)
  | some id =>
      refine Spares.bind (Moves.ofExcept _) fun _ key _ => ?_
      refine Spares.tested (fun t => call_unwritten apart (whole _ _ _)) fun t e failed => ?_
      exact writeBack_error converted (Schema.prepareId_generated answered) failed

theorem Store.setIfMissing_unwritten {key : String} {value : Bytes} {ttl : Option Micros}
    {now : Instant} {s : Store} (unwritten : (setIfMissing key value ttl now s).1 ≠ .ok true) :
    (setIfMissing key value ttl now s).2 = s := by
  unfold setIfMissing at unwritten ⊢
  cases moment : expiry now ttl with
  | error failure => rfl
  | ok expiresAt =>
      cases found : s.live? key now with
      | some entry => rfl
      | none =>
          rw [moment, found] at unwritten
          exact absurd rfl unwritten

theorem Client.memory_insertsWhole {p : Part σ (World Store)} (lawful : p.Lawful) :
    (Client.memory p).InsertsWhole fun s => (p.view s).store := by
  intro key value ttl s unwritten
  show (p.view (p.run _ s).2).store = _
  rw [p.view_run lawful]
  exact Store.setIfMissing_unwritten unwritten

end KeyValue

/-! ### Rows -/

namespace Relational

/-- A statement that fails leaves what is held as it was, and so does taking the connection or
giving it back. -/
structure Client.InsertsWhole (c : Client σ) (held : σ → ρ) : Prop where
  execute : ∀ sql params s failure, (c.execute sql params s).1 = .error failure →
    held (c.execute sql params s).2 = held s
  lock : ∀ limit s, held (c.lock limit s).2 = held s
  unlock : ∀ s, held (c.unlock s) = held s

namespace Records

variable {d : Records σ E} {held : σ → ρ}

theorem insert_spares (apart : d.env.Apart held) (whole : d.client.InsertsWhole held)
    (ctx : Context) (r : Record) : Spares held (fun _ => False) (d.insert ctx r) := by
  unfold insert
  refine Spares.bind (Moves.prepareId apart _ r) fun _ prepared _ => ?_
  obtain ⟨provided, stored⟩ := prepared
  refine Spares.bind (Moves.ofExcept _) fun _ statement _ => ?_
  refine Spares.before (Spares.call apart (whole.execute _ _) ctx _) fun _ _ _ t e failed => ?_
  cases provided <;> cases failed

/-- A record that brings no id is stored under a generated one. -/
theorem insert_generated {ctx : Context} {r : Record} {s : σ} {id : Value}
    (answered : (d.insert ctx r s).1 = .ok id) (missing : d.schema.idOf? r = none) :
    Generated d.schema.idStrategy id := by
  unfold insert at answered
  obtain ⟨⟨provided, stored⟩, _, prepared, answered⟩ := Action.exists_of_bind answered
  obtain ⟨statement, _, -, answered⟩ := Action.exists_of_bind answered
  obtain ⟨changed, _, -, answered⟩ := Action.exists_of_bind answered
  have generated := Schema.prepareId_generated prepared missing
  cases provided with
  | some id =>
      cases answered
      exact generated
  | none =>
      cases answered
      rw [generated]
      exact .number _

theorem create_spares (apart : d.env.Apart held) (whole : d.client.InsertsWhole held)
    (ctx : Context) (entity : E) :
    Spares held (RefusesId d.schema d.type entity) (d.create ctx entity) := by
  unfold create
  refine Spares.bind (Moves.ofExcept _) fun s r converted => ?_
  refine Spares.before (insert_spares apart whole ctx r) fun _ id answered t e failed => ?_
  exact writeBack_error converted (insert_generated answered) failed

theorem acquire_moves (apart : d.env.Apart held)
    (lock : ∀ limit s, held (d.client.lock limit s).2 = held s) (ctx : Context) :
    Moves held (fun _ _ => False) (d.acquire ctx) := by
  unfold acquire
  refine (Moves.check apart ctx).bind fun _ => ?_
  refine Moves.bind (Moves.of_same fun s => apart.observe s) fun _ => ?_
  refine Moves.bind (Moves.of_same fun s => lock _ s) fun taken => ?_
  cases taken with
  | true => exact .pure _
  | false => exact .refuse _

theorem onConnection_spares (apart : d.env.Apart held) (whole : d.client.InsertsWhole held)
    {α : Type} {excused : Error → Prop} {request : Context → Action σ α}
    (spares : ∀ ctx, Spares held excused (request ctx)) (ctx : Context) :
    Spares held excused (d.onConnection ctx request) := by
  unfold onConnection
  refine Spares.bind (Moves.lift (Moves.effective apart ctx _)) fun _ ctx _ => ?_
  refine Spares.bind (acquire_moves apart whole.lock ctx) fun _ _ _ => ?_
  intro s e failed
  have kept := spares ctx s e failed
  exact kept.imp_left fun kept => (whole.unlock _).trans kept

end Records

theorem Client.memory_insertsWhole {p : Part σ (World Shared)} (lawful : p.Lawful) :
    (Client.memory p).InsertsWhole fun s => (p.view s).store.connection where
  execute sql params s failure failed := by
    show (p.view (p.put _ s)).store.connection = _
    rw [lawful]
    exact Engine.Connection.execute_failed failed
  lock limit s := by
    show (p.view (p.run _ s).2).store.connection = _
    rw [p.view_run lawful]
    dsimp -proj only
    split <;> rfl
  unlock s := by
    show (p.view (p.put _ s)).store.connection = _
    rw [lawful]

end Relational

/-! ### The three backends -/

/-- The records of a repository, whatever its backend. -/
inductive Backing (σ E : Type) where
  | document (d : Document.Records σ E)
  | keyValue (k : KeyValue.Records σ E)
  | relational (d : Relational.Records σ E)

namespace Backing

def repository : Backing σ E → Repository σ E
  | .document d => d.repository
  | .keyValue k => k.repository
  | .relational d => d.repository

def schema : Backing σ E → Schema
  | .document d => d.schema
  | .keyValue k => k.schema
  | .relational d => d.schema

def type : Backing σ E → EntityType E
  | .document d => d.type
  | .keyValue k => k.type
  | .relational d => d.type

def env : Backing σ E → Environment σ
  | .document d => d.env
  | .keyValue k => k.env
  | .relational d => d.env

/-- The native insertion stores all or nothing. -/
def InsertsWhole (held : σ → ρ) : Backing σ E → Prop
  | .document d => d.client.InsertsWhole held
  | .keyValue k => k.client.InsertsWhole held
  | .relational d => d.client.InsertsWhole held

/-- The requests that are made on the records: those of the repository, and those of a
transaction. -/
inductive Offers : Backing σ E → Operations σ E → Prop
  | repository (b : Backing σ E) : Offers b b.repository.toOperations
  | session (d : Document.Records σ E) (id : Document.SessionId) (machine : TxState) :
      Offers (.document d) (d.handle id machine)
  | transaction (d : Relational.Records σ E) (machine : TxState) :
      Offers (.relational d) (d.handle machine)

/-- A creation that fails leaves what the store holds as it was, on every backend and inside of
transactions; or the entity had no id and refused the generated one. -/
theorem failed_create_stores_nothing {b : Backing σ E} {held : σ → ρ} (apart : b.env.Apart held)
    (whole : b.InsertsWhole held) {requests : Operations σ E} (offered : b.Offers requests)
    {ctx : Context} {entity : E} {s : σ} {e : Error}
    (failed : (requests.create ctx entity s).1 = .error e) :
    held (requests.create ctx entity s).2 = held s ∨ RefusesId b.schema b.type entity e := by
  have spares : Spares held (RefusesId b.schema b.type entity) (requests.create ctx entity) := by
    cases offered with
    | repository =>
        cases b with
        | document d =>
            refine Spares.bind (Moves.lift (Moves.effective apart ctx _)) fun _ ctx _ => ?_
            exact Document.Records.create_spares apart whole none ctx entity
        | keyValue k =>
            refine Spares.bind (Moves.lift (Moves.effective apart ctx _)) fun _ ctx _ => ?_
            exact KeyValue.Records.insert_spares apart whole ctx none entity
        | relational d =>
            refine Relational.Records.onConnection_spares apart whole (fun ctx => ?_) ctx
            exact Relational.Records.create_spares apart whole ctx entity
    | session d id machine =>
        refine Spares.bind (Moves.bind (.ofExcept _) fun _ => ?_) fun _ ctx _ => ?_
        · exact Moves.lift (Moves.effective apart ctx _)
        · exact Document.Records.create_spares apart whole (some id) ctx entity
    | transaction d machine =>
        refine Spares.bind (.ofExcept _) fun _ _ _ => ?_
        refine Spares.bind (Moves.lift (Moves.effective apart ctx _)) fun _ ctx _ => ?_
        exact Relational.Records.create_spares apart whole ctx entity
  exact spares s e failed

/-! ### Tasks in memory -/

/-- A repository of tasks, which are numbered by their type but given texts as ids. -/
def tasks : Document.Records (World Document.Store) Json where
  client := .memory (Part.inside .whole World.storePart)
  env := World.environment .whole
  schema :=
    { name := "tasks", primaryKey := "id", idStrategy := .uuid
      fields := [⟨"id", "id", .text, false, false⟩, ⟨"title", "title", .text, false, false⟩] }
  config := {}
  type := (EntityShape.mk [("id", .optional .int), ("title", .text)]).entityType

def task (id : Json) : Json := .object [("id", id), ("title", .text "x")]

/-- What callers see of the tasks. -/
def seen (w : World Document.Store) (session : Option Document.SessionId) :
    Document.Outcome Document.Collections :=
  w.store.visible session

/-- The state after a task with the id 1 was stored. -/
def oneTask : World Document.Store :=
  (tasks.repository.create .background (task (.int 1)) ⟨.new, {}, 0⟩).2

theorem repeatedTask_stores_nothing :
    tasks.env.Apart seen ∧ (Backing.document tasks).InsertsWhole seen ∧
      ∃ e, (tasks.repository.create .background (task (.int 1)) oneTask).1 = .error e ∧
        (seen (tasks.repository.create .background (task (.int 1)) oneTask).2 = seen oneTask ∨
          RefusesId tasks.schema tasks.type (task (.int 1)) e) := by
  have whole : Part.Lawful (.whole : Part (World Document.Store) (World Document.Store)) :=
    fun _ _ => rfl
  have inserts : (Backing.document tasks).InsertsWhole seen :=
    Document.Client.memory_insertsWhole (Part.Lawful.inside whole fun _ _ => rfl)
  have apart : (Backing.document tasks).env.Apart seen :=
    (World.environment_apart whole).comp fun store session => store.visible session
  have repeated : (tasks.repository.create .background (task (.int 1)) oneTask).1
      = .error (.document (Document.duplicateKey "tasks" "_id" (.int 1))) := rfl
  exact ⟨apart, inserts, _, repeated,
    Backing.failed_create_stores_nothing apart inserts (.repository (.document tasks)) repeated⟩

/-- A task without an id is stored under a text, which its type then refuses: the creation fails
and the task stays. -/
theorem refusedId_stays :
    let created := tasks.repository.create .background (task .null) ⟨.new, {}, 0⟩
    created.1.toOption.isNone ∧
      (Document.Store.docsOf created.2.store.collections "tasks").length = 1 := by
  decide +kernel

end Backing

end Recordkeeper
