import Recordkeeper.Context
import Recordkeeper.Query
import Recordkeeper.Record
import Recordkeeper.Transaction

/-!
Contract: the requests every repository answers.

Owns:
- actions, which run over a state that holds a store and everything around it;
- what a repository needs of its surroundings: the signals of contexts and new ids;
- the requests of a repository and the capabilities of single backends.

Does not own: how a backend answers a request.

The state is a parameter, so that other callers, passing time and failing stores are all part
of it.
-/

set_option autoImplicit false

namespace Recordkeeper

/-- A computation over a state that may fail; the state after a failure is kept. -/
abbrev Action (σ α : Type) := ExceptT Error (StateM σ) α

structure Environment (σ : Type) where
  /-- The signals at the moment of asking.  Asking may take time. -/
  observe : σ → Surroundings × σ
  /-- A text no record has as its id. -/
  freshId : σ → String × σ

namespace Action

variable {σ α ε : Type}

/-- A computation that cannot fail. -/
def ofState (f : σ → α × σ) : Action σ α := fun s =>
  let (a, s) := f s
  (.ok a, s)

def ofExcept (r : Except Error α) : Action σ α := fun s => (r, s)

def refuse (reason : Refusal) : Action σ α := ofExcept (.error (.refused reason))

/-- Puts words in front of the message of a failure. -/
def within (context : String) (action : Action σ α) : Action σ α := fun s =>
  match action s with
  | (.ok a, s) => (.ok a, s)
  | (.error e, s) => (.error (.within context e), s)

def attempt (action : Action σ α) : Action σ (Except Error α) := fun s =>
  let (r, s) := action s
  (.ok r, s)

def check (env : Environment σ) (ctx : Context) : Action σ Unit := fun s =>
  let (surroundings, s) := env.observe s
  (ctx.check surroundings, s)

/-- One native call, made only while the context lives.  A call that has started reports its
own outcome. -/
def call (env : Environment σ) (ctx : Context) (wrap : ε → Error)
    (native : σ → Except ε α × σ) : Action σ α := do
  check env ctx
  fun s =>
    let (r, s) := native s
    (r.mapError wrap, s)

/-- The context with the default timeout applied where the caller set no deadline. -/
def effective (env : Environment σ) (ctx : Context) (timeout : Option Micros) :
    StateM σ Context := fun s =>
  let (surroundings, s) := env.observe s
  (ctx.effective surroundings timeout, s)

end Action

/-- Outcome of a batch of insertions.  A relational batch fails as a whole, so it reports no
single failures; the other backends insert what they can. -/
structure BatchOutcome where
  inserted : Nat
  /-- Positions in the batch with their errors. -/
  failures : List (Nat × Error)
  deriving DecidableEq, Repr

def BatchOutcome.isComplete (o : BatchOutcome) : Bool := o.failures.isEmpty

abbrev BatchResult (E : Type) := Except Error BatchOutcome × List E

structure RawStatements (σ : Type) where
  /-- Answers the number of changed rows. -/
  execute : Context → String → List Value → Action σ Nat
  query : Context → String → List Value → Action σ (List Record)

structure Pipelines (σ : Type) where
  aggregate : Context → List Json → Action σ (List Record)

structure Expiring (σ E : Type) where
  createWithTtl : Context → E → Micros → Action σ E
  expire : Context → Value → Micros → Action σ Unit
  /-- Time left, if the record expires at all. -/
  ttl : Context → Value → Action σ (Option Micros)

/-- The requests on records of one entity type.  A request that writes a generated id back
answers the entity after the call. -/
structure Operations (σ E : Type) where
  create : Context → E → Action σ E
  createBatch : Context → List E → StateM σ (BatchResult E)
  findById : Context → Value → Action σ E
  findAll : Context → Query → Action σ (List E)
  /-- Replaces the record with the id of the entity. -/
  update : Context → E → Action σ Unit
  /-- Sets the given fields only. -/
  updatePartial : Context → Value → Record → Action σ Unit
  delete : Context → Value → Action σ Unit
  /-- Deletes what the conditions select; answers how many. -/
  deleteByCondition : Context → Query → Action σ Nat
  query : Context → Query → Action σ (List Record)
  /-- The first record, or an error of kind not found. -/
  queryOne : Context → Query → Action σ Record
  count : Context → Query → Action σ Nat
  existsAny : Context → Query → Action σ Bool
  relational : Option (RawStatements σ) := none
  document : Option (Pipelines σ) := none
  keyValue : Option (Expiring σ E) := none

/-- The body of a transaction.  It is given requests that belong to the transaction; a
transaction cannot be nested in it. -/
abbrev TxBody (σ E : Type) := Operations σ E → σ → Ending Unit × σ

/-- The requests together with transactions: a value commits, an error or a panic rolls
back. -/
structure Repository (σ E : Type) extends Operations σ E where
  transaction : Context → TxBody σ E → σ → Ending Unit × σ

def Operations.nestedTransaction {σ E : Type} (_ : Operations σ E) : Except Error Unit :=
  refuse .nestedTransaction

/-- The first of several records, or the error that no record matches. -/
def firstRecord (schemaName : String) (records : List Record) : Except Error Record :=
  match records with
  | r :: _ => .ok r
  | [] => refuse (.noMatch schemaName)

end Recordkeeper
