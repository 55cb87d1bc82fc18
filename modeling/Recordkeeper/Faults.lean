import Recordkeeper.Document.Client
import Recordkeeper.KeyValue.Client

/-!
Contract: clients that fail on purpose.

Owns:
- plans, which tell the calls that fail without reaching the store, and the write after which
  a token is cancelled;
- the clients that follow a plan.

Does not own: what a repository makes of a failure.
-/

set_option autoImplicit false

namespace Recordkeeper

/-- Calls that fail on purpose, for methods `μ` and failures `φ`. -/
structure FaultPlan (μ φ : Type) where
  /-- Methods with the number of the failing call, counted from one; zero is every call. -/
  failures : List (μ × Nat × φ) := []
  /-- The token is cancelled after this many writes that succeeded. -/
  cancelAfterWrites : Option Nat := none
  /-- Every page of a scan lists its keys twice. -/
  repeatKeys : Bool := false

structure CallLog (μ : Type) where
  calls : List μ := []
  writes : Nat := 0

namespace FaultPlan

variable {μ φ σ α : Type} [DecidableEq μ]

/-- The failure of a call, given how many calls of the method came before. -/
def failure? (plan : FaultPlan μ φ) (method : μ) (before : Nat) : Option φ :=
  (plan.failures.find? fun f => f.1 = method ∧ (f.2.1 = 0 ∨ f.2.1 = before + 1)).map (·.2.2)

def guard (plan : FaultPlan μ φ) (log : Part σ (CallLog μ)) (method : μ)
    (native : σ → Except φ α × σ) (s : σ) : Except φ α × σ :=
  let before := (log.view s).calls.count method
  let s := log.modify (fun l => { l with calls := method :: l.calls }) s
  match plan.failure? method before with
  | some f => (.error f, s)
  | none => native s

def guardWrite (plan : FaultPlan μ φ) (log : Part σ (CallLog μ)) (cancel : σ → σ) (method : μ)
    (native : σ → Except φ α × σ) (s : σ) : Except φ α × σ :=
  match plan.guard log method native s with
  | (.ok a, s) =>
    let s := log.modify (fun l => { l with writes := l.writes + 1 }) s
    (.ok a, if plan.cancelAfterWrites = some (log.view s).writes then cancel s else s)
  | (.error f, s) => (.error f, s)

end FaultPlan

namespace KeyValue

inductive Method where
  | get
  | set
  | setIfMissing
  | setIfPresent
  | delete
  | scan
  | expire
  | ttl
  deriving DecidableEq, Repr

def Client.faulty {σ : Type} (plan : FaultPlan Method KeyValueFailure)
    (log : Part σ (CallLog Method)) (cancel : σ → σ) (inner : Client σ) : Client σ where
  get key := plan.guard log .get (inner.get key)
  set key value ttl := plan.guardWrite log cancel .set (inner.set key value ttl)
  setIfMissing key value ttl :=
    plan.guardWrite log cancel .setIfMissing (inner.setIfMissing key value ttl)
  setIfPresent key value :=
    plan.guardWrite log cancel .setIfPresent (inner.setIfPresent key value)
  delete key := plan.guardWrite log cancel .delete (inner.delete key)
  scan cursor pattern count s :=
    let (r, s) := plan.guard log .scan (inner.scan cursor pattern count) s
    (if plan.repeatKeys then r.map fun p => (p.1, p.2 ++ p.2) else r, s)
  expire key ttl := plan.guard log .expire (inner.expire key ttl)
  ttl key := plan.guard log .ttl (inner.ttl key)
  pages := inner.pages

end KeyValue

namespace Document

/-- The methods of a client that may fail. -/
inductive Method where
  | insertOne
  | find
  | count
  | updateOne
  | replaceOne
  | deleteMany
  | aggregate
  | startSession
  | startTransaction
  | commitTransaction
  | abortTransaction
  deriving DecidableEq, Repr

def Client.faulty {σ : Type} (plan : FaultPlan Method DocumentFailure)
    (log : Part σ (CallLog Method)) (cancel : σ → σ) (inner : Client σ) : Client σ where
  insertOne session name doc :=
    plan.guardWrite log cancel .insertOne (inner.insertOne session name doc)
  find session name filter options :=
    plan.guard log .find (inner.find session name filter options)
  count session name filter := plan.guard log .count (inner.count session name filter)
  updateOne session name filter set :=
    plan.guardWrite log cancel .updateOne (inner.updateOne session name filter set)
  replaceOne session name filter doc :=
    plan.guardWrite log cancel .replaceOne (inner.replaceOne session name filter doc)
  deleteMany session name filter :=
    plan.guardWrite log cancel .deleteMany (inner.deleteMany session name filter)
  aggregate session name pipeline :=
    plan.guard log .aggregate (inner.aggregate session name pipeline)
  supportsTransactions := inner.supportsTransactions
  startSession := plan.guard log .startSession inner.startSession
  startTransaction id := plan.guard log .startTransaction (inner.startTransaction id)
  commitTransaction id := plan.guard log .commitTransaction (inner.commitTransaction id)
  abortTransaction id := plan.guard log .abortTransaction (inner.abortTransaction id)
  endSession := inner.endSession

end Document

end Recordkeeper
