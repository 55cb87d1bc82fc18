import Recordkeeper.Error

/-!
Contract: the life of a transaction and the driver that settles it.

Owns:
- the transitions between the five states;
- running a body inside a scope: success commits, an error or a panic rolls back.

Does not own: what commit and rollback do, which a backend supplies as a scope.
-/

set_option autoImplicit false

namespace Recordkeeper

namespace TxState

def transition (s : TxState) (sources : List TxState) (target : TxState) :
    Except Error Unit × TxState :=
  if sources.contains s then (.ok (), target) else (refuse (.invalidTransition s target), s)

def start (s : TxState) : Except Error Unit × TxState := s.transition [.idle] .active

def startCommit (s : TxState) : Except Error Unit × TxState := s.transition [.active] .committing

def finishCommit (s : TxState) : Except Error Unit × TxState :=
  s.transition [.committing] .committed

/-- A commit that failed ends here too. -/
def rollBack (s : TxState) : Except Error Unit × TxState :=
  s.transition [.active, .committing] .rolledBack

def ensureActive (s : TxState) : Except Error Unit :=
  if s = .active then .ok () else refuse (.handleUsed s)

end TxState

inductive Ending (α : Type) where
  | value (a : α)
  | error (e : Error)
  | panic
  deriving Repr

/-- The two ways a backend settles an open transaction, over a state `σ`. -/
structure TxScope (σ : Type) where
  commit : σ → Except Error Unit × σ
  rollback : σ → Except Error Unit × σ

/-- Runs `body` inside `scope`.  The machine must be idle.  A value commits; a failed commit
and an error are returned, the latter after a rollback; a panic is passed on after a rollback.
What the rollback reports is dropped.  The body sees the machine and may change it. -/
def runInScope {σ α : Type} (scope : TxScope σ) (body : TxState × σ → Ending α × (TxState × σ))
    (entry : TxState × σ) : Ending α × (TxState × σ) :=
  let (machine, world) := entry
  match machine.start with
  | (.error e, machine) => (.error e, (machine, world))
  | (.ok (), machine) =>
    let (ending, (machine, world)) := body (machine, world)
    match ending with
    | .value a =>
      match machine.startCommit with
      | (.error e, machine) => (.error e, (machine, world))
      | (.ok (), machine) =>
        match scope.commit world with
        | (.ok (), world) =>
          match machine.finishCommit with
          | (.error e, machine) => (.error e, (machine, world))
          | (.ok (), machine) => (.value a, (machine, world))
        | (.error e, world) =>
          match machine.rollBack with
          | (.error e', machine) => (.error e', (machine, world))
          | (.ok (), machine) => (.error e, (machine, world))
    | .error e =>
      match machine.rollBack with
      | (.error e', machine) => (.error e', (machine, world))
      | (.ok (), machine) =>
        let (_, world) := scope.rollback world
        (.error e, (machine, world))
    | .panic =>
      let (_, machine) := machine.rollBack
      let (_, world) := scope.rollback world
      (.panic, (machine, world))

end Recordkeeper
