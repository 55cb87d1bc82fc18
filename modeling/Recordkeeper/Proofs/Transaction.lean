import Recordkeeper.Transaction

/-!
Contract: how a scope settles what a body has done.

Owns: the outcome of a run in a scope whose body leaves the state machine alone.

Does not own: what commit and rollback do.
-/

set_option autoImplicit false

namespace Recordkeeper

variable {σ α : Type}

/-- A value commits, and anything else rolls back. -/
def TxScope.settle (scope : TxScope σ) : Ending α → σ → Ending α × σ
  | .value a, s =>
    match scope.commit s with
    | (.ok (), s) => (.value a, s)
    | (.error e, s) => (.error e, s)
  | .error e, s => (.error e, (scope.rollback s).2)
  | .panic, s => (.panic, (scope.rollback s).2)

theorem TxScope.settle_value (scope : TxScope σ) (a : α) (s : σ) :
    (scope.settle (.value a) s).2 = (scope.commit s).2 := by
  rcases settled : scope.commit s with ⟨answer, after⟩
  cases answer <;> simp only [settle, settled]

/-- A body that leaves the machine alone runs in an active transaction and is settled once. -/
theorem runInScope_settles (scope : TxScope σ) (body : TxState → σ → Ending α × σ) (s : σ) :
    ∃ machine, runInScope scope
        (fun entry => ((body entry.1 entry.2).1, entry.1, (body entry.1 entry.2).2)) (.idle, s)
      = ((scope.settle (body .active s).1 (body .active s).2).1, machine,
          (scope.settle (body .active s).1 (body .active s).2).2) := by
  have started : TxState.idle.start = (.ok (), .active) := rfl
  have committing : TxState.active.startCommit = (.ok (), .committing) := rfl
  have committed : TxState.committing.finishCommit = (.ok (), .committed) := rfl
  have rolledBack : TxState.active.rollBack = (.ok (), .rolledBack) := rfl
  have failed : TxState.committing.rollBack = (.ok (), .rolledBack) := rfl
  rcases ran : body .active s with ⟨ending, done⟩
  cases ending with
  | value a =>
      rcases settled : scope.commit done with ⟨answer, after⟩
      cases answer with
      | ok =>
          refine ⟨.committed, ?_⟩
          simp only [runInScope, started, ran, committing, TxScope.settle, settled, committed]
      | error e =>
          refine ⟨.rolledBack, ?_⟩
          simp only [runInScope, started, ran, committing, TxScope.settle, settled, failed]
  | error e =>
      refine ⟨.rolledBack, ?_⟩
      simp only [runInScope, started, ran, rolledBack, TxScope.settle]
  | panic =>
      refine ⟨.rolledBack, ?_⟩
      simp only [runInScope, started, ran, TxScope.settle]
      rfl

end Recordkeeper
