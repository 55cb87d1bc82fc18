import Recordkeeper.Engine.Connection
import Recordkeeper.Proofs.Action

/-!
Contract: a statement that fails leaves the connection as it was.

Owns:
- commands that give rows, which change nothing;
- single statements, on rows and on transactions, that fail;
- texts that are run as one statement without rows.

Does not own: what a statement does that does not fail.
-/

set_option autoImplicit false

namespace Recordkeeper.Engine

open Sql

/-! ### Commands that give rows -/

theorem runInsert_rows {db : Database} {env : Env} {t : Table} {places : List Nat}
    {supply : Supply} {effect : Effect}
    (inserted : runInsert db env t places supply = .ok effect) : effect.rows = [] := by
  unfold runInsert at inserted
  cases supply with
  | values | plan =>
      obtain ⟨given, -, inserted⟩ := exists_of_bind inserted
      obtain ⟨stored, -, same⟩ := exists_of_bind inserted
      cases same
      rfl

theorem runUpdate_rows {db : Database} {env : Env} {t : Table} {sets : List (Nat × Term)}
    {filter : List Term} {effect : Effect}
    (updated : runUpdate db env t sets filter = .ok effect) : effect.rows = [] := by
  obtain ⟨selected, -, updated⟩ := exists_of_bind updated
  obtain ⟨stored, -, same⟩ := exists_of_bind updated
  cases same
  rfl

theorem runDelete_rows {db : Database} {env : Env} {t : Table} {filter : List Term}
    {effect : Effect} (deleted : runDelete db env t filter = .ok effect) : effect.rows = [] := by
  obtain ⟨selected, -, same⟩ := exists_of_bind deleted
  cases same
  rfl

/-- A command that gives rows is a query, which changes nothing. -/
theorem Command.run_rows {command : Command} {db : Database} {settings : Settings}
    {params : List Cell} {effect : Effect} (ran : command.run db settings params = .ok effect)
    (rows : effect.rows ≠ []) : effect = { database := db, rows := effect.rows } := by
  unfold run at ran
  -- A change of rows gives no rows, whether or not references are tried after it.
  have changed {made : Effect} (none : made.rows = [])
      (checked : (if made.changes.isSome then
        made.database.checkReferences >>= fun _ => pure made else pure made) = Except.ok effect) :
      False := by
    split at checked
    · obtain ⟨_, -, same⟩ := exists_of_bind checked
      cases same
      exact rows none
    · cases checked
      exact rows none
  cases command with
  | select columns plan =>
      obtain ⟨found, -, same⟩ := exists_of_bind ran
      cases same
      rfl
  | insert t places supply =>
      obtain ⟨made, inserted, checked⟩ := exists_of_bind ran
      exact (changed (runInsert_rows inserted) checked).elim
  | update t sets filter =>
      obtain ⟨made, updated, checked⟩ := exists_of_bind ran
      exact (changed (runUpdate_rows updated) checked).elim
  | delete t filter =>
      obtain ⟨made, deleted, checked⟩ := exists_of_bind ran
      exact (changed (runDelete_rows deleted) checked).elim
  | create | drop | nothing =>
      cases ran
      exact absurd rfl rows

namespace Connection

/-! ### Statements -/

/-- A command that fails or gives rows leaves the connection as it was. -/
theorem perform_kept {command : Command} {params : List Cell} {c : Connection}
    (idle : ∀ answer, (perform command params c).1 = .ok answer → answer.rows ≠ []) :
    (perform command params c).2 = c := by
  unfold perform at idle ⊢
  cases ran : command.run c.database c.settings params with
  | error fault => rfl
  | ok effect =>
      rw [ran] at idle
      rw [Command.run_rows ran (idle _ rfl)]
      rfl

/-- A statement on transactions that fails leaves the connection as it was; none gives rows. -/
theorem control_kept {statement : Statement} {c : Connection}
    (idle : ∀ answer, (control statement c).1 = .ok answer → answer.rows ≠ []) :
    (control statement c).2 = c := by
  have done (after : Connection)
      (idle : ∀ answer, (.ok {} : Except SqlFailure Answer) = .ok answer → answer.rows ≠ []) :
      after = c :=
    absurd rfl (idle {} rfl)
  cases statement with
  | begin =>
      unfold control begin at idle ⊢
      dsimp only at idle ⊢
      cases free : c.marks.isEmpty with
      | true =>
          rw [free] at idle
          exact done _ idle
      | false => rfl
  | commit =>
      unfold control commit at idle ⊢
      dsimp only at idle ⊢
      cases free : c.marks.isEmpty with
      | true => rfl
      | false =>
          rw [free] at idle
          exact done _ idle
  | rollback =>
      unfold control rollback at idle ⊢
      dsimp only at idle ⊢
      cases start : c.marks.getLast? with
      | none => rfl
      | some first =>
          rw [start] at idle
          exact done _ idle
  | release name =>
      unfold control release at idle ⊢
      dsimp only at idle ⊢
      cases found : fromSavepoint name c.marks with
      | nil => rfl
      | cons mark outer =>
          rw [found] at idle
          exact done _ idle
  | rollbackTo name =>
      unfold control rollbackTo at idle ⊢
      dsimp only at idle ⊢
      cases found : fromSavepoint name c.marks with
      | nil => rfl
      | cons mark outer =>
          rw [found] at idle
          exact done _ idle
  | savepoint | select | insert | update | delete | createTable | dropTable =>
      exact done _ idle

/-- A text that fails, or that gives rows, leaves the connection as it was. -/
theorem query_kept {sql : String} {params : List Cell} {c : Connection}
    (idle : ∀ answer, (query sql params c).1 = .ok answer → answer.rows ≠ []) :
    (query sql params c).2 = c := by
  unfold query at idle ⊢
  rcases read : c.prepare sql.toList with fault | ⟨prepared, rest⟩
  · rfl
  · rw [read] at idle
    cases counted : checkCount prepared params with
    | error failure =>
        dsimp only
        rw [counted]
    | ok fits =>
        dsimp only at idle ⊢
        rw [counted] at idle ⊢
        cases prepared with
        | none => rfl
        | some prepared =>
            dsimp only at idle ⊢
            unfold step at idle ⊢
            cases kind : prepared.command with
            | none =>
                rw [kind] at idle
                exact control_kept idle
            | some command =>
                rw [kind] at idle
                exact perform_kept idle

/-- A text that is run for its changes fails also if it gives rows; a failure leaves the
connection as it was. -/
theorem execute_failed {sql : String} {params : List Cell} {c : Connection} {failure : SqlFailure}
    (failed : (execute sql params c).1 = .error failure) : (execute sql params c).2 = c := by
  have kept : (∀ answer, (query sql params c).1 = .ok answer → answer.rows ≠ []) →
      (query sql params c).2 = c := query_kept
  unfold execute at failed ⊢
  generalize query sql params c = outcome at failed kept ⊢
  obtain ⟨answer, after⟩ := outcome
  cases answer with
  | error failure => exact kept fun _ answered => by cases answered
  | ok answer =>
      dsimp only at failed ⊢
      cases rows : answer.rows with
      | nil =>
          rw [rows] at failed
          cases failed
      | cons row others =>
          refine kept fun given answered => ?_
          cases answered
          rw [rows]
          exact List.cons_ne_nil row others

end Connection

end Recordkeeper.Engine
