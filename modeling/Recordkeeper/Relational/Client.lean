import Recordkeeper.Engine.Connection
import Recordkeeper.Schema
import Recordkeeper.World

/-!
Contract: what a repository asks of a relational engine.

Owns:
- the requests, over any state;
- a connection that several callers share, one at a time;
- the client of a connection to a database in memory.

Does not own: the statements of a repository.
-/

set_option autoImplicit false

namespace Recordkeeper.Relational

open Engine

structure Client (σ : Type) where
  /-- Runs a statement without rows; answers how many rows it changed. -/
  execute : String → List Sql.Cell → σ → Except SqlFailure Nat × σ
  query : String → List Sql.Cell → σ → Except SqlFailure Answer × σ
  /-- Number of the row inserted last. -/
  lastRow : σ → Int64
  begin : σ → Except SqlFailure Unit × σ
  commit : σ → Except SqlFailure Unit × σ
  rollback : σ → Except SqlFailure Unit × σ
  savepoint : String → σ → Except SqlFailure Unit × σ
  /-- Gives up a savepoint and keeps what was done since. -/
  release : String → σ → Except SqlFailure Unit × σ
  /-- Goes back to a savepoint, which stays open. -/
  rollbackTo : String → σ → Except SqlFailure Unit × σ
  /-- Takes the connection, or gives up after some time; tells whether it was taken.  Without a
  time a connection that stays with its holder is never taken either. -/
  lock : Option Micros → σ → Bool × σ
  unlock : σ → σ

structure Shared where
  connection : Connection
  held : Bool := false

namespace Shared

/-- The settings of a repository's connections: LIKE minds the case, and regular expressions are
known. -/
def settings : Settings := { caseSensitive := true, patterns := true }

/-- A connection to a new database in which some statements have run. -/
def ofSql (sql : String) : Except Error Shared :=
  match Connection.batch sql {} with
  | (.ok (), c) => .ok { connection := { c with settings } }
  | (.error e, _) => .error (.sql e)

/-- A connection to a new database with the table of a schema. -/
def ofSchema (schema : Schema) : Except Error Shared := ofSql schema.createTable

def connectionPart : Part Shared Connection := ⟨connection, fun c s => { s with connection := c }⟩

end Shared

def Client.memory {σ : Type} (p : Part σ (World Shared)) : Client σ :=
  let c := (p.inside World.storePart).inside Shared.connectionPart
  { execute := fun sql params => c.run (Connection.execute sql params)
    query := fun sql params => c.run (Connection.query sql params)
    lastRow := fun s => (c.view s).lastRow
    begin := c.run Connection.begin
    commit := c.run Connection.commit
    rollback := c.run Connection.rollback
    savepoint := fun name => c.run (Connection.savepoint name)
    release := fun name => c.run (Connection.release name)
    rollbackTo := fun name => c.run (Connection.rollbackTo name)
    lock := fun limit => p.run fun w =>
      if w.store.held then (false, w.sleep (limit.getD 0))
      else (true, { w with store := { w.store with held := true } })
    unlock := p.modify fun w => { w with store := { w.store with held := false } } }

end Recordkeeper.Relational
