import Recordkeeper.Engine.Command
import Recordkeeper.Sql.Parser

/-!
Contract: a connection to a database in memory.

Owns:
- running texts: one statement with its parameters, or all statements of a text;
- transactions and savepoints, each a copy of the database to go back to;
- the count of changed rows and the number of the row inserted last.

Does not own: what a statement does to the tables.

A statement that fails leaves the connection as it was.
-/

set_option autoImplicit false

namespace Recordkeeper.Engine

open Sql

/-- A point to go back to: a savepoint by its name, or the start of a transaction. -/
structure Mark where
  name : Option String
  database : Database

structure Connection where
  database : Database := {}
  /-- The open transaction and its savepoints, latest first. -/
  marks : List Mark := []
  settings : Settings := {}
  /-- Rows changed by the last statement that changes rows. -/
  changes : Nat := 0
  lastRow : Int64 := 0

structure Answer where
  columns : List String := []
  rows : List Row := []

namespace Connection

abbrev Request (α : Type) := Connection → Except SqlFailure α × Connection

def refused {α : Type} (f : Fault) : Except SqlFailure α := .error f.failure

/-! ### Transactions -/

def begin : Request Unit := fun c =>
  if c.marks.isEmpty then (.ok (), { c with marks := [⟨none, c.database⟩] })
  else (refused .nestedTransaction, c)

def commit : Request Unit := fun c =>
  if c.marks.isEmpty then (refused .nothingToCommit, c)
  else (.ok (), { c with marks := [] })

def rollback : Request Unit := fun c =>
  match c.marks.getLast? with
  | none => (refused .nothingToRollBack, c)
  | some first => (.ok (), { c with database := first.database, marks := [] })

def savepoint (name : String) : Request Unit := fun c =>
  (.ok (), { c with marks := ⟨some name, c.database⟩ :: c.marks })

def fromSavepoint (name : String) : List Mark → List Mark
  | [] => []
  | m :: rest => if m.name.any (sameName name) then m :: rest else fromSavepoint name rest

/-- Gives up a savepoint and the later ones, and keeps what was done since. -/
def release (name : String) : Request Unit := fun c =>
  match fromSavepoint name c.marks with
  | _ :: outer => (.ok (), { c with marks := outer })
  | [] => (refused (.noSavepoint name), c)

def rollbackTo (name : String) : Request Unit := fun c =>
  match fromSavepoint name c.marks with
  | m :: outer => (.ok (), { c with database := m.database, marks := m :: outer })
  | [] => (refused (.noSavepoint name), c)

/-! ### Statements -/

/-- Runs a command; a failure changes nothing. -/
def perform (command : Command) (params : List Cell) : Request Answer := fun c =>
  match command.run c.database c.settings params with
  | .error f => (refused f, c)
  | .ok effect =>
    let columns := match command with
      | .select columns _ => columns
      | _ => []
    (.ok { columns, rows := effect.rows },
     { c with
       database := effect.database
       changes := effect.changes.getD c.changes
       lastRow := effect.lastRow.getD c.lastRow })

/-- Runs a statement on transactions; others do nothing. -/
def control (s : Statement) : Request Answer := fun c =>
  let request : Request Unit := match s with
    | .begin => begin
    | .commit => commit
    | .rollback => rollback
    | .savepoint name => savepoint name
    | .release name => release name
    | .rollbackTo name => rollbackTo name
    | _ => fun c => (.ok (), c)
  let (r, c) := request c
  (r.map fun _ => {}, c)

structure Prepared where
  parsed : Parser.Parsed
  /-- None for a statement on transactions. -/
  command : Option Command

/-- The first statement of a text, with its names looked up, and the text after it. -/
def prepare (c : Connection) (text : List Char) : Result (Option Prepared × List Char) := do
  match ← Parser.first text with
  | (none, rest) => return (none, rest)
  | (some parsed, rest) =>
    let command ← resolveStatement c.database c.settings parsed.statement
    return (some ⟨parsed, command⟩, rest)

def step (p : Prepared) (params : List Cell) : Request Answer :=
  match p.command with
  | some command => perform command params
  | none => control p.parsed.statement

/-- Values are bound one by one up to the first that has no place. -/
def checkCount (p : Option Prepared) (params : List Cell) : Except SqlFailure Unit :=
  let needed := (p.map (·.parsed.places)).getD 0
  let got := min params.length (needed + 1)
  if got = needed then .ok () else .error (.parameterCount got needed)

def query (sql : String) (params : List Cell) : Request Answer := fun c =>
  match c.prepare sql.toList with
  | .error f => (refused f, c)
  | .ok (p, _) =>
    match checkCount p params, p with
    | .error e, _ => (.error e, c)
    | .ok (), none => (refused .nothingToRun, c)
    | .ok (), some p => step p params c

/-- Runs the first statement of a text, which must give no rows.  Answers how many rows the last
change of rows touched. -/
def execute (sql : String) (params : List Cell) : Request Nat := fun c =>
  match query sql params c with
  | (.error e, c) => (.error e, c)
  | (.ok answer, c) => if answer.rows.isEmpty then (.ok c.changes, c) else (.error .returnedRows, c)

/-- Runs the statements of a text up to the first failure.  Every statement takes at least one
character. -/
def batchFrom : Nat → List Char → Request Unit
  | 0, _ => fun c => (.ok (), c)
  | fuel + 1, text => fun c =>
    match c.prepare text with
    | .error f => (refused f, c)
    | .ok (none, _) => (.ok (), c)
    | .ok (some p, rest) =>
      match step p [] c with
      | (.error e, c) => (.error e, c)
      | (.ok _, c) => batchFrom fuel rest c

def batch (sql : String) : Request Unit :=
  batchFrom (sql.toList.length + 1) sql.toList

end Connection

end Recordkeeper.Engine
