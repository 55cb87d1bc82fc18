import Recordkeeper.Engine.Database
import Recordkeeper.Engine.Resolve

/-!
Contract: statements on a database.

Owns:
- looking up the tables and columns of statements;
- new tables with their rules;
- running a statement as a whole: it does all its changes or none.

Does not own: transactions.
-/

set_option autoImplicit false

namespace Recordkeeper.Engine

open Sql

inductive Supply where
  | values (rows : List (List Term))
  | plan (p : Plan)

inductive Command where
  | select (columns : List String) (plan : Plan)
  /-- The places are those of the given columns in a row. -/
  | insert (table : Table) (places : List Nat) (supply : Supply)
  | update (table : Table) (sets : List (Nat × Term)) (filter : List Term)
  | delete (table : Table) (filter : List Term)
  | create (table : Table)
  | drop (name : String)
  | nothing

/-! ### Looking up -/

def Database.catalog (db : Database) (settings : Settings) : Catalog where
  columns? name := (db.table? name).map fun t => t.columns.map fun c => (c.name, c.affinity)
  indexed name i := (db.table? name).any (·.isIndexed i)
  patterns := settings.patterns

def Database.find (db : Database) (name : String) : Result Table :=
  match db.table? name with
  | some t => .ok t
  | none => .error (.noTable name)

def Table.scope (t : Table) : Scope :=
  [{ columns := t.columns.map (fun c =>
        ({ source := t.name, name := c.name, affinity := some c.affinity } : ScopeColumn))
      ++ [{ source := t.name, name := "rowid", affinity := some .integer, hidden := true }] }]

def resolveFilter (cat : Catalog) (t : Table) (filter : Option Expr) : Result (List Term) := do
  let typed ← resolveOption cat t.scope filter
  return conditionsOf (typed.map (·.term))

/-- The places of the columns an insertion names; no names mean all columns. -/
def insertPlaces (t : Table) (columns : List String) : Result (List Nat) :=
  if columns.isEmpty then .ok (List.range t.columns.length)
  else columns.mapM fun c =>
    match t.place? c with
    | some i => .ok i
    | none => .error (.noSuchTarget t.name c)

def checkWidth (t : Table) (columns : List String) (supplied : Nat) : Result Unit :=
  if columns.isEmpty then
    if supplied = t.columns.length then .ok ()
    else .error (.rowWidth t.name t.columns.length supplied)
  else if supplied = columns.length then .ok ()
  else .error (.targetWidth columns.length supplied)

def resolveSupply (cat : Catalog) (t : Table) (columns : List String) : NewRows → Result Supply
  | .defaults => .ok (.values [[]])
  | .values rows => do
    let widths := rows.map List.length
    if widths.any (· != widths.headD 0) then throw .unevenRows
    let rows ← rows.mapM (resolveAll cat [])
    checkWidth t columns (widths.headD 0)
    return .values (rows.map fun row => row.map (·.term))
  | .selected q => do
    let (plan, outputs) ← resolveSelect cat [] q
    checkWidth t columns outputs.length
    return .plan plan

def resolveSets (cat : Catalog) (t : Table) (assignments : List (String × Expr)) :
    Result (List (Nat × Term)) :=
  assignments.mapM fun (column, e) => do
    let typed ← resolve cat t.scope e
    match t.place? column with
    | some i => return (i, typed.term)
    | none => throw (.noColumn column)

/-! ### New tables -/

/-- The first name that an earlier one repeats. -/
def repeatedName? : List String → List String → Option String
  | _, [] => none
  | seen, name :: rest =>
    if seen.any (sameName name) then some name else repeatedName? (name :: seen) rest

def rulePlaces (t : Table) (columns : List String) : Result (List Nat) :=
  columns.mapM fun c =>
    match t.place? c with
    | some i => .ok i
    | none => .error (.noSuchTarget t.name c)

def addRule (cat : Catalog) (t : Table) : Constraint → Result Table
  | .primaryKey columns => do
    let places ← rulePlaces t columns
    if t.numberColumn.isSome && t.numberColumn == places.head? then return t
    else return { t with uniques := ⟨places, true⟩ :: t.uniques }
  | .unique columns => do
    let places ← rulePlaces t columns
    return { t with uniques := ⟨places, false⟩ :: t.uniques }
  | .check c => do
    let typed ← resolve cat t.scope c.test
    return { t with checks := t.checks ++ [⟨c.name, typed.term⟩] }
  | .reference r => do
    let places ← rulePlaces t r.columns
    return { t with references := t.references ++ [⟨places, r.table, r.targets⟩] }

def primaryKeys (rules : List Constraint) : List (List String) :=
  rules.filterMap fun
    | .primaryKey columns => some columns
    | _ => none

/-- The table of a definition.  A primary key of one column of type INTEGER is the number of the
row. -/
def newTable (cat : Catalog) (name : String) (columns : List ColumnDef)
    (rules : List Constraint) : Result Table := do
  match repeatedName? [] (columns.map (·.name)) with
  | some c => throw (.repeatedColumn c)
  | none => pure ()
  let rules := columns.flatMap (·.constraints) ++ rules
  let keys := primaryKeys rules
  if 1 < keys.length then throw (.manyKeys name)
  let isNumber (c : ColumnDef) : Bool :=
    sameName c.type "INTEGER" && keys.any fun key =>
      match key with
      | [column] => sameName column c.name
      | _ => false
  if columns.any fun c => c.autoIncrement && !isNumber c then throw .misplacedAutoIncrement
  let cols ← columns.mapM fun c => do
    let default ← resolveOption cat [] c.default
    return ({ name := c.name, affinity := .ofType c.type, notNull := c.notNull,
              default := default.map (·.term) } : Column)
  let empty : Table := {
    name, columns := cols
    numberColumn := columns.findIdx? isNumber
    autoIncrement := columns.any (·.autoIncrement)
    uniques := [], checks := [], references := [] }
  rules.foldlM (addRule cat) empty

/-- Whether a name is kept for the engine itself. -/
def isReservedName (name : String) : Bool :=
  "sqlite_".toList.isPrefixOf (name.toLower.toList)

/-- The command of a statement, none for those on transactions. -/
def resolveStatement (db : Database) (settings : Settings) : Statement → Result (Option Command)
  | .select q => do
    let (plan, outputs) ← resolveSelect (db.catalog settings) [] q
    return some (.select (outputs.map (·.name)) plan)
  | .insert table columns rows => do
    let t ← db.find table
    let places ← match rows with
      | .defaults => pure []
      | _ => insertPlaces t columns
    return some (.insert t places (← resolveSupply (db.catalog settings) t columns rows))
  | .update table assignments filter => do
    let t ← db.find table
    let sets ← resolveSets (db.catalog settings) t assignments
    return some (.update t sets (← resolveFilter (db.catalog settings) t filter))
  | .delete table filter => do
    let t ← db.find table
    return some (.delete t (← resolveFilter (db.catalog settings) t filter))
  | .createTable ifMissing name columns rules =>
    if isReservedName name then .error (.reservedName name)
    else if (db.table? name).isSome then
      if ifMissing then .ok (some .nothing) else .error (.tableExists name)
    else do
      return some (.create (← newTable (db.catalog settings) name columns rules))
  | .dropTable ifPresent name =>
    if (db.table? name).isSome then .ok (some (.drop name))
    else if ifPresent then .ok (some .nothing)
    else .error (.noTable name)
  | _ => .ok none

/-! ### Running -/

structure Effect where
  database : Database
  rows : List Row := []
  /-- Number of rows changed, by a statement that changes rows. -/
  changes : Option Nat := none
  /-- Number of the row inserted last. -/
  lastRow : Option Int64 := none

/-- The cells of a new row: the given ones in their places, and defaults in the others. -/
def newCells (env : Env) (t : Table) (places : List Nat) (given : Row) : Result Row :=
  (List.range t.columns.length).mapM fun i =>
    match places.findIdx? (· == i) with
    | some k => .ok (given[k]?.getD .null)
    | none =>
      match (t.columns[i]?).bind (·.default) with
      | some d => eval env d
      | none => .ok .null

def runInsert (db : Database) (env : Env) (t : Table) (places : List Nat) (supply : Supply) :
    Result Effect := do
  let given ← match supply with
    | .values rows => rows.mapM (evalAll env)
    | .plan p => run env none p
  let (t, lastRow) ← given.foldlM (fun (acc : Table × Option Int64) row => do
    let cells ← newCells env acc.1 places row
    let (t, number) ← acc.1.insert env.settings cells
    return (t, some number)) (t, none)
  return { database := db.put t, changes := some given.length, lastRow }

def selectedRows (env : Env) (t : Table) (filter : List Term) : Result (List StoredRow) :=
  t.rows.filterM fun r => holds (env.enter r.full []) filter

def runUpdate (db : Database) (env : Env) (t : Table) (sets : List (Nat × Term))
    (filter : List Term) : Result Effect := do
  let selected ← selectedRows env t filter
  let t ← selected.foldlM (fun (t : Table) r => do
    let cells ← sets.foldlM (fun (cells : Row) (set : Nat × Term) => do
      return cells.set set.1 (← eval (env.enter r.full []) set.2)) r.cells
    t.replace env.settings r.number cells) t
  return { database := db.put t, changes := some selected.length }

def runDelete (db : Database) (env : Env) (t : Table) (filter : List Term) : Result Effect := do
  let selected ← selectedRows env t filter
  let gone (r : StoredRow) : Bool := selected.any (·.number == r.number)
  let rows := t.rows.filter fun r => !gone r
  return { database := db.put { t with rows }, changes := some selected.length }

/-- Runs a command.  The references are tried at the end of a change of rows. -/
def Command.run (db : Database) (settings : Settings) (params : List Cell) (command : Command) :
    Result Effect := do
  let env := db.env settings params
  let effect ← match command with
    | .select _ plan => do
      let rows ← Engine.run env none plan
      return { database := db, rows }
    | .insert t places supply => runInsert db env t places supply
    | .update t sets filter => runUpdate db env t sets filter
    | .delete t filter => runDelete db env t filter
    | .create t => return { database := db.put t }
    | .drop name => return { database := db.drop name }
    | .nothing => return { database := db }
  if effect.changes.isSome then effect.database.checkReferences
  return effect

end Recordkeeper.Engine
