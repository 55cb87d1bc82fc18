import Recordkeeper.Engine.Evaluate

/-!
Contract: tables and the rules their rows obey.

Owns:
- tables with their columns, rules and numbered rows;
- inserting, changing and deleting rows under the rules;
- references between tables.

Does not own: the statements that ask for it.

The rules are tried in a fixed order: missing values, tests, the number of the row, and unique
columns from the rule declared last to the first.  References are tried once a statement has done
all its changes.
-/

set_option autoImplicit false

namespace Recordkeeper.Engine

open Sql

structure Column where
  name : String
  affinity : Affinity
  notNull : Bool
  /-- Value of a row that brings none. -/
  default : Option Term

structure UniqueRule where
  columns : List Nat
  primary : Bool

structure CheckRule where
  name : String
  test : Term

/-- Columns whose values occur in another table; no targets mean its primary key. -/
structure ReferenceRule where
  columns : List Nat
  table : String
  targets : List String

structure StoredRow where
  number : Int64
  cells : Row

structure Table where
  name : String
  columns : List Column
  /-- The column that is the number of the row. -/
  numberColumn : Option Nat
  /-- Numbers are not used again after their row is gone. -/
  autoIncrement : Bool
  /-- Last declared first. -/
  uniques : List UniqueRule
  checks : List CheckRule
  references : List ReferenceRule
  rows : List StoredRow := []
  /-- The greatest number there has been, where numbers are not used again. -/
  highest : Int := 0

structure Database where
  tables : List Table := []

namespace StoredRow

def full (r : StoredRow) : Row := r.cells ++ [.integer r.number]

end StoredRow

namespace Table

def place? (t : Table) (column : String) : Option Nat :=
  t.columns.findIdx? fun c => sameName c.name column

def columnName (t : Table) (place : Nat) : String := (t.columns[place]?.map (·.name)).getD ""

/-- Whether the rows can be read in the order of the column at a place: that of their numbers,
which stands behind the columns too, or the first one of a rule about unique columns. -/
def isIndexed (t : Table) (place : Nat) : Bool :=
  t.numberColumn == some place || place == t.columns.length ||
    t.uniques.any fun u => u.columns.head? == some place

def shown (t : Table) (places : List Nat) : String :=
  String.intercalate ", " (places.map fun i => t.name ++ "." ++ t.columnName i)

def cellsAt (row : Row) (places : List Nat) : Row := places.map fun i => row[i]?.getD .null

/-! ### Rules -/

def checkMissing (t : Table) (row : Row) : Result Unit :=
  let lacking (i : Nat) (c : Column) : Bool := c.notNull && ((row[i]?).getD .null).isNull
  match (List.range t.columns.length).find? fun i => t.columns[i]?.any (lacking i) with
  | some i => .error (.missingValue (t.shown [i]))
  | none => .ok ()

/-- No test is false of a row; an unknown one passes. -/
def checkTests (settings : Settings) (row : StoredRow) : List CheckRule → Result Unit
  | [] => .ok ()
  | rule :: rest => do
    let env : Env := { table := fun _ => [], params := [], settings, rows := [row.full] }
    let c ← eval env rule.test
    if c.truth? == some false then throw (.failedCheck rule.name)
    else checkTests settings row rest

def checkNumber (t : Table) (others : List StoredRow) (number : Int64) : Result Unit :=
  if others.any (·.number == number) then
    match t.numberColumn with
    | some i => .error (.repeatedKey (t.shown [i]))
    | none => .error (.repeatedNumber t.name)
  else .ok ()

/-- The values of unique columns are those of no other row; a null is like nothing else. -/
def checkUniques (t : Table) (others : List StoredRow) (row : Row) : List UniqueRule → Result Unit
  | [] => .ok ()
  | rule :: rest =>
    let key := cellsAt row rule.columns
    if !key.any Cell.isNull && others.any fun o => Cell.sameRow (cellsAt o.cells rule.columns) key
    then
      .error (if rule.primary then .repeatedKey (t.shown rule.columns)
        else .repeatedValue (t.shown rule.columns))
    else t.checkUniques others row rest

/-- Whether a row obeys the rules of a table beside other rows. -/
def check (t : Table) (settings : Settings) (others : List StoredRow) (row : StoredRow) :
    Result Unit := do
  t.checkMissing row.cells
  checkTests settings row t.checks
  t.checkNumber others row.number
  t.checkUniques others row.cells t.uniques

/-! ### Rows -/

def putRow (row : StoredRow) : List StoredRow → List StoredRow
  | [] => [row]
  | r :: rest => if row.number.toInt < r.number.toInt then row :: r :: rest else r :: putRow row rest

def freshNumber (t : Table) : Result Int64 :=
  let last := match t.rows.getLast? with
    | some r => r.number.toInt
    | none => 0
  let number := (if t.autoIncrement then max last t.highest else last) + 1
  if Int64.maxValue.toInt < number then .error .tableFull
  else .ok (Int64.ofInt number)

def numberOf (c : Cell) : Result Int64 :=
  match Affinity.apply .integer c with
  | .integer n => .ok n
  | _ => .error .typeMismatch

def convert (t : Table) (row : Row) : Row :=
  List.zipWith (fun (c : Column) cell => c.affinity.apply cell) t.columns row

/-- The row of some cells, with its number in the column that holds it. -/
def rowOf (t : Table) (number : Int64) (cells : Row) : StoredRow :=
  let cells := t.convert cells
  ⟨number, match t.numberColumn with
    | some i => cells.set i (.integer number)
    | none => cells⟩

/-- The number some cells bring along, none for a null. -/
def givenNumber (t : Table) (cells : Row) : Result (Option Int64) :=
  match t.numberColumn with
  | none => .ok none
  | some i =>
    match cells[i]?.getD .null with
    | .null => .ok none
    | c => some <$> numberOf c

/-- Adds a row; gives its number. -/
def insert (t : Table) (settings : Settings) (cells : Row) : Result (Table × Int64) := do
  let number ← match ← t.givenNumber cells with
    | some n => pure n
    | none => t.freshNumber
  let row := t.rowOf number cells
  t.check settings t.rows row
  return ({ t with rows := putRow row t.rows, highest := max t.highest number.toInt }, number)

def replace (t : Table) (settings : Settings) (old : Int64) (cells : Row) : Result Table := do
  let number ← match t.numberColumn with
    | none => pure old
    | some i => numberOf (cells[i]?.getD .null)
  let row := t.rowOf number cells
  let others := t.rows.filter fun r => r.number != old
  t.check settings others row
  return { t with rows := putRow row others }

/-- The columns a reference to the table points at, if they tell its rows apart. -/
def targetPlaces? (t : Table) (targets : List String) : Option (List Nat) :=
  if targets.isEmpty then
    match t.numberColumn with
    | some i => some [i]
    | none => (t.uniques.find? (·.primary)).map (·.columns)
  else do
    let places ← targets.mapM t.place?
    let same (columns : List Nat) : Bool :=
      columns.length == places.length && columns.all places.contains
    if t.numberColumn.any (fun i => same [i]) || t.uniques.any (fun u => same u.columns) then
      return places
    else none

end Table

namespace Database

def table? (db : Database) (name : String) : Option Table :=
  db.tables.find? fun t => sameName t.name name

def put (db : Database) (t : Table) : Database :=
  if (db.table? t.name).isSome then
    ⟨db.tables.map fun u => if sameName u.name t.name then t else u⟩
  else ⟨db.tables ++ [t]⟩

def drop (db : Database) (name : String) : Database :=
  ⟨db.tables.filter fun t => !sameName t.name name⟩

def rowsOf (db : Database) (name : String) : List Row :=
  ((db.table? name).map fun t => t.rows.map StoredRow.full).getD []

def env (db : Database) (settings : Settings) (params : List Cell) : Env :=
  { table := db.rowsOf, params, settings }

/-! ### References -/

/-- Whether a table has a row with a key, which takes on the affinities of the columns. -/
def hasRow (t : Table) (places : List Nat) (key : Row) : Bool :=
  let affinities := places.map fun i => (t.columns[i]?.map (·.affinity)).getD .blob
  let key := List.zipWith Affinity.apply affinities key
  t.rows.any fun r => Cell.sameRow (Table.cellsAt r.cells places) key

/-- Every row without nulls in the columns of a reference has a row it refers to. -/
def checkReference (db : Database) (t : Table) (rule : ReferenceRule) : Result Unit :=
  let keys := (t.rows.map fun r => Table.cellsAt r.cells rule.columns).filter
    fun key => !key.any Cell.isNull
  if keys.isEmpty then .ok ()
  else
    match db.table? rule.table with
    | none => .error (.noTable ("main." ++ rule.table))
    | some target =>
      match target.targetPlaces? rule.targets with
      | none => .error (.badReference t.name rule.table)
      | some places =>
        if keys.all (hasRow target places) then .ok () else .error .brokenReference

def checkReferences (db : Database) : Result Unit :=
  db.tables.forM fun t => t.references.forM (db.checkReference t)

end Database

end Recordkeeper.Engine
