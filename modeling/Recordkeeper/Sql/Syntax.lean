import Recordkeeper.Query
import Recordkeeper.Sql.Cell

/-!
Contract: statements as trees.

Owns: expressions, selections, and the statements that change rows, tables and transactions.

Does not own: what a name means, which depends on the tables there are.
-/

set_option autoImplicit false

namespace Recordkeeper.Sql

inductive Comparison where
  | eq
  | ne
  | lt
  | le
  | gt
  | ge
  deriving DecidableEq, Repr

inductive Arithmetic where
  | add
  | sub
  | mul
  | div
  | rem
  | concat
  | bitAnd
  | bitOr
  | shiftLeft
  | shiftRight
  deriving DecidableEq, Repr

mutual

inductive Expr where
  | literal (c : Cell)
  /-- A place for a value, counted from zero. -/
  | parameter (index : Nat)
  /-- A name; in double quotes it may also turn out to be a text. -/
  | column (table : Option String) (name : String) (quoted : Bool)
  | not (e : Expr)
  | and (a b : Expr)
  | or (a b : Expr)
  | compare (op : Comparison) (a b : Expr)
  /-- Equality that knows nulls. -/
  | same (negated : Bool) (a b : Expr)
  | isNull (negated : Bool) (e : Expr)
  | between (negated : Bool) (e low high : Expr)
  | inList (negated : Bool) (e : Expr) (items : List Expr)
  | inQuery (negated : Bool) (e : Expr) (q : Select)
  | like (negated : Bool) (e pattern : Expr) (escape : Option Expr)
  | regexp (negated : Bool) (e pattern : Expr)
  | arith (op : Arithmetic) (a b : Expr)
  | negate (e : Expr)
  | identity (e : Expr)
  | bitNot (e : Expr)
  | call (name : String) (distinct : Bool) (args : List Expr)
  /-- A function of whole rows. -/
  | callAll (name : String)
  | cast (e : Expr) (type : String)
  /-- A choice: tests and results in turns. -/
  | choose (subject : Option Expr) (branches : List Expr) (otherwise : Option Expr)
  | scalar (q : Select)
  | existsRow (q : Select)

inductive ResultColumn where
  | all
  | allOf (table : String)
  /-- An expression with its alias and its text. -/
  | expr (e : Expr) (label : Option String) (text : String)

inductive RowSource where
  /-- One row without columns. -/
  | nothing
  | table (name : String) (label : Option String)
  | query (q : Select) (label : Option String)
  | join (kind : JoinKind) (left right : RowSource) (on : Option Expr)

/-- A selection.  Every sort key has a direction of its own. -/
inductive Select where
  | mk (distinct : Bool) (results : List ResultColumn) (source : RowSource) (filter : Option Expr)
    (groupBy : List Expr) (having : Option Expr) (sort : List Expr) (descending : List Bool)
    (limit offset : Option Expr)

end

instance : Inhabited Expr := ⟨.literal .null⟩

/-- Columns of another table that a table refers to; no names mean its primary key. -/
structure Reference where
  columns : List String
  table : String
  targets : List String

/-- A rule every row has to obey, with the name it has in messages. -/
structure Check where
  name : String
  test : Expr

inductive Constraint where
  | primaryKey (columns : List String)
  | unique (columns : List String)
  | check (c : Check)
  | reference (r : Reference)

structure ColumnDef where
  name : String
  type : String := ""
  primaryKey : Bool := false
  autoIncrement : Bool := false
  notNull : Bool := false
  default : Option Expr := none
  /-- The other rules written at the column. -/
  constraints : List Constraint := []

inductive NewRows where
  | defaults
  | values (rows : List (List Expr))
  | selected (q : Select)

inductive Statement where
  | select (q : Select)
  | insert (table : String) (columns : List String) (rows : NewRows)
  | update (table : String) (assignments : List (String × Expr)) (filter : Option Expr)
  | delete (table : String) (filter : Option Expr)
  | createTable (ifMissing : Bool) (name : String) (columns : List ColumnDef)
    (constraints : List Constraint)
  | dropTable (ifPresent : Bool) (name : String)
  | begin
  | commit
  | rollback
  | savepoint (name : String)
  | release (name : String)
  | rollbackTo (name : String)

end Recordkeeper.Sql
