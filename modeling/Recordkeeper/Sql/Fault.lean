import Recordkeeper.Failure

/-!
Contract: what can be wrong with a statement.

Owns: the causes, their wording and the codes they are reported with.

Does not own: which statement has which fault.
-/

set_option autoImplicit false

namespace Recordkeeper.Sql

inductive PositionClause where
  | orderBy
  | groupBy
  deriving DecidableEq, Repr

/-- Why a statement is refused or fails. -/
inductive Fault where
  -- texts
  | incomplete
  | unexpected (token : String)
  | unrecognized (token : String)
  | nothingToRun
  -- names
  | noTable (name : String)
  | noTables
  | noColumn (name : String)
  | ambiguousColumn (name : String)
  | noFunction (name : String)
  | wrongArity (function : String)
  | misplacedAggregate (function : String)
  | aggregateWithoutGroup (function : String)
  | misplacedAlias (name : String)
  | aggregateKey
  | havingWithoutGroups
  | positionRange (clause : PositionClause) (position results : Nat)
  | manyColumns (count : Nat)
  | misusedRow
  -- new rows
  | noSuchTarget (table column : String)
  | rowWidth (table : String) (columns values : Nat)
  | targetWidth (columns values : Nat)
  | unevenRows
  -- new tables
  | tableExists (name : String)
  | reservedName (name : String)
  | repeatedColumn (name : String)
  | manyKeys (table : String)
  | misplacedAutoIncrement
  -- rules; columns come with their tables
  | missingValue (column : String)
  | failedCheck (name : String)
  | repeatedKey (columns : String)
  | repeatedValue (columns : String)
  | repeatedNumber (table : String)
  | brokenReference
  | badReference (table target : String)
  -- values
  | typeMismatch
  | tableFull
  | integerOverflow
  | escapeLength
  | wrongPattern
  | patternType
  -- transactions
  | nestedTransaction
  | nothingToCommit
  | nothingToRollBack
  | noSavepoint (name : String)
  deriving DecidableEq, Repr

namespace Fault

def ordinal (n : Nat) : String :=
  let ending :=
    if n % 100 / 10 = 1 then "th"
    else if n % 10 = 1 then "st"
    else if n % 10 = 2 then "nd"
    else if n % 10 = 3 then "rd"
    else "th"
  toString n ++ ending

def clauseWords : PositionClause → String
  | .orderBy => "ORDER BY"
  | .groupBy => "GROUP BY"

def message : Fault → String
  | .incomplete => "incomplete input"
  | .unexpected token => "near \"" ++ token ++ "\": syntax error"
  | .unrecognized token => "unrecognized token: \"" ++ token ++ "\""
  | .nothingToRun => "not an error"
  | .noTable name => "no such table: " ++ name
  | .noTables => "no tables specified"
  | .noColumn name => "no such column: " ++ name
  | .ambiguousColumn name => "ambiguous column name: " ++ name
  | .noFunction name => "no such function: " ++ name
  | .wrongArity function => "wrong number of arguments to function " ++ function ++ "()"
  | .misplacedAggregate function => "misuse of aggregate function " ++ function ++ "()"
  | .aggregateWithoutGroup function => "misuse of aggregate: " ++ function ++ "()"
  | .misplacedAlias name => "misuse of aliased aggregate " ++ name
  | .aggregateKey => "aggregate functions are not allowed in the GROUP BY clause"
  | .havingWithoutGroups => "HAVING clause on a non-aggregate query"
  | .positionRange clause position results =>
    ordinal position ++ " " ++ clauseWords clause ++ " term out of range - should be between 1 and "
      ++ toString results
  | .manyColumns count => "sub-select returns " ++ toString count ++ " columns - expected 1"
  | .misusedRow => "row value misused"
  | .noSuchTarget table column => "table " ++ table ++ " has no column named " ++ column
  | .rowWidth table columns values =>
    "table " ++ table ++ " has " ++ toString columns ++ " columns but " ++ toString values
      ++ " values were supplied"
  | .targetWidth columns values => toString values ++ " values for " ++ toString columns ++ " columns"
  | .unevenRows => "all VALUES must have the same number of terms"
  | .tableExists name => "table " ++ name ++ " already exists"
  | .reservedName name => "object name reserved for internal use: " ++ name
  | .repeatedColumn name => "duplicate column name: " ++ name
  | .manyKeys table => "table \"" ++ table ++ "\" has more than one primary key"
  | .misplacedAutoIncrement => "AUTOINCREMENT is only allowed on an INTEGER PRIMARY KEY"
  | .missingValue column => "NOT NULL constraint failed: " ++ column
  | .failedCheck name => "CHECK constraint failed: " ++ name
  | .repeatedKey columns | .repeatedValue columns => "UNIQUE constraint failed: " ++ columns
  | .repeatedNumber table => "UNIQUE constraint failed: " ++ table ++ ".rowid"
  | .brokenReference => "FOREIGN KEY constraint failed"
  | .badReference table target =>
    "foreign key mismatch - \"" ++ table ++ "\" referencing \"" ++ target ++ "\""
  | .typeMismatch => "datatype mismatch"
  | .tableFull => "database or disk is full"
  | .integerOverflow => "integer overflow"
  | .escapeLength => "ESCAPE expression must be a single character"
  | .wrongPattern => "<regex error>"
  | .patternType => "Invalid type"
  | .nestedTransaction => "cannot start a transaction within a transaction"
  | .nothingToCommit => "cannot commit - no transaction is active"
  | .nothingToRollBack => "cannot rollback - no transaction is active"
  | .noSavepoint name => "no such savepoint: " ++ name

/-- A fault as the engine reports it.  A statement with a fault in its text or names is refused
before it runs. -/
def failure (f : Fault) : SqlFailure :=
  let constraint (extended : Int) : SqlFailure := .engine .constraint extended f.message
  match f with
  | .missingValue _ => constraint 1299
  | .failedCheck _ => constraint 275
  | .repeatedKey _ => constraint primaryKeyViolation
  | .repeatedValue _ => constraint uniqueViolation
  | .repeatedNumber _ => constraint 2579
  | .brokenReference => constraint 787
  | .typeMismatch => .engine .typeMismatch 20 f.message
  | .tableFull => .engine .diskFull 13 f.message
  | .nothingToRun => .engine .misuse 21 f.message
  | .integerOverflow | .escapeLength | .wrongPattern | .patternType | .nestedTransaction
  | .nothingToCommit | .nothingToRollBack | .noSavepoint _ => .engine .unknown 1 f.message
  | f => .rejected f.message

end Fault

end Recordkeeper.Sql
