/-!
Contract: the operators of a predicate and the connectives between predicates.

Owns: the enumerations, their classes and their names in messages.

Does not own: which operands an operator takes, which is `Condition`.
-/

set_option autoImplicit false

namespace Recordkeeper

inductive Operator where
  | equal
  | notEqual
  | greaterThan
  | greaterThanOrEqual
  | lessThan
  | lessThanOrEqual
  | like
  | notLike
  | isIn
  | notIn
  | isNull
  | isNotNull
  | between
  | notBetween
  | contains
  | startsWith
  | endsWith
  | regex
  | existsRow
  | notExists
  | inSubquery
  | notInSubquery
  deriving DecidableEq, Repr

namespace Operator

def isComparison : Operator → Bool
  | .equal | .notEqual | .greaterThan | .greaterThanOrEqual | .lessThan | .lessThanOrEqual => true
  | _ => false

def isSubqueryOnly : Operator → Bool
  | .existsRow | .notExists | .inSubquery | .notInSubquery => true
  | _ => false

def isPattern : Operator → Bool
  | .like | .notLike | .contains | .startsWith | .endsWith | .regex => true
  | _ => false

/-- Name of an operator in messages; comparisons are written as in SQL. -/
def display : Operator → String
  | .equal => "="
  | .notEqual => "<>"
  | .greaterThan => ">"
  | .greaterThanOrEqual => ">="
  | .lessThan => "<"
  | .lessThanOrEqual => "<="
  | .like => "LIKE"
  | .notLike => "NOT LIKE"
  | .isIn => "IN"
  | .notIn => "NOT IN"
  | .isNull => "IS NULL"
  | .isNotNull => "IS NOT NULL"
  | .between => "BETWEEN"
  | .notBetween => "NOT BETWEEN"
  | .contains => "CONTAINS"
  | .startsWith => "STARTS WITH"
  | .endsWith => "ENDS WITH"
  | .regex => "REGEX"
  | .existsRow => "EXISTS"
  | .notExists => "NOT EXISTS"
  | .inSubquery => "IN (subquery)"
  | .notInSubquery => "NOT IN (subquery)"

end Operator

/-- Connectives of a group of conditions.  Negation of several conditions holds when none of
them does. -/
inductive Logic where
  | and
  | or
  | not
  deriving DecidableEq, Repr

inductive SubqueryKind where
  | existence
  | membership
  | scalar
  | correlated
  deriving DecidableEq, Repr

inductive Dialect where
  | postgres
  | mysql
  | sqlite
  deriving DecidableEq, Repr

def Dialect.name : Dialect → String
  | .postgres => "Postgres"
  | .mysql => "MySql"
  | .sqlite => "Sqlite"

inductive LockMode where
  | none
  | forUpdate
  | forShare
  deriving DecidableEq, Repr

def LockMode.name : LockMode → String
  | .none => "None"
  | .forUpdate => "ForUpdate"
  | .forShare => "ForShare"

/-- States of a transaction; the last two are final. -/
inductive TxState where
  | idle
  | active
  | committing
  | committed
  | rolledBack
  deriving DecidableEq, Repr

namespace TxState

def isTerminal : TxState → Bool
  | .committed | .rolledBack => true
  | _ => false

def name : TxState → String
  | .idle => "idle"
  | .active => "active"
  | .committing => "committing"
  | .committed => "committed"
  | .rolledBack => "rolled back"

end TxState

end Recordkeeper
