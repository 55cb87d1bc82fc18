import Recordkeeper.Sql.Syntax

/-!
Contract: statements after their names have been looked up.

Owns:
- terms, whose columns are places in rows;
- plans of selections;
- the functions there are.

Does not own: looking up names, and the values of terms.

Negated tests, ranges and choices by a subject have no form of their own: they are written with
the others.
-/

set_option autoImplicit false

namespace Recordkeeper.Engine

open Sql

abbrev Row := List Cell

inductive Function where
  | absolute
  | coalesce
  | nullIf
  | length
  | lower
  | upper
  | typeName
  | least
  | greatest
  /-- Whether a pattern, the first argument, matches somewhere in a text, the second one. -/
  | regexp
  deriving DecidableEq, Repr

inductive Aggregate where
  | count
  | sum
  | total
  | average
  | least
  | greatest
  deriving DecidableEq, Repr

mutual

inductive Term where
  | constant (c : Cell)
  | parameter (index : Nat)
  /-- A place in the row of a selection, counted from the innermost one. -/
  | cell (depth index : Nat)
  | not (t : Term)
  | and (a b : Term)
  | or (a b : Term)
  | compare (op : Comparison) (affinity : Option Affinity) (a b : Term)
  | same (affinity : Option Affinity) (a b : Term)
  | isNull (t : Term)
  | inList (affinity : Option Affinity) (t : Term) (items : List Term)
  | inQuery (affinity : Option Affinity) (t : Term) (q : Plan)
  | like (text pattern : Term) (escape : Option Term)
  | arith (op : Arithmetic) (a b : Term)
  | negate (t : Term)
  | bitNot (t : Term)
  | call (f : Function) (args : List Term)
  | cast (affinity : Affinity) (t : Term)
  /-- Tests and results in turns. -/
  | choose (branches : List Term) (otherwise : Option Term)
  | scalar (q : Plan)
  | existsRow (q : Plan)
  | countAll
  | aggregate (f : Aggregate) (distinct : Bool) (arg : Term)

inductive Rows where
  | one
  /-- The rows of a table, each with its number behind the columns. -/
  | table (name : String)
  | query (q : Plan)
  | join (kind : JoinKind) (left right : Rows) (leftWidth rightWidth : Nat) (on : List Term)

/-- A selection.  The filter and the test of groups are lists of conditions that all have to be
true.  A list of keys makes groups, the empty list one group of all rows; a group is shown by the
row at which `extreme` is least or `greatest`.  Rows are `presorted` where an index gives them in
the order of the sort keys. -/
inductive Plan where
  | mk (distinct : Bool) (results : List Term) (rows : Rows) (filter : List Term)
    (grouping : Option (List Term)) (extreme : Option Term) (greatest : Bool)
    (having : List Term) (sort : List Term) (descending : List Bool) (presorted : Bool)
    (limit offset : Option Term)

end

def Term.conjuncts : Term → List Term
  | .and a b => a.conjuncts ++ b.conjuncts
  | t => [t]

/-- The conditions of a clause that may be missing. -/
def conditionsOf (clause : Option Term) : List Term := (clause.map Term.conjuncts).getD []

instance : Inhabited Term := ⟨.constant .null⟩

/-- Names in a text are the same whatever their case. -/
def sameName (a b : String) : Bool := a.toLower == b.toLower

end Recordkeeper.Engine
