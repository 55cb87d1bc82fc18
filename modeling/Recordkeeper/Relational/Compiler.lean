import Recordkeeper.Pattern.Like
import Recordkeeper.Query
import Recordkeeper.Record
import Recordkeeper.Relational.Statement
import Recordkeeper.Schema

/-!
Contract: the relational statement of a query.

Owns:
- the text of conditions, joins, grouping, order, paging and locks in three dialects;
- statements that select, count, test, delete, insert and update.

Does not own: running a statement.

Subquery and join texts are taken as they are; everything else a caller names is an identifier
and is quoted.
-/

set_option autoImplicit false

namespace Recordkeeper.Relational

/-- The settings of a compilation; a schema maps logical fields to columns. -/
structure Compiler where
  dialect : Dialect := .sqlite
  schema : Option Schema := none

namespace Compiler

abbrev Written := Except Error (List Fragment)

def quote (c : Compiler) (ident : String) : Except Error String :=
  quoteIdentifier c.dialect ident

def column (c : Compiler) (field : String) : Except Error String :=
  c.quote (match c.schema with
    | some s => s.columnFor field
    | none => field)

def columns (c : Compiler) (fields : List String) : Except Error String := do
  let cols ← fields.mapM c.column
  return String.intercalate ", " cols

/-! ### Conditions -/

/-- Clause that makes the backslash the escape of a pattern. -/
def escapeClause : Dialect → String
  | .mysql => " ESCAPE '\\\\'"
  | .postgres | .sqlite => " ESCAPE '\\'"

def boundList : List Value → List Fragment
  | [] => []
  | [v] => [.bound v]
  | v :: w :: rest => .bound v :: .text ", " :: boundList (w :: rest)

def partPattern (op : Operator) (literal : String) : String :=
  match op with
  | .contains => "%" ++ Like.escape literal ++ "%"
  | .startsWith => Like.escape literal ++ "%"
  | _ => "%" ++ Like.escape literal

def regexOperator : Dialect → String
  | .postgres => "~"
  | .mysql | .sqlite => "REGEXP"

def predicateOn (c : Compiler) (p : Predicate) (col : String) : Written :=
  let binary (op : String) : Written := .ok [.text (col ++ " " ++ op ++ " "), .bound p.value]
  let membership (op : String) (empty : String) : Written :=
    match p.value.list?.getD [] with
    | [] => .ok [.text empty]
    | items => .ok (.text (col ++ op) :: boundList items ++ [.text ")"])
  let range (op : String) : Written := do
    let (low, high) ← p.bounds
    return [.text (col ++ op), .bound low, .text " AND ", .bound high]
  match p.effectiveOp with
  | .equal => binary "="
  | .notEqual => binary "<>"
  | .greaterThan => binary ">"
  | .greaterThanOrEqual => binary ">="
  | .lessThan => binary "<"
  | .lessThanOrEqual => binary "<="
  | .like => binary "LIKE"
  | .notLike => binary "NOT LIKE"
  | .isIn => membership " IN (" "1 = 0"
  | .notIn => membership " NOT IN (" (col ++ " IS NOT NULL")
  | .isNull => .ok [.text (col ++ " IS NULL")]
  | .isNotNull => .ok [.text (col ++ " IS NOT NULL")]
  | .between => range " BETWEEN "
  | .notBetween => range " NOT BETWEEN "
  | .contains | .startsWith | .endsWith =>
    .ok [.text (col ++ " LIKE "),
      .bound (.text (partPattern p.effectiveOp (p.value.text?.getD ""))),
      .text (escapeClause c.dialect)]
  | .regex => binary (regexOperator c.dialect)
  | .existsRow | .notExists | .inSubquery | .notInSubquery => refuse (.needsSubquery p.op)

/-- A predicate.  In conditions on groups the count stands for the size of the group. -/
def predicate (c : Compiler) (onGroups : Bool) (p : Predicate) : Written := do
  p.validate
  let col ← if onGroups && p.field = Query.countField then .ok "COUNT(*)" else c.column p.field
  c.predicateOn p col

def subqueryHead (c : Compiler) (q : Subquery) : Except Error String :=
  let onField (field op : String) : Except Error String := do
    let col ← c.column field
    return col ++ " " ++ op ++ " ("
  match q.field, q.op with
  | none, .existsRow => .ok "EXISTS ("
  | none, .notExists => .ok "NOT EXISTS ("
  | some field, .inSubquery => onField field "IN"
  | some field, .notInSubquery => onField field "NOT IN"
  | some field, op => if op.isComparison then onField field op.display else refuse (.subqueryOperator op)
  | none, op => refuse (.subqueryOperator op)

def subquery (c : Compiler) (q : Subquery) : Written := do
  q.validate
  let head ← c.subqueryHead q
  let body ← foreign q.raw q.args
  return .text head :: body ++ [.text ")"]

def joiner : Logic → String
  | .and => " AND "
  | .or | .not => " OR "

mutual

/-- A condition.  A group stands in parentheses; a negation is that of the disjunction of its
members.  An empty group is a constant comparison. -/
def condition (c : Compiler) (onGroups : Bool) : Condition → Written
  | .basic p => c.predicate onGroups p
  | .group logic [] =>
    match logic with
    | .and | .not => .ok [.text "1 = 1"]
    | .or => .ok [.text "1 = 0"]
  | .group logic (child :: rest) => do
    let body ← members c onGroups (joiner logic) (child :: rest)
    let head := match logic with
      | .not => "NOT ("
      | .and | .or => "("
    return .text head :: body ++ [.text ")"]
  | .sub q => c.subquery q
termination_by structural x => x

def members (c : Compiler) (onGroups : Bool) (between : String) : List Condition → Written
  | [] => .ok []
  | [child] => condition c onGroups child
  | child :: next :: rest => do
    let first ← condition c onGroups child
    let others ← members c onGroups between (next :: rest)
    return first ++ .text between :: others
termination_by structural x => x

end

def conjunction (c : Compiler) (onGroups : Bool) (conditions : List Condition) : Written :=
  match conditions with
  | [] => .ok [.text "1 = 1"]
  | cs => members c onGroups " AND " cs

def whereClause (c : Compiler) (conditions : List Condition) : Written :=
  match conditions with
  | [] => .ok []
  | cs => do
    let body ← c.conjunction false cs
    return .text " WHERE " :: body

/-! ### Clauses of a selection -/

/-- The selected columns; a grouped selection adds the size of the group. -/
def projection (c : Compiler) (q : Query) : Written :=
  if q.isGrouped then
    match q.ungroupedField? with
    | some field => refuse (.notGrouped field)
    | none => do
      let cols ← (if q.select.isEmpty then q.groupBy else q.select).mapM c.column
      let count ← c.quote Query.countField
      return [.text (String.join (cols.map (· ++ ", ")) ++ "COUNT(*) AS " ++ count)]
  else if q.select.isEmpty then .ok [.text "*"]
  else do
    let cols ← c.columns q.select
    return [.text cols]

def joinWords : JoinKind → String
  | .inner => " INNER JOIN "
  | .left => " LEFT JOIN "
  | .right => " RIGHT JOIN "
  | .full => " FULL JOIN "

def joinClause (c : Compiler) (j : Join) : Written := do
  if c.dialect = .mysql ∧ j.kind = .full then refuse .noFullJoin
  let table ← c.quote j.table
  return [.text (joinWords j.kind ++ table ++ " ON " ++ j.on)]

def joinClauses (c : Compiler) (q : Query) : Written := do
  let clauses ← q.joins.mapM c.joinClause
  return clauses.flatten

def groupClause (c : Compiler) (q : Query) : Written :=
  if q.isGrouped then do
    let cols ← c.columns q.groupBy
    return [.text (" GROUP BY " ++ cols)]
  else .ok []

def havingClause (c : Compiler) (q : Query) : Written :=
  if q.having.isEmpty then .ok []
  else if !q.isGrouped then refuse .havingWithoutGroup
  else do
    let body ← c.conjunction true q.having
    return .text " HAVING " :: body

def sortTerm (c : Compiler) (q : Query) (key : SortKey) : Except Error String := do
  let col ← if q.isGrouped && key.field = Query.countField then .ok "COUNT(*)" else c.column key.field
  return col ++ (match key.direction with
    | .asc => " ASC"
    | .desc => " DESC")

def sortClause (c : Compiler) (q : Query) : Written :=
  if q.sort.isEmpty then .ok []
  else do
    let terms ← q.sort.mapM (c.sortTerm q)
    return [.text (" ORDER BY " ++ String.intercalate ", " terms)]

/-- The clause of a page.  An offset alone needs a limit that limits nothing in two of the
dialects. -/
def pageClause (c : Compiler) (q : Query) : List Fragment :=
  match q.limit, q.offset with
  | none, none => []
  | some limit, none => [.text (" LIMIT " ++ toString limit)]
  | some limit, some offset =>
    [.text (" LIMIT " ++ toString limit ++ " OFFSET " ++ toString offset)]
  | none, some offset =>
    let head := match c.dialect with
      | .postgres => ""
      | .mysql => " LIMIT 18446744073709551615"
      | .sqlite => " LIMIT -1"
    [.text (head ++ " OFFSET " ++ toString offset)]

def lockClause (c : Compiler) (mode : LockMode) : Written :=
  match c.dialect, mode with
  | _, .none => .ok []
  | .postgres, .forUpdate | .mysql, .forUpdate => .ok [.text " FOR UPDATE"]
  | .postgres, .forShare => .ok [.text " FOR SHARE"]
  | .mysql, .forShare => .ok [.text " LOCK IN SHARE MODE"]
  | .sqlite, mode => refuse (.noRowLock mode)

/-- A selection; page and lock are left out inside of another statement. -/
def selection (c : Compiler) (table : String) (q : Query) (paged : Bool) : Written := do
  let cols ← c.projection q
  let source ← c.quote table
  let joins ← c.joinClauses q
  let rows ← c.whereClause q.conditions
  let groups ← c.groupClause q
  let having ← c.havingClause q
  let order ← c.sortClause q
  let lock ← if paged then c.lockClause q.lock else .ok []
  let head := if q.isDistinct then "SELECT DISTINCT " else "SELECT "
  return .text head :: cols ++ .text (" FROM " ++ source) :: joins ++ rows ++ groups ++ having
    ++ order ++ (if paged then c.pageClause q else []) ++ lock

/-- Rows of a table under a head, without grouping and order. -/
def plainRows (c : Compiler) (head table : String) (q : Query) : Written := do
  let source ← c.quote table
  let joins ← c.joinClauses q
  let rows ← c.whereClause q.conditions
  return .text (head ++ source) :: joins ++ rows

def finish (c : Compiler) (fragments : List Fragment) (preloads : List String) : Statement :=
  .ofFragments c.dialect fragments preloads

/-! ### Statements -/

def compilePredicate (c : Compiler) (conditions : List Condition) : Except Error Statement := do
  let body ← c.conjunction false conditions
  return c.finish body []

def compileSelect (c : Compiler) (table : String) (q : Query) : Except Error Statement := do
  q.validate
  let body ← c.selection table q true
  return c.finish body q.preloads

/-- Counts rows, or the rows of a grouped or merged selection; order and paging do not
matter. -/
def compileCount (c : Compiler) (table : String) (q : Query) : Except Error Statement := do
  q.validate
  let q := q.unpaged
  if q.isGrouped || q.isDistinct then
    let body ← c.selection table q false
    return c.finish (.text "SELECT COUNT(*) FROM (" :: body ++ [.text ") AS counted"]) []
  else
    let body ← c.plainRows "SELECT COUNT(*) FROM " table q
    return c.finish body []

/-- One row if some row is selected after the offset; the limit does not matter.  Whatever
merges or drops rows is tested on the whole selection. -/
def compileExists (c : Compiler) (table : String) (q : Query) : Except Error Statement := do
  q.validate
  let wrapped := q.isGrouped || !q.having.isEmpty || q.offset.isSome || q.isDistinct
  let body ←
    if wrapped then do
      let inner ← c.selection table q.unpaged false
      pure (.text "SELECT 1 FROM (" :: inner ++ [.text ") AS matched"])
    else c.plainRows "SELECT 1 FROM " table q
  let page := match q.offset with
    | some offset => " LIMIT 1 OFFSET " ++ toString offset
    | none => " LIMIT 1"
  return c.finish (body ++ [.text page]) []

def compileDelete (c : Compiler) (table : String) (q : Query) : Except Error Statement := do
  q.validate
  q.checkDelete
  let source ← c.quote table
  let rows ← c.whereClause q.conditions
  return c.finish (.text ("DELETE FROM " ++ source) :: rows) []

/-- Inserts one record, with the columns in the given order and null for missing fields. -/
def compileInsert (c : Compiler) (table : String) (fields : List String) (r : Record) :
    Except Error Statement := do
  if fields.isEmpty then refuse .insertWithoutColumn
  let target ← c.quote table
  let cols ← c.columns fields
  return c.finish
    (.text ("INSERT INTO " ++ target ++ " (" ++ cols ++ ") VALUES (")
      :: boundList (fields.map r.valueAt) ++ [.text ")"]) []

def assignments (c : Compiler) (between : String) : List (String × Value) → Written
  | [] => .ok []
  | (field, v) :: rest => do
    let col ← c.column field
    let others ← c.assignments ", " rest
    return .text (between ++ col ++ " = ") :: .bound v :: others

def compileUpdate (c : Compiler) (table keyField : String) (id : Value)
    (fields : List (String × Value)) : Except Error Statement := do
  if fields.isEmpty then refuse .updateWithoutField
  let target ← c.quote table
  let sets ← c.assignments "" fields
  let key ← c.column keyField
  return c.finish
    (.text ("UPDATE " ++ target ++ " SET ") :: sets
      ++ [.text (" WHERE " ++ key ++ " = "), .bound id]) []

end Compiler

end Recordkeeper.Relational
