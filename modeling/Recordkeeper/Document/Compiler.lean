import Recordkeeper.Config
import Recordkeeper.Json.Basic
import Recordkeeper.Pattern.Like
import Recordkeeper.Query
import Recordkeeper.Schema

/-!
Contract: the document command of a query.

Owns:
- filters for conditions, in which negated operators never select a missing or null field;
- subqueries read as tests of a joined array, and the degradations where that fails;
- find, count and pipeline commands.

Does not own: evaluating filters and pipelines, and finding the table a subquery reads from.
-/

set_option autoImplicit false

namespace Recordkeeper.Document

def idField : String := "_id"

/-- A subquery that was replaced by the filter that selects everything. -/
structure Degradation where
  raw : String
  reason : String
  deriving DecidableEq, Repr

structure FindOptions where
  /-- Paths in priority, with true for descending order. -/
  sort : List (String × Bool) := []
  skip : Option Nat := none
  limit : Option Nat := none
  projection : Option Json := none

inductive Command where
  | find (filter : Json) (options : FindOptions)
  | count (filter : Json)
  | aggregate (pipeline : List Json)

/-- A result with the degradations taken on the way, in order. -/
abbrev Degraded (α : Type) := α × List Degradation

structure Compiler where
  policy : SubqueryPolicy := .permissive
  schema : Option Schema := none
  /-- The table a subquery reads from first, if its text tells. -/
  collectionOf : String → Option String

/-- The filter that selects nothing. -/
def selectNothing : Json := .single idField (.single "$in" (.array []))

def selectAll : Json := .emptyObject

def isSelectAll : Json → Bool
  | .object [] => true
  | _ => false

namespace Compiler

def key (c : Compiler) (field : String) : String :=
  match c.schema with
  | some s => if s.isPrimaryKey field then idField else s.columnFor field
  | none => if field = "id" then idField else field

/-! ### Filters -/

/-- The condition on the value of a field, or none for the one operator that needs two. -/
def fieldTest (p : Predicate) : Except Error (Option Json) :=
  let value := p.value.toJson
  let items := Value.toJsonItems (p.value.list?.getD [])
  let text := p.value.text?.getD ""
  let literal := String.ofList (Regex.Parser.escape text.toList)
  let test (op : String) (v : Json) : Except Error (Option Json) := .ok (some (.single op v))
  match p.effectiveOp with
  | .equal => test "$eq" value
  | .notEqual => test "$nin" (.array [value, .null])
  | .greaterThan => test "$gt" value
  | .greaterThanOrEqual => test "$gte" value
  | .lessThan => test "$lt" value
  | .lessThanOrEqual => test "$lte" value
  | .isIn => test "$in" (.array items)
  | .notIn => test "$nin" (.array (items ++ [.null]))
  | .isNull => .ok (some .null)
  | .isNotNull => test "$ne" .null
  | .between => do
    let (low, high) ← p.bounds
    return some (.object [("$gte", low.toJson), ("$lte", high.toJson)])
  | .notBetween => .ok none
  | .like => test "$regex" (.text (Like.toRegex text))
  | .notLike =>
    .ok (some (.object [("$not", .single "$regex" (.text (Like.toRegex text))), ("$ne", .null)]))
  | .contains => test "$regex" (.text literal)
  | .startsWith => test "$regex" (.text ("^" ++ literal))
  | .endsWith => test "$regex" (.text (literal ++ "$"))
  | .regex => test "$regex" (.text text)
  | .existsRow | .notExists | .inSubquery | .notInSubquery => refuse (.needsSubquery p.op)

/-- The filter of a predicate; `mapped` fields are logical names. -/
def predicate (c : Compiler) (mapped : Bool) (p : Predicate) : Except Error Json := do
  p.validate
  let field := if mapped then c.key p.field else p.field
  match ← fieldTest p with
  | some test => return .single field test
  | none => do
    let (low, high) ← p.bounds
    return .single "$or" (.array
      [.single field (.single "$lt" low.toJson), .single field (.single "$gt" high.toJson)])

/-- What becomes of a subquery that cannot be translated. -/
def degrade (c : Compiler) (q : Subquery) (reason : String) : Except Error (Degraded Json) :=
  match c.policy with
  | .strict => refuse (.untranslatable reason)
  | .permissive => .ok (selectAll, [⟨q.raw, reason⟩])

def comparisonName : Operator → String
  | .equal => "$eq"
  | .notEqual => "$ne"
  | .greaterThan => "$gt"
  | .greaterThanOrEqual => "$gte"
  | .lessThan => "$lt"
  | _ => "$lte"

/-- A subquery as a test of the array that joins the documents of its collection. -/
def subquery (c : Compiler) (q : Subquery) : Except Error (Degraded Json) := do
  q.validate
  match c.collectionOf q.raw with
  | none => c.degrade q "cannot determine subquery collection"
  | some collection =>
    let joined : Json :=
      .single "$ifNull" (.array [.text ("$" ++ collection ++ "_joined"), .array []])
    let expression (e : Json) : Except Error (Degraded Json) := .ok (.single "$expr" e, [])
    let size (op : String) : Except Error (Degraded Json) :=
      expression (.single op (.array [.single "$size" joined, .int 0]))
    match q.op, q.field.map fun f => Json.text ("$" ++ c.key f) with
    | .existsRow, _ => size "$gt"
    | .notExists, _ => size "$eq"
    | .inSubquery, some f => expression (.single "$in" (.array [f, joined]))
    | .notInSubquery, some f =>
      expression (.single "$not" (.array [.single "$in" (.array [f, joined])]))
    | op, some f =>
      if op.isComparison then
        expression (.single (comparisonName op)
          (.array [f, .single "$arrayElemAt" (.array [joined, .int 0])]))
      else c.degrade q ("operator " ++ op.display ++ " has no document form")
    | op, none => c.degrade q ("operator " ++ op.display ++ " has no document form")

def groupOperator : Logic → String
  | .and => "$and"
  | .or => "$or"
  | .not => "$nor"

mutual

def condition (c : Compiler) (mapped : Bool) : Condition → Except Error (Degraded Json)
  | .basic p => do
    let filter ← c.predicate mapped p
    return (filter, [])
  | .group logic [] =>
    match logic with
    | .and | .not => .ok (selectAll, [])
    | .or => .ok (selectNothing, [])
  | .group logic (child :: rest) => do
    let (filters, degradations) ← conditions c mapped (child :: rest)
    return (.single (groupOperator logic) (.array filters), degradations)
  | .sub q => c.subquery q
termination_by structural x => x

/-- The filters of several conditions, with their degradations in order. -/
def conditions (c : Compiler) (mapped : Bool) :
    List Condition → Except Error (Degraded (List Json))
  | [] => .ok ([], [])
  | child :: rest => do
    let (filter, first) ← condition c mapped child
    let (filters, others) ← conditions c mapped rest
    return (filter :: filters, first ++ others)
termination_by structural x => x

end

def conjunction (c : Compiler) (mapped : Bool) (cs : List Condition) :
    Except Error (Degraded Json) :=
  match cs with
  | [] => .ok (selectAll, [])
  | [single] => c.condition mapped single
  | many => do
    let (filters, degradations) ← c.conditions mapped many
    return (.single "$and" (.array filters), degradations)

def compileFilter (c : Compiler) (cs : List Condition) : Except Error (Degraded Json) :=
  c.conjunction true cs

/-! ### Commands -/

/-- Joins, preloads and locks are refused, and conditions on groups without grouping. -/
def checkSupported (q : Query) : Except Error Unit := do
  q.validate
  if !q.joins.isEmpty then refuse (.unsupportedPart .joins .document)
  if !q.preloads.isEmpty then refuse (.unsupportedPart .preloads .document)
  if q.lock ≠ .none then refuse (.unsupportedPart .rowLocks .document)
  if !q.having.isEmpty && !q.isGrouped then refuse .havingWithoutGroup

def needsPipeline (q : Query) : Bool := q.isGrouped || q.isDistinct

def objectOf (fields : List (String × Json)) : Json :=
  .object (fields.foldl (fun acc f => Fields.insert acc f.1 f.2) [])

def directionNumber : Direction → Json
  | .asc => .int 1
  | .desc => .int (-1)

/-- The stage that groups documents by the values of fields, under their logical names. -/
def groupStage (c : Compiler) (grouped : Bool) (keys : List String) : Json :=
  let id := objectOf (keys.map fun k => (k, .text ("$" ++ c.key k)))
  let count := if grouped then [(Query.countField, Json.single "$sum" (.int 1))] else []
  .single "$group" (objectOf ((idField, id) :: count))

def rowStage (grouped : Bool) (output : List String) : Json :=
  let values := output.map fun k => (k, Json.text ("$_id." ++ k))
  let count := if grouped then [(Query.countField, Json.int 1)] else []
  .single "$project" (objectOf ((idField, .int 0) :: values ++ count))

def pageStages (q : Query) : List Json :=
  let sort :=
    if q.sort.isEmpty then []
    else [.single "$sort" (objectOf (q.sort.map fun k => (k.field, directionNumber k.direction)))]
  let skip := match q.offset with
    | some n => [Json.single "$skip" (.int n)]
    | none => []
  let limit := match q.limit with
    | some n => [Json.single "$limit" (.int n)]
    | none => []
  sort ++ skip ++ limit

/-- The pipeline of a grouped or merging query whose rows pass `filter`: match, group, rows,
the conditions on groups, and order and page if asked for.  Rows carry logical names, so the
later stages map no names. -/
def pipeline (c : Compiler) (q : Query) (filter : Json) (paged : Bool) :
    Except Error (Degraded (List Json)) := do
  let grouped := q.isGrouped
  let keys := if grouped then q.groupBy else q.select
  if grouped then
    match q.ungroupedField? with
    | some field => refuse (.notGrouped field)
    | none => pure ()
  let output := if grouped && !q.select.isEmpty then q.select else keys
  let rows := if isSelectAll filter then [] else [Json.single "$match" filter]
  let (having, degradations) ←
    if q.having.isEmpty then pure ([], [])
    else do
      let (having, degradations) ← c.conjunction false q.having
      pure ([Json.single "$match" having], degradations)
  return (rows ++ [c.groupStage grouped keys, rowStage grouped output] ++ having
    ++ (if paged then pageStages q else []), degradations)

/-- The projection of a selection; the id is left out unless it is selected. -/
def projection (c : Compiler) (q : Query) : Option Json :=
  if q.select.isEmpty then none
  else
    let names := q.select.map c.key
    let included := names.map fun n => (n, Json.int 1)
    let excluded := if names.contains idField then [] else [(idField, Json.int 0)]
    some (objectOf (included ++ excluded))

def compileQuery (c : Compiler) (q : Query) : Except Error (Degraded Command) := do
  checkSupported q
  let (filter, degradations) ← c.compileFilter q.conditions
  if needsPipeline q then
    let (stages, more) ← c.pipeline q filter true
    return (.aggregate stages, degradations ++ more)
  else
    let options : FindOptions := {
      sort := q.sort.map fun k => (c.key k.field, k.direction == .desc)
      skip := q.offset
      limit := q.limit
      projection := c.projection q }
    return (.find filter options, degradations)

/-- Counts documents, or the rows of a pipeline; order and paging do not matter. -/
def compileCount (c : Compiler) (q : Query) : Except Error (Degraded Command) := do
  checkSupported q
  let q := q.unpaged
  let (filter, degradations) ← c.compileFilter q.conditions
  if needsPipeline q then
    let (stages, more) ← c.pipeline q filter false
    return (.aggregate (stages ++ [.single "$count" (.text Query.countField)]),
      degradations ++ more)
  else return (.count filter, degradations)

end Compiler

end Recordkeeper.Document
