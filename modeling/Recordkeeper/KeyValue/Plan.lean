import Recordkeeper.Pattern.Like
import Recordkeeper.Query
import Recordkeeper.Record
import Recordkeeper.Truth

/-!
Contract: what a query selects when records are tested one by one.

Owns:
- the truth value of a condition for a record, unknown where a field is missing or null;
- plans: filtering, grouping or merging equal rows, then order, paging and projection;
- the parts of a query a plan does not serve.

Does not own: where the records come from.
-/

set_option autoImplicit false

namespace Recordkeeper

namespace Predicate

def truthFor (p : Predicate) (actual : Value) : Truth :=
  let order (other : Value) : Option Ordering := actual.compare? other
  let compared (test : Ordering → Bool) : Truth := .ofOrder (order p.value) test
  let pattern : String := p.value.text?.getD ""
  let text : String := actual.coerced
  let found : Bool := (p.value.list?.getD []).any fun v => order v == some .eq
  let inside : Truth :=
    match p.value with
    | .list [low, high] =>
      (Truth.ofOrder (order low) (· != .lt)).and (.ofOrder (order high) (· != .gt))
    | _ => .unknown
  match p.effectiveOp with
  | .isNull => .ofBool actual.isNull
  | .isNotNull => .ofBool !actual.isNull
  | op =>
    if actual.isNull then .unknown
    else
      match op with
      | .equal => compared (· == .eq)
      | .notEqual => compared (· != .eq)
      | .greaterThan => compared (· == .gt)
      | .greaterThanOrEqual => compared (· != .lt)
      | .lessThan => compared (· == .lt)
      | .lessThanOrEqual => compared (· != .gt)
      | .isIn => .ofBool found
      | .notIn => .ofBool !found
      | .between => inside
      | .notBetween => inside.not
      | .like => .ofBool (Like.isMatch text pattern)
      | .notLike => .ofBool !(Like.isMatch text pattern)
      | .contains => .ofBool (Text.hasInfix pattern.toList text.toList)
      | .startsWith => .ofBool (pattern.toList.isPrefixOf text.toList)
      | .endsWith => .ofBool (pattern.toList.isSuffixOf text.toList)
      | .regex => .ofBool ((Regex.parse? pattern).any (·.isMatch text))
      | .isNull | .isNotNull | .existsRow | .notExists | .inSubquery | .notInSubquery => .unknown

end Predicate

namespace Condition

mutual

/-- The truth of a condition for a record.  The negation of several conditions is the negation
of their disjunction, and the negation of none is true.  Plans hold no subqueries; one would
be unknown. -/
def truth (r : Record) : Condition → Truth
  | .basic p => p.truthFor (r.valueAt p.field)
  | .group .and children => .all (truths r children)
  | .group .or children => .any (truths r children)
  | .group .not children => (Truth.any (truths r children)).not
  | .sub _ => .unknown
termination_by structural c => c

def truths (r : Record) : List Condition → List Truth
  | [] => []
  | c :: rest => truth r c :: truths r rest
termination_by structural cs => cs

end

end Condition

namespace Value

/-- Order of two field values: null first, values that do not compare count as equal. -/
def sortOrder (a b : Value) : Ordering :=
  match a.isNull, b.isNull with
  | true, true => .eq
  | true, false => .lt
  | false, true => .gt
  | false, false => (a.compare? b).getD .eq

end Value

namespace SortKey

/-- Order of two records by one key; descending order exchanges the records. -/
def order (key : SortKey) (a b : Record) : Ordering :=
  match key.direction with
  | .asc => (a.valueAt key.field).sortOrder (b.valueAt key.field)
  | .desc => (b.valueAt key.field).sortOrder (a.valueAt key.field)

/-- Order of two records by several keys: the first key that tells them apart decides. -/
def orderAll (keys : List SortKey) (a b : Record) : Ordering :=
  keys.foldr (fun key rest => (key.order a b).then rest) .eq

end SortKey

namespace KeyValue

structure Plan where
  filter : List Condition
  having : List Condition
  sort : List SortKey
  limit : Option Nat
  offset : Option Nat
  select : List String
  groupBy : List String
  distinct : Bool

namespace Plan

/-- Compiles a query.  Joins, preloads, locks and subqueries are refused, and so are conditions
on groups without grouping and selected fields outside the grouping. -/
def compile (q : Query) : Except Error Plan := do
  q.validate
  if !q.joins.isEmpty then refuse (.unsupportedPart .joins .keyValue)
  if !q.preloads.isEmpty then refuse (.unsupportedPart .preloads .keyValue)
  if q.lock ≠ .none then refuse (.unsupportedPart .rowLocks .keyValue)
  if !q.having.isEmpty && !q.isGrouped then refuse .havingWithoutGroup
  if q.isGrouped then
    match q.ungroupedField? with
    | some field => refuse (.notGrouped field)
    | none => pure ()
  if Condition.anySubquery q.conditions || Condition.anySubquery q.having then
    refuse (.unsupportedPart .subqueries .keyValue)
  return {
    filter := q.conditions
    having := q.having
    sort := q.sort
    limit := q.limit
    offset := q.offset
    select := q.select
    groupBy := q.groupBy
    distinct := q.distinct }

/-- The truth of the conjunction of all conditions for a record. -/
def evaluate (plan : Plan) (r : Record) : Truth := .all (Condition.truths r plan.filter)

/-- A record is selected when its conditions are definitely true. -/
def selects (plan : Plan) (r : Record) : Bool := (plan.evaluate r).isTrue

def project (plan : Plan) (r : Record) : Record := Record.restrict r plan.select.contains

def sorted (plan : Plan) (rs : List Record) : List Record :=
  if plan.sort.isEmpty then rs
  else rs.mergeSort fun a b => SortKey.orderAll plan.sort a b != .gt

def page (plan : Plan) (rs : List Record) : List Record :=
  let rest := rs.drop (plan.offset.getD 0)
  match plan.limit with
  | some n => rest.take n
  | none => rest

/-- The values a record is grouped by, missing ones as null. -/
def groupKey (plan : Plan) (r : Record) : List Value := plan.groupBy.map r.valueAt

/-- Counts one more member of a group; a new group goes to the end. -/
def countMember (key : List Value) : List (List Value × Nat) → List (List Value × Nat)
  | [] => [(key, 1)]
  | (k, n) :: rest =>
    if Value.equalItems k key then (k, n + 1) :: rest else (k, n) :: countMember key rest

/-- The groups in the order of their first members, with their sizes. -/
def tally (plan : Plan) (rs : List Record) : List (List Value × Nat) :=
  rs.foldl (fun groups r => countMember (plan.groupKey r) groups) []

def groupOutput (plan : Plan) : List String :=
  if plan.select.isEmpty then plan.groupBy else plan.select

def groupRow (plan : Plan) (group : List Value × Nat) : Record :=
  let values := (plan.groupBy.zip group.1).filter fun f => plan.groupOutput.contains f.1
  (NameMap.ofList values).insert Query.countField (.int (Int64.ofNat group.2))

/-- The rows of the groups that satisfy the conditions on groups. -/
def group (plan : Plan) (rs : List Record) : List Record :=
  ((plan.tally rs).map plan.groupRow).filter fun row =>
    (Truth.all (Condition.truths row plan.having)).isTrue

def merged (rs : List Record) : List Record :=
  rs.foldl (fun kept r => if kept.any (Record.equal · r) then kept else kept ++ [r]) []

def execute (plan : Plan) (records : List Record) : List Record :=
  let matched := records.filter plan.selects
  if !plan.groupBy.isEmpty then plan.page (plan.sorted (plan.group matched))
  else if plan.distinct && !plan.select.isEmpty then
    plan.page (plan.sorted (merged (matched.map plan.project)))
  else
    let rows := plan.page (plan.sorted matched)
    if plan.select.isEmpty then rows else rows.map plan.project

end Plan

end KeyValue

end Recordkeeper
