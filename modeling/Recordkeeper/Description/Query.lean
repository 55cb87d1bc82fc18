import Recordkeeper.Description.Value
import Recordkeeper.Query

/-!
Contract: conditions and queries as documents.

Owns:
- the names of operators, directions, joins and locks;
- reading conditions and lists of query options, and writing conditions and queries.

Does not own: what a query selects.
-/

set_option autoImplicit false

namespace Recordkeeper.Description

def operators : List (String × Operator) :=
  [("Equal", .equal), ("NotEqual", .notEqual), ("GreaterThan", .greaterThan),
   ("GreaterThanOrEqual", .greaterThanOrEqual), ("LessThan", .lessThan),
   ("LessThanOrEqual", .lessThanOrEqual), ("Like", .like), ("NotLike", .notLike),
   ("In", .isIn), ("NotIn", .notIn), ("IsNull", .isNull), ("IsNotNull", .isNotNull),
   ("Between", .between), ("NotBetween", .notBetween), ("Contains", .contains),
   ("StartsWith", .startsWith), ("EndsWith", .endsWith), ("Regex", .regex),
   ("Exists", .existsRow), ("NotExists", .notExists), ("InSubquery", .inSubquery),
   ("NotInSubquery", .notInSubquery)]

def subqueryKinds : List (String × SubqueryKind) :=
  [("Exists", .existence), ("In", .membership), ("Scalar", .scalar), ("Correlated", .correlated)]

def lockModes : List (String × LockMode) :=
  [("none", .none), ("for_update", .forUpdate), ("for_share", .forShare)]

def joinKinds : List (String × JoinKind) :=
  [("inner", .inner), ("left", .left), ("right", .right), ("full", .full)]

def directions : List (String × Direction) := [("asc", .asc), ("desc", .desc)]

def connectives : List (String × Logic) := [("and", .and), ("or", .or), ("not", .not)]

/-- A subquery, by its kind with all parts or by the name of a constructor. -/
def subquery : Reader Condition := fun doc => do
  let kind ← required doc "kind" text
  let field ← optional doc "field" text
  let op ← defaulted doc "op" (named operators) .equal
  let raw ← required doc "raw" text
  let args ← defaulted doc "args" (list value) []
  match kind with
  | "exists_subquery" => return .existsSubquery raw args
  | "not_exists_subquery" => return .notExistsSubquery raw args
  | "in_subquery" => return .inSubquery (← field) raw args
  | "not_in_subquery" => return .notInSubquery (← field) raw args
  | "where_subquery" => return .whereSubquery (← field) op raw args
  | "correlated_subquery" => return .correlatedSubquery field op raw args
  | _ =>
    let kind ← subqueryKinds.lookup kind
    let correlated ← defaulted doc "correlated" bool false
    return .sub ⟨kind, field, op, raw, args, correlated⟩

/-- A predicate, with null where no operand is given. -/
def predicate : Reader Condition := fun doc => do
  let field ← required doc "field" text
  let op ← required doc "op" (named operators)
  let v ← defaulted doc "value" value .null
  return .on field op v

mutual

def condition : Json → Option Condition
  | .object fields =>
    match fields with
    | [("sub", q)] => subquery q
    | [(name, .array children)] =>
      match connectives.lookup name with
      | some logic => (conditions children).map (.group logic)
      | none => none
    | _ => predicate (.object fields)
  | _ => none
termination_by structural doc => doc

def conditions : List Json → Option (List Condition)
  | [] => some []
  | doc :: rest => do
    let c ← condition doc
    let cs ← conditions rest
    return c :: cs
termination_by structural docs => docs

end

def queryOption : Reader QueryOption
  | .array (.text name :: parts) =>
    match name, parts with
    | "where", [c] => (condition c).map .filter
    | "order_by", [f, d] => do
      let field ← text f
      let direction ← named directions d
      return .orderBy ⟨field, direction⟩
    | "limit", [n] => (nat n).map .limit
    | "offset", [n] => (nat n).map .offset
    | "select", [fs] => (list text fs).map .select
    | "distinct", [] => some .distinct
    | "group_by", [fs] => (list text fs).map .groupBy
    | "having", [c] => (condition c).map .having
    | "join", [k, t, on] => do
      let kind ← named joinKinds k
      let table ← text t
      let on ← text on
      return .join ⟨kind, table, on⟩
    | "preload", [ns] => (list text ns).map .preload
    | "lock", [m] => (named lockModes m).map .lock
    | _, _ => none
  | _ => none

/-- A list of options, by itself or as the field of a builder. -/
def query : Reader Query := fun doc =>
  (list queryOption ((doc.field? "builder").getD doc)).map .ofOptions

def orNull {α : Type} (encode : α → Json) (o : Option α) : Json := (o.map encode).getD .null

def ofTexts (ss : List String) : Json := .array (ss.map .text)

def ofNat (n : Nat) : Json := .int n

mutual

def ofCondition : Condition → Json
  | .basic p =>
    .object [("field", .text p.field), ("op", .text (nameIn operators p.op)),
      ("value", ofValue p.value)]
  | .group logic children => .single (nameIn connectives logic) (.array (ofConditions children))
  | .sub q =>
    .single "sub" (.object [
      ("kind", .text (nameIn subqueryKinds q.kind)), ("field", orNull .text q.field),
      ("op", .text (nameIn operators q.op)), ("raw", .text q.raw),
      ("args", .array (ofValues q.args)), ("correlated", .bool q.correlated)])
termination_by structural c => c

def ofConditions : List Condition → List Json
  | [] => []
  | c :: rest => ofCondition c :: ofConditions rest
termination_by structural cs => cs

end

def ofQuery (q : Query) : Json :=
  .object [
    ("conditions", .array (ofConditions q.conditions)),
    ("sort", .array (q.sort.map fun k => ofTexts [k.field, nameIn directions k.direction])),
    ("limit", orNull ofNat q.limit), ("offset", orNull ofNat q.offset),
    ("select", ofTexts q.select), ("group_by", ofTexts q.groupBy),
    ("having", .array (ofConditions q.having)),
    ("joins", .array (q.joins.map fun j => ofTexts [nameIn joinKinds j.kind, j.table, j.on])),
    ("preloads", ofTexts q.preloads), ("distinct", .bool q.distinct),
    ("lock", .text (nameIn lockModes q.lock))]

end Recordkeeper.Description
