import Recordkeeper.Error
import Recordkeeper.Pattern.Regex.Parser

/-!
Contract: the condition tree every backend reads.

Owns:
- predicates on one field, groups of conditions, and subqueries with opaque text;
- the normal form of an operator against null;
- which operands an operator takes and which subqueries are well-formed.

Does not own: what a condition selects, which each backend states for itself.
-/

set_option autoImplicit false

namespace Recordkeeper

structure Predicate where
  field : String
  op : Operator
  value : Value

/-- A subquery.  Its text belongs to the relational engine and is read by nobody else. -/
structure Subquery where
  kind : SubqueryKind
  /-- The field compared with the result, if any. -/
  field : Option String
  op : Operator
  raw : String
  args : List Value
  correlated : Bool

inductive Condition where
  | basic (predicate : Predicate)
  | group (logic : Logic) (children : List Condition)
  | sub (query : Subquery)

namespace Predicate

def equal (p q : Predicate) : Bool :=
  p.field == q.field && p.op == q.op && p.value.equal q.value

/-- Equality with null asks for null on every backend, and inequality with null for its
absence. -/
def effectiveOp (p : Predicate) : Operator :=
  match p.op, p.value with
  | .equal, .null => .isNull
  | .notEqual, .null => .isNotNull
  | op, _ => op

def shapeError (p : Predicate) (expected : Shape) : Error :=
  .refused (.shape p.op p.field expected p.value.type)

/-- The bounds of a range predicate: two scalars, neither null. -/
def bounds (p : Predicate) : Except Error (Value × Value) :=
  match p.value with
  | .list [low, high] =>
    if low.isScalar && high.isScalar && !low.isNull && !high.isNull then .ok (low, high)
    else .error (p.shapeError .bounds)
  | _ => .error (p.shapeError .bounds)

/-- Checks that the operand has the shape the operator needs.  Every compiler asks this first,
so a malformed predicate fails alike on all backends. -/
def validate (p : Predicate) : Except Error Unit :=
  if p.field = "" then refuse .emptyField
  else
    match p.effectiveOp with
    | .equal | .notEqual | .greaterThan | .greaterThanOrEqual | .lessThan | .lessThanOrEqual =>
      if !p.value.isScalar then .error (p.shapeError .scalar)
      else if p.value.isNull then .error (p.shapeError .nonNull)
      else .ok ()
    | .isIn | .notIn =>
      match p.value with
      | .list items =>
        if items.any fun v => !v.isScalar || v.isNull then .error (p.shapeError .scalarList)
        else .ok ()
      | _ => .error (p.shapeError .list)
    | .between | .notBetween => p.bounds.map fun _ => ()
    | .like | .notLike | .contains | .startsWith | .endsWith =>
      match p.value with
      | .text _ => .ok ()
      | _ => .error (p.shapeError .pattern)
    | .regex =>
      match p.value with
      | .text pattern =>
        if (Regex.parse? pattern).isSome then .ok () else refuse (.invalidRegex p.field)
      | _ => .error (p.shapeError .pattern)
    | .isNull | .isNotNull => .ok ()
    | .existsRow | .notExists | .inSubquery | .notInSubquery => refuse (.needsSubquery p.op)

end Predicate

namespace Subquery

def equal (p q : Subquery) : Bool :=
  p.kind == q.kind && p.field == q.field && p.op == q.op && p.raw == q.raw
    && Value.equalItems p.args q.args && p.correlated == q.correlated

def requireField (q : Subquery) : Except Error Unit :=
  match q.field with
  | some f => if f = "" then refuse .subqueryWithoutField else .ok ()
  | none => refuse .subqueryWithoutField

/-- Checks that the text is not blank and that kind, operator and field fit together. -/
def validate (q : Subquery) : Except Error Unit :=
  if (Text.trim q.raw.toList).isEmpty then refuse .emptySubquery
  else
    match q.kind with
    | .existence =>
      if q.op = .existsRow ∨ q.op = .notExists then .ok () else refuse (.existsOperator q.op)
    | .membership =>
      if q.op = .inSubquery ∨ q.op = .notInSubquery then q.requireField
      else refuse (.inOperator q.op)
    | .scalar => if q.op.isComparison then q.requireField else refuse (.scalarOperator q.op)
    | .correlated =>
      match q.field with
      | some _ =>
        if q.op.isComparison ∨ q.op = .inSubquery ∨ q.op = .notInSubquery then .ok ()
        else refuse (.correlatedOperator q.op)
      | none =>
        if q.op = .existsRow ∨ q.op = .notExists then .ok () else refuse .correlatedWithoutField

end Subquery

namespace Condition

def on (field : String) (op : Operator) (value : Value) : Condition :=
  .basic ⟨field, op, value⟩

mutual

def validate : Condition → Except Error Unit
  | .basic p => p.validate
  | .group _ children => validateAll children
  | .sub q => q.validate
termination_by structural c => c

/-- Validates conditions in order and reports the first fault. -/
def validateAll : List Condition → Except Error Unit
  | [] => .ok ()
  | c :: rest =>
    match validate c with
    | .ok () => validateAll rest
    | .error e => .error e
termination_by structural cs => cs

end

mutual

def hasSubquery : Condition → Bool
  | .basic _ => false
  | .group _ children => anySubquery children
  | .sub _ => true
termination_by structural c => c

def anySubquery : List Condition → Bool
  | [] => false
  | c :: rest => hasSubquery c || anySubquery rest
termination_by structural cs => cs

end

mutual

def fields : Condition → List String
  | .basic p => [p.field]
  | .group _ children => fieldsOfAll children
  | .sub q => q.field.toList
termination_by structural c => c

def fieldsOfAll : List Condition → List String
  | [] => []
  | c :: rest => fields c ++ fieldsOfAll rest
termination_by structural cs => cs

end

mutual

def equal : Condition → Condition → Bool
  | .basic p, .basic q => p.equal q
  | .group l cs, .group m ds => l == m && equalAll cs ds
  | .sub p, .sub q => p.equal q
  | _, _ => false
termination_by structural c => c

def equalAll : List Condition → List Condition → Bool
  | [], [] => true
  | c :: cs, d :: ds => equal c d && equalAll cs ds
  | _, _ => false
termination_by structural cs => cs

end

/-! ### Constructors of subqueries -/

def existsSubquery (raw : String) (args : List Value) : Condition :=
  .sub ⟨.existence, none, .existsRow, raw, args, false⟩

def notExistsSubquery (raw : String) (args : List Value) : Condition :=
  .sub ⟨.existence, none, .notExists, raw, args, false⟩

def inSubquery (field raw : String) (args : List Value) : Condition :=
  .sub ⟨.membership, some field, .inSubquery, raw, args, false⟩

def notInSubquery (field raw : String) (args : List Value) : Condition :=
  .sub ⟨.membership, some field, .notInSubquery, raw, args, false⟩

def whereSubquery (field : String) (op : Operator) (raw : String) (args : List Value) :
    Condition :=
  .sub ⟨.scalar, some field, op, raw, args, false⟩

def correlatedSubquery (field : Option String) (op : Operator) (raw : String)
    (args : List Value) : Condition :=
  .sub ⟨.correlated, field, op, raw, args, true⟩

end Condition

end Recordkeeper
