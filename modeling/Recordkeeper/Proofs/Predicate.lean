import Recordkeeper.Condition

/-!
Contract: the operands of predicates that pass validation.

Owns:
- the values a predicate compares its field with;
- the shape of the operand that validation asks for, by the operator;
- what the leaves of a condition hold, from left to right.

Does not own: what a predicate means.
-/

set_option autoImplicit false

namespace Recordkeeper

namespace Predicate

def operands (p : Predicate) : List Value :=
  match p.effectiveOp with
  | .isNull | .isNotNull => []
  | _ => p.value.list?.getD [p.value]

def pattern (p : Predicate) : String := p.value.text?.getD ""

variable {p : Predicate}

theorem operands_eq (notNull : p.effectiveOp ≠ .isNull) (notPresent : p.effectiveOp ≠ .isNotNull) :
    p.operands = p.value.list?.getD [p.value] := by
  unfold operands
  split
  next same => exact absurd same notNull
  next same => exact absurd same notPresent
  next => rfl

theorem op_of_effectiveOp {op : Operator} (named : p.effectiveOp = op) (notNull : op ≠ .isNull)
    (notPresent : op ≠ .isNotNull) : p.op = op := by
  unfold effectiveOp at named
  split at named
  next => exact absurd named.symm notNull
  next => exact absurd named.symm notPresent
  next => exact named

/-- What validation says of the operands, by the operator. -/
theorem validate_cases (valid : p.validate = .ok ()) :
    match p.effectiveOp with
    | .equal | .notEqual | .greaterThan | .greaterThanOrEqual | .lessThan | .lessThanOrEqual =>
      p.operands = [p.value]
    | .isIn | .notIn => ∃ items, p.value = .list items ∧ p.operands = items
    | .between | .notBetween => ∃ low high, p.value = .list [low, high] ∧
        p.operands = [low, high] ∧ p.bounds = .ok (low, high)
    | .like | .notLike | .contains | .startsWith | .endsWith =>
      ∃ t, p.value = .text t ∧ p.operands = [.text t]
    | .regex => ∃ t, p.value = .text t ∧ p.operands = [.text t] ∧ (Regex.parse? t).isSome
    | .isNull | .isNotNull => p.operands = []
    | .existsRow | .notExists | .inSubquery | .notInSubquery => False := by
  have scalar (passed : (if !p.value.isScalar then .error (p.shapeError .scalar)
      else if p.value.isNull then .error (p.shapeError .nonNull)
      else .ok () : Except Error Unit) = .ok ()) : p.value.list? = none := by
    cases value : p.value with
    | list items => simp [value, Value.isScalar] at passed
    | _ => rfl
  have bounded (passed : p.bounds.map (fun _ => ()) = .ok ()) :
      ∃ low high, p.value = .list [low, high] ∧ p.bounds = .ok (low, high) := by
    unfold bounds at passed ⊢
    split at passed
    next low high value =>
      split at passed
      next plain =>
        refine ⟨low, high, value, ?_⟩
        rw [if_pos plain]
      next => cases passed
    next => cases passed
  unfold validate at valid
  split at valid
  next => cases valid
  next =>
    have operands := operands_eq (p := p)
    cases op : p.effectiveOp <;> rw [op] at valid operands <;> dsimp only at valid ⊢
    case isNull | isNotNull => simp only [Predicate.operands, op]
    all_goals specialize operands nofun nofun
    case equal | notEqual | greaterThan | greaterThanOrEqual | lessThan | lessThanOrEqual =>
      rw [operands, scalar valid, Option.getD_none]
    case between | notBetween =>
      obtain ⟨low, high, list, bounds⟩ := bounded valid
      exact ⟨low, high, list, by rw [operands, list]; rfl, bounds⟩
    case isIn | notIn =>
      split at valid
      next items list => exact ⟨items, list, by rw [operands, list]; rfl⟩
      next => cases valid
    case like | notLike | contains | startsWith | endsWith =>
      split at valid
      next t text => exact ⟨t, text, by rw [operands, text]; rfl⟩
      next => cases valid
    case regex =>
      split at valid
      next t text =>
        split at valid
        next read => exact ⟨t, text, by rw [operands, text]; rfl, read⟩
        next => cases valid
      next => cases valid
    case existsRow | notExists | inSubquery | notInSubquery => cases valid

end Predicate

namespace Condition

variable {α : Type} (ofPredicate : Predicate → List α) (ofSubquery : Subquery → List α)

mutual

/-- What the leaves of a condition hold, from left to right. -/
def collect : Condition → List α
  | .basic p => ofPredicate p
  | .group _ children => collectAll children
  | .sub q => ofSubquery q
termination_by structural x => x

def collectAll : List Condition → List α
  | [] => []
  | child :: rest => collect child ++ collectAll rest
termination_by structural x => x

end

theorem collectAll_append (xs ys : List Condition) :
    collectAll ofPredicate ofSubquery (xs ++ ys)
      = collectAll ofPredicate ofSubquery xs ++ collectAll ofPredicate ofSubquery ys := by
  induction xs with
  | nil => rfl
  | cons x rest inductionHypothesis =>
      rw [List.cons_append, collectAll, inductionHypothesis, collectAll, List.append_assoc]

/-- The leaves of a single condition. -/
theorem collectAll_singleton (x : Condition) :
    collectAll ofPredicate ofSubquery [x] = collect ofPredicate ofSubquery x :=
  List.append_nil _

end Condition

end Recordkeeper
