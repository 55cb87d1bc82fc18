import Recordkeeper.KeyValue.Plan

/-!
Contract: the plan that a query compiles to.

Owns:
- that a plan holds the parts of its query;
- that offset, limit and an allowed selection do not decide whether a query is refused;
- the parts that a query has, and has not, if it is not refused.

Does not own: running a plan.
-/

set_option autoImplicit false

namespace Recordkeeper

variable {α β : Type}

/-- A check that refuses does so whatever is done with the result. -/
theorem guarded_map {c : Prop} [Decidable c] {e : Error} {f : α → β} {left : Except Error β}
    {right : Except Error α} (same : left = right.map f) :
    (if c then .error e else left) = Except.map f (if c then .error e else right) := by
  split
  · rfl
  · exact same

namespace KeyValue.Plan

/-- The plan with the parts of a query. -/
def ofQuery (q : Query) : Plan where
  filter := q.conditions
  having := q.having
  sort := q.sort
  limit := q.limit
  offset := q.offset
  select := q.select
  groupBy := q.groupBy
  distinct := q.distinct

/-- Queries that pass the same checks are refused alike.  Of the conditions, compilation checks
their validity and looks for subqueries. -/
theorem compile_congr_of_checks {p q : Query} (valid : p.validate = q.validate)
    (subqueries : Condition.anySubquery p.conditions = Condition.anySubquery q.conditions)
    (having : p.having = q.having) (joins : p.joins = q.joins) (preloads : p.preloads = q.preloads)
    (lock : p.lock = q.lock) (grouping : p.isGrouped = q.isGrouped)
    (fields : p.isGrouped → p.ungroupedField? = q.ungroupedField?) :
    compile p = (compile q).map fun _ => ofQuery p := by
  unfold compile
  rw [valid, joins, preloads, lock, grouping, subqueries, having]
  cases q.validate with
  | error e => rfl
  | ok passed =>
      refine guarded_map (guarded_map (guarded_map (guarded_map ?_)))
      show (if q.isGrouped = true then _ else _)
        = Except.map _ (if q.isGrouped = true then _ else _)
      split
      next grouped =>
        rw [fields (grouping.trans grouped)]
        cases q.ungroupedField? with
        | some field => rfl
        | none => exact guarded_map (by rw [← having]; rfl)
      next => exact guarded_map (by rw [← having]; rfl)

/-- Queries with the same conditions and the same unsupported parts are refused alike. -/
theorem compile_congr {p q : Query} (conditions : p.conditions = q.conditions)
    (having : p.having = q.having) (joins : p.joins = q.joins) (preloads : p.preloads = q.preloads)
    (lock : p.lock = q.lock) (grouping : p.isGrouped = q.isGrouped)
    (fields : p.isGrouped → p.ungroupedField? = q.ungroupedField?) :
    compile p = (compile q).map fun _ => ofQuery p := by
  have valid : p.validate = q.validate := by
    unfold Query.validate
    rw [conditions, having]
  exact compile_congr_of_checks valid (congrArg _ conditions) having joins preloads lock grouping
    fields

theorem eq_ofQuery {q : Query} {plan : Plan} (planned : compile q = .ok plan) :
    plan = ofQuery q := by
  have parts : compile q = (compile q).map fun _ => ofQuery q :=
    compile_congr rfl rfl rfl rfl rfl rfl fun _ => rfl
  rw [planned] at parts
  exact Except.ok.inj parts

end KeyValue.Plan

end Recordkeeper
