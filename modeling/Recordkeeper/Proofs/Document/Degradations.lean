import Recordkeeper.Proofs.Counting
import Recordkeeper.Proofs.Document.Rows
import Recordkeeper.Proofs.Predicate

/-!
Contract: what the policy on subqueries changes in a compilation.

Owns:
- the subqueries of conditions that have no document form, in the order in which they occur;
- compilations under the two policies, compared part by part;
- `strict_iff_undegraded`: the policies differ by the recorded degradations and by nothing else.

Does not own: which table a subquery reads from.

A subquery that passes validation has a document form whenever the table it reads from is known.
So degradations can be told from the conditions alone.
-/

set_option autoImplicit false

namespace Recordkeeper

/-- A subquery that is well-formed tests for rows, or has a field and a sign to compare it with. -/
theorem Subquery.validate_cases {q : Subquery} (valid : q.validate = .ok ()) :
    (q.op = .existsRow ∨ q.op = .notExists) ∨
      ∃ field, q.field = some field ∧
        (q.op = .inSubquery ∨ q.op = .notInSubquery ∨ q.op.isComparison = true) := by
  have fielded (passed : q.requireField = .ok ()) : ∃ field, q.field = some field := by
    unfold requireField at passed
    cases held : q.field with
    | none =>
        rw [held] at passed
        cases passed
    | some field => exact ⟨field, rfl⟩
  unfold validate at valid
  split at valid
  next => cases valid
  next =>
    cases kind : q.kind <;> rw [kind] at valid <;> dsimp only at valid
    case existence =>
      split at valid
      next tests => exact .inl tests
      next => cases valid
    case membership =>
      split at valid
      next member =>
        obtain ⟨field, held⟩ := fielded valid
        exact .inr ⟨field, held, member.imp_right .inl⟩
      next => cases valid
    case scalar =>
      split at valid
      next comparison =>
        obtain ⟨field, held⟩ := fielded valid
        exact .inr ⟨field, held, .inr (.inr comparison)⟩
      next => cases valid
    case correlated =>
      cases held : q.field with
      | some field =>
          rw [held] at valid
          dsimp only at valid
          split at valid
          next sign =>
            refine .inr ⟨field, rfl, ?_⟩
            rcases sign with comparison | member
            · exact .inr (.inr comparison)
            · exact member.imp_right .inl
          next => cases valid
      | none =>
          rw [held] at valid
          dsimp only at valid
          split at valid
          next tests => exact .inl tests
          next => cases valid

namespace Document

/-! ### Losses -/

/-- Why a subquery has no document form. -/
def unknownCollection : String := "cannot determine subquery collection"

namespace Compiler

/-- The same compiler with a policy of its own. -/
def under (c : Compiler) (policy : SubqueryPolicy) : Compiler := { c with policy }

/-- A subquery is lost if its text does not tell the table that it reads from. -/
def lossOf (c : Compiler) (q : Subquery) : List Degradation :=
  match c.collectionOf q.raw with
  | some _ => []
  | none => [⟨q.raw, unknownCollection⟩]

/-- The subqueries that are lost in a condition, from left to right. -/
def lossesIn (c : Compiler) : Condition → List Degradation :=
  Condition.collect (fun _ => []) c.lossOf

def losses (c : Compiler) : List Condition → List Degradation :=
  Condition.collectAll (fun _ => []) c.lossOf

end Compiler

/-! ### Comparison of outcomes -/

/-- Outcomes under the strict and under the permissive policy, where these subqueries are lost. -/
inductive Compared {α : Type} (lost : List Degradation) :
    Except Error (Degraded α) → Except Error (Degraded α) → Prop where
  | whole (a : α) (none : lost = []) : Compared lost (.ok (a, [])) (.ok (a, []))
  | degraded (a : α) (some : lost ≠ []) :
      Compared lost (refuse (.untranslatable unknownCollection)) (.ok (a, lost))
  | refused (e other : Error) : Compared lost (.error e) (.error other)

namespace Compared

variable {α β γ : Type} {lost more : List Degradation}
  {strict permissive : Except Error (Degraded α)}

/-- What is made of a result does not touch the degradations. -/
theorem map (same : Compared lost strict permissive) (f : α → β) :
    Compared lost (strict >>= fun r => pure (f r.1, r.2)) (permissive >>= fun r => pure (f r.1, r.2)) := by
  cases same with
  | whole a none => exact .whole (f a) none
  | degraded a some => exact .degraded (f a) some
  | refused e other => exact .refused e other

/-- One compilation after the other. -/
theorem bind {f g : α → Except Error (Degraded β)} (first : Compared lost strict permissive)
    (next : ∀ a, Compared more (f a) (g a)) (join : α → β → γ) :
    Compared (lost ++ more)
      (strict >>= fun r => f r.1 >>= fun t => pure (join r.1 t.1, r.2 ++ t.2))
      (permissive >>= fun r => g r.1 >>= fun t => pure (join r.1 t.1, r.2 ++ t.2)) := by
  cases first with
  | whole a none =>
      subst none
      exact (next a).map (join a)
  | degraded a some =>
      show Compared (lost ++ more) (refuse (.untranslatable unknownCollection))
        (g a >>= fun t => pure (join a t.1, lost ++ t.2))
      have following := next a
      generalize f a = strictNext, g a = permissiveNext at following
      cases following with
      | whole b none => exact none ▸ .degraded (join a b) (by simp [some])
      | degraded b _ => exact .degraded (join a b) (by simp [some])
      | refused e other => exact .refused _ other
  | refused e other => exact .refused e other

/-- The same check before both. -/
theorem guarded {check : Except Error Unit}
    (passed : check = .ok () → Compared lost strict permissive) :
    Compared lost (check >>= fun _ => strict) (check >>= fun _ => permissive) := by
  cases check with
  | error e => exact .refused e e
  | ok => exact passed rfl

end Compared

/-! ### Parts of a query -/

namespace Compiler

variable (c : Compiler) (mapped : Bool)

@[simp] theorem under_key (policy : SubqueryPolicy) : (c.under policy).key = c.key := rfl

@[simp] theorem under_collectionOf (policy : SubqueryPolicy) :
    (c.under policy).collectionOf = c.collectionOf := rfl

/-- A well-formed subquery that reads from a known table has a document form. -/
theorem subquery_translated {q : Subquery} (valid : q.validate = .ok ()) {collection : String}
    (known : c.collectionOf q.raw = some collection) :
    ∃ filter, ∀ policy, (c.under policy).subquery q = .ok (filter, []) := by
  rcases Subquery.validate_cases valid with (op | op) | ⟨field, held, op | op | comparison⟩
  case inl.inl | inl.inr =>
    exact ⟨_, fun policy => by
      simp only [subquery, valid, under_collectionOf, known, op]
      rfl⟩
  case inr.inl | inr.inr.inl =>
    exact ⟨_, fun policy => by
      simp only [subquery, valid, under_collectionOf, known, op, held, Option.map_some, under_key]
      rfl⟩
  case inr.inr.inr =>
    cases op : q.op <;> rw [op] at comparison <;> first | cases comparison; done | skip
    all_goals
      exact ⟨_, fun policy => by
        simp only [subquery, valid, under_collectionOf, known, op, held, Option.map_some, under_key]
        rfl⟩

theorem subquery_compared (q : Subquery) :
    Compared (c.lossOf q) ((c.under .strict).subquery q) ((c.under .permissive).subquery q) := by
  cases valid : q.validate with
  | error e =>
      unfold subquery
      rw [valid]
      exact .refused e e
  | ok passed =>
      cases known : c.collectionOf q.raw with
      | some collection =>
          obtain ⟨filter, made⟩ := c.subquery_translated valid known
          rw [made, made, lossOf, known]
          exact .whole filter rfl
      | none =>
          unfold subquery
          rw [valid, under_collectionOf, under_collectionOf, lossOf, known]
          exact .degraded selectAll (List.cons_ne_nil _ _)

mutual

theorem condition_compared : (x : Condition) →
    Compared (c.lossesIn x) ((c.under .strict).condition mapped x)
      ((c.under .permissive).condition mapped x)
  | .basic p => by
      show Compared [] ((c.under .strict).predicate mapped p >>= fun filter => pure (filter, []))
        ((c.under .permissive).predicate mapped p >>= fun filter => pure (filter, []))
      have same : (c.under .permissive).predicate mapped p = (c.under .strict).predicate mapped p := rfl
      rw [same]
      cases (c.under .strict).predicate mapped p with
      | error e => exact .refused e e
      | ok filter => exact .whole filter rfl
  | .group logic [] => by
      cases logic <;> exact .whole _ rfl
  | .group logic (child :: rest) =>
      (conditions_compared (child :: rest)).map fun filters =>
        Json.single (groupOperator logic) (.array filters)
  | .sub q => c.subquery_compared q
termination_by structural x => x

theorem conditions_compared : (cs : List Condition) →
    Compared (c.losses cs) ((c.under .strict).conditions mapped cs)
      ((c.under .permissive).conditions mapped cs)
  | [] => .whole [] rfl
  | child :: rest => (condition_compared child).bind (fun _ => conditions_compared rest) List.cons
termination_by structural cs => cs

end

theorem conjunction_compared (cs : List Condition) :
    Compared (c.losses cs) ((c.under .strict).conjunction mapped cs)
      ((c.under .permissive).conjunction mapped cs) := by
  match cs with
  | [] => exact .whole selectAll rfl
  | [single] =>
      rw [losses, Condition.collectAll_singleton]
      exact c.condition_compared mapped single
  | first :: second :: rest =>
      exact (c.conditions_compared mapped (first :: second :: rest)).map fun filters =>
        Json.single "$and" (.array filters)

theorem compileFilter_compared (cs : List Condition) :
    Compared (c.losses cs) ((c.under .strict).compileFilter cs)
      ((c.under .permissive).compileFilter cs) :=
  c.conjunction_compared true cs

theorem havingStages_compared (q : Query) :
    Compared (c.losses q.having) ((c.under .strict).havingStages q)
      ((c.under .permissive).havingStages q) := by
  unfold havingStages
  cases asked : q.having with
  | nil => exact .whole [] rfl
  | cons first rest =>
      have tested := (c.conjunction_compared false (first :: rest)).map fun h =>
        [Json.single "$match" h]
      rw [List.isEmpty_cons, if_neg Bool.false_ne_true, if_neg Bool.false_ne_true]
      generalize (c.under .strict).conjunction false (first :: rest) = strict,
        (c.under .permissive).conjunction false (first :: rest) = permissive at tested ⊢
      cases strict <;> cases permissive <;> exact tested

/-- Every selected field is one that the query groups by. -/
def checkSelection (q : Query) : Except Error Unit :=
  if q.isGrouped then
    match q.ungroupedField? with
    | some field => refuse (.notGrouped field)
    | none => .ok ()
  else .ok ()

/-- The stages in front of the conditions on groups. -/
def frontStages (q : Query) (filter : Json) : List Json :=
  let keys := if q.isGrouped then q.groupBy else q.select
  (if isSelectAll filter then [] else [Json.single "$match" filter])
    ++ [c.groupStage q.isGrouped keys,
      rowStage q.isGrouped (if q.isGrouped && !q.select.isEmpty then q.select else keys)]

theorem pipeline_eq (q : Query) (filter : Json) (paged : Bool) :
    c.pipeline q filter paged = checkSelection q >>= fun _ =>
      c.havingStages q >>= fun tests =>
        pure (c.frontStages q filter ++ tests.1 ++ (if paged then pageStages q else []), tests.2) := by
  unfold pipeline checkSelection havingStages frontStages
  dsimp only
  cases q.isGrouped <;> cases q.ungroupedField? <;> cases q.having.isEmpty <;>
    cases c.conjunction false q.having <;> rfl

theorem pipeline_compared (q : Query) (filter : Json) (paged : Bool) :
    Compared (c.losses q.having) ((c.under .strict).pipeline q filter paged)
      ((c.under .permissive).pipeline q filter paged) := by
  rw [pipeline_eq, pipeline_eq]
  exact .guarded fun _ => (c.havingStages_compared q).map fun tests =>
    c.frontStages q filter ++ tests ++ (if paged then pageStages q else [])

/-- A supported query has conditions on groups only if it makes groups. -/
theorem having_eq_nil_of_supported {q : Query} (supported : checkSupported q = .ok ())
    (ungrouped : q.isGrouped = false) : q.having = [] := by
  unfold checkSupported at supported
  obtain ⟨_, -, supported⟩ := exists_of_bind supported
  dsimp only at supported
  split at supported
  next => cases supported
  split at supported
  next => cases supported
  split at supported
  next => cases supported
  split at supported
  next => cases supported
  next fits =>
    rw [ungrouped] at fits
    simpa using fits

theorem compileQuery_compared (q : Query) :
    Compared (c.losses (q.conditions ++ q.having)) ((c.under .strict).compileQuery q)
      ((c.under .permissive).compileQuery q) := by
  have filtered := c.compileFilter_compared q.conditions
  rw [losses, Condition.collectAll_append]
  refine Compared.guarded fun supported => ?_
  cases staged : needsPipeline q with
  | true =>
      exact filtered.bind (fun filter => c.pipeline_compared q filter true)
        fun _ stages => Command.aggregate stages
  | false =>
      have ungrouped : q.isGrouped = false := (Bool.or_eq_false_iff.1 staged).1
      rw [having_eq_nil_of_supported supported ungrouped, Condition.collectAll, List.append_nil]
      exact filtered.map fun filter => Command.find filter _

theorem compileCount_compared (q : Query) :
    Compared (c.losses (q.conditions ++ q.having)) ((c.under .strict).compileCount q)
      ((c.under .permissive).compileCount q) := by
  rw [compileCount_eq, compileCount_eq]
  exact (c.compileQuery_compared q.unpaged).map Command.counting

end Compiler

/-! ### The two policies -/

/-- Outcomes under the strict and under the permissive policy that differ by the subqueries that
are lost, and by nothing else. -/
structure DifferByLosses {α : Type} (lost : List Degradation)
    (strict permissive : Except Error (Degraded α)) : Prop where
  strict_iff : ∀ compiled, strict = .ok compiled ↔ permissive = .ok compiled ∧ compiled.2 = []
  recorded : ∀ compiled, permissive = .ok compiled → compiled.2 = lost
  untranslatable : ∀ compiled, permissive = .ok compiled → lost ≠ [] →
    strict = refuse (.untranslatable unknownCollection)
  refused : ∀ e, permissive = .error e → ∃ other, strict = .error other

theorem Compared.differ {α : Type} {lost : List Degradation}
    {strict permissive : Except Error (Degraded α)} (same : Compared lost strict permissive) :
    DifferByLosses lost strict permissive := by
  cases same with
  | whole a none =>
      subst none
      refine ⟨fun compiled => ⟨fun made => ?_, And.left⟩, fun compiled made => ?_,
        fun _ _ some => absurd rfl some, nofun⟩
      · cases made
        exact ⟨rfl, rfl⟩
      · cases made
        rfl
  | degraded a some =>
      refine ⟨fun compiled => ⟨nofun, fun undegraded => ?_⟩, fun compiled made => ?_,
        fun _ _ _ => rfl, nofun⟩
      · obtain ⟨made, none⟩ := undegraded
        cases made
        exact absurd none some
      · cases made
        rfl
  | refused e other => exact ⟨fun _ => ⟨nofun, nofun⟩, nofun, nofun, fun _ _ => ⟨e, rfl⟩⟩

/-- The strict policy compiles what the permissive one compiles without degradations, to the same
result.  The permissive one records the lost subqueries, each once and in their order, those in the
conditions of a query before those in its conditions on groups; what it refuses the strict one
refuses as well. -/
theorem strict_iff_undegraded (c : Compiler) :
    (∀ cs, DifferByLosses (c.losses cs) ((c.under .strict).compileFilter cs)
        ((c.under .permissive).compileFilter cs)) ∧
      (∀ q : Query, DifferByLosses (c.losses (q.conditions ++ q.having))
        ((c.under .strict).compileQuery q) ((c.under .permissive).compileQuery q)) ∧
      ∀ q : Query, DifferByLosses (c.losses (q.conditions ++ q.having))
        ((c.under .strict).compileCount q) ((c.under .permissive).compileCount q) :=
  ⟨fun cs => (c.compileFilter_compared cs).differ, fun q => (c.compileQuery_compared q).differ,
    fun q => (c.compileCount_compared q).differ⟩

/-- Two subqueries without a table, one of them in a condition on groups. -/
example :
    let c : Compiler := { collectionOf := fun _ => none }
    let q : Query :=
      { conditions := [.existsSubquery "VALUES (1)" []], groupBy := ["status"],
        having := [.group .not [.existsSubquery "VALUES (2)" []]] }
    ((c.under .permissive).compileQuery q).toOption.map (·.2)
      = some [⟨"VALUES (1)", unknownCollection⟩, ⟨"VALUES (2)", unknownCollection⟩] := by
  rfl

end Document

end Recordkeeper
