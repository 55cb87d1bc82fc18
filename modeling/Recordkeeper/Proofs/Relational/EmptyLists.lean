import Recordkeeper.Proofs.Relational.Agreement
import Recordkeeper.Proofs.Relational.Dialects

/-!
Contract: empty lists in conditions on memberships.

Owns:
- the condition that stands for a membership in an empty list in compiled text;
- the truth of compiled conditions on memberships, in every dialect;
- how this truth can differ from that of the plan.

Does not own: memberships in lists with items.

A plan looks at the value before it looks at the list, so it does not know whether a null is in an empty
list.  In the text there is a constant instead, or a test for null, which are never unknown.
-/

set_option autoImplicit false

namespace Recordkeeper

/-! ### Settled conditions -/

namespace Predicate

def HasEmptyList (p : Predicate) : Prop :=
  (p.effectiveOp = .isIn ∨ p.effectiveOp = .notIn) ∧ p.operands = []

theorem HasEmptyList.items {p : Predicate} (empty : p.HasEmptyList) : p.value.list?.getD [] = [] := by
  obtain ⟨op, none⟩ := empty
  unfold operands at none
  split at none
  next same => simp [same] at op
  next same => simp [same] at op
  next =>
    cases list : p.value.list? with
    | none => rfl
    | some items =>
        rw [list] at none
        exact none

/-- What is written for a predicate: nothing is in an empty list, and whatever there is is not. -/
def settled (p : Predicate) : Condition :=
  match p.effectiveOp, p.operands with
  | .isIn, [] => .group .or []
  | .notIn, [] => .on p.field .isNotNull .null
  | _, _ => .basic p

theorem settled_cases (p : Predicate) :
    (p.effectiveOp = .isIn ∧ p.operands = [] ∧ p.settled = .group .or []) ∨
      (p.effectiveOp = .notIn ∧ p.operands = [] ∧ p.settled = .on p.field .isNotNull .null) ∨
      (¬p.HasEmptyList ∧ p.settled = .basic p) := by
  unfold settled HasEmptyList
  split
  next op none => exact Or.inl ⟨op, none, rfl⟩
  next op none => exact Or.inr (Or.inl ⟨op, none, rfl⟩)
  next notIn notNotIn =>
    refine Or.inr (Or.inr ⟨?_, rfl⟩)
    rintro ⟨op | op, none⟩
    · exact notIn op none
    · exact notNotIn op none

end Predicate

namespace Condition

mutual

def settled : Condition → Condition
  | .basic p => p.settled
  | .group logic children => .group logic (settledAll children)
  | .sub q => .sub q
termination_by structural c => c

def settledAll : List Condition → List Condition
  | [] => []
  | c :: rest => settled c :: settledAll rest
termination_by structural cs => cs

end

mutual

theorem hasSubquery_settled (c : Condition) : c.settled.hasSubquery = c.hasSubquery := by
  cases c with
  | basic p =>
      obtain ⟨-, -, same⟩ | ⟨-, -, same⟩ | ⟨-, same⟩ := p.settled_cases <;> rw [settled, same] <;> rfl
  | group logic children => exact anySubquery_settledAll children
  | sub q => rfl
termination_by structural c

theorem anySubquery_settledAll (cs : List Condition) :
    anySubquery (settledAll cs) = anySubquery cs := by
  cases cs with
  | nil => rfl
  | cons c rest =>
      rw [settledAll, anySubquery, anySubquery, hasSubquery_settled c, anySubquery_settledAll rest]
termination_by structural cs

end

mutual

theorem predicates_settled (c : Condition) :
    ∀ q ∈ predicates c.settled, ∃ p ∈ predicates c, q ∈ predicates p.settled := by
  cases c with
  | basic p => exact fun q member => ⟨p, List.mem_cons_self, member⟩
  | group logic children => exact predicates_settledAll children
  | sub q => exact fun _ member => nomatch member
termination_by structural c

theorem predicates_settledAll (cs : List Condition) :
    ∀ q ∈ predicatesOfAll (settledAll cs), ∃ p ∈ predicatesOfAll cs, q ∈ predicates p.settled := by
  cases cs with
  | nil => exact fun _ member => nomatch member
  | cons c rest =>
      intro q member
      rcases List.mem_append.1 member with first | later
      · obtain ⟨p, inside, own⟩ := predicates_settled c q first
        exact ⟨p, List.mem_append_left _ inside, own⟩
      · obtain ⟨p, inside, own⟩ := predicates_settledAll rest q later
        exact ⟨p, List.mem_append_right _ inside, own⟩
termination_by structural cs

end

/-! ### Truth -/

mutual

theorem truth_settled (r : Record) (c : Condition) :
    truth r c.settled = reading (fun p => truth r p.settled) c := by
  cases c with
  | basic p => rfl
  | group logic children =>
      cases logic <;> rw [settled, truth, reading, truths_settledAll r children]
  | sub q => rfl
termination_by structural c

theorem truths_settledAll (r : Record) (cs : List Condition) :
    truths r (settledAll cs) = readings (fun p => truth r p.settled) cs := by
  cases cs with
  | nil => rfl
  | cons c rest =>
      rw [settledAll, truths, readings, truth_settled r c, truths_settledAll r rest]
termination_by structural cs

end

/-- A settled predicate is as true as the predicate, unless it stands for a membership of a null: that
is unknown, and false when it is settled. -/
theorem truth_settled_predicate (r : Record) (p : Predicate) :
    truth r p.settled = p.truthFor (r.valueAt p.field) ∨
      (p.HasEmptyList ∧ r.valueAt p.field = .null) ∧
        p.truthFor (r.valueAt p.field) = .unknown ∧ truth r p.settled = .false := by
  obtain ⟨op, none, same⟩ | ⟨op, none, same⟩ | ⟨-, same⟩ := p.settled_cases
  · have value : p.truthFor (r.valueAt p.field)
        = if (r.valueAt p.field).isNull then .unknown else .false := by
      have items := Predicate.HasEmptyList.items ⟨Or.inl op, none⟩
      simp only [Predicate.truthFor, op, items]
      rfl
    rw [same, value]
    by_cases null : r.valueAt p.field = .null
    · rw [null]
      exact Or.inr ⟨⟨⟨Or.inl op, none⟩, rfl⟩, rfl, rfl⟩
    · rw [Value.isNull_of_ne null]
      exact Or.inl rfl
  · have value : p.truthFor (r.valueAt p.field)
        = if (r.valueAt p.field).isNull then .unknown else .true := by
      have items := Predicate.HasEmptyList.items ⟨Or.inr op, none⟩
      simp only [Predicate.truthFor, op, items]
      rfl
    have settled : truth r (.on p.field .isNotNull .null) = .ofBool !(r.valueAt p.field).isNull := rfl
    rw [same, value, settled]
    by_cases null : r.valueAt p.field = .null
    · rw [null]
      exact Or.inr ⟨⟨⟨Or.inr op, none⟩, rfl⟩, rfl, rfl⟩
    · rw [Value.isNull_of_ne null]
      exact Or.inl rfl
  · rw [same]
    exact Or.inl rfl

section Together

variable {r : Record} {cs : List Condition}

/-- Conditions that are true together stay true when they are settled. -/
theorem all_settled_of_true (holds : Truth.all (truths r cs) = .true) :
    Truth.all (truths r (settledAll cs)) = .true := by
  have kept (odd : Bool) (p : Predicate) :
      Reflects odd (truth r p.settled) (p.truthFor (r.valueAt p.field)) := by
    intro known
    obtain same | ⟨-, unknown, -⟩ := truth_settled_predicate r p
    · exact same
    · rw [unknown] at known
      exact absurd known.symm (Truth.ofBool_ne_unknown _)
  rw [truths_eq_readings] at holds
  rw [truths_settledAll, ← holds]
  exact reflects_readings_all false cs (fun p _ => kept false p) (fun p _ => kept true p) holds

/-- Settled conditions are true together only if the conditions are, unless a null stands below an odd
number of negations where an empty list is asked for it. -/
theorem true_of_all_settled
    (known : ∀ p ∈ oddlyNegated cs, ¬(p.HasEmptyList ∧ r.valueAt p.field = .null))
    (holds : Truth.all (truths r (settledAll cs)) = .true) : Truth.all (truths r cs) = .true := by
  rw [truths_settledAll] at holds
  rw [truths_eq_readings, ← holds]
  -- What is settled to false is no harm where truth is asked for, so only the odd places need `known`.
  refine reflects_readings_all false cs (fun p _ => ?_) (fun p member => ?_) holds
  · intro isTrue
    obtain same | ⟨-, -, isFalse⟩ := truth_settled_predicate r p
    · exact same.symm
    · rw [isFalse] at isTrue
      cases isTrue
  · intro _
    obtain same | ⟨empty, -, -⟩ := truth_settled_predicate r p
    · exact same.symm
    · exact absurd empty (known p member)

end Together

end Condition

namespace Relational

open Sql Engine

/-! ### Compiled text -/

section Compiled

variable {c : Compiler}

theorem predicate_settled {p : Predicate} {fs : List Fragment}
    (compiled : c.predicate false p = .ok fs) :
    p.validate = .ok () ∧ c.condition false p.settled = .ok fs := by
  obtain ⟨valid, col, column, tested⟩ := Compiler.exists_of_predicate compiled
  refine ⟨valid, ?_⟩
  obtain ⟨op, none, same⟩ | ⟨op, none, same⟩ | ⟨-, same⟩ := p.settled_cases
  · have items := Predicate.HasEmptyList.items ⟨Or.inl op, none⟩
    simp only [Compiler.predicateOn, op, items] at tested
    rw [same]
    exact tested
  · have items := Predicate.HasEmptyList.items ⟨Or.inr op, none⟩
    simp only [Compiler.predicateOn, op, items] at tested
    have field : p.field ≠ "" := by
      intro unnamed
      rw [Predicate.validate, if_pos unnamed] at valid
      cases valid
    have present : Predicate.validate ⟨p.field, .isNotNull, .null⟩ = .ok () := if_neg field
    rw [same]
    show (Predicate.validate ⟨p.field, .isNotNull, .null⟩ >>= fun _ => c.column p.field >>= _) = _
    rw [present, show c.column p.field = .ok col from column]
    exact tested
  · rw [same]
    exact compiled

mutual

/-- A condition is compiled to the text of the settled one. -/
theorem condition_settled (x : Condition) (closed : x.hasSubquery = false) {fs : List Fragment}
    (compiled : c.condition false x = .ok fs) :
    x.validate = .ok () ∧ c.condition false x.settled = .ok fs := by
  match x with
  | .basic p => exact predicate_settled compiled
  | .group logic [] => exact ⟨rfl, compiled⟩
  | .group logic (child :: rest) =>
      obtain ⟨body, written, rfl⟩ := Compiler.exists_of_group compiled
      obtain ⟨valid, settled⟩ := members_settled (Compiler.joiner logic) (child :: rest) closed written
      refine ⟨valid, ?_⟩
      show (c.members false (Compiler.joiner logic) (Condition.settledAll (child :: rest)) >>= _) = _
      rw [settled]
      cases logic <;> rfl
  | .sub q => cases closed

theorem members_settled (between : String) (xs : List Condition)
    (closed : Condition.anySubquery xs = false) {fs : List Fragment}
    (compiled : c.members false between xs = .ok fs) :
    Condition.validateAll xs = .ok () ∧
      c.members false between (Condition.settledAll xs) = .ok fs := by
  match xs with
  | [] => exact ⟨rfl, compiled⟩
  | [child] =>
      obtain ⟨valid, settled⟩ :=
        condition_settled child (Bool.or_eq_false_iff.1 closed).1 compiled
      refine ⟨?_, settled⟩
      rw [Condition.validateAll, valid]
      rfl
  | child :: next :: rest =>
      obtain ⟨childClosed, restClosed⟩ := Bool.or_eq_false_iff.1 closed
      obtain ⟨front, others, first, later, rfl⟩ := Compiler.exists_of_members compiled
      obtain ⟨firstValid, firstSettled⟩ := condition_settled child childClosed first
      obtain ⟨restValid, restSettled⟩ := members_settled between (next :: rest) restClosed later
      constructor
      · rw [Condition.validateAll, firstValid]
        exact restValid
      · show (c.condition false child.settled >>= fun f =>
          c.members false between (Condition.settledAll (next :: rest)) >>= _) = _
        rw [firstSettled, restSettled]
        rfl

end

theorem conjunction_settled {cs : List Condition} (closed : Condition.anySubquery cs = false)
    {fs : List Fragment} (compiled : c.conjunction false cs = .ok fs) :
    Condition.validateAll cs = .ok () ∧ c.conjunction false (Condition.settledAll cs) = .ok fs := by
  cases cs with
  | nil => exact ⟨rfl, compiled⟩
  | cons child rest => exact members_settled " AND " (child :: rest) closed compiled

/-- What a settled predicate holds is a membership with items, on the same field. -/
theorem memberships_settled {p q : Predicate} (membership : p.IsMembership)
    (inside : q ∈ Condition.predicates p.settled) :
    q.IsMembership ∧ q.HasForm ∧ q.field = p.field ∧ q.operands ⊆ p.operands := by
  obtain ⟨-, -, same⟩ | ⟨-, -, same⟩ | ⟨filled, same⟩ := p.settled_cases <;> rw [same] at inside
  · cases inside
  · obtain rfl := List.mem_singleton.1 inside
    refine ⟨Or.inr (Or.inr (Or.inr rfl)), ⟨?_, ?_⟩, rfl, List.nil_subset _⟩
    · exact Operator.noConfusion
    · rintro (op | op) <;> cases op
  · obtain rfl := List.mem_singleton.1 inside
    refine ⟨membership, ⟨?_, fun op none => filled ⟨op, none⟩⟩, rfl, List.Subset.refl _⟩
    intro op
    simp [Predicate.IsMembership, op] at membership

theorem ordinary_settled {p q : Predicate} (membership : p.IsMembership)
    (inside : q ∈ Condition.predicates p.settled) : q.IsOrdinary := by
  obtain ⟨qMembership, formed, -, -⟩ := memberships_settled membership inside
  refine ⟨formed.noRegex, formed.listed, ?_⟩
  rintro (op | op) <;> simp [Predicate.IsMembership, op] at qMembership

/-- Where a column displays the field of a predicate, what is written for the predicate is
understood. -/
theorem understood_settled {cat : Catalog} {scope : Scope} {env : Env} {r : Record} {p q : Predicate}
    (membership : p.IsMembership) (inside : q ∈ Condition.predicates p.settled)
    (valid : q.validate = .ok ())
    (displayed : Displayed cat scope env (c.columnName p.field) (r.valueAt p.field))
    (comparable : ∀ o ∈ p.operands, r.valueAt p.field ≠ .null → (r.valueAt p.field).Comparable o) :
    Understood cat scope env c r q := by
  obtain ⟨qMembership, formed, field, operands⟩ := memberships_settled membership inside
  rw [← field] at displayed comparable
  exact ⟨valid, ordinary_settled membership inside, membership_means displayed
    (fun o own => comparable o (operands own)) valid formed qMembership⟩

/-- The text of conditions on memberships is an expression that is read as the settled conditions.  So
it is true where the plan is, and where it is true and the plan is not, a predicate with an empty list
reads a null below an odd number of negations. -/
theorem compilePredicate_emptyLists {cs : List Condition} (closed : Condition.anySubquery cs = false)
    (memberships : ∀ p ∈ Condition.predicatesOfAll cs, p.IsMembership) {statement : Statement}
    (compiled : c.compilePredicate cs = .ok statement) :
    ∃ plan fs e, KeyValue.Plan.compile { conditions := cs } = .ok plan ∧
      statement = .ofFragments c.dialect (fs.map (Fragment.respelled c.dialect)) [] ∧
      (c.dialect = .sqlite → statement.sql.toList = written fs) ∧
      Parser.wholeExpr (written fs) = .ok e ∧
      ∀ {cat : Catalog} {scope : Scope} {env : Env} {r : Record},
        env.params = statement.params.map bind →
        (∀ p ∈ Condition.predicatesOfAll cs,
          Displayed cat scope env (c.columnName p.field) (r.valueAt p.field)) →
        (∀ p ∈ Condition.predicatesOfAll cs, ∀ o ∈ p.operands, r.valueAt p.field ≠ .null →
          (r.valueAt p.field).Comparable o) →
        ∃ t, Means cat scope env e t ∧ t = .all (Condition.truths r (Condition.settledAll cs)) ∧
          (plan.evaluate r = .true → t = .true) ∧
          (t = .true → plan.evaluate r = .true ∨
            ∃ p ∈ Condition.oddlyNegated cs, p.HasEmptyList ∧ r.valueAt p.field = .null) := by
  -- The text is that of the settled conditions, which are ordinary where the given ones are not.
  obtain ⟨fs, body, rfl⟩ := c.compilePredicate_respelled closed memberships compiled
  obtain ⟨valid, settled⟩ := conjunction_settled closed body
  have origin := Condition.predicates_settledAll cs
  have settledClosed : Condition.anySubquery (Condition.settledAll cs) = false :=
    (Condition.anySubquery_settledAll cs).trans closed
  have ordinary : ∀ q ∈ Condition.predicatesOfAll (Condition.settledAll cs), q.IsOrdinary := by
    intro q member
    obtain ⟨p, inside, own⟩ := origin q member
    exact ordinary_settled (memberships p inside) own
  obtain ⟨settledValid, e, read, means⟩ :=
    conjunction_means (c := c.onSqlite) rfl settledClosed ordinary settled
  have planned := KeyValue.Plan.compile_conditions closed
  rw [valid] at planned
  refine ⟨_, fs, e, planned, rfl, fun sqlite => ?_, read, ?_⟩
  · rw [sqlite, respelled_sqlite]
    exact toList_renderFrom fs 0
  intro cat scope env r params displayed comparable
  refine ⟨_, means ?_ ?_, rfl, Condition.all_settled_of_true, fun holds => ?_⟩
  · rw [params]
    exact congrArg (List.map bind) (boundValues_respelled c.dialect fs)
  · intro q member
    obtain ⟨p, inside, own⟩ := origin q member
    exact understood_settled (memberships p inside) own
      (Condition.validateAll_predicates settledValid q member) (displayed p inside)
      (comparable p inside)
  · by_cases known : ∀ p ∈ Condition.oddlyNegated cs, ¬(p.HasEmptyList ∧ r.valueAt p.field = .null)
    · exact Or.inl (Condition.true_of_all_settled known holds)
    · push Not at known
      exact Or.inr known

end Compiled

def unlisted : List Condition :=
  [.group .not [.on "age" .isIn (.list []), .on "name" .isIn (.list [.text "Bob"])]]

def unlistedStatement : Statement where
  sql := "NOT (1 = 0 OR \"name\" IN ($1))"
  params := [.text "Bob"]

def peopleRow (params : List Cell) (age name : Cell) : Env where
  table := fun _ => []
  params := params
  settings := { caseSensitive := false }
  rows := [[age, name]]

section Columns

variable {dialect : Dialect} {params : List Cell} {age name : Cell} {v : Value}

theorem displayed_age (displays : Displays age (some .integer) v) :
    Displayed peopleCatalog peopleScope (peopleRow params age name)
      (Compiler.columnName { dialect := dialect } "age") v := by
  have column : Compiler.columnName { dialect := dialect } "age" = ⟨none, "age".toList⟩ := by
    cases dialect <;> with_unfolding_all rfl
  rw [column]
  exact ⟨⟨.cell 0 0, some .integer, [], some "age"⟩, age, by with_unfolding_all rfl, rfl, displays⟩

theorem displayed_name (displays : Displays name (some .text) v) :
    Displayed peopleCatalog peopleScope (peopleRow params age name)
      (Compiler.columnName { dialect := dialect } "name") v := by
  have column : Compiler.columnName { dialect := dialect } "name" = ⟨none, "name".toList⟩ := by
    cases dialect <;> with_unfolding_all rfl
  rw [column]
  exact ⟨⟨.cell 0 1, some .text, [], some "name"⟩, name, by with_unfolding_all rfl, rfl, displays⟩

end Columns

theorem unlisted_means :
    Condition.anySubquery unlisted = false ∧
    (∀ p ∈ Condition.predicatesOfAll unlisted, p.IsMembership) ∧
    Compiler.compilePredicate { dialect := .postgres } unlisted = .ok unlistedStatement ∧
    ∃ plan e, KeyValue.Plan.compile { conditions := unlisted } = .ok plan ∧
      Means peopleCatalog peopleScope (peopleRow [.text "Bob"] (.integer 36) (.text "Ada")) e .true ∧
      plan.evaluate ada = .true := by
  have memberships : ∀ p ∈ Condition.predicatesOfAll unlisted, p.IsMembership := by
    intro p member
    rcases List.mem_cons.1 member with rfl | member
    · decide
    obtain rfl := List.mem_singleton.1 member
    decide
  have compiled : Compiler.compilePredicate { dialect := .postgres } unlisted
      = .ok unlistedStatement := by
    with_unfolding_all rfl
  obtain ⟨plan, fs, e, planned, -, -, -, means⟩ := compilePredicate_emptyLists
    (c := { dialect := .postgres }) rfl memberships compiled
  have columns : ∀ p ∈ Condition.predicatesOfAll unlisted,
      Displayed peopleCatalog peopleScope (peopleRow [.text "Bob"] (.integer 36) (.text "Ada"))
        (Compiler.columnName { dialect := .postgres } p.field) (ada.valueAt p.field) := by
    intro p member
    rcases List.mem_cons.1 member with rfl | member
    · exact displayed_age (displays_bind (v := .int 36) (fun same => nomatch same) (by decide))
    obtain rfl := List.mem_singleton.1 member
    exact displayed_name (displays_bind (v := .text "Ada") (by rintro a ⟨⟩; rfl) (by decide))
  have comparable : ∀ p ∈ Condition.predicatesOfAll unlisted, ∀ o ∈ p.operands,
      ada.valueAt p.field ≠ .null → (ada.valueAt p.field).Comparable o := by
    intro p member o operand _
    rcases List.mem_cons.1 member with rfl | member
    · cases operand
    obtain rfl := List.mem_singleton.1 member
    obtain rfl := List.mem_singleton.1 operand
    trivial
  obtain ⟨t, truth, value, -, -⟩ := means rfl columns comparable
  rw [show t = .true from value.trans (by decide)] at truth
  obtain rfl := Except.ok.inj (planned.symm.trans rfl)
  exact ⟨rfl, memberships, compiled, _, e, planned, truth, by decide⟩

def nameOnly : Record := .ofList [("name", .text "Ada")]

/-- The record without age is selected, although it is not known whether its age is in the list. -/
theorem missingAge_outside :
    ∃ plan e, KeyValue.Plan.compile { conditions := [.group .not [.on "age" .isIn (.list [])]] }
        = .ok plan ∧
      Compiler.compilePredicate {} [.group .not [.on "age" .isIn (.list [])]]
        = .ok { sql := "NOT (1 = 0)", params := [] } ∧
      Parser.wholeExpr "NOT (1 = 0)".toList = .ok e ∧
      Displayed peopleCatalog peopleScope (peopleRow [] .null (.text "Ada"))
        (Compiler.columnName {} "age") (nameOnly.valueAt "age") ∧
      Means peopleCatalog peopleScope (peopleRow [] .null (.text "Ada")) e .true ∧
      plan.evaluate nameOnly = .unknown := by
  have missing : Displays .null (some .integer) .null := ⟨rfl, rfl, trivial⟩
  refine ⟨_, _, rfl, by with_unfolding_all rfl, by with_unfolding_all rfl, ?_, ?_, by decide⟩
  · exact displayed_age missing
  · exact ⟨_, _, rfl, rfl, rfl⟩

end Relational

end Recordkeeper
