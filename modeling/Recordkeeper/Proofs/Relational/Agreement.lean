import Recordkeeper.Proofs.Relational.Meaning

/-!
Contract: the relational condition of a query means what its plan means.

Owns:
- the truth of the phrase of a condition, at every level of its groups;
- the truth of the text that conditions are compiled to.

Does not own: the truth of a single test.

The compiler flattens groups to text.  The text is read back to the phrase it was written from, and
a phrase means what its condition means by induction on the condition: the members of a group are
joined from the left, as truth values are folded.
-/

set_option autoImplicit false

namespace Recordkeeper.Relational

open Sql Engine

/-! ### Conditions -/

def connect : Logic → Truth → Truth → Truth
  | .and => .and
  | .or | .not => .or

section Conditions

variable {cat : Catalog} {scope : Scope} {env : Env} {c : Compiler} {r : Record}

theorem Means.connect {a b : Expr} {s t : Truth} (logic : Logic) (left : Means cat scope env a s)
    (right : Means cat scope env b t) :
    Means cat scope env (Phrase.connective logic a b) (Relational.connect logic s t) := by
  cases logic with
  | and => exact left.and right
  | or => exact left.or right
  | not => exact left.or right

/-- What the joined members of a group mean, the group means. -/
theorem Means.enclosed {e : Expr} {logic : Logic} {child : Condition} {rest : List Condition}
    (means : Means cat scope env e
      ((Condition.truths r rest).foldl (Relational.connect logic) (child.truth r))) :
    Means cat scope env (Phrase.enclosed logic e)
      ((Condition.group logic (child :: rest)).truth r) := by
  have conjunction : (Condition.truths r rest).foldl .and (child.truth r)
      = .all (Condition.truths r (child :: rest)) := by
    rw [Truth.foldl_and, Condition.truths, Truth.all_cons]
  have disjunction : (Condition.truths r rest).foldl .or (child.truth r)
      = .any (Condition.truths r (child :: rest)) := by
    rw [Truth.foldl_or, Condition.truths, Truth.any_cons]
  cases logic with
  | and =>
      show Means cat scope env e (.all (Condition.truths r (child :: rest)))
      rw [← conjunction]
      exact means
  | or =>
      show Means cat scope env e (.any (Condition.truths r (child :: rest)))
      rw [← disjunction]
      exact means
  | not =>
      show Means cat scope env (.not e) (Truth.any (Condition.truths r (child :: rest))).not
      rw [← disjunction]
      exact means.not

/-- A predicate that means for the engine what it means for a record, wherever its values are
bound. -/
structure Understood (cat : Catalog) (scope : Scope) (env : Env) (c : Compiler) (r : Record)
    (p : Predicate) : Prop where
  valid : p.validate = .ok ()
  ordinary : p.IsOrdinary
  means : ∀ {place : Nat}, Binds env place p.bound →
    Means cat scope env (p.form.expr (c.columnName p.field).expr place)
      (p.truthFor (r.valueAt p.field))

/-- What is asked of a predicate for a record, and of the column of its field. -/
structure Suits (cat : Catalog) (scope : Scope) (env : Env) (c : Compiler) (r : Record)
    (p : Predicate) : Prop where
  valid : p.validate = .ok ()
  ordinary : p.IsOrdinary
  fits : p.FitsColumn (r.valueAt p.field)
  column : Shows cat scope env (c.columnName p.field) (r.valueAt p.field)

theorem Suits.understood {p : Predicate} (suits : Suits cat scope env c r p)
    (sensitive : env.settings.caseSensitive) : Understood cat scope env c r p where
  valid := suits.valid
  ordinary := suits.ordinary
  means := predicate_means suits.fits suits.column suits.valid suits.ordinary sensitive

/-- The values of a condition are bound at the places of its phrase, and those of the conditions
behind it at the places after these. -/
theorem binds_members {child : Condition} {rest : List Condition} {place : Nat}
    (understood : ∀ p ∈ child.predicates, Understood cat scope env c r p)
    (binds : Binds env place (Condition.boundByAll (child :: rest))) :
    Binds env place child.bound ∧
      Binds env (place + (c.phrase child).places) (Condition.boundByAll rest) := by
  have split : Binds env place (child.bound ++ Condition.boundByAll rest) := binds
  have later := split.append.2
  rw [length_bound c child fun p member =>
    ⟨(understood p member).valid, (understood p member).ordinary⟩] at later
  exact ⟨split.append.1, later⟩

mutual

/-- The phrase of a condition means what the condition means for the record. -/
theorem condition_means (x : Condition) (closed : x.hasSubquery = false)
    (understood : ∀ p ∈ x.predicates, Understood cat scope env c r p) {place : Nat}
    (binds : Binds env place x.bound) :
    Means cat scope env ((c.phrase x).expr place) (x.truth r) := by
  match x with
  | .basic p =>
      exact (understood p List.mem_cons_self).means binds
  | .group logic [] => cases logic <;> exact means_constant _
  | .group logic (child :: rest) =>
      obtain ⟨childClosed, restClosed⟩ := Bool.or_eq_false_iff.1 closed
      obtain ⟨first, others⟩ := List.forall_mem_append.1 understood
      obtain ⟨own, later⟩ := binds_members first binds
      exact Means.enclosed (members_means logic rest restClosed others
        (condition_means child childClosed first own) later)
  | .sub q => cases closed

/-- Phrases that are joined to an expression mean the fold of their truth values. -/
theorem members_means (logic : Logic) (xs : List Condition)
    (closed : Condition.anySubquery xs = false)
    (understood : ∀ p ∈ Condition.predicatesOfAll xs, Understood cat scope env c r p) {place : Nat}
    {joined : Expr} {s : Truth} (means : Means cat scope env joined s)
    (binds : Binds env place (Condition.boundByAll xs)) :
    Means cat scope env (Phrase.exprAll logic place joined (c.phrases xs))
      ((Condition.truths r xs).foldl (connect logic) s) := by
  match xs with
  | [] => exact means
  | child :: rest =>
      obtain ⟨childClosed, restClosed⟩ := Bool.or_eq_false_iff.1 closed
      obtain ⟨first, others⟩ := List.forall_mem_append.1 understood
      obtain ⟨own, later⟩ := binds_members first binds
      exact members_means logic rest restClosed others
        (means.connect logic (condition_means child childClosed first own)) later

end

end Conditions

/-! ### Compiled text -/

/-- Fragments of conditions are the text of an expression that means what the conditions mean
together, as soon as every predicate is understood. -/
theorem conjunction_means {c : Compiler} (sqlite : c.dialect = .sqlite) {cs : List Condition}
    (closed : Condition.anySubquery cs = false)
    (ordinary : ∀ p ∈ Condition.predicatesOfAll cs, p.IsOrdinary) {fs : List Fragment}
    (compiled : c.conjunction false cs = .ok fs) :
    Condition.validateAll cs = .ok () ∧ ∃ e, Parser.wholeExpr (written fs) = .ok e ∧
      ∀ {cat : Catalog} {scope : Scope} {env : Env} {r : Record},
        env.params = (boundValues fs).map bind →
        (∀ p ∈ Condition.predicatesOfAll cs, Understood cat scope env c r p) →
        Means cat scope env e (.all (Condition.truths r cs)) := by
  cases cs with
  | nil =>
      cases compiled
      exact ⟨rfl, _, rfl, fun _ _ => means_constant true⟩
  | cons child rest =>
      obtain ⟨⟨same, values⟩, ⟨firstClean, restClean⟩, valid⟩ := members_compiled sqlite .and
        (child :: rest) closed ordinary child rest rfl compiled
      rw [same, values]
      refine ⟨valid, _, Parser.wholeExpr_members .and _ _ firstClean restClean, ?_⟩
      intro cat scope env r params understood
      have binds : Binds env 0 (Condition.boundByAll (child :: rest)) :=
        ⟨[], by rw [List.drop_zero, params, List.append_nil]⟩
      have whole := condition_means (.group .and (child :: rest)) closed understood binds
      rw [Compiler.phrase, Phrase.expr, Nat.zero_add] at whole
      exact whole

def ada : Record := .ofList [("age", .int 36), ("name", .text "Ada")]

def peopleCatalog : Catalog where
  columns? := fun _ => none
  indexed := fun _ _ => false
  patterns := false

def peopleScope : Scope :=
  [{ columns := [⟨"people", "age", some .integer, false⟩, ⟨"people", "name", some .text, false⟩] }]

end Recordkeeper.Relational
