import Recordkeeper.Relational.Compiler

/-!
Contract: which statements a malformed query is refused in.

Owns:
- the first failure of a compilation, part by part;
- selections, counts and tests of existence compared by their first failures;
- `selection_refused_iff`: the statements refuse the same queries, but for conditions on groups in
  a query that makes no groups, which counting skips.

Does not own: order, pages, locks and selected columns, which only a selection has.
-/

set_option autoImplicit false

namespace Recordkeeper

variable {α β : Type}

/-! ### First failures -/

/-- The failure of a compilation, if it fails. -/
def failure? : Except Error α → Option Error
  | .ok _ => none
  | .error e => some e

/-- A compilation refuses its input as malformed. -/
def Refuses (outcome : Except Error α) : Prop :=
  ∃ e, outcome = .error e ∧ e.kind = .validation

theorem failure?_eq_some_iff {outcome : Except Error α} {e : Error} :
    failure? outcome = some e ↔ outcome = .error e := by
  cases outcome <;> simp [failure?]

theorem failure?_eq_none_iff {outcome : Except Error α} :
    failure? outcome = none ↔ ∃ a, outcome = .ok a := by
  cases outcome <;> simp [failure?]

theorem refuses_iff {outcome : Except Error α} :
    Refuses outcome ↔ ∃ e, failure? outcome = some e ∧ e.kind = .validation := by
  simp only [Refuses, failure?_eq_some_iff]

/-- A step fails first, or else what follows does, in whatever the step has given. -/
theorem failure?_bind {step : Except Error α} {next : α → Except Error β} {later : Option Error}
    (following : ∀ a, failure? (next a) = later) :
    failure? (step >>= next) = (failure? step).or later := by
  cases step with
  | error e => rfl
  | ok a => exact following a

/-- A step whose result is only put together with others. -/
theorem failure?_map (step : Except Error α) (join : α → β) :
    failure? (step >>= fun a => pure (join a)) = failure? step := by
  cases step <;> rfl

/-- A query without order, page, lock and selected columns. -/
structure Query.IsBare (q : Query) : Prop where
  unsorted : q.sort = []
  noLimit : q.limit = none
  noOffset : q.offset = none
  unlocked : q.lock = .none
  whole : q.select = []

namespace Query.IsBare

variable {q : Query}

theorem unpaged (bare : q.IsBare) : q.unpaged = q := by
  obtain ⟨unsorted, noLimit, noOffset, -, -⟩ := bare
  cases q
  simp_all only [Query.unpaged]

theorem isDistinct (bare : q.IsBare) : q.isDistinct = false := by
  simp [Query.isDistinct, bare.whole]

end Query.IsBare

namespace Relational.Compiler

variable (c : Compiler) (table : String) (q : Query)

/-! ### Failures of clauses -/

/-- The first failure of the rows that a query is about: of the table, the joins or the
conditions. -/
def sourceFailure : Option Error :=
  (failure? (c.quote table)).or ((failure? (c.joinClauses q)).or (failure? (c.whereClause q.conditions)))

theorem failure?_plainRows (head : String) :
    failure? (c.plainRows head table q) = c.sourceFailure table q :=
  failure?_bind fun _ => failure?_bind fun _ => failure?_map _ _

theorem failure?_selection (paged : Bool) :
    failure? (c.selection table q paged)
      = (failure? (c.projection q)).or ((c.sourceFailure table q).or
          ((failure? (c.groupClause q)).or ((failure? (c.havingClause q)).or
            ((failure? (c.sortClause q)).or
              (failure? (if paged then c.lockClause q.lock else .ok [])))))) := by
  unfold selection sourceFailure
  rw [Option.or_assoc, Option.or_assoc]
  refine failure?_bind fun _ => failure?_bind fun _ => failure?_bind fun _ => failure?_bind fun _ =>
    failure?_bind fun _ => failure?_bind fun _ => failure?_bind fun _ => ?_
  -- the last step is a step at all only where a lock is compiled
  cases paged
  case false => rfl
  case true => exact failure?_map _ _

/-! ### Bare queries -/

/-- The conditions on groups are left unread when rows are counted: the query makes no groups, and
everything else in it is well-formed. -/
def SkipsHaving : Prop :=
  q.having ≠ [] ∧ q.isGrouped = false ∧ q.validate = .ok () ∧ c.sourceFailure table q = none

section

variable {q}

/-- A bare selection fails over its columns, its rows or its groups. -/
theorem failure?_bareSelection (bare : q.IsBare) (paged : Bool) :
    failure? (c.selection table q paged)
      = (failure? (c.projection q)).or ((c.sourceFailure table q).or
          ((failure? (c.groupClause q)).or (failure? (c.havingClause q)))) := by
  have order : failure? (c.sortClause q) = none := by simp [sortClause, bare.unsorted, failure?]
  have lock : failure? (if paged then c.lockClause q.lock else .ok []) = none := by
    cases paged <;> simp [lockClause, bare.unlocked, failure?]
  rw [failure?_selection, order, lock, Option.or_none, Option.or_none]

/-- Without groups there is only one thing to refuse beside the rows. -/
theorem failure?_ungroupedSelection (bare : q.IsBare) (ungrouped : q.isGrouped = false)
    (paged : Bool) :
    failure? (c.selection table q paged)
      = (c.sourceFailure table q).or
          (if q.having = [] then none else some (.refused .havingWithoutGroup)) := by
  have columns : failure? (c.projection q) = none := by
    simp [projection, ungrouped, bare.whole, failure?]
  have groups : failure? (c.groupClause q) = none := by simp [groupClause, ungrouped, failure?]
  have having : failure? (c.havingClause q)
      = if q.having = [] then none else some (.refused .havingWithoutGroup) := by
    by_cases empty : q.having = [] <;> simp [havingClause, empty, ungrouped, refuse, failure?]
  rw [failure?_bareSelection c table bare, columns, groups, having, Option.none_or, Option.none_or]

/-! ### Failures of statements -/

theorem failure?_compileSelect :
    failure? (c.compileSelect table q)
      = (failure? q.validate).or (failure? (c.selection table q true)) :=
  failure?_bind fun _ => failure?_map _ _

/-- Counting compiles the selection only if there are groups. -/
theorem failure?_compileCount (bare : q.IsBare) :
    failure? (c.compileCount table q)
      = (failure? q.validate).or
          (if q.isGrouped then failure? (c.selection table q false) else c.sourceFailure table q) := by
  refine failure?_bind fun _ => ?_
  simp only [bare.unpaged, bare.isDistinct, Bool.or_false]
  by_cases grouped : q.isGrouped
  case pos =>
    rw [if_pos grouped, if_pos grouped]
    exact failure?_map _ _
  case neg =>
    rw [if_neg grouped, if_neg grouped, ← failure?_plainRows]
    exact failure?_map _ _

/-- A test of existence compiles the selection also if there are conditions on groups. -/
theorem failure?_compileExists (bare : q.IsBare) :
    failure? (c.compileExists table q)
      = (failure? q.validate).or
          (if q.isGrouped || !q.having.isEmpty then failure? (c.selection table q false)
           else c.sourceFailure table q) := by
  refine failure?_bind fun _ => ?_
  simp only [bare.unpaged, bare.isDistinct, bare.noOffset, Option.isSome_none, Bool.or_false]
  by_cases wrapped : q.isGrouped || !q.having.isEmpty
  case pos =>
    rw [if_pos wrapped, if_pos wrapped]
    exact failure?_map _ _
  case neg =>
    rw [if_neg wrapped, if_neg wrapped, ← failure?_plainRows]
    exact failure?_map _ _

/-- The selection that a test of existence or a count compiles fails as the one that is run. -/
theorem failure?_selection_paged (bare : q.IsBare) :
    failure? (c.selection table q true) = failure? (c.selection table q false) := by
  rw [failure?_bareSelection c table bare, failure?_bareSelection c table bare]

/-- Selecting and testing existence fail in the same way. -/
theorem failure?_compileSelect_exists (bare : q.IsBare) :
    failure? (c.compileSelect table q) = failure? (c.compileExists table q) := by
  rw [failure?_compileSelect, failure?_compileExists c table bare,
    failure?_selection_paged c table bare]
  cases grouped : q.isGrouped
  case true => rfl
  case false =>
    rw [failure?_ungroupedSelection c table bare grouped]
    cases having : q.having <;> simp

/-- Counting fails as selecting does, but for the one refusal that only the selection gives. -/
theorem failure?_compileSelect_count (bare : q.IsBare) :
    failure? (c.compileSelect table q)
      = (failure? (c.compileCount table q)).or
          (if q.having ≠ [] ∧ q.isGrouped = false then some (.refused .havingWithoutGroup)
           else none) := by
  rw [failure?_compileSelect, failure?_compileCount c table bare,
    failure?_selection_paged c table bare]
  cases grouped : q.isGrouped
  case true => simp
  case false =>
    rw [failure?_ungroupedSelection c table bare grouped]
    by_cases empty : q.having = [] <;> simp [empty]

/-- The refusal is reached by counting exactly where everything else is well-formed. -/
theorem skipsHaving_iff (bare : q.IsBare) :
    c.SkipsHaving table q
      ↔ (q.having ≠ [] ∧ q.isGrouped = false) ∧ failure? (c.compileCount table q) = none := by
  rw [failure?_compileCount c table bare, SkipsHaving, and_assoc]
  refine and_congr_right fun _ => and_congr_right fun ungrouped => ?_
  rw [if_neg (by simp [ungrouped]), Option.or_eq_none_iff, failure?_eq_none_iff]
  exact and_congr_left fun _ => ⟨fun valid => ⟨(), valid⟩, fun ⟨_, valid⟩ => valid⟩

/-- A query without groups is counted row by row. -/
theorem compileCount_ungrouped (bare : q.IsBare) (ungrouped : q.isGrouped = false)
    (valid : q.validate = .ok ()) :
    c.compileCount table q
      = (c.plainRows "SELECT COUNT(*) FROM " table q).map (c.finish · []) := by
  simp only [compileCount, valid, bare.unpaged, ungrouped, bare.isDistinct]
  rfl

/-- Conditions on groups that are skipped might as well not be there. -/
theorem compileCount_withoutHaving (bare : q.IsBare) (skips : c.SkipsHaving table q) :
    c.compileCount table { q with having := [] } = c.compileCount table q := by
  obtain ⟨-, ungrouped, valid, -⟩ := skips
  have rowsValid : Query.validate { q with having := [] } = .ok () := by
    -- conditions on groups are validated last, so the others have passed
    unfold Query.validate at valid ⊢
    split at valid
    next allValid => simp only [allValid, Condition.validateAll]
    next => contradiction
  rw [compileCount_ungrouped c table bare ungrouped valid,
    compileCount_ungrouped c table (q := { q with having := [] }) { bare with } ungrouped rowsValid]
  rfl

/-- What selecting refuses is refused in a test of existence, for the same reason, and in counting
too, unless counting skips conditions on groups: then the selection is refused for these and the
rows are counted without them. -/
theorem selection_refused_iff (bare : q.IsBare) :
    (Refuses (c.compileSelect table q) ↔ Refuses (c.compileExists table q))
      ∧ ((Refuses (c.compileSelect table q) ↔ Refuses (c.compileCount table q))
          ↔ ¬ c.SkipsHaving table q)
      ∧ (∀ e, c.compileSelect table q = .error e ↔ c.compileExists table q = .error e)
      ∧ (¬ c.SkipsHaving table q →
          ∀ e, c.compileSelect table q = .error e ↔ c.compileCount table q = .error e)
      ∧ (c.SkipsHaving table q →
          c.compileSelect table q = .error (.refused .havingWithoutGroup)
            ∧ (∃ statement, c.compileCount table q = .ok statement)
            ∧ c.compileCount table { q with having := [] } = c.compileCount table q) := by
  have existence := failure?_compileSelect_exists c table bare
  have count := failure?_compileSelect_count c table bare
  have counted (agrees : ¬ c.SkipsHaving table q) :
      failure? (c.compileSelect table q) = failure? (c.compileCount table q) := by
    rw [c.skipsHaving_iff table bare, not_and] at agrees
    rw [count]
    by_cases ungrouped : q.having ≠ [] ∧ q.isGrouped = false
    case pos =>
      obtain ⟨e, failed⟩ := Option.ne_none_iff_exists'.mp (agrees ungrouped)
      rw [failed, Option.some_or]
    case neg => rw [if_neg ungrouped, Option.or_none]
  have skipped (skips : c.SkipsHaving table q) :
      failure? (c.compileSelect table q) = some (.refused .havingWithoutGroup)
        ∧ failure? (c.compileCount table q) = none := by
    obtain ⟨ungrouped, compiled⟩ := (c.skipsHaving_iff table bare).mp skips
    rw [count, compiled, if_pos ungrouped]
    exact ⟨rfl, rfl⟩
  simp only [refuses_iff, ← failure?_eq_some_iff, ← failure?_eq_none_iff]
  refine ⟨by rw [existence], ⟨fun agrees skips => ?differs, fun agrees => by rw [counted agrees]⟩,
    fun e => by rw [existence], fun agrees e => by rw [counted agrees], fun skips =>
      ⟨(skipped skips).1, (skipped skips).2, c.compileCount_withoutHaving table bare skips⟩⟩
  case differs =>
    obtain ⟨refused, compiled⟩ := skipped skips
    rw [refused, compiled] at agrees
    obtain ⟨e, failed, -⟩ := agrees.mp ⟨_, rfl, rfl⟩
    contradiction

end

/-- Cities by the number of their people, with a field that is no identifier. -/
def misspelledSizes : Query :=
  { groupBy := ["city"], having := [.on "head count" .greaterThan (.int 1)] }

theorem misspelledSizes_refused :
    misspelledSizes.IsBare
      ∧ Refuses (compileSelect {} "people" misspelledSizes)
      ∧ Refuses (compileExists {} "people" misspelledSizes)
      ∧ Refuses (compileCount {} "people" misspelledSizes) := by
  have bare : misspelledSizes.IsBare := ⟨rfl, rfl, rfl, rfl, rfl⟩
  have refused : Refuses (compileSelect {} "people" misspelledSizes) :=
    ⟨.refused (.invalidIdentifier "head count"), by with_unfolding_all rfl, rfl⟩
  obtain ⟨existence, count, -⟩ := selection_refused_iff {} "people" bare
  exact ⟨bare, refused, existence.mp refused, (count.mpr fun skips => nomatch skips.2.1).mp refused⟩

/-- Sizes compared in a query that makes no groups. -/
def ungroupedSizes : Query := { having := [.on "count" .greaterThan (.int 1)] }

theorem ungroupedSizes_counted :
    ungroupedSizes.IsBare
      ∧ Refuses (compileSelect {} "people" ungroupedSizes)
      ∧ Refuses (compileExists {} "people" ungroupedSizes)
      ∧ ¬ Refuses (compileCount {} "people" ungroupedSizes) := by
  have counted : compileCount {} "people" ungroupedSizes
      = .ok ⟨"SELECT COUNT(*) FROM \"people\"", [], []⟩ := by
    with_unfolding_all rfl
  refine ⟨⟨rfl, rfl, rfl, rfl, rfl⟩, ⟨.refused .havingWithoutGroup, by with_unfolding_all rfl, rfl⟩,
    ⟨.refused .havingWithoutGroup, by with_unfolding_all rfl, rfl⟩, fun ⟨e, refused, _⟩ => ?_⟩
  rw [counted] at refused
  contradiction

end Relational.Compiler

end Recordkeeper
