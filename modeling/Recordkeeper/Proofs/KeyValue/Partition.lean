import Mathlib.Algebra.BigOperators.Ring.Finset
import Mathlib.Data.List.Forall2
import Mathlib.Data.List.Induction
import Recordkeeper.Proofs.Equality
import Recordkeeper.Proofs.KeyValue.Groups

/-!
Contract: grouping as a partition of the selected records.

Owns:
- that a tally holds, for the first record of every class, its key and the size of the class;
- that the rows of a grouped plan stand for the classes of records that agree in the fields that it
  groups by.

Does not own: what one row holds, and conditions, order and paging of rows.
-/

set_option autoImplicit false

namespace Recordkeeper.KeyValue

open Record

variable {plan : Plan} {matched : List Record}

/-- The number of the records that agree with one in the fields of a grouping. -/
def Plan.classSize (plan : Plan) (matched : List Record) (first : Record) : Nat :=
  matched.countP (agree plan.groupBy first)

/-- The number that stands in the count of a row. -/
def countOf (row : Record) : Int :=
  match row.valueAt Query.countField with
  | .int n => n.toInt
  | _ => 0

/-- The first records of the classes of a grouping, each with its row. -/
structure Plan.Partitions (plan : Plan) (matched firsts rows : List Record) : Prop where
  /-- The rows stand in the order in which the classes first occur. -/
  inOrder : firsts.Sublist matched
  isFirst : ∀ first ∈ firsts, matched.find? (agree plan.groupBy first) = some first
  apart : firsts.Pairwise fun a b => ¬agree plan.groupBy a b
  /-- Every record is of exactly one class. -/
  belongs : ∀ r ∈ matched, ∃! first, first ∈ firsts ∧ agree plan.groupBy first r
  /-- A row holds the size of the class, and of the values that its records agree in those that are
  put out. -/
  rowOf : List.Forall₂ (fun first row => ∀ name, NameMap.get? row name =
    if name = Query.countField then some (.int (Int64.ofNat (plan.classSize matched first)))
    else if name ∈ plan.groupBy ∧ name ∈ plan.groupOutput then some (first.valueAt name)
    else none) firsts rows
  total : (firsts.map (plan.classSize matched)).sum = matched.length

/-! ### The tally -/

namespace Plan

theorem countMember_classes {firsts : List Record} (size : Record → Nat) (r : Record)
    (apart : firsts.Pairwise fun a b => ¬agree plan.groupBy a b) :
    countMember (plan.groupKey r) (firsts.map fun first => (plan.groupKey first, size first))
      = if firsts.any (agree plan.groupBy · r) then
          firsts.map fun first => (plan.groupKey first,
            size first + if agree plan.groupBy first r then 1 else 0)
        else (firsts.map fun first => (plan.groupKey first, size first))
          ++ [(plan.groupKey r, 1)] := by
  induction firsts with
  | nil => rfl
  | cons first rest inductionHypothesis =>
      obtain ⟨fromRest, restApart⟩ := List.pairwise_cons.1 apart
      rw [List.map_cons, countMember, List.any_cons, groupKey, groupKey, equalItems_map]
      cases own : agree plan.groupBy first r with
      | true =>
          have others (other : Record) (member : other ∈ rest) :
              agree plan.groupBy other r = false := by
            by_contra also
            exact fromRest other member ((sameness_agree _).trans own
              ((sameness_agree _).symm (Bool.not_eq_false _ ▸ also)))
          rw [if_pos rfl, Bool.true_or, if_pos rfl, List.map_cons, if_pos own]
          congr 1
          refine List.map_congr_left fun other member => ?_
          rw [others other member]
          rfl
      | false =>
          have later := inductionHypothesis restApart
          rw [groupKey] at later
          rw [if_neg Bool.false_ne_true, later, Bool.false_or]
          split
          · rw [List.map_cons, if_neg (by rw [own]; exact Bool.false_ne_true)]
            rfl
          · rfl

theorem classSize_pos {r : Record} (member : r ∈ matched) (own : agree plan.groupBy r r) :
    0 < plan.classSize matched r :=
  List.countP_pos_iff.2 ⟨r, member, own⟩

theorem classSize_concat (earlier : List Record) (r first : Record) :
    plan.classSize (earlier ++ [r]) first
      = plan.classSize earlier first + if agree plan.groupBy first r then 1 else 0 := by
  rw [classSize, List.countP_append, List.countP_singleton]
  rfl

/-- The tally of the classes.  A record that is not equal to itself is counted alone. -/
theorem tally_eq (matched : List Record) :
    plan.tally matched = (firsts (agree plan.groupBy) matched).map fun first =>
      (plan.groupKey first, max 1 (plan.classSize matched first)) := by
  induction matched using List.reverseRecOn with
  | nil => rfl
  | append_singleton earlier r inductionHypothesis =>
      unfold tally at inductionHypothesis ⊢
      rw [List.foldl_append, List.foldl_cons, List.foldl_nil, inductionHypothesis,
        countMember_classes _ _ (pairwise_firsts earlier), firsts_concat, keepNew]
      split
      next known =>
        refine List.map_congr_left fun first member => ?_
        rw [classSize_concat]
        split
        next same =>
          have counted := classSize_pos ((firsts_sublist earlier).subset member)
            ((sameness_agree _).refl_left same)
          rw [Nat.max_eq_right counted, Nat.max_eq_right (Nat.le_add_left 1 _)]
        next => rfl
      next new =>
        have others (first : Record) (member : first ∈ firsts (agree plan.groupBy) earlier) :
            agree plan.groupBy first r = false := by
          by_contra same
          exact new (List.any_eq_true.2 ⟨first, member, Bool.not_eq_false _ ▸ same⟩)
        have alone : plan.classSize earlier r = 0 := by
          refine List.countP_eq_zero.2 fun s member same => new ?_
          obtain ⟨first, among, found⟩ :=
            exists_first_same member ((sameness_agree _).refl_right same)
          exact List.any_eq_true.2 ⟨first, among,
            (sameness_agree _).trans found ((sameness_agree _).symm same)⟩
        have one : max 1 (plan.classSize (earlier ++ [r]) r) = 1 := by
          rw [classSize_concat, alone]
          split <;> rfl
        rw [List.map_append, List.map_singleton, one]
        congr 1
        refine List.map_congr_left fun first member => ?_
        rw [classSize_concat, others first member]
        rfl

theorem tally_eq_sizes (own : ∀ r ∈ matched, agree plan.groupBy r r) :
    plan.tally matched = (firsts (agree plan.groupBy) matched).map fun first =>
      (plan.groupKey first, plan.classSize matched first) := by
  rw [tally_eq]
  refine List.map_congr_left fun first member => ?_
  have among := (firsts_sublist matched).subset member
  rw [Nat.max_eq_right (classSize_pos among (own first among))]

/-! ### The rows -/

theorem get?_groupRow_first (first : Record) (size : Nat) (name : String) :
    (plan.groupRow (plan.groupKey first, size)).get? name
      = if name = Query.countField then some (.int (Int64.ofNat size))
        else if name ∈ plan.groupBy ∧ name ∈ plan.groupOutput then some (first.valueAt name)
        else none := by
  rw [get?_groupRow, groupField?]
  by_cases isCount : name = Query.countField
  · rw [if_pos (Or.inl isCount), if_pos isCount, if_pos isCount]
  · rw [if_neg isCount, if_neg isCount, groupKey, zip_tabulated, NameMap.get?_ofList,
      ← List.map_reverse, lookup_tabulated]
    simp only [isCount, false_or, List.mem_reverse]
    by_cases put : name ∈ plan.groupOutput <;> simp [put]

theorem countOf_groupRow (group : List Value × Nat) (few : group.2 < 2 ^ 63) :
    countOf (plan.groupRow group) = group.2 := by
  rw [countOf, valueAt_count]
  exact Int64.toInt_ofNat_of_lt few

/-- The classes of records that are equal to themselves in the fields of the grouping. -/
theorem partitions_firsts (own : ∀ r ∈ matched, agree plan.groupBy r r) :
    plan.Partitions matched (firsts (agree plan.groupBy) matched)
      ((plan.tally matched).map plan.groupRow) where
  inOrder := firsts_sublist matched
  isFirst first member := find?_first (sameness_agree _) member
    (own first ((firsts_sublist matched).subset member))
  apart := pairwise_firsts matched
  belongs r member := by
    obtain ⟨first, among, same⟩ := exists_first_same member (own r member)
    exact ⟨first, ⟨among, same⟩, fun other found =>
      first_unique (sameness_agree _) found.1 among found.2 same⟩
  rowOf := by
    rw [tally_eq_sizes own, List.map_map, List.forall₂_map_right_iff, List.forall₂_same]
    exact fun first _ => get?_groupRow_first first _
  total := sum_countP_firsts (sameness_agree _) own

theorem groupsKept_eq (unconditioned : plan.having = []) (records : List Record) :
    plan.groupsKept records = plan.groups records := by
  rw [groupsKept, unconditioned]
  exact List.filter_eq_self.2 fun _ _ => rfl

theorem execute_eq_rows (grouped : plan.groupBy ≠ []) (unconditioned : plan.having = [])
    (unsorted : plan.sort = []) (unlimited : plan.limit = none) (unskipped : plan.offset = none)
    (records : List Record) :
    plan.execute records = (plan.tally (records.filter plan.selects)).map plan.groupRow := by
  rw [execute_grouped grouped, groupsOut, unlimited, unskipped, unsorted, cut_whole,
    groupsKept_eq unconditioned]
  rfl

/-- Without conditions on groups and paging every group has its row. -/
theorem length_execute_grouped (grouped : plan.groupBy ≠ []) (unconditioned : plan.having = [])
    (unlimited : plan.limit = none) (unskipped : plan.offset = none) (records : List Record) :
    (plan.execute records).length
      = (firsts (agree plan.groupBy) (records.filter plan.selects)).length := by
  have out : (plan.groupsOut records).Perm (plan.groups records) := by
    rw [groupsOut, unlimited, unskipped, groupsKept_eq unconditioned, cut_whole]
    split
    · exact List.Perm.refl _
    · exact List.mergeSort_perm _ _
  rw [execute_grouped grouped, List.length_map, out.length_eq, groups, tally_eq, List.length_map]

/-- The rows of a plan that only selects and groups stand for the classes of the selected records
that agree in the fields of the grouping, in the order in which the classes first occur.  As long as
a number of 64 bits holds them, the counts of the rows are the sizes of the classes and add up to
the number of the records. -/
theorem grouped_rows_partition (grouped : plan.groupBy ≠ []) (unconditioned : plan.having = [])
    (unsorted : plan.sort = []) (unlimited : plan.limit = none) (unskipped : plan.offset = none)
    {records : List Record}
    (numbers : ∀ r ∈ records, ∀ name ∈ plan.groupBy, (r.valueAt name).hasNaN = false) :
    ∃ firsts, plan.Partitions (records.filter plan.selects) firsts (plan.execute records) ∧
      ((records.filter plan.selects).length < 2 ^ 63 →
        List.Forall₂ (fun first row =>
          countOf row = plan.classSize (records.filter plan.selects) first)
          firsts (plan.execute records) ∧
        ((plan.execute records).map countOf).sum = (records.filter plan.selects).length) := by
  have own (r : Record) (member : r ∈ records.filter plan.selects) : agree plan.groupBy r r :=
    agree_self (numbers r (List.mem_filter.1 member).1)
  have rows := execute_eq_rows grouped unconditioned unsorted unlimited unskipped records
  refine ⟨firsts (agree plan.groupBy) (records.filter plan.selects), ?_, fun few => ?_⟩
  · rw [rows]
    exact partitions_firsts own
  · have counted (first : Record) :
        countOf (plan.groupRow
            (plan.groupKey first, plan.classSize (records.filter plan.selects) first))
          = plan.classSize (records.filter plan.selects) first :=
      countOf_groupRow _ (Nat.lt_of_le_of_lt List.countP_le_length few)
    rw [rows, tally_eq_sizes own, List.map_map]
    constructor
    · rw [List.forall₂_map_right_iff, List.forall₂_same]
      exact fun first _ => counted first
    · have numbered : List.map (countOf ∘ plan.groupRow ∘ fun first => (plan.groupKey first,
            plan.classSize (records.filter plan.selects) first))
          (firsts (agree plan.groupBy) (records.filter plan.selects))
          = ((firsts (agree plan.groupBy) (records.filter plan.selects)).map
              (plan.classSize (records.filter plan.selects))).map Nat.cast := by
        rw [List.map_map]
        exact List.map_congr_left fun first _ => counted first
      rw [List.map_map, numbered, ← Nat.cast_list_sum]
      exact congrArg Nat.cast (sum_countP_firsts (sameness_agree plan.groupBy) own)

/-- Of three people two have no name, one of these by a null. -/
theorem namesOfThree_partition :
    let unnamed : Record := .ofList [("age", .int 41)]
    let named : Record := .ofList [("name", .text "Ada"), ("age", .int 36)]
    let nulled : Record := .ofList [("name", .null)]
    let plan : Plan := ⟨[], [], [], none, none, [], ["name"], false⟩
    (∃ firsts, plan.Partitions [unnamed, named, nulled] firsts
      (plan.execute [unnamed, named, nulled])) ∧
    ((plan.execute [unnamed, named, nulled]).map countOf).sum = 3 ∧
    (plan.execute [unnamed, named, nulled]).map countOf = [2, 1] := by
  intro unnamed named nulled plan
  have numbers : ∀ r ∈ [unnamed, named, nulled], ∀ name ∈ plan.groupBy,
      (r.valueAt name).hasNaN = false := by decide
  have grouped : plan.groupBy ≠ [] := List.cons_ne_nil _ _
  obtain ⟨firsts, partitions, counted⟩ := grouped_rows_partition grouped rfl rfl rfl rfl numbers
  exact ⟨⟨firsts, partitions⟩, (counted (by decide)).2, by decide⟩

end Plan

end Recordkeeper.KeyValue
