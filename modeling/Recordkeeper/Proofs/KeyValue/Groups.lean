import Recordkeeper.Proofs.Condition
import Recordkeeper.Proofs.NameMap
import Recordkeeper.Proofs.Paging

/-!
Contract: the groups of a plan and the rows that stand for them.

Owns:
- that every group has the key of one of its members;
- the fields of a row, which are those that are put out, and the count;
- that a grouped plan tests, orders and cuts groups by their rows.

Does not own: when two records are of one group.
-/

set_option autoImplicit false

namespace Recordkeeper

theorem SortKey.orderAll_congr {keys : List SortKey} {a b c d : Record}
    (left : ∀ key ∈ keys, a.valueAt key.field = c.valueAt key.field)
    (right : ∀ key ∈ keys, b.valueAt key.field = d.valueAt key.field) :
    orderAll keys a b = orderAll keys c d := by
  refine List.foldr_ext _ _ _ fun key member rest => ?_
  rw [order, order, left key member, right key member]

namespace KeyValue.Plan

variable {plan : Plan}

/-- The values of a group under the names that it is grouped by. -/
def groupField? (plan : Plan) (group : List Value × Nat) (name : String) : Option Value :=
  if name = Query.countField then some (.int (Int64.ofNat group.2))
  else (NameMap.ofList (plan.groupBy.zip group.1)).get? name

theorem get?_groupRow (group : List Value × Nat) (name : String) :
    (plan.groupRow group).get? name
      = if name = Query.countField ∨ name ∈ plan.groupOutput then plan.groupField? group name
        else none := by
  unfold groupRow groupField?
  rw [NameMap.get?_insert]
  by_cases isCount : name = Query.countField
  · rw [if_pos isCount, if_pos isCount, if_pos (Or.inl isCount)]
  · rw [if_neg isCount, if_neg isCount, NameMap.ofList_filter, NameMap.get?_filter]
    by_cases put : name ∈ plan.groupOutput
    · rw [if_pos (Or.inr put)]
      cases (NameMap.ofList (plan.groupBy.zip group.1)).get? name <;> simp [put]
    · rw [if_neg (by simp [isCount, put])]
      cases (NameMap.ofList (plan.groupBy.zip group.1)).get? name <;> simp [put]

theorem valueAt_count (group : List Value × Nat) :
    (plan.groupRow group).valueAt Query.countField = .int (Int64.ofNat group.2) := by
  rw [Record.valueAt, get?_groupRow, if_pos (Or.inl rfl), groupField?, if_pos rfl]
  rfl

theorem countMember_keys {key : List Value} {groups : List (List Value × Nat)}
    {group : List Value × Nat} (member : group ∈ countMember key groups) :
    group.1 = key ∨ ∃ other ∈ groups, group.1 = other.1 := by
  induction groups with
  | nil => exact Or.inl (congrArg Prod.fst (List.mem_singleton.1 member))
  | cons first rest inductionHypothesis =>
      rw [countMember] at member
      split at member
      · rcases List.mem_cons.1 member with rfl | later
        · exact Or.inr ⟨first, List.mem_cons_self, rfl⟩
        · exact Or.inr ⟨group, List.mem_cons_of_mem _ later, rfl⟩
      · rcases List.mem_cons.1 member with rfl | later
        · exact Or.inr ⟨_, List.mem_cons_self, rfl⟩
        · rcases inductionHypothesis later with own | ⟨other, among, same⟩
          · exact Or.inl own
          · exact Or.inr ⟨other, List.mem_cons_of_mem _ among, same⟩

theorem mem_foldl_countMember {records : List Record} {known : List (List Value × Nat)}
    {group : List Value × Nat}
    (member : group ∈ records.foldl (fun groups r => countMember (plan.groupKey r) groups) known) :
    (∃ r ∈ records, group.1 = plan.groupKey r) ∨ ∃ other ∈ known, group.1 = other.1 := by
  induction records generalizing known with
  | nil => exact Or.inr ⟨group, member, rfl⟩
  | cons r rest inductionHypothesis =>
      rcases inductionHypothesis member with ⟨later, among, same⟩ | ⟨other, among, same⟩
      · exact Or.inl ⟨later, List.mem_cons_of_mem _ among, same⟩
      · rcases countMember_keys among with own | ⟨old, among, older⟩
        · exact Or.inl ⟨r, List.mem_cons_self, same.trans own⟩
        · exact Or.inr ⟨old, among, same.trans older⟩

/-- Every group has the key of one of its members. -/
theorem tally_keys {records : List Record} {group : List Value × Nat}
    (member : group ∈ plan.tally records) : ∃ r ∈ records, group.1 = plan.groupKey r := by
  rcases mem_foldl_countMember member with found | ⟨other, none, -⟩
  · exact found
  · cases none

/-- The groups of the records that a plan selects. -/
def groups (plan : Plan) (records : List Record) : List (List Value × Nat) :=
  plan.tally (records.filter plan.selects)

/-- The rows of all groups, before the conditions on groups. -/
def groupRows (plan : Plan) (records : List Record) : List Record :=
  (plan.groups records).map plan.groupRow

/-- The groups whose rows pass the conditions on groups. -/
def groupsKept (plan : Plan) (records : List Record) : List (List Value × Nat) :=
  (plan.groups records).filter fun group =>
    (Truth.all (Condition.truths (plan.groupRow group) plan.having)).isTrue

/-- The groups that a plan answers, in their order. -/
def groupsOut (plan : Plan) (records : List Record) : List (List Value × Nat) :=
  cut plan.offset plan.limit <|
    if plan.sort.isEmpty then plan.groupsKept records
    else (plan.groupsKept records).mergeSort fun a b =>
      SortKey.orderAll plan.sort (plan.groupRow a) (plan.groupRow b) != .gt

theorem execute_grouped (grouped : plan.groupBy ≠ []) (records : List Record) :
    plan.execute records = (plan.groupsOut records).map plan.groupRow := by
  have byGroups : plan.groupBy.isEmpty = false := by simpa using grouped
  unfold execute groupsOut
  dsimp only
  rw [byGroups, map_cut]
  show cut plan.offset plan.limit (plan.sorted (plan.group (records.filter plan.selects))) = _
  unfold sorted group
  rw [List.filter_map]
  split
  · rfl
  · rw [List.map_mergeSort (s := fun a b => SortKey.orderAll plan.sort a b != .gt)
      fun _ _ _ _ => rfl]
    rfl

end KeyValue.Plan

end Recordkeeper
