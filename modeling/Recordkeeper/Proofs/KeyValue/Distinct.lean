import Recordkeeper.Proofs.KeyValue.Partition

/-!
Contract: distinct rows beside the groups of the same fields.

Owns:
- that merged rows are the first ones of the classes of equal rows;
- that a query for distinct rows and one that groups by the same fields are refused alike;
- when the two have as many rows, and when distinct rows differ in a field that may be missing.

Does not own: the rows of a grouping.

Rows are equal as maps: one that has a null is not equal to one that has nothing.  A grouping reads
a missing field as null.
-/

set_option autoImplicit false

namespace Recordkeeper

open Record

/-- No record has a null where one that it agrees with has nothing. -/
def Record.NullsAlike (names : List String) (records : List Record) : Prop :=
  ∀ r ∈ records, ∀ s ∈ records, agree names r s → SameFields names r s

instance (names : List String) (records : List Record) : Decidable (NullsAlike names records) :=
  inferInstanceAs (Decidable (∀ r ∈ records, ∀ s ∈ records, _))

namespace KeyValue.Plan

variable {names : List String} {plan : Plan}

/-! ### The plans -/

/-- Of a query without conditions on groups, only its conditions are refused. -/
theorem compile_eq_of_conditions {q : Query} (having : q.having = []) (joins : q.joins = [])
    (preloads : q.preloads = []) (lock : q.lock = .none) (covered : q.isGrouped →
      q.ungroupedField? = none) :
    compile q = (compile { conditions := q.conditions }).map fun _ => ofQuery q := by
  have valid : q.validate = Query.validate { conditions := q.conditions } := by
    unfold Query.validate
    rw [having]
  unfold compile
  rw [having, joins, preloads, lock, ← valid]
  cases q.validate with
  | error e => rfl
  | ok passed =>
      show (if q.isGrouped = true then _ else _) = _
      split
      next grouped =>
        rw [covered grouped]
        exact guarded_map (by rw [← having]; rfl)
      next => exact guarded_map (by rw [← having]; rfl)

/-! ### Merged rows -/

theorem merged_eq_firsts (rs : List Record) : merged rs = firsts Record.equal rs :=
  foldl_keepNew_nil rs

theorem valueAt_restrict {name : String} (member : name ∈ names) (r : Record) :
    (r.restrict names.contains).valueAt name = r.valueAt name := by
  rw [valueAt, restrict, NameMap.get?_filter, valueAt, List.contains_iff_mem.2 member]
  cases r.get? name <;> rfl

theorem agree_restrict (r s : Record) :
    agree names (r.restrict names.contains) (s.restrict names.contains) = agree names r s := by
  refine Bool.eq_iff_iff.2 ?_
  rw [agree_iff, agree_iff]
  refine forall₂_congr fun name member => ?_
  rw [valueAt_restrict member, valueAt_restrict member]

/-- The test of merged rows, of the records that they are made of. -/
def sameRow (names : List String) (r s : Record) : Bool :=
  (r.restrict names.contains).equal (s.restrict names.contains)

theorem sameRow_iff {r s : Record} : sameRow names r s ↔ agree names r s ∧ SameFields names r s :=
  equal_restrict_iff

theorem sameness_sameRow (names : List String) : Sameness (sameRow names) where
  symm same := by
    obtain ⟨agreed, fields⟩ := sameRow_iff.1 same
    exact sameRow_iff.2 ⟨(sameness_agree names).symm agreed, fun name member =>
      (fields name member).symm⟩
  trans first second := by
    obtain ⟨agreed, fields⟩ := sameRow_iff.1 first
    obtain ⟨agreedToo, fieldsToo⟩ := sameRow_iff.1 second
    exact sameRow_iff.2 ⟨(sameness_agree names).trans agreed agreedToo, fun name member =>
      (fields name member).trans (fieldsToo name member)⟩

theorem agree_of_sameRow (r s : Record) (same : sameRow names r s) : agree names r s :=
  (sameRow_iff.1 same).1

theorem sameRow_self (r : Record) (own : agree names r r) : sameRow names r r :=
  sameRow_iff.2 ⟨own, fun _ _ => rfl⟩

/-- Where nulls are alike the finer test is the coarser one. -/
theorem nullsAlike_iff {records : List Record} : NullsAlike names records
    ↔ ∀ r ∈ records, ∀ s ∈ records, agree names r s → sameRow names r s :=
  forall₄_congr fun _ _ _ _ => forall_congr' fun agreed => by
    rw [sameRow_iff, and_iff_right agreed]

/-! ### Rows and groups -/

theorem merged_project (select : plan.select = names) (matched : List Record) :
    merged (matched.map plan.project)
      = (firsts (sameRow names) matched).map fun r => r.restrict names.contains := by
  rw [merged_eq_firsts, firsts_map]
  subst select
  rfl

/-- Without paging, the distinct rows are the merged ones in some order. -/
theorem execute_distinct_perm (ungrouped : plan.groupBy = []) (distinct : plan.distinct = true)
    (select : plan.select = names) (selected : names ≠ []) (unlimited : plan.limit = none)
    (unskipped : plan.offset = none) (records : List Record) :
    (plan.execute records).Perm
      ((firsts (sameRow names) (records.filter plan.selects)).map
        fun r => r.restrict names.contains) := by
  have merges : (plan.distinct && !plan.select.isEmpty) = true := by
    rw [distinct, select]
    simpa using selected
  unfold execute
  rw [ungrouped, merges]
  show (cut plan.offset plan.limit
    (plan.sorted (merged ((records.filter plan.selects).map plan.project)))).Perm _
  rw [unlimited, unskipped, cut_whole, merged_project select, sorted]
  split
  · exact List.Perm.refl _
  · exact List.mergeSort_perm _ _

/-- A query for the distinct values of some fields and one that groups by them are refused alike.
There are no fewer distinct rows than groups; there are as many, and no two of them agree in the
fields where a missing one counts as null, if and only if the selected records have their nulls
alike. -/
theorem distinct_rows_iff_nullsAlike (selected : names ≠ []) {output : List String}
    (covered : output ⊆ names) (cs : List Condition) (keys others : List SortKey) :
    let distinct : Query := { conditions := cs, sort := keys, select := names, distinct := true }
    let grouped : Query := { conditions := cs, sort := others, select := output, groupBy := names }
    (∃ e, compile distinct = .error e ∧ compile grouped = .error e) ∨
    ∃ rows groups, compile distinct = .ok rows ∧ compile grouped = .ok groups ∧
      ∀ records,
        (groups.execute records).length ≤ (rows.execute records).length ∧
        ((rows.execute records).length = (groups.execute records).length
          ↔ NullsAlike names (records.filter rows.selects)) ∧
        ((rows.execute records).Pairwise (fun r s => ¬agree names r s)
          ↔ NullsAlike names (records.filter rows.selects)) := by
  intro distinct grouped
  have rowsPlanned := compile_eq_of_conditions (q := distinct) rfl rfl rfl rfl nofun
  have groupsPlanned := compile_eq_of_conditions (q := grouped) rfl rfl rfl rfl fun _ =>
    List.find?_eq_none.2 fun name member => by simpa using covered member
  rw [rowsPlanned, groupsPlanned]
  show (∃ e, (compile { conditions := cs }).map _ = _ ∧ (compile { conditions := cs }).map _ = _) ∨ _
  cases compile { conditions := cs } with
  | error e => exact Or.inl ⟨e, rfl, rfl⟩
  | ok plan =>
      refine Or.inr ⟨ofQuery distinct, ofQuery grouped, rfl, rfl, fun records => ?_⟩
      have select : (ofQuery distinct).select = names := rfl
      have rows := execute_distinct_perm rfl rfl select selected rfl rfl records
      have groupBy : (ofQuery grouped).groupBy = names := rfl
      have groups := length_execute_grouped (groupBy ▸ selected) rfl rfl rfl records
      have coarse := sameness_agree names
      have apart : ((ofQuery distinct).execute records).Pairwise (fun r s => ¬agree names r s)
          ↔ (firsts (sameRow names) (records.filter (ofQuery distinct).selects)).Pairwise
            fun r s => ¬agree names r s := by
        rw [rows.pairwise_iff fun {r s} differ same => differ (coarse.symm same),
          List.pairwise_map]
        simp only [agree_restrict]
      rw [rows.length_eq, List.length_map, groups, apart, nullsAlike_iff]
      exact ⟨(firsts_coarse_sublist coarse agree_of_sameRow).length_le,
        length_firsts_iff coarse agree_of_sameRow (sameness_sameRow names) sameRow_self,
        pairwise_firsts_iff coarse agree_of_sameRow (sameness_sameRow names) sameRow_self⟩

/-- Two people have one nickname and a third one has none. -/
theorem nicksOfThree_distinct :
    let first : Record := .ofList [("nick", .text "Al"), ("age", .int 36)]
    let second : Record := .ofList [("nick", .text "Al")]
    let third : Record := .ofList [("age", .int 41)]
    ∃ rows groups, compile { select := ["nick"], distinct := true } = .ok rows ∧
      compile { groupBy := ["nick"] } = .ok groups ∧
      (rows.execute [first, second, third]).length
        = (groups.execute [first, second, third]).length ∧
      (rows.execute [first, second, third]).Pairwise fun r s => ¬agree ["nick"] r s := by
  intro first second third
  have covered : [] ⊆ ["nick"] := List.nil_subset _
  obtain ⟨e, refused, -⟩ | ⟨rows, groups, rowsPlanned, groupsPlanned, counted⟩ :=
    distinct_rows_iff_nullsAlike (List.cons_ne_nil _ _) covered [] [] []
  · cases refused
  · obtain ⟨-, same, apart⟩ := counted [first, second, third]
    have alike : NullsAlike ["nick"] ([first, second, third].filter rows.selects) := by
      obtain rfl := eq_ofQuery rowsPlanned
      decide
    exact ⟨rows, groups, rowsPlanned, groupsPlanned, same.2 alike, apart.2 alike⟩

/-- One person has a null for a nickname and another one has none: two rows, but one group. -/
theorem nullNick_repeated :
    let nulled : Record := .ofList [("nick", .null)]
    let missing : Record := .empty
    ∃ rows groups, compile { select := ["nick"], distinct := true } = .ok rows ∧
      compile { groupBy := ["nick"] } = .ok groups ∧
      rows.execute [nulled, missing] = [nulled, missing] ∧ agree ["nick"] nulled missing ∧
      (groups.execute [nulled, missing]).length = 1 :=
  ⟨_, _, rfl, rfl, rfl, rfl, rfl⟩

end KeyValue.Plan

end Recordkeeper
