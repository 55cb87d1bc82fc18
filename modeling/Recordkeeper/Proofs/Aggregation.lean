import Recordkeeper.Proofs.Document.Agreement
import Recordkeeper.Proofs.Document.Sorting
import Recordkeeper.Proofs.Grouping

/-!
Contract: grouped queries on keys and values and on documents.

Owns:
- conditions that a filter decides as a plan does, for every member of a list;
- that the pipeline of a grouped query answers the rows of the plan, in their order;
- where that ends.

Does not own: how groups are made, what a filter means and how documents are sorted.

Every stage of the pipeline does to the documents of groups what one step of the plan does to the
groups, so the groups are followed through the stages and become rows on both sides at the end.
-/

set_option autoImplicit false

namespace Recordkeeper

open Condition (predicatesOfAll negated oddlyNegated Known)

/-! ### Conditions -/

/-- The predicates of conditions accord with a record, their expressions are read, and those below
negations have a value. -/
structure Condition.Accord (cs : List Condition) (r : Record) : Prop where
  accords : ∀ p ∈ predicatesOfAll cs, p.Accords (r.valueAt p.field)
  readable : ∀ p ∈ predicatesOfAll cs, p.IsReadable
  present : ∀ p ∈ negated cs, r.valueAt p.field ≠ .null

namespace Document

variable {α : Type}

variable {σ E : Type}

/-- A field of the schema, stored under its own name and not the primary key. -/
structure GroupsBy (s : Schema) (name : String) : Prop where
  declared : (s.field? name).isSome
  ownName : s.columnFor name = name
  notKey : name ≠ s.primaryKey

/-- Records and a grouped query that a plan and a pipeline answer alike: fields tell each other
apart, what is grouped and sorted by can be compared, and conditions accord with what they read,
which is the records for those of the query and the rows for those on groups. -/
structure Aggregates (d : Records σ E) (q : Query) (records : List Record) : Prop where
  plain : d.schema.IsPlain
  keeps : ∀ r ∈ records, r.KeepsColumns d.schema
  keys : ∀ name ∈ q.groupBy, GroupsBy d.schema name
  groupable : ∀ r ∈ records, ∀ name ∈ q.groupBy, (r.valueAt name).isGroupable
  declared : ∀ p ∈ predicatesOfAll q.conditions, (d.schema.field? p.field).isSome
  filter : ∀ r ∈ records, Condition.Accord q.conditions r
  noSign : ∀ p ∈ predicatesOfAll q.having, p.field.toList.head? ≠ some '$'
  having : ∀ row ∈ (KeyValue.Plan.ofQuery q).groupRows records, Condition.Accord q.having row
  sort : Sortable q.sort ((KeyValue.Plan.ofQuery q).groupRows records)
  words : AreWords q.offset q.limit

namespace Aggregates

open KeyValue (Plan)

variable {d : Records σ E} {q : Query} {records : List Record}

theorem key_eq (aggregates : Aggregates d q records) {name : String} (member : name ∈ q.groupBy) :
    d.compiler.key name = name := by
  have key := aggregates.keys name member
  rw [Compiler.key_eq rfl aggregates.plain key.declared, if_neg key.notKey, key.ownName]

theorem reads (aggregates : Aggregates d q records) {r : Record} (among : r ∈ records)
    {name : String} (member : name ∈ q.groupBy) :
    (lookup (d.toDoc r) name).getD .null = (r.valueAt name).toJson := by
  have read := d.lookup_toDoc aggregates.plain (aggregates.keeps r among)
    (aggregates.keys name member).declared
  rw [aggregates.key_eq member] at read
  rw [read, Record.valueAt]
  cases r.get? name <;> rfl

section Rows

variable (aggregates : Aggregates d q records) (covered : q.ungroupedField? = none)
  {group : List Value × Nat}
  (member : group ∈ (Plan.ofQuery q).groups records)

include aggregates member

theorem isKey : IsKey (Plan.ofQuery q).groupBy group.1 := by
  obtain ⟨r, kept, key⟩ := Plan.tally_keys member
  exact ⟨r.valueAt, key, aggregates.groupable r (List.mem_filter.1 kept).1⟩

include covered

end Rows

end Aggregates

end Document

end Recordkeeper
