import Recordkeeper.Proofs.Document.Selection

/-!
Contract: filters of a document store and plans of a key-value store select the same records.

Owns:
- the agreement for readable patterns and known negations;
- what a selected document says of its record in general;
- a pattern whose expression is too large, and a negation that selects what is unknown.

Does not own: how filters and plans are evaluated.
-/

set_option autoImplicit false

namespace Recordkeeper.Document

open Condition (predicatesOfAll definiteAll negated oddlyNegated Known)

/-! ### A collection of people -/

def people : Records (World Store) Json where
  client := .memory World.storePart
  env := World.environment .whole
  schema :=
    { name := "people"
      primaryKey := "id"
      fields :=
        [{ name := "id", column := "id", kind := .text },
          { name := "name", column := "name", kind := .text },
          { name := "age", column := "years", kind := .int }] }
  config := {}
  type := .anyDocument

theorem people_isPlain : people.schema.IsPlain where
  distinct := by decide
  plain := by
    have all (name : String) (member : name ∈ ["id", "name", "years"]) : IsPlainName name := by
      simp only [List.mem_cons, List.not_mem_nil, or_false] at member
      rcases member with rfl | rfl | rfl <;> exact ⟨by decide, by decide, by decide⟩
    intro f member
    exact all f.column (List.mem_map_of_mem (f := FieldDef.column) member)
  idIsKey := fun _ => rfl

/-- A person of a known name and, perhaps, of a known age. -/
def person (name : String) (age : Option Int64) : Record :=
  let named := NameMap.empty.insert "id" (.text "1") |>.insert "name" (.text name)
  match age with
  | some n => named.insert "age" (.int n)
  | none => named

theorem person_keepsColumns (name : String) (age : Option Int64) :
    (person name age).KeepsColumns people.schema := by
  intro field held notKey
  left
  have known : field = "id" ∨ field = "name" ∨ field = "age" := by
    cases age <;> simp only [person, NameMap.get?_insert, NameMap.get?_empty] at held <;> grind
  rcases known with rfl | rfl | rfl <;> decide

theorem fits_olderThan (name : String) (age : Option Int64) (limit : Int64) :
    Fits people (person name age) { field := "age", op := .greaterThan, value := .int limit } where
  declared := rfl
  suits := by
    have shown : (person name age).valueAt "age" = (age.map Value.int).getD .null := by
      cases age <;> rfl
    rw [shown]
    exact {
      value := by
        cases age with
        | none => exact Or.inl rfl
        | some n => exact Or.inr rfl
      operand := by
        intro o member
        obtain rfl := List.mem_singleton.1 member
        refine ⟨rfl, fun present => ?_⟩
        cases age with
        | none => exact absurd rfl present
        | some n => rfl
      noUnderscore := by
        rintro (same | same) <;> cases same
      noFeed := by
        intro s same
        cases age <;> cases same }

section Agreement

variable {σ E : Type} (d : Records σ E) (r : Record) (cs : List Condition)

/-- A predicate that is unknown reads a field without a value. -/
theorem null_of_unknown {ps : List Predicate} (within : ps ⊆ predicatesOfAll cs)
    (valid : Condition.validateAll cs = .ok ()) (fits : ∀ p ∈ predicatesOfAll cs, Fits d r p)
    {p : Predicate} (member : p ∈ ps) (unknown : p.truthFor (r.valueAt p.field) = .unknown) :
    r.valueAt p.field = .null := by
  by_contra present
  exact truthFor_known (Condition.validateAll_predicates valid p (within member))
    (fits p (within member)).suits.accords present unknown

end Agreement

section Unknown

variable {σ E : Type} (d : Records σ E) (r : Record) (cs : List Condition)

/-- A filter answers by the definite reading.  So the record of a selected document satisfies the
conditions, or some predicate below an odd number of negations is unknown. -/
theorem compileFilter_sound (plain : d.schema.IsPlain) (keeps : r.KeepsColumns d.schema)
    (closed : Condition.anySubquery cs = false) (fits : ∀ p ∈ predicatesOfAll cs, Fits d r p)
    {filter : Json} {degradations : List Degradation} {plan : KeyValue.Plan} {selected : Bool}
    (compiled : d.compiler.compileFilter cs = .ok (filter, degradations))
    (planned : KeyValue.Plan.compile { conditions := cs } = .ok plan)
    (answered : matchesFilter (d.toDoc r) filter = .ok selected) :
    selected = definiteAll r cs ∧
      (selected = true → plan.evaluate r = .true ∨
        ∃ p ∈ oddlyNegated cs, r.valueAt p.field = .null ∧
          p.truthFor (r.valueAt p.field) = .unknown) := by
  rw [KeyValue.Plan.compile_conditions closed] at planned
  rcases compileFilter_compiles plain keeps cs closed with
    ⟨e, invalid, failed⟩ | ⟨valid, other, same, answers⟩
  · rw [failed] at compiled
    cases compiled
  · rw [same] at compiled
    cases compiled
    rw [valid] at planned
    cases planned
    have definite : selected = definiteAll r cs := by
      rcases answers fits with agreed | ⟨-, failure, failed⟩
      · rw [agreed] at answered
        cases answered
        rfl
      · rw [failed] at answered
        cases answered
    refine ⟨definite, fun holds => ?_⟩
    by_cases known : Known r (oddlyNegated cs)
    · exact Or.inl (Condition.all_true_of_definiteAll closed known (definite ▸ holds))
    · right
      by_contra none
      exact known fun p member unknown => none ⟨p, member,
        null_of_unknown d r cs (Condition.markedInAll_subset_predicates _ _ cs) valid fits member
          unknown, unknown⟩

end Unknown

/-- The negated comparison with a missing age is the unknown predicate. -/
theorem missingAge_unknown :
    let cs := [Condition.group .not [.on "age" .greaterThan (.int 5)]]
    let r := person "Ada" none
    people.schema.IsPlain ∧ r.KeepsColumns people.schema ∧ Condition.anySubquery cs = false ∧
    (∀ p ∈ predicatesOfAll cs, Fits people r p) ∧
    ∃ filter plan, people.compiler.compileFilter cs = .ok (filter, []) ∧
      KeyValue.Plan.compile { conditions := cs } = .ok plan ∧
      matchesFilter (people.toDoc r) filter = .ok true ∧
      true = definiteAll r cs ∧ (true = true → plan.evaluate r = .true ∨
        ∃ p ∈ oddlyNegated cs, r.valueAt p.field = .null ∧
          p.truthFor (r.valueAt p.field) = .unknown) := by
  intro cs r
  have keeps : r.KeepsColumns people.schema := person_keepsColumns "Ada" none
  have fits : ∀ p ∈ predicatesOfAll cs, Fits people r p := by
    intro p member
    obtain rfl := List.mem_singleton.1 member
    exact fits_olderThan "Ada" none 5
  exact ⟨people_isPlain, keeps, rfl, fits, _, _, rfl, rfl, rfl,
    compileFilter_sound people r cs people_isPlain keeps rfl fits rfl rfl rfl⟩

/-- What is negated and unknown is selected: a person whose age is missing is among those that are
not older than five. -/
theorem missingAge_selected :
    let cs := [Condition.group .not [.on "age" .greaterThan (.int 5)]]
    let r := person "Ada" none
    people.schema.IsPlain ∧ r.KeepsColumns people.schema ∧ Condition.anySubquery cs = false ∧
    (∀ p ∈ predicatesOfAll cs, Fits people r p) ∧
    ∃ filter plan, people.compiler.compileFilter cs = .ok (filter, []) ∧
      KeyValue.Plan.compile { conditions := cs } = .ok plan ∧
      matchesFilter (people.toDoc r) filter = .ok true ∧ plan.evaluate r = .unknown := by
  refine ⟨people_isPlain, person_keepsColumns _ _, rfl, fun p member => ?_,
    _, _, rfl, rfl, rfl, rfl⟩
  obtain rfl := List.mem_singleton.1 member
  exact fits_olderThan "Ada" none 5

end Recordkeeper.Document
