import Recordkeeper.Proofs.Document.Reading
import Recordkeeper.Proofs.Storing

/-!
Contract: the document keys that queries read, against those that records are stored under.

Owns:
- what a compiled predicate, a sort key, a projection and a grouping read of a document;
- `queries_read_stored_iff`, which says for which fields that is what was stored for the field.

Does not own: what the tests of a filter mean.

Storing knows the primary key by its name alone, and queries take `id` for a name of it too.  So a
field that is called `id` and is not the key is looked for where the key is.  What else keeps a
field from being read are columns that queries take for a path or an operator, and two fields under
one key.
-/

set_option autoImplicit false

namespace Recordkeeper.Document

/-! ### What queries read -/

/-- The answer of a predicate about the value of its field.  A range that is left out is tested by
its two sides. -/
def testValue (p : Predicate) (value : Option Json) : Outcome Bool :=
  match Compiler.fieldTest p, p.bounds with
  | .ok (some test), _ => fieldMatches value test
  | _, .ok (low, high) =>
    .ok (ordered value low.toJson (· == .lt) || ordered value high.toJson (· == .gt))
  | _, .error _ => .ok false

/-- The filter of a predicate reads one key. -/
theorem matchesFilter_predicate {c : Compiler} {p : Predicate} {filter : Json}
    (compiled : c.predicate true p = .ok filter)
    (noSign : (c.key p.field).toList.head? ≠ some '$') (doc : Json) :
    matchesFilter doc filter = testValue p (lookup doc (c.key p.field)) := by
  obtain ⟨-, -, compiled⟩ := exists_of_bind compiled
  obtain ⟨test, tested, compiled⟩ := exists_of_bind compiled
  unfold testValue
  rw [tested]
  cases test with
  | some test =>
      cases compiled
      exact matchesFilter_single noSign doc test
  | none =>
      obtain ⟨⟨low, high⟩, bounds, compiled⟩ := exists_of_bind compiled
      cases compiled
      have side {name : String} {bound : Json} {test : Ordering → Bool} (named : isOperator name)
          (plain : name ≠ "$not")
          (means : ∀ value siblings,
            simpleOperator value name bound siblings = .ok (ordered value bound test)) :
          matchesFilter doc (.single (c.key p.field) (.single name bound))
            = .ok (ordered (lookup doc (c.key p.field)) bound test) := by
        rw [matchesFilter_single noSign, fieldMatches_single _ _ named plain, means]
      have group := matchesFilter_group doc .or
        (.single (c.key p.field) (.single "$lt" low.toJson))
        [.single (c.key p.field) (.single "$gt" high.toJson)]
      rw [Compiler.groupOperator] at group
      rw [bounds]
      rw [if_pos rfl, group]
      dsimp only
      rw [anyMatch, side (by decide) (by decide) fun _ _ => rfl, anyMatch,
        side (by decide) (by decide) fun _ _ => rfl]
      cases ordered (lookup doc (c.key p.field)) low.toJson (· == .lt) <;>
        cases ordered (lookup doc (c.key p.field)) high.toJson (· == .gt) <;> rfl

/-- A selected key is kept with its value.  The id alone would be taken for what is left out. -/
theorem project_selected {keys : List String} {key : String} (selected : key ∈ keys)
    (other : ∃ other ∈ keys, other ≠ idField) (doc : Json) :
    ∃ kept : Fields, project doc (.object (selectedParts keys)) = .ok (.object kept) ∧
      kept.get? key = lookup doc key := by
  obtain ⟨kept, included⟩ : ∃ kept, includedFields doc (selectedParts keys)
      (keptId doc (decide (idField ∈ keys))) = .ok kept :=
    includedFields_flags (selectedParts_flags keys) _
  refine ⟨kept, ?_, ?_⟩
  · rw [project_eq _ (selectedParts_including other), selectedParts_keepId, included]
    rfl
  · have held := includedFields_get? included (selectedParts_nodup keys) key
    rw [get?_keptId, ← Fields.get?, get?_selectedParts, if_pos selected] at held
    obtain ⟨given, gave, held⟩ := held
    cases gave
    rw [held]
    by_cases isId : key = idField
    · subst isId
      rw [if_pos rfl, if_pos ⟨rfl, by simpa using selected⟩]
      rfl
    · rw [if_neg isId, if_neg fun both => isId both.1, Option.or_none]

/-- A document of one field with a text has only the field. -/
theorem lookup_single_text {key path text : String} {found : Json}
    (reached : lookup (.single key (.text text)) path = some found) :
    path = key ∧ '.' ∉ path.toList := by
  have own {name : String} {value : Json} (held : Fields.get? [(key, .text text)] name = some value) :
      name = key ∧ value = .text text := by
    rw [Fields.get?, lookup_cons_if] at held
    split at held
    next same => exact ⟨same, (Option.some.inj held).symm⟩
    next => cases held
  by_cases dotted : '.' ∈ path.toList
  · obtain ⟨front, rest, split, noDot⟩ := List.eq_append_cons_of_mem dotted
    rw [lookup, split, segments_dotted front rest noDot, List.foldlM_cons] at reached
    obtain ⟨value, held, within⟩ := Option.bind_eq_some_iff.1 reached
    obtain ⟨-, rfl⟩ := own held
    -- A text has no fields, and one segment at least is left.
    cases segmented : segments rest with
    | nil => exact absurd segmented (segments_ne_nil rest)
    | cons first others =>
        rw [segmented] at within
        cases within
  · exact ⟨(own (by rwa [Json.single, lookup_plain dotted] at reached)).1, dotted⟩

/-- A key with a dollar sign is taken for an operator, which holds of nothing if it has null to
work with. -/
theorem matchesFilter_signed {key : String} (signed : key.toList.head? = some '$') (doc : Json) :
    matchesFilter doc (.single key .null) ≠ .ok true := by
  have named : isOperator key = true := by
    unfold isOperator
    obtain ⟨rest, chars⟩ := List.head?_eq_some_iff.1 signed
    rw [chars]
    rfl
  show clausesMatch doc [(key, .null)] ≠ .ok true
  unfold clausesMatch
  intro holds
  iterate 4
    split at holds
    next => cases holds
  cases holds

/-! ### Fields -/

namespace Records

variable {σ E : Type} {d : Records σ E}

/-- The fields of a record are declared. -/
def Declares (d : Records σ E) (r : Record) : Prop := ∀ name ∈ r.names, (d.schema.field? name).isSome

/-- The value of a field as it is stored, if there is one. -/
def valueOf (r : Record) (name : String) : Option Json := (r.get? name).map Value.toJson

/-- Wherever a query names a field it reads the value of that field, in the documents of all
records of declared fields. -/
structure Reads (d : Records σ E) (name : String) : Prop where
  filter : ∀ p filter, p.field = name → d.compiler.predicate true p = .ok filter →
    ∀ r : Record, d.Declares r → matchesFilter (d.toDoc r) filter = testValue p (valueOf r name)
  sort : ∀ descending, ∀ r s : Record, d.Declares r → d.Declares s →
    orderByPath (d.compiler.key name, descending) (d.toDoc r) (d.toDoc s)
      = (if descending then Ordering.swap else id)
        (order ((valueOf r name).getD .null) ((valueOf s name).getD .null))
  projection : ∀ q spec, name ∈ q.select → d.compiler.projection q = some spec →
    (∃ other ∈ q.select, d.compiler.key other ≠ idField) → ∀ r : Record, d.Declares r →
      ∃ kept : Fields, project (d.toDoc r) spec = .ok (.object kept) ∧
        kept.get? (d.compiler.key name) = valueOf r name
  group : ∀ r : Record, d.Declares r →
    evaluate (d.toDoc r) (.text ("$" ++ d.compiler.key name)) = .ok ((valueOf r name).getD .null)

/-- What keeps queries from a field: a name that they take for another one's, a column that they
take for a path or an operator, and a column that another field has. -/
structure IsReadable (d : Records σ E) (name : String) : Prop where
  named : name = "id" → d.schema.primaryKey = "id" ∨ d.schema.columnFor name = idField
  noDot : '.' ∉ (d.keyOf name).toList
  noSign : name ≠ "" → (d.keyOf name).toList.head? ≠ some '$'
  alone : ∀ other, (d.schema.field? other).isSome → d.keyOf other = d.keyOf name → other = name

/-- Queries look for a field under the key that it is stored under, but for a field `id` that is
not the key. -/
theorem key_eq_keyOf_iff {name : String} : d.compiler.key name = d.keyOf name
    ↔ (name = "id" → d.schema.primaryKey = "id" ∨ d.schema.columnFor name = idField) := by
  show (if d.schema.isPrimaryKey name then idField else d.schema.columnFor name) = _ ↔ _
  unfold keyOf Schema.isPrimaryKey
  by_cases isKey : name = d.schema.primaryKey
  · subst isKey
    simp only [beq_self_eq_true, Bool.true_or, if_true, true_iff]
    exact Or.inl
  · by_cases isId : name = "id"
    · subst isId
      simp [isKey, eq_comm]
    · simp [isKey, isId]

theorem toDoc_single (d : Records σ E) (name : String) (v : Value) :
    d.toDoc (NameMap.empty.insert name v) = .single (d.keyOf name) v.toJson := by
  have entries : (NameMap.empty.insert name v).entries = [(name, v)] := rfl
  unfold toDoc keyOf
  by_cases isKey : name = d.schema.primaryKey
  · subst isKey
    rw [NameMap.get?_insert, if_pos rfl, if_pos rfl, entries,
      List.filter_cons_of_neg (by simp), List.filter_nil]
    rfl
  · rw [NameMap.get?_insert, if_neg (Ne.symm isKey), if_neg isKey, entries,
      List.filter_cons_of_pos (by simpa using isKey), List.filter_nil]
    rfl

/-- The key of a readable field leads to its value. -/
theorem lookup_key {name : String} (readable : d.IsReadable name) {r : Record}
    (declared : d.Declares r) : lookup (d.toDoc r) (d.compiler.key name) = valueOf r name := by
  rw [key_eq_keyOf_iff.2 readable.named, toDoc_eq, lookup_plain readable.noDot,
    get?_docFields_alone fun other member => readable.alone other (declared other member)]
  rfl

theorem IsReadable.reads {name : String} (readable : d.IsReadable name) : d.Reads name where
  filter p filter ofField compiled r declared := by
    subst ofField
    obtain ⟨_, valid, _⟩ := exists_of_bind compiled
    have named : p.field ≠ "" := fun empty => by
      unfold Predicate.validate at valid
      rw [if_pos empty] at valid
      cases valid
    rw [matchesFilter_predicate compiled (by
        rw [key_eq_keyOf_iff.2 readable.named]
        exact readable.noSign named),
      lookup_key readable declared]
  sort descending r s ofR ofS := by
    unfold orderByPath
    rw [lookup_key readable ofR, lookup_key readable ofS]
    cases descending <;> rfl
  projection q spec selected projected others r declared := by
    obtain ⟨other, member, notId⟩ := others
    have nonempty : q.select.isEmpty = false := by
      rw [List.isEmpty_eq_false_iff]
      exact List.ne_nil_of_mem selected
    unfold Compiler.projection at projected
    rw [nonempty, if_neg Bool.false_ne_true] at projected
    cases projected
    obtain ⟨kept, left, held⟩ := project_selected (List.mem_map_of_mem (f := d.compiler.key) selected)
      ⟨_, List.mem_map_of_mem member, notId⟩ (d.toDoc r)
    exact ⟨kept, left, by rw [held, lookup_key readable declared]⟩
  group r declared := by
    rw [evaluate_reference, lookup_key readable declared]

/-- A text that is stored for one field is found for that field alone. -/
theorem Reads.found {name : String} (reads : d.Reads name) {other : String}
    (declared : (d.schema.field? other).isSome) :
    (lookup (.single (d.keyOf other) (.text "x")) (d.compiler.key name)).getD .null
      = if other = name then .text "x" else .null := by
  have grouped := reads.group (NameMap.empty.insert other (.text "x")) fun field member => by
    rw [NameMap.names] at member
    cases List.mem_singleton.1 member
    exact declared
  rw [toDoc_single, evaluate_reference, valueOf, NameMap.get?_insert] at grouped
  have read := Except.ok.inj grouped
  rw [show Json.text "x" = (Value.text "x").toJson from rfl, read]
  by_cases same : name = other
  · rw [if_pos same, if_pos same.symm]
    rfl
  · rw [if_neg same, if_neg (Ne.symm same)]
    rfl

theorem Reads.isReadable {name : String} (reads : d.Reads name)
    (declared : (d.schema.field? name).isSome) : d.IsReadable name := by
  have own := reads.found declared
  rw [if_pos rfl] at own
  obtain ⟨found, reached⟩ : ∃ found,
      lookup (.single (d.keyOf name) (.text "x")) (d.compiler.key name) = some found := by
    cases reached : lookup (.single (d.keyOf name) (.text "x")) (d.compiler.key name) with
    | none =>
        rw [reached] at own
        cases own
    | some found => exact ⟨found, rfl⟩
  obtain ⟨sameKey, noDot⟩ := lookup_single_text reached
  refine ⟨key_eq_keyOf_iff.1 sameKey, sameKey ▸ noDot, fun named signed => ?_,
    fun other otherDeclared shared => ?_⟩
  · -- The empty record has no value for the field, so the test for null holds of it.
    have test : matchesFilter (d.toDoc NameMap.empty) (.single (d.compiler.key name) .null)
        = .ok true :=
      reads.filter ⟨name, .isNull, .null⟩ _ rfl
        (by
          show (Predicate.validate ⟨name, .isNull, .null⟩ >>= fun _ => _) = _
          unfold Predicate.validate
          rw [if_neg named]
          rfl) NameMap.empty nofun
    rw [sameKey] at test
    exact matchesFilter_signed signed _ test
  · by_contra differs
    have others := reads.found otherDeclared
    rw [if_neg differs, shared, reached] at others
    rw [reached] at own
    rw [own] at others
    cases others

/-! ### Queries and storage -/

/-- Queries read the key that a declared field is stored under if and only if the field is not
called `id`, or the key is, or its column is the key's.  What they read is then the value of the
field, in every record, if and only if the key is no path and no operator, and no other field has
it. -/
theorem queries_read_stored_iff (d : Records σ E) (valid : d.schema.validate = .ok ()) {f : FieldDef}
    (declared : f ∈ d.schema.fields) :
    (∀ v, d.toDoc (NameMap.empty.insert f.name v) = .single (d.keyOf f.name) v.toJson) ∧
    (d.compiler.key f.name = d.keyOf f.name
      ↔ (f.name = "id" → d.schema.primaryKey = "id" ∨ f.column = idField)) ∧
    (d.Reads f.name ↔ d.IsReadable f.name) := by
  have found := Schema.field?_of_mem (Schema.validate_fields valid).2 declared
  have isDeclared : (d.schema.field? f.name).isSome := Option.isSome_iff_exists.2 ⟨f, found⟩
  refine ⟨d.toDoc_single f.name, ?_, fun reads => reads.isReadable isDeclared, IsReadable.reads⟩
  rw [key_eq_keyOf_iff, Schema.columnFor_of_field? found]

/-- The values of marks are read. -/
theorem markValues_read : marks.validate = .ok () ∧
    ({ name := "values", column := "v", kind := .json } : FieldDef) ∈ marks.fields ∧
    (onDocuments marks).Reads "values" := by
  have member : ({ name := "values", column := "v", kind := .json } : FieldDef) ∈ marks.fields := by
    decide
  obtain ⟨-, -, reads⟩ := queries_read_stored_iff (onDocuments marks) rfl member
  refine ⟨rfl, member, reads.2 ⟨nofun, by decide, fun _ => by decide, fun other declared shared => ?_⟩⟩
  obtain ⟨f, found⟩ := Option.isSome_iff_exists.1 declared
  obtain ⟨within, rfl⟩ := Schema.field?_name found
  revert shared
  exact (show ∀ g ∈ marks.fields, (onDocuments marks).keyOf g.name = (onDocuments marks).keyOf "values"
    → g.name = "values" by decide) f within

/-- People with a key that is not called `id`, and a field that is. -/
def keyedPeople : Schema where
  name := "people"
  primaryKey := "key"
  fields := [{ name := "key", column := "key", kind := .text },
    { name := "id", column := "id", kind := .text }]

def keyedPerson : Record :=
  NameMap.empty.insert "key" (.text "a") |>.insert "id" (.text "b")

/-- The person whose `id` is asked for is not selected: the filter tests the key. -/
theorem plainId_unread : keyedPeople.validate = .ok () ∧
    ({ name := "id", column := "id", kind := .text } : FieldDef) ∈ keyedPeople.fields ∧
    (onDocuments keyedPeople).compiler.key "id" ≠ (onDocuments keyedPeople).keyOf "id" ∧
    keyedPerson.get? "id" = some (.text "b") ∧
    ∃ filter, (onDocuments keyedPeople).compiler.predicate true ⟨"id", .equal, .text "b"⟩
        = .ok filter ∧
      matchesFilter ((onDocuments keyedPeople).toDoc keyedPerson) filter = .ok false :=
  ⟨rfl, by decide, by decide, rfl, .single idField (.single "$eq" (.text "b")), rfl, by decide⟩

end Records

end Recordkeeper.Document
