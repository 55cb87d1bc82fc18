import Mathlib.Data.List.Nodup
import Recordkeeper.Document.Repository
import Recordkeeper.Proofs.Lookup

/-!
Contract: the document of a record, read under the keys of its fields.

Owns:
- plain names of document keys, and schemas whose fields are told apart by them;
- `lookup_toDoc`: the key of a declared field leads to the value of the field.

Does not own: filters.
-/

set_option autoImplicit false

namespace Recordkeeper

/-! ### Schemas and records -/

/-- A name that a document store takes as one key: it is no path, no operator and not the id. -/
structure IsPlainName (name : String) : Prop where
  noDot : '.' ∉ name.toList
  noSign : name.toList.head? ≠ some '$'
  notId : name ≠ Document.idField

/-- The fields of a schema have plain columns that tell them apart, and a field called like ids in
general is the primary key. -/
structure Schema.IsPlain (s : Schema) : Prop where
  distinct : (s.fields.map (·.column)).Nodup
  plain : ∀ f ∈ s.fields, IsPlainName f.column
  idIsKey : (s.field? "id").isSome → s.primaryKey = "id"

/-- A record has no field under the column of another one: a field the schema does not declare is
stored under its own name, which is then no column and not the id. -/
def Record.KeepsColumns (r : Record) (s : Schema) : Prop :=
  ∀ name, (r.get? name).isSome → name ≠ s.primaryKey →
    (s.field? name).isSome ∨ (name ≠ Document.idField ∧ ∀ f ∈ s.fields, f.column ≠ name)

namespace Schema

variable {s : Schema}

theorem field?_name {name : String} {f : FieldDef} (declared : s.field? name = some f) :
    f ∈ s.fields ∧ f.name = name := by
  have named : (f.name == name) = true :=
    List.find?_some (p := fun (g : FieldDef) => g.name == name) declared
  exact ⟨List.mem_of_find?_eq_some declared, beq_iff_eq.1 named⟩

theorem columnFor_of_field? {name : String} {f : FieldDef} (declared : s.field? name = some f) :
    s.columnFor name = f.column := by
  unfold columnFor
  rw [declared]

theorem columnFor_undeclared {name : String} (undeclared : s.field? name = none) :
    s.columnFor name = name := by
  unfold columnFor
  rw [undeclared]

/-- Different declared fields have different columns. -/
theorem IsPlain.columnFor_inj (plain : s.IsPlain) {m n : String}
    (mDeclared : (s.field? m).isSome) (nDeclared : (s.field? n).isSome)
    (same : s.columnFor m = s.columnFor n) : m = n := by
  obtain ⟨f, mFound⟩ := Option.isSome_iff_exists.1 mDeclared
  obtain ⟨g, nFound⟩ := Option.isSome_iff_exists.1 nDeclared
  rw [columnFor_of_field? mFound, columnFor_of_field? nFound] at same
  obtain ⟨fMember, rfl⟩ := field?_name mFound
  obtain ⟨gMember, rfl⟩ := field?_name nFound
  rw [List.inj_on_of_nodup_map plain.distinct fMember gMember same]

theorem IsPlain.columnFor_plain (plain : s.IsPlain) {name : String}
    (declared : (s.field? name).isSome) : IsPlainName (s.columnFor name) := by
  obtain ⟨f, found⟩ := Option.isSome_iff_exists.1 declared
  rw [columnFor_of_field? found]
  exact plain.plain f (field?_name found).1

end Schema

namespace Document

/-! ### Paths -/

theorem segments_ne_nil (path : List Char) : segments path ≠ [] := by
  cases path with
  | nil => simp [segments]
  | cons c rest =>
      rw [segments]
      split
      · simp
      · split <;> simp

theorem segments_plain (name : List Char) (noDot : '.' ∉ name) : segments name = [name] := by
  induction name with
  | nil => rfl
  | cons c rest inductionHypothesis =>
      have differs : c ≠ '.' := fun same => noDot (same ▸ List.mem_cons_self)
      have tail := inductionHypothesis fun member => noDot (List.mem_cons_of_mem _ member)
      rw [segments, if_neg differs, tail]

theorem segments_dotted (front rest : List Char) (noDot : '.' ∉ front) :
    segments (front ++ '.' :: rest) = front :: segments rest := by
  induction front with
  | nil => rfl
  | cons c front inductionHypothesis =>
      have differs : c ≠ '.' := fun same => noDot (same ▸ List.mem_cons_self)
      have tail := inductionHypothesis fun member => noDot (List.mem_cons_of_mem _ member)
      rw [List.cons_append, segments, if_neg differs, tail]

theorem lookup_plain {name : String} (noDot : '.' ∉ name.toList) (fields : Fields) :
    lookup (.object fields) name = fields.get? name := by
  unfold lookup
  rw [segments_plain name.toList noDot]
  show (child? (.object fields) name.toList).bind some = _
  rw [Option.bind_fun_some, child?, String.ofList_toList]

end Document

namespace Fields

theorem get?_insert (fields : Fields) (name other : String) (value : Json) :
    (fields.insert name value).get? other
      = if other = name then some value else fields.get? other := by
  induction fields with
  | nil =>
      show List.lookup other [(name, value)] = _
      rw [lookup_cons_if]
      rfl
  | cons entry rest inductionHypothesis =>
      obtain ⟨own, held⟩ := entry
      show List.lookup other (insert ((own, held) :: rest) name value) = _
      rw [insert]
      by_cases same : own = name
      · subst same
        rw [if_pos rfl, lookup_cons_if]
        show (if other = own then some value else List.lookup other rest)
          = if other = own then some value else List.lookup other ((own, held) :: rest)
        by_cases asked : other = own
        · rw [if_pos asked, if_pos asked]
        · rw [if_neg asked, if_neg asked, lookup_cons_if, if_neg asked]
      · rw [if_neg same, lookup_cons_if]
        show (if other = own then some held else Fields.get? (insert rest name value) other) = _
        rw [inductionHypothesis]
        show _ = if other = name then some value else List.lookup other ((own, held) :: rest)
        rw [lookup_cons_if]
        by_cases first : other = own
        · rw [if_pos first, if_neg (first ▸ same), if_pos first]
        · rw [if_neg first, if_neg first]
          rfl

/-- Values that are set one after another under keys of their names: the key of one name leads to
the value of that name. -/
theorem get?_foldl_insert (keyOf : String → String) (entries : List (String × Value))
    (ordered : entries.Pairwise fun a b => a.1 < b.1) (name key : String)
    (own : ∀ entry ∈ entries, keyOf entry.1 = key ↔ entry.1 = name) (fields : Fields) :
    (entries.foldl (fun (acc : Fields) e => acc.insert (keyOf e.1) e.2.toJson) fields).get? key
      = ((entries.lookup name).map Value.toJson).or (fields.get? key) := by
  induction entries generalizing fields with
  | nil => rfl
  | cons entry rest inductionHypothesis =>
      obtain ⟨first, tail⟩ := List.pairwise_cons.1 ordered
      rw [List.foldl_cons, inductionHypothesis tail
        (fun e member => own e (List.mem_cons_of_mem _ member)), get?_insert, lookup_cons_if]
      have key_iff := own entry List.mem_cons_self
      by_cases asked : name = entry.1
      · have absent : rest.lookup name = none := by
          rw [List.lookup_eq_none_iff]
          intro e member
          have less := first e member
          rw [← asked] at less
          exact bne_iff_ne.2 fun same => String.lt_irrefl e.1 (by rwa [same] at less)
        rw [if_pos asked, absent, if_pos (key_iff.2 asked.symm).symm]
        rfl
      · rw [if_neg asked, if_neg fun same => asked (key_iff.1 same.symm).symm]

end Fields

namespace Document

/-- The primary key is stored under the id and every other declared field under its column. -/
theorem Compiler.key_eq {c : Compiler} {s : Schema} (ofSchema : c.schema = some s)
    (plain : s.IsPlain) {field : String} (declared : (s.field? field).isSome) :
    c.key field = if field = s.primaryKey then idField else s.columnFor field := by
  unfold key
  rw [ofSchema]
  show (if s.isPrimaryKey field then idField else s.columnFor field) = _
  by_cases isKey : field = s.primaryKey
  · rw [if_pos isKey, isKey]
    simp [Schema.isPrimaryKey]
  · have noId : field ≠ "id" := fun same =>
      isKey (same.trans (plain.idIsKey (same ▸ declared)).symm)
    rw [if_neg isKey, Schema.isPrimaryKey, beq_false_of_ne isKey, beq_false_of_ne noId]
    rfl

theorem Compiler.key_noDot {c : Compiler} {s : Schema} (ofSchema : c.schema = some s)
    (plain : s.IsPlain) {field : String} (declared : (s.field? field).isSome) :
    '.' ∉ (c.key field).toList := by
  rw [key_eq ofSchema plain declared]
  split
  next => decide
  next => exact (plain.columnFor_plain declared).noDot

theorem Compiler.key_noSign {c : Compiler} {s : Schema} (ofSchema : c.schema = some s)
    (plain : s.IsPlain) {field : String} (declared : (s.field? field).isSome) :
    (c.key field).toList.head? ≠ some '$' := by
  rw [key_eq ofSchema plain declared]
  split
  next => decide
  next => exact (plain.columnFor_plain declared).noSign

namespace Records

variable {σ E : Type}

theorem columnFor_ne_id {s : Schema} (plain : s.IsPlain) {r : Record} (keeps : r.KeepsColumns s)
    {name : String} (held : (r.get? name).isSome) (notKey : name ≠ s.primaryKey) :
    s.columnFor name ≠ idField := by
  cases declared : s.field? name with
  | some f => exact (plain.columnFor_plain (Option.isSome_iff_exists.2 ⟨f, declared⟩)).notId
  | none =>
      rw [Schema.columnFor_undeclared declared]
      rcases keeps name held notKey with other | ⟨notId, -⟩
      · rw [declared] at other
        cases other
      · exact notId

theorem columnFor_eq_iff {s : Schema} (plain : s.IsPlain) {r : Record} (keeps : r.KeepsColumns s)
    {field name : String} (declared : (s.field? field).isSome) (held : (r.get? name).isSome)
    (notKey : name ≠ s.primaryKey) : s.columnFor name = s.columnFor field ↔ name = field := by
  constructor
  · intro same
    cases found : s.field? name with
    | some f =>
        exact plain.columnFor_inj (Option.isSome_iff_exists.2 ⟨f, found⟩) declared same
    | none =>
        obtain ⟨g, fieldFound⟩ := Option.isSome_iff_exists.1 declared
        rw [Schema.columnFor_undeclared found, Schema.columnFor_of_field? fieldFound] at same
        rcases keeps name held notKey with other | ⟨-, noColumn⟩
        · rw [found] at other
          cases other
        · exact absurd same.symm (noColumn g (Schema.field?_name fieldFound).1)
  · rintro rfl
    rfl

/-- The document of a record holds the value of a declared field under the field's key. -/
theorem lookup_toDoc (d : Records σ E) (plain : d.schema.IsPlain) {r : Record}
    (keeps : r.KeepsColumns d.schema) {field : String}
    (declared : (d.schema.field? field).isSome) :
    lookup (d.toDoc r) (d.compiler.key field) = (r.get? field).map Value.toJson := by
  have heldOf {entry : String × Value} (member : entry ∈ r.entries) :
      (r.get? entry.1).isSome :=
    List.lookup_isSome_iff.2 ⟨entry, member, beq_self_eq_true _⟩
  have ordered : (r.entries.filter fun f => f.1 != d.schema.primaryKey).Pairwise
      fun a b => a.1 < b.1 := r.ordered.sublist List.filter_sublist
  have others {name : String} :
      (r.entries.filter fun f => f.1 != d.schema.primaryKey).lookup name
        = if name != d.schema.primaryKey then r.get? name else none :=
    lookup_filter (· != d.schema.primaryKey) r.entries name
  have inRecord {entry : String × Value}
      (member : entry ∈ r.entries.filter fun f => f.1 != d.schema.primaryKey) :
      (r.get? entry.1).isSome ∧ entry.1 ≠ d.schema.primaryKey := by
    obtain ⟨within, notKey⟩ := List.mem_filter.1 member
    exact ⟨heldOf within, bne_iff_ne.1 notKey⟩
  rw [toDoc, lookup_plain (Compiler.key_noDot rfl plain declared),
    Compiler.key_eq rfl plain declared]
  by_cases isKey : field = d.schema.primaryKey
  · subst isKey
    rw [if_pos rfl, Fields.get?_foldl_insert d.schema.columnFor _ ordered d.schema.primaryKey,
      others, bne_self_eq_false, if_neg Bool.false_ne_true]
    · cases r.get? d.schema.primaryKey with
      | none => rfl
      | some v => rfl
    · intro entry member
      obtain ⟨held, notKey⟩ := inRecord member
      exact iff_of_false (columnFor_ne_id plain keeps held notKey) notKey
  · rw [if_neg isKey, Fields.get?_foldl_insert d.schema.columnFor _ ordered field, others,
      bne_iff_ne.2 isKey, if_pos rfl]
    · have notId : d.schema.columnFor field ≠ idField := (plain.columnFor_plain declared).notId
      cases r.get? d.schema.primaryKey with
      | none => exact Option.or_none
      | some v =>
          have apart : Fields.get? [(idField, v.toJson)] (d.schema.columnFor field) = none := by
            show List.lookup _ _ = _
            rw [lookup_cons_if, if_neg notId]
            rfl
          exact (congrArg _ apart).trans Option.or_none
    · intro entry member
      obtain ⟨held, notKey⟩ := inRecord member
      exact columnFor_eq_iff plain keeps declared held notKey

end Records

end Document

end Recordkeeper
