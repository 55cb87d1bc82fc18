import Recordkeeper.KeyValue.Repository
import Recordkeeper.Proofs.Document.Projection
import Recordkeeper.Proofs.Document.Stored
import Recordkeeper.Proofs.KeyValue.Codec

/-!
Contract: which records a repository gives back as they were stored.

Owns:
- fields that their columns lead back to, in an accepted schema;
- the fields that a partial update may set, over a record that can be stored;
- the record that is read back from a key-value store and from a document;
- `returned_iff_recovered`, which says exactly when it is the record that was written.

Does not own: which requests read and write records.

An accepted schema may give one column to two fields, and the column of the id to a field that is
not the key.  A field that shares its column is read back as the first one with that column.
-/

set_option autoImplicit false

namespace Recordkeeper

/-! ### Fields and columns -/

namespace Schema

variable {s : Schema}

/-- The column of a field leads back to the field. -/
def Recovers (s : Schema) (name : String) : Prop := s.fieldForColumn (s.columnFor name) = name

instance (s : Schema) (name : String) : Decidable (s.Recovers name) :=
  inferInstanceAs (Decidable (_ = _))

theorem nodup_of_repeatedName? {fields : List FieldDef} {seen : List String}
    (none : repeatedName? fields seen = none) :
    (fields.map (·.name)).Nodup ∧ ∀ f ∈ fields, f.name ∉ seen := by
  induction fields generalizing seen with
  | nil => exact ⟨List.nodup_nil, nofun⟩
  | cons f rest inductionHypothesis =>
      rw [repeatedName?] at none
      split at none
      next => cases none
      next new =>
        obtain ⟨once, others⟩ := inductionHypothesis none
        refine ⟨List.nodup_cons.2 ⟨fun member => ?_, once⟩, List.forall_mem_cons.2 ⟨?_, ?_⟩⟩
        · obtain ⟨g, within, same⟩ := List.mem_map.1 member
          exact others g within (same ▸ List.mem_cons_self)
        · exact fun known => new (List.contains_iff_mem.2 known)
        · exact fun g within known => others g within (List.mem_cons_of_mem _ known)

/-- An accepted schema declares its key and repeats no name. -/
theorem validate_fields (valid : s.validate = .ok ()) :
    (s.field? s.primaryKey).isSome ∧ (s.fields.map (·.name)).Nodup := by
  unfold validate at valid
  split at valid
  next => cases valid
  next =>
    split at valid
    next => cases valid
    next undeclared =>
      split at valid
      next => cases valid
      next once =>
        exact ⟨Option.isSome_iff_ne_none.2 (by simpa using undeclared),
          (nodup_of_repeatedName? once).1⟩

theorem field?_of_mem (once : (s.fields.map (·.name)).Nodup) {f : FieldDef}
    (member : f ∈ s.fields) : s.field? f.name = some f := by
  cases found : s.field? f.name with
  | none =>
      rw [field?, List.find?_eq_none] at found
      exact absurd (beq_self_eq_true f.name) (found f member)
  | some g =>
      obtain ⟨within, same⟩ := field?_name found
      rw [List.inj_on_of_nodup_map once within member same]

/-- The column of a declared field leads to a declared field with the same column. -/
theorem fieldForColumn_columnFor {name : String}
    (declared : (s.field? name).isSome) :
    ∃ f ∈ s.fields, s.fieldForColumn (s.columnFor name) = f.name ∧ f.column = s.columnFor name := by
  obtain ⟨g, found⟩ := Option.isSome_iff_exists.1 declared
  obtain ⟨within, -⟩ := field?_name found
  rw [columnFor_of_field? found]
  unfold fieldForColumn
  cases first : s.fields.find? (·.column == g.column) with
  | none =>
      rw [List.find?_eq_none] at first
      exact absurd (beq_self_eq_true g.column) (first g within)
  | some f =>
      have same : (f.column == g.column) = true :=
        List.find?_some (p := fun (h : FieldDef) => h.column == g.column) first
      exact ⟨f, List.mem_of_find?_eq_some first, rfl, beq_iff_eq.1 same⟩

/-- With columns of their own, all fields are recovered. -/
theorem recovers_of_distinct (distinct : (s.fields.map (·.column)).Nodup) {name : String}
    (declared : (s.field? name).isSome) : s.Recovers name := by
  obtain ⟨f, member, leads, same⟩ := fieldForColumn_columnFor declared
  obtain ⟨g, found⟩ := Option.isSome_iff_exists.1 declared
  obtain ⟨within, named⟩ := field?_name found
  rw [columnFor_of_field? found] at same
  rw [Recovers, leads, List.inj_on_of_nodup_map distinct member within same, named]

/-- The field that a column leads to is recovered, even if it is not the one that was stored. -/
theorem recovers_fieldForColumn (once : (s.fields.map (·.name)).Nodup) {name : String}
    (declared : (s.field? name).isSome) :
    s.Recovers (s.fieldForColumn (s.columnFor name)) := by
  obtain ⟨f, member, leads, same⟩ := fieldForColumn_columnFor declared
  rw [leads, Recovers, columnFor_of_field? (field?_of_mem once member), same, leads]

/-- A partial update sets declared fields, and the key is not one of them. -/
theorem checkFields_eq_ok {names : List String} (accepted : s.checkFields names = .ok ()) :
    ∀ name ∈ names, name ≠ s.primaryKey ∧ (s.field? name).isSome := by
  induction names with
  | nil => exact nofun
  | cons name rest inductionHypothesis =>
      rw [checkFields] at accepted
      split at accepted
      next => cases accepted
      next notKey =>
        split at accepted
        next => cases accepted
        next known =>
          refine List.forall_mem_cons.2 ⟨⟨?_, ?_⟩, inductionHypothesis accepted⟩
          · rintro rfl
            exact notKey (by simp [isPrimaryKey])
          · exact Option.isSome_iff_ne_none.2 (by simpa using known)

theorem checkPartial_eq_ok {r : Record} (accepted : s.checkPartial r = .ok ()) :
    ∀ name ∈ r.names, name ≠ s.primaryKey ∧ (s.field? name).isSome := by
  unfold checkPartial at accepted
  split at accepted
  next => cases accepted
  next => exact checkFields_eq_ok accepted

/-- A partial update leaves the key as it is. -/
theorem get?_overlay_key {fields : Record} (accepted : s.checkPartial fields = .ok ())
    (r : Record) : (r.overlay fields).get? s.primaryKey = r.get? s.primaryKey := by
  have unset : fields.get? s.primaryKey = none :=
    NameMap.get?_eq_none_iff.2 fun member => (checkPartial_eq_ok accepted _ member).1 rfl
  rw [NameMap.get?_overlay, unset, Option.none_or]

end Schema

variable {σ E : Type} {s : Schema} {r : Record}

/-- The fields of a record are declared, and its values are such that JSON carries them. -/
structure Record.IsStorable (r : Record) (s : Schema) : Prop where
  declared : ∀ name ∈ r.names, (s.field? name).isSome
  carried : ∀ name v, r.get? name = some v → v.isCarried

/-- Fields that may be set, over a record that can be stored. -/
theorem Record.IsStorable.overlay (storable : r.IsStorable s) {fields : Record}
    (accepted : s.checkPartial fields = .ok ())
    (carried : ∀ name v, fields.get? name = some v → v.isCarried) :
    Record.IsStorable (r.overlay fields) s where
  declared name member := by
    rw [← NameMap.isSome_get?_iff, NameMap.get?_overlay, Option.isSome_or, Bool.or_eq_true,
      NameMap.isSome_get?_iff, NameMap.isSome_get?_iff] at member
    exact member.elim (fun set => (Schema.checkPartial_eq_ok accepted name set).2)
      (storable.declared name)
  carried name v held := by
    rw [NameMap.get?_overlay, Option.or_eq_some_iff] at held
    exact held.elim (carried name v) fun before => storable.carried name v before.2

/-! ### Key-value stores -/

namespace KeyValue.Records

/-- A decoded record is what the codec reads, with fields for columns. -/
theorem stored_of_decode {k : Records σ E} {key : String} {raw : Bytes}
    (decoded : k.decode key raw = .ok r) :
    ∃ stored, Codec.decode k.config.codec raw = .ok stored ∧
      stored.rename k.schema.fieldForColumn = r := by
  unfold decode at decoded
  cases read : Codec.decode k.config.codec raw with
  | ok stored =>
      rw [read] at decoded
      exact ⟨stored, rfl, Except.ok.inj decoded⟩
  | error fault =>
      rw [read] at decoded
      cases fault <;> cases decoded

/-- The record that was stored is read back if and only if the columns lead back to its fields and,
with the JSON codec, its values are read back. -/
theorem decode_encode_iff (k : Records σ E) (valid : k.schema.validate = .ok ())
    (storable : r.IsStorable k.schema)
    (addressable : k.config.codec = .binary →
      Codec.RecordAddressable (r.rename k.schema.columnFor)) (key : String) :
    k.decode key (k.encode r) = .ok r ↔ (∀ name ∈ r.names, k.schema.Recovers name) ∧
      (k.config.codec = .json → ∀ name v, r.get? name = some v → v.ReadsBack 126) := by
  obtain ⟨-, once⟩ := Schema.validate_fields valid
  constructor
  · intro returned
    obtain ⟨stored, read, renamed⟩ := stored_of_decode returned
    obtain ⟨sameNames, values⟩ := Codec.decode_encode_fields addressable read
    have names (name : String) : name ∈ stored.names
        ↔ ∃ field ∈ r.names, k.schema.columnFor field = name := by
      rw [sameNames, Record.mem_names_rename]
    have recovers (name : String) (member : name ∈ r.names) : k.schema.Recovers name :=
      Record.recovers_of_returned (fun name => (names name).1)
        (fun name within =>
          Schema.recovers_fieldForColumn once (storable.declared name within))
        renamed member
    refine ⟨recovers, fun json name v held => ?_⟩
    have member : name ∈ r.names := NameMap.isSome_get?_iff.1 (held ▸ rfl)
    have renamedValue : (r.rename k.schema.columnFor).get? (k.schema.columnFor name) = r.get? name :=
      Record.get?_rename_of_recovers recovers member
    obtain ⟨w, readAs, found⟩ := values _ v (renamedValue.trans held)
    have same : w = v := by
      rw [← Record.get?_rename_back recovers names member, renamed, held] at found
      exact (Option.some.inj found).symm
    unfold Codec.IsReadAs at readAs
    rw [json, same] at readAs
    exact (Value.reread_toJson_iff v (storable.carried name v held) 126).1 readAs
  · rintro ⟨recovers, readBack⟩
    have values {name : String} {v : Value}
        (held : (r.rename k.schema.columnFor).get? name = some v) :
        ∃ field, r.get? field = some v := by
      obtain ⟨field, -, own⟩ := Record.exists_of_get?_rename held
      exact ⟨field, own⟩
    have read : Codec.decode k.config.codec (k.encode r) = .ok (r.rename k.schema.columnFor) := by
      refine Codec.decode_encode addressable (fun name v held => ?_) fun json name v held => ?_
      · obtain ⟨field, own⟩ := values held
        exact storable.carried field v own
      · obtain ⟨field, own⟩ := values held
        exact readBack json field v own
    rw [decode, read]
    exact congrArg Except.ok (Record.rename_back recovers)

end KeyValue.Records

/-! ### Document stores -/

namespace Document.Records

/-- The key under which a field is stored. -/
def keyOf (d : Records σ E) (name : String) : String :=
  if name = d.schema.primaryKey then idField else d.schema.columnFor name

/-- The fields of the document of a record. -/
def docFields (d : Records σ E) (r : Record) : Fields :=
  (r.entries.filter fun f => f.1 != d.schema.primaryKey).foldl
    (fun (fields : Fields) f => fields.insert (d.schema.columnFor f.1) f.2.toJson)
    (match r.get? d.schema.primaryKey with
      | some v => [(idField, v.toJson)]
      | none => [])

theorem toDoc_eq (d : Records σ E) (r : Record) : d.toDoc r = .object (d.docFields r) := rfl

variable {d : Records σ E}

theorem docFields_eq (d : Records σ E) (r : Record) : d.docFields r
    = ((r.entries.filter fun f => f.1 != d.schema.primaryKey).map fun f =>
        (d.schema.columnFor f.1, f.2.toJson)).foldl
      (fun (fields : Fields) e => fields.insert e.1 e.2)
      (match r.get? d.schema.primaryKey with
        | some v => [(idField, v.toJson)]
        | none => []) := by
  rw [docFields, List.foldl_map]

theorem nodup_docFields (d : Records σ E) (r : Record) : ((d.docFields r).map Prod.fst).Nodup := by
  rw [docFields_eq]
  refine Fields.nodup_foldl_set _ ?_
  cases r.get? d.schema.primaryKey with
  | none => exact List.nodup_nil
  | some v => exact List.nodup_singleton idField

theorem exists_of_mem_docFields {key : String} (member : key ∈ (d.docFields r).map Prod.fst) :
    ∃ name ∈ r.names, d.keyOf name = key := by
  rw [docFields_eq] at member
  rcases Fields.mem_foldl_set member with first | set
  · cases held : r.get? d.schema.primaryKey with
    | none =>
        rw [held] at first
        cases first
    | some v =>
        rw [held] at first
        refine ⟨d.schema.primaryKey, NameMap.isSome_get?_iff.1 (held ▸ rfl), ?_⟩
        rw [keyOf, if_pos rfl, List.mem_singleton.1 first]
  · rw [List.map_map] at set
    obtain ⟨entry, within, rfl⟩ := List.mem_map.1 set
    obtain ⟨known, notKey⟩ := List.mem_filter.1 within
    refine ⟨entry.1, List.mem_map_of_mem known, ?_⟩
    rw [keyOf, if_neg (bne_iff_ne.1 notKey)]
    rfl

/-- A key that no other field of a record has holds the value of its field. -/
theorem get?_docFields_alone {name : String}
    (alone : ∀ other ∈ r.names, d.keyOf other = d.keyOf name → other = name) :
    (d.docFields r).get? (d.keyOf name) = (r.get? name).map Value.toJson := by
  have others : (r.entries.filter fun f => f.1 != d.schema.primaryKey).lookup name
      = if name != d.schema.primaryKey then r.get? name else none :=
    lookup_filter (· != d.schema.primaryKey) r.entries name
  have own (entry : String × Value)
      (within : entry ∈ r.entries.filter fun f => f.1 != d.schema.primaryKey) :
      d.schema.columnFor entry.1 = d.keyOf name ↔ entry.1 = name := by
    obtain ⟨known, notKey⟩ := List.mem_filter.1 within
    have shown : d.keyOf entry.1 = d.schema.columnFor entry.1 := if_neg (bne_iff_ne.1 notKey)
    rw [← shown]
    constructor
    · exact alone entry.1 (List.mem_map_of_mem known)
    · rintro rfl
      rfl
  rw [docFields, Fields.get?_foldl_insert _ _ (r.ordered.sublist List.filter_sublist) name _ own,
    others]
  by_cases isKey : name = d.schema.primaryKey
  · subst isKey
    rw [bne_self_eq_false, if_neg Bool.false_ne_true, keyOf, if_pos rfl]
    cases r.get? d.schema.primaryKey with
    | none => rfl
    | some v => rfl
  · rw [if_pos (bne_iff_ne.2 isKey)]
    cases held : r.get? name with
    | some v => rfl
    | none =>
        cases heldKey : r.get? d.schema.primaryKey with
        | none => rfl
        | some id =>
            have differs : ¬ d.keyOf name = idField := fun same => isKey
              (alone _ (NameMap.isSome_get?_iff.1 (heldKey ▸ rfl)) (by rw [same, keyOf, if_pos rfl])).symm
            show Fields.get? [(idField, id.toJson)] (d.keyOf name) = none
            rw [Fields.get?, lookup_cons_if, if_neg differs]
            rfl

/-- Keys that lead back to their fields hold the values of the fields. -/
theorem get?_docFields (recovers : ∀ name ∈ r.names, d.nameOf (d.keyOf name) = name) {name : String}
    (member : name ∈ r.names) :
    (d.docFields r).get? (d.keyOf name) = (r.get? name).map Value.toJson :=
  get?_docFields_alone fun other within same => by
    rw [← recovers other within, same, recovers name member]

theorem nameOf_keyOf_iff {name : String} : d.nameOf (d.keyOf name) = name
    ↔ (name ≠ d.schema.primaryKey →
        d.schema.columnFor name ≠ idField ∧ d.schema.Recovers name) := by
  unfold nameOf keyOf
  by_cases isKey : name = d.schema.primaryKey
  · rw [if_pos isKey, if_pos rfl]
    exact iff_of_true isKey.symm fun other => absurd isKey other
  · rw [if_neg isKey]
    by_cases isId : d.schema.columnFor name = idField
    · rw [if_pos isId]
      exact iff_of_false (fun same => isKey same.symm) fun apart => (apart isKey).1 isId
    · rw [if_neg isId]
      exact ⟨fun recovered _ => ⟨isId, recovered⟩, fun apart => (apart isKey).2⟩

/-- The field that a key leads to is recovered, even if it is not the one that was stored. -/
theorem nameOf_keyOf_settled (once : (d.schema.fields.map (·.name)).Nodup) {name : String}
    (declared : (d.schema.field? name).isSome) :
    d.nameOf (d.keyOf (d.nameOf (d.keyOf name))) = d.nameOf (d.keyOf name) := by
  rw [nameOf_keyOf_iff]
  intro notKey
  have notId : d.keyOf name ≠ idField := fun isId => notKey (if_pos isId)
  have isColumn : d.keyOf name = d.schema.columnFor name := by
    refine if_neg fun isKey => notId ?_
    rw [keyOf, if_pos isKey]
  have leads : d.nameOf (d.keyOf name) = d.schema.fieldForColumn (d.schema.columnFor name) := by
    rw [nameOf, if_neg notId, isColumn]
  rw [leads]
  refine ⟨?_, Schema.recovers_fieldForColumn once declared⟩
  obtain ⟨f, member, led, same⟩ := Schema.fieldForColumn_columnFor declared
  rw [led, Schema.columnFor_of_field? (Schema.field?_of_mem once member), same, ← isColumn]
  exact notId

/-- A record is read back from its document if and only if the keys lead back to its fields. -/
theorem ofDoc_toDoc_iff (d : Records σ E) (valid : d.schema.validate = .ok ())
    (storable : r.IsStorable d.schema) : d.ofDoc (d.toDoc r) = r
      ↔ ∀ name ∈ r.names, name ≠ d.schema.primaryKey →
          d.schema.columnFor name ≠ idField ∧ d.schema.Recovers name := by
  obtain ⟨-, once⟩ := Schema.validate_fields valid
  have keys {key : String} (member : key ∈ (Record.ofJson (d.toDoc r)).names) :
      ∃ name ∈ r.names, d.keyOf name = key := by
    rw [toDoc_eq, Record.mem_names_ofJson] at member
    exact exists_of_mem_docFields member
  constructor
  · intro returned name member
    exact nameOf_keyOf_iff.1 (Record.recovers_of_returned (fun key => keys)
      (fun field within => nameOf_keyOf_settled once (storable.declared field within)) returned
      member)
  · intro apart
    have recovers (name : String) (member : name ∈ r.names) : d.nameOf (d.keyOf name) = name :=
      nameOf_keyOf_iff.2 (apart name member)
    have values (name : String) (member : name ∈ r.names) :
        (Record.ofJson (d.toDoc r)).get? (d.keyOf name) = r.get? name := by
      rw [toDoc_eq, Record.get?_ofJson (d.nodup_docFields r), get?_docFields recovers member]
      cases held : r.get? name with
      | none => rfl
      | some v => exact congrArg some (v.ofJson_toJson_of_carried (storable.carried name v held))
    refine Record.eq_rename_back recovers (fun key => ⟨keys, ?_⟩) values
    rintro ⟨name, member, rfl⟩
    rw [← NameMap.isSome_get?_iff, values name member, NameMap.isSome_get?_iff]
    exact member

end Document.Records

/-! ### Both stores -/

/-- An accepted schema gives a record back exactly if its columns lead back to the fields and, as
JSON text, its values are read as themselves.  In a document store no field but the key may stand
under the id. -/
theorem returned_iff_recovered {σ τ E F : Type} {s : Schema} {r : Record}
    (valid : s.validate = .ok ()) (storable : r.IsStorable s) :
    (∀ k : KeyValue.Records σ E, k.schema = s →
      (k.config.codec = .binary →
        KeyValue.Codec.RecordAddressable (r.rename s.columnFor)) →
      ∀ key, k.decode key (k.encode r) = .ok r ↔ (∀ name ∈ r.names, s.Recovers name) ∧
        (k.config.codec = .json → ∀ name v, r.get? name = some v → v.ReadsBack 126)) ∧
    ∀ d : Document.Records τ F, d.schema = s →
      (d.ofDoc (d.toDoc r) = r ↔ ∀ name ∈ r.names, name ≠ s.primaryKey →
        s.columnFor name ≠ Document.idField ∧ s.Recovers name) := by
  constructor
  · rintro k rfl addressable key
    exact k.decode_encode_iff valid storable addressable key
  · rintro d rfl
    exact d.ofDoc_toDoc_iff valid storable

/-! ### A mark and a name -/

def onKeyValue (s : Schema) : KeyValue.Records (World KeyValue.Store) Json where
  client := .memory .whole
  env := World.environment .whole
  schema := s
  config := {}
  type := .anyDocument

def onDocuments (s : Schema) : Document.Records (World Document.Store) Json where
  client := .memory World.storePart
  env := World.environment .whole
  schema := s
  config := {}
  type := .anyDocument

def marks : Schema where
  name := "marks"
  primaryKey := "id"
  fields :=
    [{ name := "id", column := "key", kind := .int },
      { name := "values", column := "v", kind := .json }]

def half : Binary64 := .ofRatio false 1 2

def mark : Record :=
  NameMap.empty.insert "id" (.int 1) |>.insert "values" (.list [.float half, .null, .text "a"])

theorem mark_isStorable : mark.IsStorable marks where
  declared := by decide
  carried := NameMap.forall_get?_insert (by decide) <|
    NameMap.forall_get?_insert (by decide) NameMap.forall_get?_empty

theorem mark_returned : marks.validate = .ok () ∧ mark.IsStorable marks ∧
    (onKeyValue marks).decode "marks:1" ((onKeyValue marks).encode mark) = .ok mark ∧
    (onDocuments marks).ofDoc ((onDocuments marks).toDoc mark) = mark := by
  have halfRead : (Json.parse half.toJsonText).map Value.ofJson = .ok (.float half) := by
    with_unfolding_all rfl
  have read : (Value.list [.float half, .null, .text "a"]).ReadsBack 126 :=
    ⟨halfRead, trivial, trivial, trivial⟩
  have keys : ∀ name ∈ mark.names, marks.Recovers name := by decide
  have apart : ∀ name ∈ mark.names, name ≠ "id" →
      marks.columnFor name ≠ Document.idField ∧ marks.Recovers name := by decide
  obtain ⟨inKeyValue, inDocuments⟩ := returned_iff_recovered (τ := World Document.Store) (F := Json)
    (σ := World KeyValue.Store) (E := Json) rfl mark_isStorable
  refine ⟨rfl, mark_isStorable, (inKeyValue (onKeyValue marks) rfl nofun _).2 ⟨keys, ?_⟩,
    (inDocuments (onDocuments marks) rfl).2 apart⟩
  intro _ name v held
  simp only [mark, NameMap.get?_insert, NameMap.get?_empty] at held
  split_ifs at held <;> cases held
  · exact read
  · trivial

def twoNames : Schema where
  name := "people"
  primaryKey := "id"
  fields :=
    [{ name := "id", column := "id", kind := .text },
      { name := "first", column := "name", kind := .text },
      { name := "last", column := "name", kind := .text }]

def lovelace : Record :=
  NameMap.empty.insert "id" (.text "1") |>.insert "first" (.text "Ada")
    |>.insert "last" (.text "Lovelace")

theorem lovelace_isStorable : lovelace.IsStorable twoNames where
  declared := by decide
  carried := NameMap.forall_get?_insert rfl <| NameMap.forall_get?_insert rfl <|
    NameMap.forall_get?_insert rfl NameMap.forall_get?_empty

/-- Two names in one column are read back as one. -/
theorem sharedColumn_loses_field :
    twoNames.validate = .ok () ∧ lovelace.IsStorable twoNames ∧ (twoNames.idOf? lovelace).isSome ∧
    (onKeyValue twoNames).decode "people:1" ((onKeyValue twoNames).encode lovelace) ≠ .ok lovelace ∧
    (onDocuments twoNames).ofDoc ((onDocuments twoNames).toDoc lovelace) ≠ lovelace := by
  refine ⟨rfl, lovelace_isStorable, by decide, fun returned => ?_, fun returned => ?_⟩
  · have recovers := (((onKeyValue twoNames).decode_encode_iff rfl lovelace_isStorable nofun _).1
      returned).1 "last" (by decide)
    exact absurd recovers (by decide)
  · have apart := ((onDocuments twoNames).ofDoc_toDoc_iff rfl lovelace_isStorable).1 returned "last"
      (by decide) (by decide)
    exact absurd apart.2 (by decide)

end Recordkeeper
