import Recordkeeper.Proofs.NameMap
import Recordkeeper.Record

/-!
Contract: records of objects, and records whose fields are renamed.

Owns:
- the fields of the record of an object;
- the names of a map, and those of a renamed record;
- the value of a field under its new name;
- when the renaming back gives the record.

Does not own: the names that a schema gives.
-/

set_option autoImplicit false

namespace Recordkeeper

universe u

namespace NameMap

variable {α : Type u} {m : NameMap α}

theorem isSome_get?_iff {name : String} : (m.get? name).isSome ↔ name ∈ m.names := by
  rw [Option.isSome_iff_exists]
  constructor
  · rintro ⟨value, held⟩
    exact List.mem_map_of_mem (get?_eq_some_iff.1 held)
  · intro member
    obtain ⟨entry, within, rfl⟩ := List.mem_map.1 member
    exact ⟨entry.2, get?_eq_some_iff.2 within⟩

theorem get?_eq_none_iff {name : String} : m.get? name = none ↔ name ∉ m.names := by
  rw [← isSome_get?_iff, Option.not_isSome_iff_eq_none]

theorem mem_names_ofList {entries : List (String × α)} {name : String} :
    name ∈ (ofList entries).names ↔ name ∈ entries.map Prod.fst := by
  rw [← isSome_get?_iff, get?_ofList, List.lookup_isSome_iff]
  constructor
  · rintro ⟨entry, member, same⟩
    rw [beq_iff_eq.1 same]
    exact List.mem_map_of_mem (List.mem_reverse.1 member)
  · intro member
    obtain ⟨entry, within, rfl⟩ := List.mem_map.1 member
    exact ⟨entry, List.mem_reverse.2 within, beq_self_eq_true _⟩

end NameMap

namespace Record

theorem get?_ofJson {fields : Fields} (once : (fields.map Prod.fst).Nodup) (name : String) :
    (ofJson (.object fields)).get? name = (fields.get? name).map Value.ofJson := by
  have names : (fields.map fun f => (f.1, Value.ofJson f.2)).map Prod.fst = fields.map Prod.fst := by
    rw [List.map_map]
    rfl
  rw [ofJson, NameMap.get?_ofList_nodup (names ▸ once), lookup_map_values]
  rfl

theorem mem_names_ofJson {fields : Fields} {name : String} :
    name ∈ (ofJson (.object fields)).names ↔ name ∈ fields.map Prod.fst := by
  rw [ofJson, NameMap.mem_names_ofList, List.map_map]
  rfl

variable {r : Record} {forth back : String → String}

/-- A field is found under its new name, if no other field has that one. -/
theorem get?_rename {name : String}
    (own : ∀ other ∈ r.names, forth other = forth name → other = name) :
    (r.rename forth).get? (forth name) = r.get? name := by
  have renamed {entries : List (String × Value)}
      (known : ∀ entry ∈ entries, forth entry.1 = forth name → entry.1 = name) :
      (entries.map fun f => (forth f.1, f.2)).lookup (forth name) = entries.lookup name := by
    induction entries with
    | nil => rfl
    | cons entry rest inductionHypothesis =>
        obtain ⟨first, others⟩ := List.forall_mem_cons.1 known
        rw [List.map_cons, lookup_cons_if, lookup_cons_if, inductionHypothesis others]
        by_cases asked : name = entry.1
        · rw [if_pos asked, if_pos (congrArg forth asked)]
        · rw [if_neg asked, if_neg fun same => asked (first same.symm).symm]
  rw [rename, NameMap.get?_ofList, ← List.map_reverse, renamed]
  · exact (lookup_perm (List.reverse_perm r.entries).symm r.nodup_names name).symm
  · intro entry member
    exact own entry.1 (List.mem_map_of_mem (List.mem_reverse.1 member))

theorem mem_names_rename {name : String} :
    name ∈ (r.rename forth).names ↔ ∃ field ∈ r.names, forth field = name := by
  rw [rename, NameMap.mem_names_ofList, NameMap.names, List.map_map]
  simp only [List.mem_map, Function.comp_apply, exists_exists_and_eq_and]

/-- Fields that are recovered from their new names have names of their own. -/
theorem get?_rename_of_recovers (recovers : ∀ name ∈ r.names, back (forth name) = name)
    {name : String} (member : name ∈ r.names) :
    (r.rename forth).get? (forth name) = r.get? name := by
  refine get?_rename fun other within same => ?_
  rw [← recovers other within, same, recovers name member]

/-- Every value of a renamed record is the value of a field with that new name. -/
theorem exists_of_get?_rename {name : String} {v : Value}
    (held : (r.rename forth).get? name = some v) :
    ∃ field, forth field = name ∧ r.get? field = some v := by
  rw [rename, NameMap.get?_ofList] at held
  obtain ⟨front, back, split, -⟩ := List.lookup_eq_some_iff.1 held
  have member : (name, v) ∈ r.entries.map fun f => (forth f.1, f.2) := by
    rw [← List.mem_reverse, split]
    exact List.mem_append_right _ List.mem_cons_self
  obtain ⟨field, within, same⟩ := List.mem_map.1 member
  cases same
  exact ⟨field.1, rfl, NameMap.get?_eq_some_iff.2 within⟩

section Back

variable {s : Record} (recovers : ∀ name ∈ r.names, back (forth name) = name)
  (names : ∀ name, name ∈ s.names ↔ ∃ field ∈ r.names, forth field = name)

include recovers names

/-- Fields under new names are found under their own when they are renamed back. -/
theorem get?_rename_back {name : String} (member : name ∈ r.names) :
    (s.rename back).get? name = s.get? (forth name) := by
  conv_lhs => rw [← recovers name member]
  refine get?_rename fun other within same => ?_
  obtain ⟨field, known, rfl⟩ := (names other).1 within
  rw [recovers field known, recovers name member] at same
  rw [same]

/-- A record is given back by its fields and their values under the names they were given. -/
theorem eq_rename_back (values : ∀ name ∈ r.names, s.get? (forth name) = r.get? name) :
    s.rename back = r := by
  refine NameMap.ext_get? fun name => ?_
  by_cases member : name ∈ r.names
  · rw [get?_rename_back recovers names member, values name member]
  · rw [NameMap.get?_eq_none_iff.2 member, NameMap.get?_eq_none_iff, mem_names_rename]
    rintro ⟨other, within, rfl⟩
    obtain ⟨field, known, rfl⟩ := (names other).1 within
    rw [recovers field known] at member
    exact member known

end Back

theorem rename_back (recovers : ∀ name ∈ r.names, back (forth name) = name) :
    (r.rename forth).rename back = r :=
  eq_rename_back recovers (fun _ => mem_names_rename) fun _ member =>
    get?_rename_of_recovers recovers member

/-- When a record is given back, each of its fields was recovered: the field that its name leads
to leads to itself. -/
theorem recovers_of_returned {s : Record}
    (names : ∀ name ∈ s.names, ∃ field ∈ r.names, forth field = name)
    (settled : ∀ name ∈ r.names, back (forth (back (forth name))) = back (forth name))
    (returned : s.rename back = r) {name : String} (member : name ∈ r.names) :
    back (forth name) = name := by
  rw [← returned] at member
  obtain ⟨other, within, rfl⟩ := mem_names_rename.1 member
  obtain ⟨field, known, rfl⟩ := names other within
  exact settled field known

end Record

end Recordkeeper
