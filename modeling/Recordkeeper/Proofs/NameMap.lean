import Recordkeeper.NameMap
import Recordkeeper.Proofs.Lookup

/-!
Contract: finite maps and their look-ups.

Owns:
- that a look-up finds exactly the entries of a map;
- the look-ups after a restriction, a removal and changes, and in the map of a list;
- that two maps with the same look-ups are one map.

Does not own: what is stored under a name.
-/

set_option autoImplicit false

namespace Recordkeeper.NameMap

universe u

variable {α : Type u} {m : NameMap α}

theorem get?_eq_some_iff {name : String} {value : α} :
    m.get? name = some value ↔ (name, value) ∈ m.entries := by
  unfold get?
  rw [List.lookup_eq_some_iff]
  constructor
  · rintro ⟨front, back, split, -⟩
    rw [split]
    exact List.mem_append_right _ List.mem_cons_self
  · intro member
    obtain ⟨front, back, split⟩ := List.append_of_mem member
    refine ⟨front, back, split, fun entry inFront => ?_⟩
    have ordered := m.ordered
    rw [split] at ordered
    have less : entry.1 < name :=
      (List.pairwise_append.1 ordered).2.2 entry inFront _ List.mem_cons_self
    refine bne_iff_ne.2 fun same => ?_
    rw [same] at less
    exact String.lt_irrefl _ less

@[simp] theorem get?_filter (m : NameMap α) (keep : String → α → Bool) (name : String) :
    (m.filter keep).get? name = (m.get? name).filter (keep name) := by
  refine Option.ext fun value => ?_
  rw [get?_eq_some_iff, Option.filter_eq_some_iff, get?_eq_some_iff]
  exact List.mem_filter

@[simp] theorem get?_erase (m : NameMap α) (name other : String) :
    (m.erase name).get? other = if other = name then none else m.get? other := by
  rw [erase, get?_filter]
  by_cases same : other = name
  · rw [if_pos same, same]
    cases m.get? name <;> simp
  · rw [if_neg same]
    cases m.get? other <;> simp [same]

theorem nodup_names (m : NameMap α) : m.names.Nodup := by
  refine List.pairwise_map.2 (m.ordered.imp fun {entry other} less same => ?_)
  rw [same] at less
  exact String.lt_irrefl _ less

theorem nodup_entries (m : NameMap α) : m.entries.Nodup := by
  refine (List.pairwise_map.1 m.nodup_names).imp fun {entry other} differ same => ?_
  exact differ (congrArg Prod.fst same)

theorem forall_get?_empty {holds : String → α → Prop} :
    ∀ name v, (empty : NameMap α).get? name = some v → holds name v := by
  intro name v held
  rw [get?_empty] at held
  cases held

/-- What holds of the entry that is put in and of those before holds of all. -/
theorem forall_get?_insert {holds : String → α → Prop} {name : String} {value : α}
    (own : holds name value) (others : ∀ other v, m.get? other = some v → holds other v) :
    ∀ other v, (m.insert name value).get? other = some v → holds other v := by
  intro other v held
  rw [get?_insert] at held
  split at held
  next same =>
    cases held
    exact same ▸ own
  next => exact others other v held

/-- A map is given by its look-ups, since the order of its entries is that of their names. -/
theorem ext_get? {m n : NameMap α} (same : ∀ name, m.get? name = n.get? name) : m = n := by
  have members (entry : String × α) : entry ∈ m.entries ↔ entry ∈ n.entries := by
    rw [← get?_eq_some_iff, same, get?_eq_some_iff]
  have permuted := (List.perm_ext_iff_of_nodup m.nodup_entries n.nodup_entries).2 members
  have entries : m.entries = n.entries :=
    List.Perm.eq_of_pairwise
      (fun _ _ _ _ less greater => absurd (String.lt_trans less greater) (String.lt_irrefl _))
      m.ordered n.ordered permuted
  cases m
  cases n
  cases entries
  rfl

theorem erase_eq_self {name : String} (missing : m.get? name = none) : m.erase name = m := by
  refine ext_get? fun other => ?_
  rw [get?_erase]
  by_cases same : other = name
  · rw [if_pos same, same, missing]
  · rw [if_neg same]

/-- Of the entries that are set one after the other the last with a name counts. -/
theorem get?_foldl_insert (entries : List (String × α)) (m : NameMap α) (name : String) :
    (entries.foldl (fun m e => m.insert e.1 e.2) m).get? name
      = (entries.reverse.lookup name).or (m.get? name) := by
  induction entries generalizing m with
  | nil => rfl
  | cons entry rest inductionHypothesis =>
      rw [List.foldl_cons, inductionHypothesis, List.reverse_cons, List.lookup_append,
        get?_insert, Option.or_assoc, lookup_cons_if]
      split <;> rfl

theorem get?_ofList (entries : List (String × α)) (name : String) :
    (ofList entries).get? name = entries.reverse.lookup name := by
  rw [ofList, get?_foldl_insert, get?_empty, Option.or_none]

/-- Changes count before what they are made to. -/
theorem get?_overlay (m changes : NameMap α) (name : String) :
    (m.overlay changes).get? name = (changes.get? name).or (m.get? name) := by
  rw [overlay, get?_foldl_insert,
    ← lookup_perm (List.reverse_perm changes.entries).symm changes.nodup_names name]
  rfl

theorem get?_ofList_nodup {entries : List (String × α)} (once : (entries.map Prod.fst).Nodup)
    (name : String) : (ofList entries).get? name = entries.lookup name := by
  rw [get?_ofList]
  exact (lookup_perm (List.reverse_perm entries).symm once name).symm

/-- Entries that are left out by their names may be left out of the list or of the map. -/
theorem ofList_filter (keep : String → Bool) (entries : List (String × α)) :
    ofList (entries.filter fun e => keep e.1) = (ofList entries).filter fun n _ => keep n := by
  refine ext_get? fun name => ?_
  rw [get?_filter, get?_ofList, get?_ofList, ← List.filter_reverse, lookup_filter]
  generalize keep name = kept
  cases entries.reverse.lookup name <;> cases kept <;> rfl

end Recordkeeper.NameMap
