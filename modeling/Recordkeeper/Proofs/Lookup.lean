import Mathlib.Data.List.Nodup

/-!
Contract: look-ups in lists of keyed entries.

Owns:
- the look-up in a list by its first entry, and after a selection of entries by their keys;
- that a look-up finds every entry of a list that repeats no key, in whatever order;
- the look-up in a list whose values are changed, or given by the keys.

Does not own: what is stored under a key.
-/

set_option autoImplicit false

namespace Recordkeeper

universe u v w

variable {κ : Type u} {α : Type v} [DecidableEq κ]

theorem lookup_cons_if (entry : κ × α) (rest : List (κ × α)) (key : κ) :
    (entry :: rest).lookup key = if key = entry.1 then some entry.2 else rest.lookup key := by
  obtain ⟨own, held⟩ := entry
  by_cases asked : key = own
  · rw [if_pos asked, List.lookup_cons, beq_iff_eq.2 asked]
  · rw [if_neg asked, List.lookup_cons, beq_false_of_ne asked]

theorem lookup_filter (keep : κ → Bool) (entries : List (κ × α)) (key : κ) :
    (entries.filter fun entry => keep entry.1).lookup key
      = if keep key then entries.lookup key else none := by
  induction entries with
  | nil => exact (ite_self _).symm
  | cons entry rest inductionHypothesis =>
      rw [List.filter_cons, lookup_cons_if]
      by_cases kept : keep entry.1
      · rw [if_pos kept, lookup_cons_if, inductionHypothesis]
        by_cases asked : key = entry.1
        · rw [if_pos asked, if_pos asked, asked, if_pos kept]
        · rw [if_neg asked, if_neg asked]
      · rw [if_neg kept, inductionHypothesis]
        by_cases asked : key = entry.1
        · rw [if_pos asked, asked, if_neg kept, if_neg kept]
        · rw [if_neg asked]

theorem lookup_of_mem {entries : List (κ × α)} (once : (entries.map Prod.fst).Nodup)
    {entry : κ × α} (member : entry ∈ entries) : entries.lookup entry.1 = some entry.2 := by
  induction entries with
  | nil => cases member
  | cons first rest inductionHypothesis =>
      rw [List.map_cons, List.nodup_cons] at once
      rw [lookup_cons_if]
      rcases List.mem_cons.1 member with rfl | later
      · rw [if_pos rfl]
      · have differ : entry.1 ≠ first.1 := by
          intro same
          exact once.1 (same ▸ List.mem_map_of_mem later)
        rw [if_neg differ, inductionHypothesis once.2 later]

theorem lookup_eq_some_iff_mem {entries : List (κ × α)} (once : (entries.map Prod.fst).Nodup)
    {key : κ} {value : α} : entries.lookup key = some value ↔ (key, value) ∈ entries := by
  constructor
  · intro found
    obtain ⟨front, back, split, -⟩ := List.lookup_eq_some_iff.1 found
    rw [split]
    exact List.mem_append_right _ List.mem_cons_self
  · intro member
    exact lookup_of_mem once member

/-- Without repeated keys the order of the entries does not matter. -/
theorem lookup_perm {entries others : List (κ × α)} (permuted : entries.Perm others)
    (once : (entries.map Prod.fst).Nodup) (key : κ) : entries.lookup key = others.lookup key := by
  have othersOnce : (others.map Prod.fst).Nodup := (permuted.map Prod.fst).nodup_iff.1 once
  refine Option.ext fun value => ?_
  rw [lookup_eq_some_iff_mem once, lookup_eq_some_iff_mem othersOnce, permuted.mem_iff]

/-- Keys with values that are given by the keys. -/
theorem lookup_tabulated (f : κ → α) (keys : List κ) (key : κ) :
    (keys.map fun k => (k, f k)).lookup key = if key ∈ keys then some (f key) else none := by
  induction keys with
  | nil => rfl
  | cons first rest inductionHypothesis =>
      rw [List.map_cons, lookup_cons_if, inductionHypothesis]
      by_cases asked : key = first
      · rw [if_pos asked, if_pos (List.mem_cons.2 (Or.inl asked)), asked]
      · rw [if_neg asked]
        simp only [List.mem_cons, asked, false_or]

omit [DecidableEq κ] in
theorem zip_tabulated (f : κ → α) (keys : List κ) :
    keys.zip (keys.map f) = keys.map fun k => (k, f k) := by
  induction keys with
  | nil => rfl
  | cons key rest inductionHypothesis =>
      rw [List.map_cons, List.zip_cons_cons, inductionHypothesis]
      rfl

theorem lookup_map_values {β : Type w} (f : α → β) (entries : List (κ × α)) (key : κ) :
    (entries.map fun entry => (entry.1, f entry.2)).lookup key = (entries.lookup key).map f := by
  induction entries with
  | nil => rfl
  | cons entry rest inductionHypothesis =>
      rw [List.map_cons, lookup_cons_if, lookup_cons_if, inductionHypothesis]
      split <;> rfl

end Recordkeeper
