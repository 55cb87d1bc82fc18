/-!
Contract: finite maps from names to values of one type.

Owns:
- the representation by the order of names, so that a map has one form;
- look-up, insertion, removal and restriction, with their effect on look-up.

Does not own: what is stored under a name.
-/

set_option autoImplicit false

namespace Recordkeeper

universe u

/-- A finite map: its entries in strictly increasing order of names. -/
structure NameMap (α : Type u) where
  entries : List (String × α)
  ordered : entries.Pairwise fun a b => a.1 < b.1

namespace NameMap

variable {α : Type u}

def empty : NameMap α := ⟨[], .nil⟩

instance : Inhabited (NameMap α) := ⟨empty⟩

def get? (m : NameMap α) (name : String) : Option α := m.entries.lookup name

def has (m : NameMap α) (name : String) : Bool := (m.get? name).isSome

def isEmpty (m : NameMap α) : Bool := m.entries.isEmpty

def size (m : NameMap α) : Nat := m.entries.length

def names (m : NameMap α) : List String := m.entries.map (·.1)

def insertSorted (name : String) (value : α) : List (String × α) → List (String × α)
  | [] => [(name, value)]
  | (n, v) :: rest =>
    if n < name then (n, v) :: insertSorted name value rest
    else if n = name then (name, value) :: rest
    else (name, value) :: (n, v) :: rest

theorem mem_insertSorted {name : String} {value : α} {f : String × α} :
    {fs : List (String × α)} → f ∈ insertSorted name value fs → f = (name, value) ∨ f ∈ fs
  | [], h => by simpa [insertSorted] using h
  | (n, v) :: rest, h => by
    unfold insertSorted at h
    split at h
    · rcases List.mem_cons.1 h with h | h
      · exact Or.inr (h ▸ List.mem_cons_self)
      · exact (mem_insertSorted h).imp id (List.mem_cons_of_mem _)
    · split at h
      · exact (List.mem_cons.1 h).imp id (List.mem_cons_of_mem _)
      · exact List.mem_cons.1 h

theorem pairwise_insertSorted {name : String} {value : α} :
    {fs : List (String × α)} → fs.Pairwise (fun a b => a.1 < b.1) →
      (insertSorted name value fs).Pairwise fun a b => a.1 < b.1
  | [], _ => by simp [insertSorted]
  | (n, v) :: rest, h => by
    obtain ⟨first, tail⟩ := List.pairwise_cons.1 h
    unfold insertSorted
    split
    next less =>
      refine List.pairwise_cons.2 ⟨fun f member => ?_, pairwise_insertSorted tail⟩
      rcases mem_insertSorted member with rfl | member
      · exact less
      · exact first f member
    next notLess =>
      split
      next same =>
        subst same
        exact List.pairwise_cons.2 ⟨first, tail⟩
      next different =>
        have greater : name < n := by
          rcases Std.lt_trichotomy n name with l | e | g
          · exact absurd l notLess
          · exact absurd e different
          · exact g
        refine List.pairwise_cons.2 ⟨fun f member => ?_, h⟩
        rcases List.mem_cons.1 member with rfl | member
        · exact greater
        · exact String.lt_trans greater (first f member)

def insert (m : NameMap α) (name : String) (value : α) : NameMap α :=
  ⟨insertSorted name value m.entries, pairwise_insertSorted m.ordered⟩

/-- The map of a list of entries; of entries with one name the last counts. -/
def ofList (entries : List (String × α)) : NameMap α :=
  entries.foldl (fun m e => m.insert e.1 e.2) empty

def filter (m : NameMap α) (keep : String → α → Bool) : NameMap α :=
  ⟨m.entries.filter fun e => keep e.1 e.2, m.ordered.sublist List.filter_sublist⟩

def erase (m : NameMap α) (name : String) : NameMap α := m.filter fun n _ => n != name

def overlay (m changes : NameMap α) : NameMap α :=
  changes.entries.foldl (fun m e => m.insert e.1 e.2) m

theorem lookup_insertSorted (name : String) (value : α) (n : String) (es : List (String × α)) :
    (insertSorted name value es).lookup n = if n = name then some value else es.lookup n := by
  have differ {a b : String} (h : a ≠ b) : (a == b) = false := by simpa using h
  induction es with
  | nil =>
    by_cases h : n = name
    · simp [insertSorted, h]
    · simp [insertSorted, List.lookup_cons, h, differ h]
  | cons e rest ih =>
    obtain ⟨m, w⟩ := e
    unfold insertSorted
    split
    next less =>
      by_cases h : n = m
      · subst h
        have : n ≠ name := fun same => String.lt_irrefl _ (same ▸ less)
        simp [this]
      · simp only [List.lookup_cons, differ h, ih]
    next =>
      split
      next same =>
        subst same
        by_cases h : n = m
        · simp [h]
        · simp [List.lookup_cons, h, differ h]
      next =>
        by_cases h : n = name
        · simp [h]
        · simp [List.lookup_cons, h, differ h]

/-- Setting an entry changes the look-up of its own name only. -/
@[simp] theorem get?_insert (m : NameMap α) (name : String) (value : α) (n : String) :
    (m.insert name value).get? n = if n = name then some value else m.get? n :=
  lookup_insertSorted name value n m.entries

@[simp] theorem get?_empty (n : String) : (empty : NameMap α).get? n = none := rfl

end NameMap

end Recordkeeper
