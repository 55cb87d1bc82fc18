import Mathlib.Data.List.Basic
import Recordkeeper.Pattern.Regex.CharSet

/-!
Contract: what is in sets of characters.

Owns:
- the points of a set in normal form, of an intersection and of a complement;
- the order of ranges that a set in normal form has.

Does not own: closure under case, and the syntax of sets.

A complement is read off the gaps between ranges.  That needs them in order and none of them empty,
which is what `Ordered` and `Filled` carry through the normal form.
-/

set_option autoImplicit false

namespace Recordkeeper.Text.Ranges

/-! ### Points -/

theorem contains_iff {set : Ranges} {n : Nat} :
    set.contains n = true ↔ ∃ r ∈ set, r.1 ≤ n ∧ n ≤ r.2 := by
  simp only [contains, List.any_eq_true, Bool.and_eq_true, decide_eq_true_eq]

theorem contains_cons (r : Nat × Nat) (set : Ranges) (n : Nat) :
    contains (r :: set) n = true ↔ (r.1 ≤ n ∧ n ≤ r.2) ∨ set.contains n = true := by
  rw [contains_iff, contains_iff, List.exists_mem_cons_iff]

theorem contains_perm {a b : Ranges} (same : a.Perm b) (n : Nat) :
    a.contains n = b.contains n := by
  rw [Bool.eq_iff_iff, contains_iff, contains_iff]
  exact exists_congr fun r => and_congr_left' same.mem_iff

/-! ### Normal form -/

/-- The ranges stand in the order of their first points. -/
def Ordered (set : Ranges) : Prop := (set.map Prod.fst).Pairwise (· ≤ ·)

/-- No range is empty. -/
def Filled (set : Ranges) : Prop := ∀ r ∈ set, r.1 ≤ r.2

theorem Ordered.le_of_contains {r : Nat × Nat} {set : Ranges} (ordered : Ordered (r :: set))
    {n : Nat} (held : set.contains n = true) : r.1 ≤ n := by
  obtain ⟨s, member, first, -⟩ := contains_iff.1 held
  exact Nat.le_trans ((List.pairwise_cons.1 ordered).1 s.1 (List.mem_map_of_mem member)) first

/-- Joining ranges keeps some of their first points. -/
theorem firsts_joinTouching (set : Ranges) :
    ((joinTouching set).map Prod.fst).Sublist (set.map Prod.fst) := by
  induction set with
  | nil => exact .refl []
  | cons r rest inductionHypothesis =>
      rw [joinTouching]
      split
      next => exact .cons_cons _ (List.nil_sublist _)
      next s more joined =>
        rw [joined, List.map_cons] at inductionHypothesis
        split
        · exact .cons_cons _ (List.sublist_of_cons_sublist inductionHypothesis)
        · exact .cons_cons _ inductionHypothesis

theorem ordered_joinTouching {set : Ranges} (ordered : Ordered set) :
    Ordered (joinTouching set) :=
  ordered.sublist (firsts_joinTouching set)

theorem filled_joinTouching {set : Ranges} (filled : Filled set) : Filled (joinTouching set) := by
  induction set with
  | nil => exact filled
  | cons r rest inductionHypothesis =>
      obtain ⟨first, later⟩ := List.forall_mem_cons.1 filled
      have kept := inductionHypothesis later
      rw [joinTouching]
      split
      next => exact List.forall_mem_cons.2 ⟨first, nofun⟩
      next s more joined =>
        rw [joined] at kept
        split
        · exact List.forall_mem_cons.2
            ⟨Nat.le_trans first (Nat.le_max_left _ _), (List.forall_mem_cons.1 kept).2⟩
        · exact List.forall_mem_cons.2 ⟨first, kept⟩

theorem contains_joinTouching {set : Ranges} (ordered : Ordered set) (n : Nat) :
    (joinTouching set).contains n = set.contains n := by
  induction set with
  | nil => rfl
  | cons r rest inductionHypothesis =>
      have firsts := firsts_joinTouching rest
      have same := inductionHypothesis (List.pairwise_cons.1 ordered).2
      rw [Bool.eq_iff_iff, contains_cons, ← same, joinTouching]
      split
      next joined => rw [joined, contains_cons]
      next s more joined =>
        rw [joined] at firsts ⊢
        have after : r.1 ≤ s.1 :=
          (List.pairwise_cons.1 ordered).1 s.1 (firsts.subset List.mem_cons_self)
        split
        next touching =>
          -- the joined range holds nothing between the two, since they touch
          rw [contains_cons, contains_cons, ← or_assoc]
          refine or_congr_left ?_
          show r.1 ≤ n ∧ n ≤ max r.2 s.2 ↔ _
          omega
        next => rw [contains_cons]

theorem normal_eq (set : Ranges) :
    ∃ sorted : Ranges, sorted.Perm set ∧ Ordered sorted ∧ set.normal = joinTouching sorted := by
  refine ⟨set.mergeSort fun a b => a.1 ≤ b.1, List.mergeSort_perm _ _, ?_, rfl⟩
  refine List.pairwise_map.2 ((List.pairwise_mergeSort ?_ ?_ set).imp fun le => of_decide_eq_true le)
  · intro a b c first second
    simp only [decide_eq_true_eq] at first second ⊢
    exact Nat.le_trans first second
  · intro a b
    simp only [Bool.or_eq_true, decide_eq_true_eq]
    exact Nat.le_total _ _

theorem contains_normal (set : Ranges) (n : Nat) : set.normal.contains n = set.contains n := by
  obtain ⟨sorted, perm, ordered, same⟩ := normal_eq set
  rw [same, contains_joinTouching ordered, contains_perm perm]

theorem ordered_normal (set : Ranges) : Ordered set.normal := by
  obtain ⟨sorted, -, ordered, same⟩ := normal_eq set
  exact same ▸ ordered_joinTouching ordered

theorem filled_normal {set : Ranges} (filled : Filled set) : Filled set.normal := by
  obtain ⟨sorted, perm, -, same⟩ := normal_eq set
  exact same ▸ filled_joinTouching fun r member => filled r (perm.mem_iff.1 member)

/-! ### Intersection and complement -/

theorem contains_inter (a b : Ranges) (n : Nat) :
    (inter a b).contains n = (a.contains n && b.contains n) := by
  rw [inter, contains_normal, Bool.eq_iff_iff, Bool.and_eq_true, contains_iff, contains_iff,
    contains_iff]
  constructor
  · rintro ⟨range, member, bounds⟩
    obtain ⟨r, left, found⟩ := List.mem_flatMap.1 member
    obtain ⟨s, right, common⟩ := List.mem_filterMap.1 found
    obtain ⟨-, same⟩ := Option.ite_none_right_eq_some.1 common
    obtain rfl := Option.some.inj same
    simp only [Nat.max_le, Nat.le_min] at bounds
    exact ⟨⟨r, left, bounds.1.1, bounds.2.1⟩, s, right, bounds.1.2, bounds.2.2⟩
  · rintro ⟨⟨r, left, inLeft⟩, s, right, inRight⟩
    have low : max r.1 s.1 ≤ n := Nat.max_le.2 ⟨inLeft.1, inRight.1⟩
    have high : n ≤ min r.2 s.2 := Nat.le_min.2 ⟨inLeft.2, inRight.2⟩
    exact ⟨(max r.1 s.1, min r.2 s.2), List.mem_flatMap.2 ⟨r, left, List.mem_filterMap.2
      ⟨s, right, if_pos (Nat.le_trans low high)⟩⟩, low, high⟩

/-- The gaps from a point on are the later points that are in no range. -/
theorem contains_gaps {set : Ranges} (ordered : Ordered set) (filled : Filled set) (start : Nat)
    {n : Nat} (bounded : n ≤ top) :
    (gaps start set).contains n = true ↔ start ≤ n ∧ ¬ set.contains n = true := by
  induction set generalizing start with
  | nil =>
      rw [gaps]
      split
      · simp [contains, bounded]
      · refine iff_of_false (by simp [contains]) ?_
        omega
  | cons r rest inductionHypothesis =>
      have before : contains rest n = true → r.1 ≤ n := ordered.le_of_contains
      have first : r.1 ≤ r.2 := filled r List.mem_cons_self
      have later (next : Nat) := inductionHypothesis (List.pairwise_cons.1 ordered).2
        (fun s member => filled s (List.mem_cons_of_mem _ member)) next
      rw [gaps, contains_cons, not_or]
      split
      · rw [contains_cons, later]
        by_cases held : contains rest n = true
        · have := before held
          simp only [held, not_true_eq_false, and_false, or_false, iff_false]
          omega
        · rw [and_iff_left held, and_iff_left held]
          omega
      · rw [later, ← and_assoc]
        refine and_congr_left' ?_
        omega

theorem contains_everything (c : Char) : everything.contains c.toNat = true := by
  have valid : c.toNat < 0xD800 ∨ (0xDFFF < c.toNat ∧ c.toNat < 0x110000) := c.valid
  rw [everything, contains_cons, contains_cons, top]
  omega

theorem contains_complement {set : Ranges} (filled : Filled set) (c : Char) :
    set.complement.contains c.toNat = !set.contains c.toNat := by
  have valid : c.toNat < 0xD800 ∨ (0xDFFF < c.toNat ∧ c.toNat < 0x110000) := c.valid
  have bounded : c.toNat ≤ top := by
    rw [top]
    omega
  rw [complement, contains_inter, contains_everything, Bool.true_and, Bool.eq_iff_iff,
    contains_gaps (ordered_normal set) (filled_normal filled) 0 bounded, contains_normal]
  simp

/-! ### Numbers of ranges -/

theorem length_normal_le (set : Ranges) : set.normal.length ≤ set.length := by
  obtain ⟨sorted, perm, -, same⟩ := normal_eq set
  have fewer := (firsts_joinTouching sorted).length_le
  rw [List.length_map, List.length_map] at fewer
  rw [same, ← perm.length_eq]
  exact fewer

theorem length_gaps_le (start : Nat) (set : Ranges) : (gaps start set).length ≤ set.length + 1 := by
  induction set generalizing start with
  | nil =>
      rw [gaps]
      split <;> simp
  | cons r rest inductionHypothesis =>
      rw [gaps, List.length_cons]
      split
      · exact Nat.succ_le_succ (inductionHypothesis _)
      · exact Nat.le_succ_of_le (inductionHypothesis _)

/-- Each gap is cut in two at most, by the surrogates. -/
theorem length_complement_le (set : Ranges) : set.complement.length ≤ 2 * (set.length + 1) := by
  have gapsLe := length_gaps_le 0 set.normal
  have normalLe := length_normal_le set
  have cut (r : Nat × Nat) := List.length_filterMap_le (fun s : Nat × Nat =>
    if max r.1 s.1 ≤ min r.2 s.2 then some (max r.1 s.1, min r.2 s.2) else none) (gaps 0 set.normal)
  have whole := length_normal_le (everything.flatMap fun r => (gaps 0 set.normal).filterMap
    fun s => if max r.1 s.1 ≤ min r.2 s.2 then some (max r.1 s.1, min r.2 s.2) else none)
  refine Nat.le_trans whole ?_
  rw [everything, List.flatMap_cons, List.flatMap_cons, List.flatMap_nil, List.append_nil,
    List.length_append]
  have first := cut (0, 0xD7FF)
  have second := cut (0xE000, top)
  omega

end Recordkeeper.Text.Ranges
