import Mathlib.Algebra.GroupWithZero.Nat
import Mathlib.Data.List.Pairwise

/-!
Contract: the first members of the classes of a list.

Owns:
- the members of a list that no earlier one is the same as;
- that they stand in the order of the list, that no two of them are the same, and that every member
  is the same as one of them;
- that the sizes of the classes add up to the length of the list;
- a finer test and a coarser one on the same list.

Does not own: what the members are.

What is tested need not be the same as itself: a NaN is not.  Such a member is a class of its own.
-/

set_option autoImplicit false

namespace Recordkeeper

universe u v

variable {α : Type u} {β : Type v}

/-- A test of sameness, which may fail of a thing and itself. -/
structure Sameness (same : α → α → Bool) : Prop where
  symm : ∀ {a b}, same a b → same b a
  trans : ∀ {a b c}, same a b → same b c → same a c

namespace Sameness

variable {same : α → α → Bool}

theorem comm (sameness : Sameness same) (a b : α) : same a b = same b a :=
  Bool.eq_iff_iff.2 ⟨sameness.symm, sameness.symm⟩

/-- What is the same as something is the same as itself. -/
theorem refl_left (sameness : Sameness same) {a b : α} (ab : same a b) : same a a :=
  sameness.trans ab (sameness.symm ab)

theorem refl_right (sameness : Sameness same) {a b : α} (ab : same a b) : same b b :=
  sameness.trans (sameness.symm ab) ab

/-- Of members that are pairwise apart none is the same as another one. -/
theorem eq_of_pairwise (sameness : Sameness same) {l : List α}
    (apart : l.Pairwise fun a b => ¬same a b) {a b : α} (aMember : a ∈ l) (bMember : b ∈ l)
    (ab : same a b) : a = b := by
  have symmetric : Std.Symm fun a b => ¬same a b := ⟨fun _ _ apart ba => apart (sameness.symm ba)⟩
  by_contra differ
  exact apart.forall aMember bMember differ ab

end Sameness

/-- The members of a list that no member before them is the same as. -/
def firsts (same : α → α → Bool) (l : List α) : List α :=
  l.eraseDupsBy fun later first => same first later

section Firsts

variable {same : α → α → Bool} {a b f : α} {l : List α}

@[simp] theorem firsts_nil : firsts same ([] : List α) = [] := List.eraseDupsBy_nil

theorem firsts_cons (a : α) (l : List α) :
    firsts same (a :: l) = a :: firsts same (l.filter fun b => !same a b) := by
  unfold firsts
  rw [List.eraseDupsBy_cons]
  congr 3
  funext b
  cases same a b <;> rfl

/-- The recursion of `firsts`: a member is followed by those of the rest that differ from it. -/
@[elab_as_elim]
theorem induction_firsts (same : α → α → Bool) {motive : List α → Prop} (nil : motive [])
    (cons : ∀ a l, motive (l.filter fun b => !same a b) → motive (a :: l)) (l : List α) :
    motive l := by
  match l with
  | [] => exact nil
  | a :: rest => exact cons a rest (induction_firsts same nil cons _)
termination_by l.length
decreasing_by exact Nat.lt_succ_of_le (List.length_filter_le _ _)

theorem firsts_sublist (l : List α) : (firsts same l).Sublist l := by
  induction l using induction_firsts same with
  | nil => simp
  | cons a rest inductionHypothesis =>
      rw [firsts_cons]
      exact (inductionHypothesis.trans List.filter_sublist).cons_cons a

theorem pairwise_firsts (l : List α) : (firsts same l).Pairwise fun a b => ¬same a b := by
  induction l using induction_firsts same with
  | nil => simp
  | cons a rest inductionHypothesis =>
      rw [firsts_cons, List.pairwise_cons]
      refine ⟨fun b member => ?_, inductionHypothesis⟩
      simpa using (List.mem_filter.1 ((firsts_sublist _).subset member)).2

/-- A member is the first of its class or the same as the first. -/
theorem exists_first (member : a ∈ l) : a ∈ firsts same l ∨ ∃ f ∈ firsts same l, same f a := by
  induction l using induction_firsts same with
  | nil => cases member
  | cons first rest inductionHypothesis =>
      rw [firsts_cons]
      by_cases own : same first a
      · exact Or.inr ⟨first, List.mem_cons_self, own⟩
      · rcases List.mem_cons.1 member with rfl | later
        · exact Or.inl List.mem_cons_self
        · have within : a ∈ rest.filter fun b => !same first b :=
            List.mem_filter.2 ⟨later, by simpa using own⟩
          rcases inductionHypothesis within with kept | ⟨f, kept, found⟩
          · exact Or.inl (List.mem_cons_of_mem _ kept)
          · exact Or.inr ⟨f, List.mem_cons_of_mem _ kept, found⟩

theorem exists_first_same (member : a ∈ l) (own : same a a) : ∃ f ∈ firsts same l, same f a :=
  (exists_first member).elim (fun kept => ⟨a, kept, own⟩) id

theorem firsts_congr {other : α → α → Bool} (agree : ∀ a ∈ l, ∀ b ∈ l, same a b = other a b) :
    firsts same l = firsts other l := by
  induction l using induction_firsts same with
  | nil => rw [firsts_nil, firsts_nil]
  | cons a rest inductionHypothesis =>
      have filters : (rest.filter fun b => !same a b) = rest.filter fun b => !other a b :=
        List.filter_congr fun b member =>
          congrArg _ (agree a List.mem_cons_self b (List.mem_cons_of_mem _ member))
      have later (b : α) (member : b ∈ rest.filter fun b => !same a b) : b ∈ a :: rest :=
        List.mem_cons_of_mem _ (List.mem_filter.1 member).1
      rw [firsts_cons, firsts_cons, ← filters, inductionHypothesis fun b bMember c cMember =>
        agree b (later b bMember) c (later c cMember)]

/-- Things may be told apart before or after something is made of them. -/
theorem firsts_map (f : β → α) (l : List β) :
    firsts same (l.map f) = (firsts (fun x y => same (f x) (f y)) l).map f := by
  induction l using induction_firsts fun x y => same (f x) (f y) with
  | nil => rw [List.map_nil, firsts_nil, firsts_nil, List.map_nil]
  | cons x rest inductionHypothesis =>
      rw [List.map_cons, firsts_cons, List.filter_map, firsts_cons, List.map_cons,
        ← inductionHypothesis]
      rfl

/-- What cannot tell apart things that are the same may be tested before or after. -/
theorem firsts_filter {p : α → Bool} (respects : ∀ a b, same a b → p a = p b) (l : List α) :
    firsts same (l.filter p) = (firsts same l).filter p := by
  induction l using induction_firsts same with
  | nil => simp
  | cons a rest inductionHypothesis =>
      rw [firsts_cons]
      cases kept : p a with
      | true =>
          rw [List.filter_cons_of_pos kept, List.filter_cons_of_pos kept, firsts_cons,
            ← inductionHypothesis, List.filter_filter, List.filter_filter]
          congr 3
          funext b
          exact Bool.and_comm _ _
      | false =>
          rw [List.filter_cons_of_neg (by simp [kept]), List.filter_cons_of_neg (by simp [kept]),
            ← inductionHypothesis, List.filter_filter]
          congr 1
          refine List.filter_congr fun b _ => ?_
          cases own : same a b with
          | true => rw [← respects a b own, kept]; rfl
          | false => exact (Bool.and_true _).symm

/-! ### One after the other -/

/-- What becomes of the kept members with one more. -/
def keepNew (same : α → α → Bool) (kept : List α) (a : α) : List α :=
  if kept.any (same · a) then kept else kept ++ [a]

theorem foldl_keepNew (kept l : List α) :
    l.foldl (keepNew same) kept
      = kept ++ firsts same (l.filter fun a => !kept.any (same · a)) := by
  induction l generalizing kept with
  | nil => simp
  | cons a rest inductionHypothesis =>
      rw [List.foldl_cons, inductionHypothesis, keepNew]
      split
      next known => rw [List.filter_cons_of_neg (by simpa using known)]
      next new =>
        rw [List.filter_cons_of_pos (by simpa using new), firsts_cons, List.filter_filter,
          List.append_assoc, List.singleton_append]
        congr 4
        funext b
        rw [List.any_append, List.any_cons, List.any_nil, Bool.or_false, Bool.not_or,
          Bool.and_comm]

theorem foldl_keepNew_nil (l : List α) : l.foldl (keepNew same) [] = firsts same l := by
  rw [foldl_keepNew, List.nil_append]
  congr 1
  exact List.filter_eq_self.2 fun _ _ => rfl

theorem firsts_concat (l : List α) (a : α) :
    firsts same (l ++ [a]) = keepNew same (firsts same l) a := by
  rw [← foldl_keepNew_nil, List.foldl_append, foldl_keepNew_nil]
  rfl

/-! ### Classes -/

variable (sameness : Sameness same)

include sameness

/-- The firsts of two classes are not both the same as one thing. -/
theorem first_unique {g : α} (fFirst : f ∈ firsts same l) (gFirst : g ∈ firsts same l)
    (fa : same f a) (ga : same g a) : f = g :=
  sameness.eq_of_pairwise (pairwise_firsts l) fFirst gFirst
    (sameness.trans fa (sameness.symm ga))

/-- The first of a class stands before every other member of it. -/
theorem find?_first (fFirst : f ∈ firsts same l) (own : same f f) : l.find? (same f) = some f := by
  induction l using induction_firsts same with
  | nil =>
      rw [firsts_nil] at fFirst
      cases fFirst
  | cons a rest inductionHypothesis =>
      rw [firsts_cons] at fFirst
      rcases List.mem_cons.1 fFirst with rfl | later
      · exact List.find?_cons_of_pos own
      · have apart : same a f = false := by
          simpa using (List.mem_filter.1 ((firsts_sublist _).subset later)).2
        have found := inductionHypothesis later
        rw [List.find?_filter] at found
        rw [List.find?_cons_of_neg (by rw [sameness.comm, apart]; exact Bool.false_ne_true),
          ← found]
        congr 1
        funext b
        cases fb : same f b with
        | false => rw [decide_eq_false fun both => Bool.false_ne_true both.2]
        | true =>
            have differs : same a b = false := by
              by_contra ab
              have back := sameness.trans (Bool.not_eq_false _ ▸ ab) (sameness.symm fb)
              rw [apart] at back
              cases back
            simp [differs]

/-- Every member is counted in one class. -/
theorem sum_countP_firsts (own : ∀ a ∈ l, same a a) :
    ((firsts same l).map fun f => l.countP (same f)).sum = l.length := by
  induction l using induction_firsts same with
  | nil => simp
  | cons a rest inductionHypothesis =>
      have others : ∀ f ∈ firsts same (rest.filter fun b => !same a b),
          (a :: rest).countP (same f) = (rest.filter fun b => !same a b).countP (same f) := by
        intro f member
        have apart : same a f = false := by
          simpa using (List.mem_filter.1 ((firsts_sublist _).subset member)).2
        rw [List.countP_cons_of_neg (by rw [sameness.comm, apart]; exact Bool.false_ne_true),
          List.countP_filter]
        refine List.countP_congr fun b _ => ?_
        rw [Bool.and_eq_true, Bool.not_eq_true', iff_self_and]
        intro fb
        by_contra ab
        have back := sameness.trans (Bool.not_eq_false _ ▸ ab) (sameness.symm fb)
        rw [apart] at back
        cases back
      have rest_own : ∀ b ∈ rest.filter (fun b => !same a b), same b b := fun b member =>
        own b (List.mem_cons_of_mem _ (List.mem_filter.1 member).1)
      rw [firsts_cons, List.map_cons, List.sum_cons, List.map_congr_left others,
        inductionHypothesis rest_own, List.countP_cons_of_pos (own a List.mem_cons_self),
        ← List.countP_eq_length_filter, List.length_cons,
        List.length_eq_countP_add_countP (same a) (l := rest)]
      simp only [Bool.not_eq_true, Bool.decide_eq_false]
      omega

end Firsts

/-! ### Two tests -/

section Finer

variable {fine coarse : α → α → Bool} {l : List α} (coarseSameness : Sameness coarse)
  (finer : ∀ a b, fine a b → coarse a b)

include coarseSameness finer

/-- What a coarser test keeps a finer one keeps as well. -/
theorem firsts_coarse_sublist : (firsts coarse l).Sublist (firsts fine l) := by
  induction l using induction_firsts coarse with
  | nil => simp
  | cons a rest inductionHypothesis =>
      have twice : (rest.filter fun b => !coarse a b)
          = (rest.filter fun b => !fine a b).filter fun b => !coarse a b := by
        rw [List.filter_filter]
        refine List.filter_congr fun b _ => ?_
        cases ab : fine a b with
        | true => rw [finer a b ab]; rfl
        | false => exact (Bool.and_true _).symm
      have respects (b c : α) (bc : fine b c) : (!coarse a b) = !coarse a c := by
        rw [Bool.eq_iff_iff.2 ⟨fun ab => coarseSameness.trans ab (finer b c bc),
          fun ac => coarseSameness.trans ac (coarseSameness.symm (finer b c bc))⟩]
      rw [firsts_cons, firsts_cons]
      refine List.Sublist.cons_cons a (inductionHypothesis.trans ?_)
      rw [twice, firsts_filter respects]
      exact List.filter_sublist

/-- If a coarser test tells apart all that a finer one keeps, it tells apart all that the finer one
does. -/
theorem fine_of_pairwise (fineSameness : Sameness fine) (reflects : ∀ a, coarse a a → fine a a)
    (apart : (firsts fine l).Pairwise fun a b => ¬coarse a b) {a b : α} (aMember : a ∈ l)
    (bMember : b ∈ l) (ab : coarse a b) : fine a b := by
  obtain ⟨f, fFirst, fa⟩ :=
    exists_first_same aMember (reflects a (coarseSameness.refl_left ab))
  obtain ⟨g, gFirst, gb⟩ :=
    exists_first_same bMember (reflects b (coarseSameness.refl_right ab))
  have fg : coarse f g :=
    coarseSameness.trans (finer f a fa)
      (coarseSameness.trans ab (coarseSameness.symm (finer g b gb)))
  obtain rfl := coarseSameness.eq_of_pairwise apart fFirst gFirst fg
  exact fineSameness.trans (fineSameness.symm fa) gb

theorem pairwise_firsts_iff (fineSameness : Sameness fine)
    (reflects : ∀ a, coarse a a → fine a a) :
    ((firsts fine l).Pairwise fun a b => ¬coarse a b)
      ↔ ∀ a ∈ l, ∀ b ∈ l, coarse a b → fine a b := by
  constructor
  · intro apart a aMember b bMember
    exact fine_of_pairwise coarseSameness finer fineSameness reflects apart aMember bMember
  · intro agree
    rw [firsts_congr fun a aMember b bMember =>
      Bool.eq_iff_iff.2 ⟨finer a b, agree a aMember b bMember⟩]
    exact pairwise_firsts l

/-- Two tests make as many classes of a list if and only if they make the same. -/
theorem length_firsts_iff (fineSameness : Sameness fine)
    (reflects : ∀ a, coarse a a → fine a a) :
    (firsts fine l).length = (firsts coarse l).length
      ↔ ∀ a ∈ l, ∀ b ∈ l, coarse a b → fine a b := by
  constructor
  · intro same
    have lists := (firsts_coarse_sublist coarseSameness finer).eq_of_length same.symm
    rw [← pairwise_firsts_iff coarseSameness finer fineSameness reflects, ← lists]
    exact pairwise_firsts l
  · intro agree
    rw [firsts_congr fun a aMember b bMember =>
      Bool.eq_iff_iff.2 ⟨finer a b, agree a aMember b bMember⟩]

end Finer

end Recordkeeper
