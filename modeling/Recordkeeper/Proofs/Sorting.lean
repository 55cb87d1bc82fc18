import Mathlib.Data.List.Basic

/-!
Contract: sorting by several orders, the first of which counts most.

Owns:
- orders that totally preorder what is sorted, and how they are made from each other;
- which of two things comes first by several orders;
- `sorts_mergeSort`: a sorted list has the same members, they stand in order, and those that no order
  tells apart stand as they stood before;
- that orders which agree on a list sort it alike.

Does not own: the orders of records and documents.

An order need not be transitive on everything, only on what is sorted, so every law names the things
that it is about.
-/

set_option autoImplicit false

namespace Recordkeeper.Sorting

variable {α β : Type}

/-! ### Two orders in a row -/

theorem isLE_then {o p : Ordering} : (o.then p).isLE ↔ o = .lt ∨ o = .eq ∧ p.isLE := by
  cases o <;> simp

theorem isLE_of_then {o p : Ordering} (ordered : (o.then p).isLE) : o.isLE := by
  cases o with
  | lt | eq => rfl
  | gt => cases ordered

theorem isLE_then_of {o p : Ordering} (first : o.isLE) (second : p.isLE) : (o.then p).isLE := by
  cases o with
  | lt => rfl
  | eq => exact second
  | gt => cases first

/-! ### Total preorders -/

/-- On the things of a kind an order is a total preorder: the other way round it answers the reverse,
and it is transitive. -/
structure Preorders (cmp : α → α → Ordering) (S : α → Prop) : Prop where
  swap : ∀ a b, S a → S b → cmp b a = (cmp a b).swap
  trans : ∀ a b c, S a → S b → S c → (cmp a b).isLE → (cmp b c).isLE → (cmp a c).isLE

namespace Preorders

variable {cmp other : α → α → Ordering} {S T : α → Prop}

theorem refl (preorders : Preorders cmp S) {a : α} (inside : S a) : cmp a a = .eq := by
  have own := preorders.swap a a inside inside
  cases same : cmp a a <;> simp_all

theorem eq_iff (preorders : Preorders cmp S) {a b : α} (aInside : S a) (bInside : S b) :
    cmp a b = .eq ↔ (cmp a b).isLE ∧ (cmp b a).isLE := by
  rw [preorders.swap a b aInside bInside]
  cases cmp a b <;> simp

/-- What is tied with a thing is tied with what that thing is tied with. -/
theorem eq_trans (preorders : Preorders cmp S) {a b c : α} (aInside : S a) (bInside : S b)
    (cInside : S c) (ab : cmp a b = .eq) (bc : cmp b c = .eq) : cmp a c = .eq := by
  rw [preorders.eq_iff aInside bInside] at ab
  rw [preorders.eq_iff bInside cInside] at bc
  rw [preorders.eq_iff aInside cInside]
  constructor
  · exact preorders.trans a b c aInside bInside cInside ab.1 bc.1
  · exact preorders.trans c b a cInside bInside aInside bc.2 ab.2

theorem mono (preorders : Preorders cmp S) (fewer : ∀ a, T a → S a) : Preorders cmp T where
  swap a b aInside bInside := preorders.swap a b (fewer a aInside) (fewer b bInside)
  trans a b c aInside bInside cInside :=
    preorders.trans a b c (fewer a aInside) (fewer b bInside) (fewer c cInside)

/-- Things are ordered by what a function makes of them. -/
theorem comap (preorders : Preorders cmp S) (f : β → α) :
    Preorders (fun x y => cmp (f x) (f y)) fun x => S (f x) where
  swap x y := preorders.swap (f x) (f y)
  trans x y z := preorders.trans (f x) (f y) (f z)

theorem reversed (preorders : Preorders cmp S) : Preorders (fun a b => cmp b a) S where
  swap a b aInside bInside := preorders.swap b a bInside aInside
  trans a b c aInside bInside cInside ab bc :=
    preorders.trans c b a cInside bInside aInside bc ab

/-- A second order decides between what the first one does not tell apart. -/
theorem lexicographic (first : Preorders cmp S) (second : Preorders other S) :
    Preorders (fun a b => (cmp a b).then (other a b)) S where
  swap a b aInside bInside := by
    rw [first.swap a b aInside bInside, second.swap a b aInside bInside, Ordering.swap_then]
  trans a b c aInside bInside cInside ab bc := by
    have ties (x y : α) (xInside : S x) (yInside : S y) := first.eq_iff xInside yInside
    have abFirst := isLE_of_then ab
    have bcFirst := isLE_of_then bc
    have acFirst := first.trans a b c aInside bInside cInside abFirst bcFirst
    rw [isLE_then]
    by_cases tied : cmp a c = .eq
    · -- If the ends are tied, so is what stands between them.
      have back : (cmp c a).isLE := ((ties a c aInside cInside).1 tied).2
      have abTied : cmp a b = .eq := (ties a b aInside bInside).2
        ⟨abFirst, first.trans b c a bInside cInside aInside bcFirst back⟩
      have bcTied : cmp b c = .eq := (ties b c bInside cInside).2
        ⟨bcFirst, first.trans c a b cInside aInside bInside back abFirst⟩
      rw [abTied] at ab
      rw [bcTied] at bc
      exact Or.inr ⟨tied, second.trans a b c aInside bInside cInside ab bc⟩
    · left
      cases less : cmp a c <;> simp_all

end Preorders

/-! ### Several orders -/

/-- The first of several orders that tells two things apart decides. -/
def byAll (cmps : List (α → α → Ordering)) (a b : α) : Ordering :=
  cmps.foldr (fun cmp rest => (cmp a b).then rest) .eq

/-- No order puts the second thing first before some order puts the first one first. -/
def InOrder (cmps : List (α → α → Ordering)) (a b : α) : Prop :=
  (∀ cmp ∈ cmps, cmp a b = .eq) ∨
    ∃ before cmp after, cmps = before ++ cmp :: after ∧ (∀ c ∈ before, c a b = .eq) ∧
      cmp a b = .lt

/-- No order tells two things apart. -/
def tied (cmps : List (α → α → Ordering)) (a b : α) : Bool := cmps.all fun cmp => cmp a b == .eq

section Several

variable {cmps : List (α → α → Ordering)} {a b : α}

theorem byAll_cons (cmp : α → α → Ordering) (cmps : List (α → α → Ordering)) (a b : α) :
    byAll (cmp :: cmps) a b = (cmp a b).then (byAll cmps a b) := rfl

theorem byAll_map {κ : Type} (f : κ → α → α → Ordering) (keys : List κ) (a b : α) :
    byAll (keys.map f) a b = keys.foldr (fun key rest => (f key a b).then rest) .eq := by
  rw [byAll, List.foldr_map]

theorem tied_iff : tied cmps a b = true ↔ ∀ cmp ∈ cmps, cmp a b = .eq := by
  simp [tied]

theorem isLE_byAll : (byAll cmps a b).isLE ↔ InOrder cmps a b := by
  induction cmps with
  | nil => simp [byAll, InOrder]
  | cons cmp rest inductionHypothesis =>
      rw [byAll_cons, isLE_then, inductionHypothesis]
      constructor
      · rintro (less | ⟨same, later | ⟨before, next, after, rfl, ties, less⟩⟩)
        · exact Or.inr ⟨[], cmp, rest, rfl, by simp, less⟩
        · exact Or.inl (by simpa [same] using later)
        · exact Or.inr ⟨cmp :: before, next, after, rfl, by simpa [same] using ties, less⟩
      · rintro (ties | ⟨before, next, after, split, ties, less⟩)
        · have own := List.forall_mem_cons.1 ties
          exact Or.inr ⟨own.1, Or.inl own.2⟩
        · cases before with
          | nil =>
              obtain ⟨rfl, rfl⟩ := List.cons.inj split
              exact Or.inl less
          | cons first before =>
              obtain ⟨rfl, rfl⟩ := List.cons.inj split
              have own := List.forall_mem_cons.1 ties
              exact Or.inr ⟨own.1, Or.inr ⟨before, next, after, rfl, own.2, less⟩⟩

theorem Preorders.byAll {S : α → Prop} (each : ∀ cmp ∈ cmps, Preorders cmp S) :
    Preorders (byAll cmps) S := by
  induction cmps with
  | nil => exact ⟨fun _ _ _ _ => rfl, fun _ _ _ _ _ _ _ _ => rfl⟩
  | cons cmp rest inductionHypothesis =>
      have own := List.forall_mem_cons.1 each
      exact own.1.lexicographic (inductionHypothesis own.2)

end Several

/-! ### Sorted lists -/

/-- A list sorted by several orders: it has the same members, they stand in order, and those that no
order tells apart stand as they stood before. -/
structure Sorts (cmps : List (α → α → Ordering)) (l sorted : List α) : Prop where
  perm : sorted.Perm l
  inOrder : sorted.Pairwise (InOrder cmps)
  stable : ∀ x ∈ l, sorted.filter (tied cmps x) = l.filter (tied cmps x)

/-- By no order at all every list is sorted. -/
theorem sorts_nil (l : List α) : Sorts [] l l where
  perm := .refl l
  inOrder := List.pairwise_of_forall fun _ _ => Or.inl (by simp)
  stable _ _ := rfl

section MergeSort

variable {cmp : α → α → Ordering} {l : List α}

theorem isLE_eq (o : Ordering) : (o != .gt) = o.isLE := by cases o <;> rfl

/-- The members of a list are sorted as members of the kind that the order is a preorder on. -/
theorem exists_mergeSort (preorders : Preorders cmp (· ∈ l)) :
    ∃ le : { x // x ∈ l } → { x // x ∈ l } → Bool,
      (∀ a b, le a b = (cmp a.1 b.1 != .gt)) ∧ (∀ a b c, le a b → le b c → le a c) ∧
      (∀ a b, le a b || le b a) ∧
      (l.attach.mergeSort le).map Subtype.val = l.mergeSort fun a b => cmp a b != .gt := by
  refine ⟨fun a b => cmp a.1 b.1 != .gt, fun _ _ => rfl, fun a b c => ?_, fun a b => ?_, ?_⟩
  · simp only [isLE_eq]
    exact preorders.trans a b c a.2 b.2 c.2
  · dsimp only
    rw [preorders.swap a b a.2 b.2]
    cases cmp a.1 b.1 <;> rfl
  · rw [List.map_mergeSort (s := fun a b => cmp a b != .gt) fun _ _ _ _ => rfl,
      List.attach_map_subtype_val]

theorem pairwise_mergeSort (preorders : Preorders cmp (· ∈ l)) :
    (l.mergeSort fun a b => cmp a b != .gt).Pairwise fun a b => (cmp a b).isLE := by
  obtain ⟨le, own, trans, total, same⟩ := exists_mergeSort preorders
  rw [← same, List.pairwise_map]
  refine (List.pairwise_mergeSort trans total l.attach).imp fun {a b} ordered => ?_
  rwa [own, isLE_eq] at ordered

/-- Members that are pairwise tied keep their places among each other. -/
theorem filter_mergeSort (preorders : Preorders cmp (· ∈ l)) {p : α → Bool}
    (ties : ∀ a ∈ l, ∀ b ∈ l, p a → p b → cmp a b = .eq) :
    (l.mergeSort fun a b => cmp a b != .gt).filter p = l.filter p := by
  obtain ⟨le, own, trans, total, same⟩ := exists_mergeSort preorders
  have front : (l.attach.filter fun x => p x.1).Sublist (l.attach.mergeSort le) := by
    refine List.sublist_mergeSort trans total ?_ List.filter_sublist
    rw [List.pairwise_filter]
    refine List.pairwise_of_forall fun a b aKept bKept => ?_
    rw [own, ties a a.2 b b.2 aKept bKept]
    rfl
  have kept := front.map Subtype.val
  rw [same] at kept
  have images : (l.attach.filter fun x => p x.1).map Subtype.val = l.filter p := by
    have mapped := List.filter_map (p := p) (f := Subtype.val) (l := l.attach)
    rw [List.attach_map_subtype_val] at mapped
    exact mapped.symm
  rw [images] at kept
  have within := kept.filter p
  rw [List.filter_filter, List.filter_congr (q := p) fun a _ => Bool.and_self _] at within
  refine (within.eq_of_length ?_).symm
  exact (((List.mergeSort_perm l _).filter p).length_eq).symm

end MergeSort

theorem sorts_mergeSort {cmps : List (α → α → Ordering)} {l : List α}
    (each : ∀ cmp ∈ cmps, Preorders cmp (· ∈ l)) :
    Sorts cmps l (l.mergeSort fun a b => byAll cmps a b != .gt) where
  perm := List.mergeSort_perm _ _
  inOrder := (pairwise_mergeSort (Preorders.byAll each)).imp fun ordered => isLE_byAll.1 ordered
  stable := by
    intro x inside
    have whole := Preorders.byAll each
    have onTies (a b : α) : tied cmps a b = true → byAll cmps a b = .eq := by
      intro ties
      rw [tied_iff] at ties
      induction cmps with
      | nil => rfl
      | cons cmp rest inductionHypothesis =>
          have own := List.forall_mem_cons.1 ties
          have later := List.forall_mem_cons.1 each
          rw [byAll_cons, own.1]
          exact inductionHypothesis later.2 (Preorders.byAll later.2) own.2
    refine filter_mergeSort whole fun a aInside b bInside aTied bTied => ?_
    have back : byAll cmps a x = .eq := by
      rw [whole.swap x a inside aInside, onTies x a aTied]
      rfl
    exact whole.eq_trans aInside inside bInside back (onTies x b bTied)

/-! ### Orders that agree -/

section Congr

variable {κ : Type} {f g : κ → α → α → Ordering} {keys : List κ}

theorem byAll_congr {a b : α} (same : ∀ key ∈ keys, f key a b = g key a b) :
    byAll (keys.map f) a b = byAll (keys.map g) a b := by
  rw [byAll_map, byAll_map]
  exact List.foldr_ext _ _ _ fun key member rest => by rw [same key member]

theorem tied_congr {a b : α} (same : ∀ key ∈ keys, f key a b = g key a b) :
    tied (keys.map f) a b = tied (keys.map g) a b := by
  rw [Bool.eq_iff_iff, tied_iff, tied_iff, List.forall_mem_map, List.forall_mem_map]
  exact forall₂_congr fun key member => by rw [same key member]

/-- What one family of orders sorts, every family sorts that agrees with it on the list. -/
theorem Sorts.congr {l sorted : List α} (sorts : Sorts (keys.map f) l sorted)
    (same : ∀ key ∈ keys, ∀ a ∈ l, ∀ b ∈ l, f key a b = g key a b) :
    Sorts (keys.map g) l sorted where
  perm := sorts.perm
  inOrder := by
    refine sorts.inOrder.imp_of_mem fun {a b} aMember bMember ordered => ?_
    have inside (x : α) (member : x ∈ sorted) : x ∈ l := sorts.perm.mem_iff.1 member
    rw [← isLE_byAll] at ordered ⊢
    rwa [← byAll_congr fun key among => same key among a (inside a aMember) b (inside b bMember)]
  stable x inside := by
    have ties (y : α) (member : y ∈ l) : tied (keys.map f) x y = tied (keys.map g) x y :=
      tied_congr fun key among => same key among x inside y member
    rw [← List.filter_congr ties, ← sorts.stable x inside]
    exact List.filter_congr fun y member => (ties y (sorts.perm.mem_iff.1 member)).symm

end Congr

end Recordkeeper.Sorting
