import Recordkeeper.Document.Order
import Recordkeeper.Proofs.Binary64
import Recordkeeper.Proofs.Sorting

/-!
Contract: documents of all shapes stand in one order.

Owns:
- documents in which every number has a place among the numbers, and that whatever is found in such a
  document is one;
- that the order of two documents answers the reverse the other way round;
- how the order of two documents and that of the second with a third decide the order of the first
  and the third, and that documents are therefore totally preordered;
- that sorting by paths puts documents in the order of its keys and moves none that these leave tied.

Does not own: the order of records.
-/

set_option autoImplicit false

namespace Recordkeeper

namespace Json

mutual

/-- No number of the document is a NaN.  Numbers of JSON text never are. -/
def isOrdered : Json → Bool
  | .number n => !n.toBinary64.isNaN
  | .array items => itemsOrdered items
  | .object fields => valuesOrdered fields
  | _ => true
termination_by structural x => x

def itemsOrdered : List Json → Bool
  | [] => true
  | x :: xs => isOrdered x && itemsOrdered xs
termination_by structural x => x

def valuesOrdered : List (String × Json) → Bool
  | [] => true
  | (_, v) :: rest => isOrdered v && valuesOrdered rest
termination_by structural x => x

end

theorem itemsOrdered_iff {items : List Json} : itemsOrdered items ↔ ∀ x ∈ items, x.isOrdered := by
  induction items with
  | nil => simp [itemsOrdered]
  | cons first rest inductionHypothesis =>
      rw [itemsOrdered, Bool.and_eq_true, inductionHypothesis, List.forall_mem_cons]

theorem valuesOrdered_iff {fields : Fields} :
    valuesOrdered fields ↔ ∀ entry ∈ fields, entry.2.isOrdered := by
  induction fields with
  | nil => simp [valuesOrdered]
  | cons first rest inductionHypothesis =>
      rw [valuesOrdered, Bool.and_eq_true, inductionHypothesis, List.forall_mem_cons]

end Json

namespace Document

open Sorting (Preorders)

/-! ### What is found in a document -/

theorem isOrdered_child? {doc child : Json} {segment : List Char} (ordered : doc.isOrdered)
    (found : child? doc segment = some child) : child.isOrdered := by
  cases doc with
  | object fields =>
      obtain ⟨before, after, entries, -⟩ := List.lookup_eq_some_iff.1 found
      refine Json.valuesOrdered_iff.1 ordered (String.ofList segment, child) ?_
      rw [entries]
      exact List.mem_append_right _ List.mem_cons_self
  | array items =>
      obtain ⟨i, -, item⟩ := Option.bind_eq_some_iff.1 found
      exact Json.itemsOrdered_iff.1 ordered child (List.mem_of_getElem? item)
  | null | bool | number | text => cases found

/-- A path that leads nowhere counts as leading to null. -/
theorem isOrdered_lookup {doc : Json} (path : String) (ordered : doc.isOrdered) :
    ((lookup doc path).getD .null).isOrdered := by
  unfold lookup
  induction segments path.toList generalizing doc with
  | nil => exact ordered
  | cons segment rest inductionHypothesis =>
      rw [List.foldlM_cons]
      cases found : child? doc segment with
      | none => rfl
      | some child => exact inductionHypothesis (isOrdered_child? ordered found)

/-! ### The reverse -/

theorem typeRank_le_of_order {a b : Json} (ordered : (order a b).isLE) :
    typeRank a ≤ typeRank b := by
  by_cases same : typeRank a = typeRank b
  · exact Nat.le_of_eq same
  · rw [order_of_typeRank_ne same] at ordered
    exact Nat.isLE_compare.1 ordered

mutual

theorem order_swap (a b : Json) : order b a = (order a b).swap := by
  cases a <;> cases b <;> first | rfl | skip
  case number.number m n =>
    rw [order, order, ← Binary64.compare?_swap m.toBinary64]
    cases m.toBinary64.compare? n.toBinary64 <;> rfl
  case text.text s t =>
    show compare t s = (compare s t).swap
    exact Std.OrientedCmp.eq_swap
  case bool.bool p q =>
    show compare q p = (compare p q).swap
    exact Std.OrientedCmp.eq_swap
  case array.array xs ys => exact orderItems_swap xs ys
  case object.object fs gs => exact orderFields_swap fs gs
termination_by structural a

theorem orderItems_swap (xs ys : List Json) : orderItems ys xs = (orderItems xs ys).swap := by
  match xs, ys with
  | [], [] | [], _ :: _ | _ :: _, [] => rfl
  | x :: xs, y :: ys =>
      rw [orderItems, orderItems, order_swap x y, orderItems_swap xs ys, Ordering.swap_then]
termination_by structural xs

theorem orderFields_swap (fs gs : Fields) : orderFields gs fs = (orderFields fs gs).swap := by
  match fs, gs with
  | [], [] | [], _ :: _ | _ :: _, [] => rfl
  | (m, v) :: fs, (n, w) :: gs =>
      have names : compare n m = (compare m n).swap := Std.OrientedCmp.eq_swap
      rw [orderFields, orderFields, names, order_swap v w, orderFields_swap fs gs,
        Ordering.swap_then, Ordering.swap_then]
termination_by structural fs

end

/-! ### Three documents -/

/-- Two steps that do not go down make one step: up if one of them goes up, else level. -/
def Chains (ab bc ac : Ordering) : Prop := ab.isLE → bc.isLE → ac = ab.then bc

theorem chains_compare {α : Type} [Ord α] [Std.TransOrd α] (a b c : α) :
    Chains (compare a b) (compare b c) (compare a c) := by
  intro ab bc
  cases own : compare a b with
  | lt => exact Std.TransCmp.lt_of_lt_of_isLE own bc
  | eq => exact Std.TransCmp.congr_left own
  | gt =>
      rw [own] at ab
      cases ab

/-- Where the first steps leave a tie the second ones decide. -/
theorem Chains.lexicographic {ab bc ac ab' bc' ac' : Ordering} (first : Chains ab bc ac)
    (second : Chains ab' bc' ac') : Chains (ab.then ab') (bc.then bc') (ac.then ac') := by
  intro abLE bcLE
  have abLevel := Sorting.isLE_of_then abLE
  rw [first abLevel (Sorting.isLE_of_then bcLE)]
  cases ab with
  | gt => cases abLevel
  | lt => rfl
  | eq =>
      cases bc with
      | gt => cases bcLE
      | lt =>
          -- Behind a first step up the second one counts no more.
          show Ordering.lt = ab'.then .lt
          cases ab' with
          | gt => cases abLE
          | lt | eq => rfl
      | eq => exact second abLE bcLE

theorem chains_numbers {m n k : Number} (mNumber : (Json.number m).isOrdered)
    (nNumber : (Json.number n).isOrdered) (kNumber : (Json.number k).isOrdered) :
    Chains (order (.number m) (.number n)) (order (.number n) (.number k))
      (order (.number m) (.number k)) := by
  rw [Json.isOrdered, Bool.not_eq_true'] at mNumber nNumber kNumber
  rw [order, order, order, Binary64.compare?_isSome mNumber nNumber,
    Binary64.compare?_isSome nNumber kNumber, Binary64.compare?_isSome mNumber kNumber]
  exact chains_compare _ _ _

/-- The step between two types is one between all that is of them. -/
theorem chains_of_typeRank_ne {a b c : Json}
    (differ : typeRank a ≠ typeRank b ∨ typeRank b ≠ typeRank c) :
    Chains (order a b) (order b c) (order a c) := by
  intro ab bc
  have abRank := typeRank_le_of_order ab
  have bcRank := typeRank_le_of_order bc
  have acDiffer : typeRank a ≠ typeRank c := by omega
  rw [order_of_typeRank_ne acDiffer, Nat.compare_eq_lt.2 (by omega)]
  by_cases abSame : typeRank a = typeRank b
  · have bcDiffer : typeRank b ≠ typeRank c := by omega
    rw [order_of_typeRank_ne bcDiffer, Nat.compare_eq_lt.2 (by omega)]
    cases own : order a b <;> simp_all
  · rw [order_of_typeRank_ne abSame, Nat.compare_eq_lt.2 (by omega)]
    rfl

mutual

theorem order_chains (a b c : Json) (aOrdered : a.isOrdered) (bOrdered : b.isOrdered)
    (cOrdered : c.isOrdered) : Chains (order a b) (order b c) (order a c) := by
  by_cases same : typeRank a = typeRank b ∧ typeRank b = typeRank c
  · obtain ⟨ab, bc⟩ := same
    cases a <;> cases b <;> first | (cases ab; done) | skip
    all_goals cases c <;> first | (cases bc; done) | skip
    case number.number.number => exact chains_numbers aOrdered bOrdered cOrdered
    case array.array.array xs ys zs => exact orderItems_chains xs ys zs aOrdered bOrdered cOrdered
    case object.object.object fs gs hs => exact orderFields_chains fs gs hs aOrdered bOrdered cOrdered
    all_goals exact chains_compare _ _ _
  · exact chains_of_typeRank_ne (by omega)
termination_by structural a

theorem orderItems_chains (xs ys zs : List Json) (xsOrdered : Json.itemsOrdered xs)
    (ysOrdered : Json.itemsOrdered ys) (zsOrdered : Json.itemsOrdered zs) :
    Chains (orderItems xs ys) (orderItems ys zs) (orderItems xs zs) := by
  match xs, ys, zs with
  | [], [], zs => exact fun _ _ => rfl
  | [], _ :: _, [] => exact fun _ bc => nomatch bc
  | [], _ :: _, _ :: _ => exact fun _ _ => rfl
  | _ :: _, [], _ => exact fun ab _ => nomatch ab
  | _ :: _, _ :: _, [] => exact fun _ bc => nomatch bc
  | x :: xs, y :: ys, z :: zs =>
      rw [Json.itemsOrdered, Bool.and_eq_true] at xsOrdered ysOrdered zsOrdered
      exact (order_chains x y z xsOrdered.1 ysOrdered.1 zsOrdered.1).lexicographic
        (orderItems_chains xs ys zs xsOrdered.2 ysOrdered.2 zsOrdered.2)
termination_by structural xs

theorem orderFields_chains (fs gs hs : Fields) (fsOrdered : Json.valuesOrdered fs)
    (gsOrdered : Json.valuesOrdered gs) (hsOrdered : Json.valuesOrdered hs) :
    Chains (orderFields fs gs) (orderFields gs hs) (orderFields fs hs) := by
  match fs, gs, hs with
  | [], [], hs => exact fun _ _ => rfl
  | [], _ :: _, [] => exact fun _ bc => nomatch bc
  | [], _ :: _, _ :: _ => exact fun _ _ => rfl
  | _ :: _, [], _ => exact fun ab _ => nomatch ab
  | _ :: _, _ :: _, [] => exact fun _ bc => nomatch bc
  | (k, v) :: fs, (m, w) :: gs, (n, u) :: hs =>
      rw [Json.valuesOrdered, Bool.and_eq_true] at fsOrdered gsOrdered hsOrdered
      exact ((chains_compare k m n).lexicographic
        (order_chains v w u fsOrdered.1 gsOrdered.1 hsOrdered.1)).lexicographic
          (orderFields_chains fs gs hs fsOrdered.2 gsOrdered.2 hsOrdered.2)
termination_by structural fs

end

theorem preorders_order : Preorders order fun doc => doc.isOrdered where
  swap a b _ _ := order_swap a b
  trans a b c aOrdered bOrdered cOrdered ab bc := by
    rw [order_chains a b c aOrdered bOrdered cOrdered ab bc]
    exact Sorting.isLE_then_of ab bc

/-! ### Sorting by paths -/

theorem preorders_orderByPath (key : String × Bool) :
    Preorders (orderByPath key) fun doc => doc.isOrdered := by
  have found := (preorders_order.comap fun doc => (lookup doc key.1).getD .null).mono
    fun doc ordered => isOrdered_lookup key.1 ordered
  obtain ⟨path, descending⟩ := key
  cases descending with
  | false => exact found
  | true =>
      have flipped : orderByPath (path, true) = fun doc other =>
          order ((lookup other path).getD .null) ((lookup doc path).getD .null) := by
        funext doc other
        exact (order_swap _ _).symm
      rw [flipped]
      exact found.reversed

/-- Documents without a NaN are totally preordered, whatever their types and however deep they nest,
and sorting them by paths puts them in the order of their keys, the first key that tells two
documents apart deciding, where those that no key tells apart keep their places. -/
theorem order_preorders_sortDocs :
    (∀ a : Json, order a a = .eq) ∧ (∀ a b : Json, order b a = (order a b).swap) ∧
    (∀ a b c : Json, a.isOrdered → b.isOrdered → c.isOrdered → (order a b).isLE →
      (order b c).isLE → (order a c).isLE) ∧
    ∀ (keys : List (String × Bool)) (docs : List Json), (∀ doc ∈ docs, doc.isOrdered) →
      Sorting.Sorts (keys.map orderByPath) docs (sortDocs keys docs) := by
  refine ⟨fun a => ?_, order_swap, preorders_order.trans, fun keys docs ordered => ?_⟩
  · have own := order_swap a a
    cases same : order a a <;> simp_all
  · have each : ∀ cmp ∈ keys.map orderByPath, Preorders cmp (· ∈ docs) := by
      intro cmp member
      obtain ⟨key, -, rfl⟩ := List.mem_map.1 member
      exact (preorders_orderByPath key).mono ordered
    have several : orderByPaths keys = Sorting.byAll (keys.map orderByPath) := by
      funext a b
      exact (Sorting.byAll_map orderByPath keys a b).symm
    unfold sortDocs
    rw [several]
    exact Sorting.sorts_mergeSort each

/-- Documents of three shapes: an array, the fields of an object, and a missing field, which counts
as null. -/
theorem order_preorders_sortDocs_nested :
    (order (.array [.single "k" .null]) (.array [.single "k" (.text "x"), .int 1])).isLE ∧
    Sorting.Sorts ([("a", true), ("b", false)].map orderByPath)
      [.object [("a", .int 1), ("b", .int 2)], .single "b" (.bool true), .single "a" (.array [])]
      [.single "a" (.array []), .object [("a", .int 1), ("b", .int 2)], .single "b" (.bool true)] := by
  constructor
  · exact order_preorders_sortDocs.2.2.1 _ (.array [.single "k" (.text "x")]) _ (by decide)
      (by decide) (by decide) (by decide) (by decide)
  · have sorts := order_preorders_sortDocs.2.2.2 [("a", true), ("b", false)]
      [.object [("a", .int 1), ("b", .int 2)], .single "b" (.bool true), .single "a" (.array [])]
    have numberFirst : orderByPaths [("a", true), ("b", false)]
        (.object [("a", .int 1), ("b", .int 2)]) (.single "b" (.bool true)) = .lt := by decide
    have arrayFirst : orderByPaths [("a", true), ("b", false)]
        (.object [("a", .int 1), ("b", .int 2)]) (.single "a" (.array [])) = .gt := by decide
    have sorted : sortDocs [("a", true), ("b", false)]
        [.object [("a", .int 1), ("b", .int 2)], .single "b" (.bool true), .single "a" (.array [])]
      = [.single "a" (.array []), .object [("a", .int 1), ("b", .int 2)],
          .single "b" (.bool true)] := by
      simp [sortDocs, List.mergeSort, List.MergeSort.Internal.splitInTwo, numberFirst,
        arrayFirst]
    rw [sorted] at sorts
    refine sorts fun doc member => ?_
    simp only [List.mem_cons, List.not_mem_nil, or_false] at member
    rcases member with rfl | rfl | rfl <;> decide

end Document

end Recordkeeper
