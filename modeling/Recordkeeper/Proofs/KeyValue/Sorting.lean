import Recordkeeper.KeyValue.Plan
import Recordkeeper.Proofs.Sorting
import Recordkeeper.Proofs.Value

/-!
Contract: the order of field values, and the records that a plan sorts by it.

Owns:
- the scales that values are compared on, and that the order answers the reverse the other way round;
- `Consistent`: the values among which the order is transitive, which it is not among all;
- that a plan sorts records whose values are consistent, and moves none that its keys leave tied.

Does not own: the order of documents.

Numbers are compared by size and bytes by their bytes, but either of them with anything else by text,
and a NaN counts as equal to every number.
-/

set_option autoImplicit false

namespace Recordkeeper

open Sorting (Preorders)

namespace Value

/-- What a value is compared by with others of its scale. -/
inductive Scale where
  | number
  | bytes
  | text
  deriving DecidableEq

def scale : Value → Scale
  | .int _ | .float _ => .number
  | .bytes _ => .bytes
  | _ => .text

def isNaN (v : Value) : Bool := v.number?.any Binary64.isNaN

/-! ### Two values -/

/-- Two values are numbers, or bytes, or compared by text. -/
theorem scale_cases (v w : Value) :
    (∃ x y, v.number? = some x ∧ w.number? = some y) ∨ (∃ a b, v = .bytes a ∧ w = .bytes b) ∨
      (v.scale ≠ w.scale ∨ v.scale = .text ∧ w.scale = .text) := by
  cases v <;> cases w <;> simp [number?, scale]

theorem sortOrder_number {v w : Value} {x y : Binary64} (vNumber : v.number? = some x)
    (wNumber : w.number? = some y) : v.sortOrder w = (x.compare? y).getD .eq := by
  have present {u : Value} {z : Binary64} (number : u.number? = some z) : u ≠ .null := by
    rintro rfl
    cases number
  unfold sortOrder
  rw [isNull_of_ne (present vNumber), isNull_of_ne (present wNumber),
    ← compare?_number vNumber wNumber]

theorem sortOrder_text {v w : Value} (vPresent : v ≠ .null) (wPresent : w ≠ .null)
    (byText : v.scale ≠ w.scale ∨ v.scale = .text ∧ w.scale = .text) :
    v.sortOrder w = compare v.coerced w.coerced := by
  unfold sortOrder
  rw [isNull_of_ne vPresent, isNull_of_ne wPresent]
  show (v.compare? w).getD .eq = _
  unfold compare?
  rw [isNull_of_ne vPresent, isNull_of_ne wPresent, if_neg (by simp)]
  cases v <;> cases w
  case bool.bool p q => cases p <;> cases q <;> decide
  all_goals first | rfl | simp [scale] at byText

theorem sortOrder_null {v : Value} (present : v ≠ .null) : v.sortOrder .null = .gt := by
  unfold sortOrder
  rw [isNull_of_ne present]
  rfl

theorem null_sortOrder {v : Value} (present : v ≠ .null) : sortOrder .null v = .lt := by
  unfold sortOrder
  rw [isNull_of_ne present]
  rfl

theorem compareBytes_eq (a b : Bytes) :
    compareBytes a b = List.compareLex (fun x y => compare x.toNat y.toNat) a b := by
  induction a generalizing b with
  | nil => cases b <;> rfl
  | cons x xs inductionHypothesis =>
      cases b with
      | nil => rfl
      | cons y ys => rw [compareBytes, List.compareLex_cons_cons, inductionHypothesis]

instance : Std.TransCmp compareBytes := by
  have bytes : Std.TransCmp fun x y : UInt8 => compare x.toNat y.toNat :=
    inferInstanceAs (Std.TransCmp (compareOn UInt8.toNat))
  rw [show compareBytes = List.compareLex fun x y => compare x.toNat y.toNat from
    funext fun a => funext fun b => compareBytes_eq a b]
  infer_instance

theorem sortOrder_swap (v w : Value) : w.sortOrder v = (v.sortOrder w).swap := by
  by_cases vPresent : v = .null
  · subst vPresent
    by_cases wPresent : w = .null
    · subst wPresent
      rfl
    · rw [sortOrder_null wPresent, null_sortOrder wPresent]
      rfl
  · by_cases wPresent : w = .null
    · subst wPresent
      rw [sortOrder_null vPresent, null_sortOrder vPresent]
      rfl
    · rcases scale_cases v w with ⟨x, y, vNumber, wNumber⟩ | ⟨a, b, rfl, rfl⟩ | byText
      · rw [sortOrder_number vNumber wNumber, sortOrder_number wNumber vNumber,
          ← Binary64.compare?_swap x]
        cases x.compare? y <;> rfl
      · show compareBytes b a = (compareBytes a b).swap
        exact Std.OrientedCmp.eq_swap
      · rw [sortOrder_text vPresent wPresent byText,
          sortOrder_text wPresent vPresent (byText.imp Ne.symm And.symm)]
        exact Std.OrientedCmp.eq_swap

theorem sortOrder_refl (v : Value) : v.sortOrder v = .eq := by
  have own := sortOrder_swap v v
  cases same : v.sortOrder v <;> simp_all

theorem number?_of_scale {v : Value} (number : v.scale = .number) : ∃ x, v.number? = some x := by
  cases v with
  | int n => exact ⟨_, rfl⟩
  | float x => exact ⟨x, rfl⟩
  | _ => cases number

theorem bytes_of_scale {v : Value} (bytes : v.scale = .bytes) : ∃ b, v = .bytes b := by
  cases v with
  | bytes b => exact ⟨b, rfl⟩
  | _ => cases bytes

/-- Where a number stands, and 0 for what is no number. -/
def rank (v : Value) : Int := (v.number?.map Binary64.rank).getD 0

theorem sortOrder_rank {v w : Value} (vScale : v.scale = .number) (vNumber : ¬v.isNaN)
    (wScale : w.scale = .number) (wNumber : ¬w.isNaN) : v.sortOrder w = compare v.rank w.rank := by
  obtain ⟨x, vOwn⟩ := number?_of_scale vScale
  obtain ⟨y, wOwn⟩ := number?_of_scale wScale
  rw [isNaN, vOwn, Option.any_some, Bool.not_eq_true] at vNumber
  rw [isNaN, wOwn, Option.any_some, Bool.not_eq_true] at wNumber
  rw [sortOrder_number vOwn wOwn, Binary64.compare?_isSome vNumber wNumber, rank, rank, vOwn, wOwn]
  rfl

/-- No number is told apart from a NaN. -/
theorem sortOrder_nan {v n : Value} (nan : n.isNaN) (vScale : v.scale = .number) :
    v.sortOrder n = .eq := by
  obtain ⟨x, vOwn⟩ := number?_of_scale vScale
  unfold isNaN at nan
  cases nOwn : n.number? with
  | none =>
      rw [nOwn] at nan
      cases nan
  | some y =>
      rw [nOwn, Option.any_some] at nan
      rw [sortOrder_number vOwn nOwn, Binary64.compare?, nan, Bool.or_true]
      rfl

/-! ### Three values -/

/-- Each of three values stands before the next one, and the last before the first. -/
structure Cycle (u v w : Value) : Prop where
  first : (u.sortOrder v).isLE
  second : (v.sortOrder w).isLE
  third : (w.sortOrder u).isLE

/-- No two of three values are told apart. -/
structure Tied (u v w : Value) : Prop where
  first : u.sortOrder v = .eq
  second : v.sortOrder w = .eq
  third : w.sortOrder u = .eq

theorem Cycle.rotate {u v w : Value} (cycle : Cycle u v w) : Cycle v w u :=
  ⟨cycle.second, cycle.third, cycle.first⟩

theorem Tied.rotate {u v w : Value} (tied : Tied u v w) : Tied v w u :=
  ⟨tied.second, tied.third, tied.first⟩

/-- Two values of one scale of which the first stands before the second, while a third value of
another scale stands between their texts the other way round.  Only ties are no contradiction. -/
structure Clash (u v w : Value) : Prop where
  present : u ≠ .null ∧ v ≠ .null ∧ w ≠ .null
  scales : u.scale = v.scale ∧ u.scale ≠ w.scale
  before : (u.sortOrder v).isLE
  between : (compare v.coerced w.coerced).isLE ∧ (compare w.coerced u.coerced).isLE
  apart : ¬(u.sortOrder v = .eq ∧ u.coerced = v.coerced)

/-- Values that can be sorted: next to a NaN no number is told apart from another one, and no order on
a scale is at odds with the order of texts. -/
structure Consistent (S : Value → Prop) : Prop where
  numbers : ∀ n u v, S n → S u → S v → n.isNaN → u.scale = .number → v.scale = .number →
    u.sortOrder v = .eq
  texts : ∀ u v w, S u → S v → S w → ¬Clash u v w

section Cycles

variable {S : Value → Prop} {u v w : Value}

/-- In a circle of orders that are transitive and answer the reverse the other way round all are ties. -/
theorem eq_of_cycle {α : Type} {cmp : α → α → Ordering} [Std.TransCmp cmp] {a b c : α}
    (first : (cmp a b).isLE) (second : (cmp b c).isLE) (third : (cmp c a).isLE) : cmp a b = .eq :=
  Std.OrientedCmp.isLE_antisymm first (Std.TransCmp.isLE_trans second third)

theorem eq_null_of_isLE (before : (v.sortOrder .null).isLE) : v = .null := by
  by_contra present
  rw [sortOrder_null present] at before
  cases before

theorem Cycle.tied_of_null (cycle : Cycle .null v w) : Tied .null v w := by
  obtain rfl := eq_null_of_isLE cycle.third
  obtain rfl := eq_null_of_isLE cycle.second
  exact ⟨rfl, rfl, rfl⟩

/-- All three values are compared by text. -/
theorem Cycle.tied_of_text (present : u ≠ .null ∧ v ≠ .null ∧ w ≠ .null) (cycle : Cycle u v w)
    (uv : u.scale ≠ v.scale ∨ u.scale = .text ∧ v.scale = .text)
    (vw : v.scale ≠ w.scale ∨ v.scale = .text ∧ w.scale = .text)
    (wu : w.scale ≠ u.scale ∨ w.scale = .text ∧ u.scale = .text) : Tied u v w := by
  obtain ⟨uPresent, vPresent, wPresent⟩ := present
  obtain ⟨first, second, third⟩ := cycle
  rw [sortOrder_text uPresent vPresent uv] at first
  rw [sortOrder_text vPresent wPresent vw] at second
  rw [sortOrder_text wPresent uPresent wu] at third
  constructor
  · rw [sortOrder_text uPresent vPresent uv]
    exact eq_of_cycle first second third
  · rw [sortOrder_text vPresent wPresent vw]
    exact eq_of_cycle second third first
  · rw [sortOrder_text wPresent uPresent wu]
    exact eq_of_cycle third first second

theorem sortOrder_bytes (a b : Bytes) : sortOrder (.bytes a) (.bytes b) = compareBytes a b := rfl

theorem Cycle.tied_of_bytes {a b c : Bytes} (cycle : Cycle (.bytes a) (.bytes b) (.bytes c)) :
    Tied (.bytes a) (.bytes b) (.bytes c) := by
  obtain ⟨first, second, third⟩ := cycle
  rw [sortOrder_bytes] at first second third
  constructor
  · rw [sortOrder_bytes]
    exact eq_of_cycle first second third
  · rw [sortOrder_bytes]
    exact eq_of_cycle second third first
  · rw [sortOrder_bytes]
    exact eq_of_cycle third first second

theorem Cycle.tied_of_numbers (consistent : Consistent S) (inside : S u ∧ S v ∧ S w)
    (numbers : u.scale = .number ∧ v.scale = .number ∧ w.scale = .number) (cycle : Cycle u v w) :
    Tied u v w := by
  obtain ⟨uInside, vInside, wInside⟩ := inside
  obtain ⟨uScale, vScale, wScale⟩ := numbers
  have tied (n : Value) (nInside : S n) (nan : n.isNaN) : Tied u v w :=
    ⟨consistent.numbers n u v nInside uInside vInside nan uScale vScale,
      consistent.numbers n v w nInside vInside wInside nan vScale wScale,
      consistent.numbers n w u nInside wInside uInside nan wScale uScale⟩
  by_cases uNaN : u.isNaN
  · exact tied u uInside uNaN
  by_cases vNaN : v.isNaN
  · exact tied v vInside vNaN
  by_cases wNaN : w.isNaN
  · exact tied w wInside wNaN
  obtain ⟨first, second, third⟩ := cycle
  rw [sortOrder_rank uScale uNaN vScale vNaN] at first
  rw [sortOrder_rank vScale vNaN wScale wNaN] at second
  rw [sortOrder_rank wScale wNaN uScale uNaN] at third
  constructor
  · rw [sortOrder_rank uScale uNaN vScale vNaN]
    exact eq_of_cycle first second third
  · rw [sortOrder_rank vScale vNaN wScale wNaN]
    exact eq_of_cycle second third first
  · rw [sortOrder_rank wScale wNaN uScale uNaN]
    exact eq_of_cycle third first second

/-- Two values are compared on their scale, and both of them with the third one by text. -/
theorem Cycle.tied_of_pair (consistent : Consistent S) (inside : S u ∧ S v ∧ S w)
    (present : u ≠ .null ∧ v ≠ .null ∧ w ≠ .null) (same : u.scale = v.scale)
    (differ : u.scale ≠ w.scale) (cycle : Cycle u v w) : Tied u v w := by
  obtain ⟨uInside, vInside, wInside⟩ := inside
  have vw : v.sortOrder w = compare v.coerced w.coerced :=
    sortOrder_text present.2.1 present.2.2 (Or.inl (same ▸ differ))
  have wu : w.sortOrder u = compare w.coerced u.coerced :=
    sortOrder_text present.2.2 present.1 (Or.inl differ.symm)
  obtain ⟨first, second, third⟩ := cycle
  rw [vw] at second
  rw [wu] at third
  have peace := consistent.texts u v w uInside vInside wInside
  by_cases apart : u.sortOrder v = .eq ∧ u.coerced = v.coerced
  · obtain ⟨tied, sameText⟩ := apart
    rw [sameText] at third wu
    refine ⟨tied, ?_, ?_⟩
    · rw [vw]
      exact Std.OrientedCmp.isLE_antisymm second third
    · rw [wu]
      exact Std.OrientedCmp.isLE_antisymm third second
  · exact absurd ⟨present, ⟨same, differ⟩, first, ⟨second, third⟩, apart⟩ peace

/-- Among consistent values a circle is one of ties. -/
theorem Consistent.tied (consistent : Consistent S) (inside : S u ∧ S v ∧ S w)
    (cycle : Cycle u v w) : Tied u v w := by
  obtain ⟨uInside, vInside, wInside⟩ := inside
  by_cases uPresent : u = .null
  · subst uPresent
    exact cycle.tied_of_null
  by_cases vPresent : v = .null
  · subst vPresent
    exact cycle.rotate.tied_of_null.rotate.rotate
  by_cases wPresent : w = .null
  · subst wPresent
    exact cycle.rotate.rotate.tied_of_null.rotate
  by_cases uv : u.scale = v.scale
  · by_cases vw : v.scale = w.scale
    · have uw := uv.trans vw
      cases own : u.scale with
      | number =>
          exact cycle.tied_of_numbers consistent ⟨uInside, vInside, wInside⟩
            ⟨own, uv.symm.trans own, uw.symm.trans own⟩
      | bytes =>
          obtain ⟨a, rfl⟩ := bytes_of_scale own
          obtain ⟨b, rfl⟩ := bytes_of_scale (uv.symm.trans own)
          obtain ⟨c, rfl⟩ := bytes_of_scale (uw.symm.trans own)
          exact cycle.tied_of_bytes
      | text =>
          have vText := uv.symm.trans own
          have wText := uw.symm.trans own
          exact cycle.tied_of_text ⟨uPresent, vPresent, wPresent⟩ (Or.inr ⟨own, vText⟩)
            (Or.inr ⟨vText, wText⟩) (Or.inr ⟨wText, own⟩)
    · exact cycle.tied_of_pair consistent ⟨uInside, vInside, wInside⟩
        ⟨uPresent, vPresent, wPresent⟩ uv (uv ▸ vw)
  · by_cases vw : v.scale = w.scale
    · exact (cycle.rotate.tied_of_pair consistent ⟨vInside, wInside, uInside⟩
        ⟨vPresent, wPresent, uPresent⟩ vw (Ne.symm uv)).rotate.rotate
    · by_cases wu : w.scale = u.scale
      · exact (cycle.rotate.rotate.tied_of_pair consistent ⟨wInside, uInside, vInside⟩
          ⟨wPresent, uPresent, vPresent⟩ wu (Ne.symm vw)).rotate
      · exact cycle.tied_of_text ⟨uPresent, vPresent, wPresent⟩ (Or.inl uv) (Or.inl vw) (Or.inl wu)

theorem Consistent.preorders (consistent : Consistent S) : Preorders sortOrder S where
  swap u v _ _ := sortOrder_swap u v
  trans u v w uInside vInside wInside uv vw := by
    cases own : u.sortOrder w with
    | lt | eq => rfl
    | gt =>
        have back : w.sortOrder u = .lt := by
          rw [sortOrder_swap u w, own]
          rfl
        have wu : (w.sortOrder u).isLE := by
          rw [back]
          rfl
        have third := (consistent.tied ⟨uInside, vInside, wInside⟩ ⟨uv, vw, wu⟩).third
        rw [back] at third
        cases third

/-- Values among which the order is transitive are consistent. -/
theorem consistent_of_preorders (preorders : Preorders sortOrder S) : Consistent S := by
  constructor
  · intro n u v nInside uInside vInside nan uNumber vNumber
    have vn := sortOrder_nan nan vNumber
    have nv : n.sortOrder v = .eq := by
      rw [sortOrder_swap v n, vn]
      rfl
    exact preorders.eq_trans uInside nInside vInside (sortOrder_nan nan uNumber) nv
  · intro u v w uInside vInside wInside clash
    obtain ⟨⟨uPresent, vPresent, wPresent⟩, ⟨same, differ⟩, before, ⟨vw, wu⟩, apart⟩ := clash
    have vwOrder : v.sortOrder w = compare v.coerced w.coerced :=
      sortOrder_text vPresent wPresent (Or.inl (same ▸ differ))
    have wuOrder : w.sortOrder u = compare w.coerced u.coerced :=
      sortOrder_text wPresent uPresent (Or.inl differ.symm)
    rw [← vwOrder] at vw
    rw [← wuOrder] at wu
    have uvTied := (preorders.eq_iff uInside vInside).2
      ⟨before, preorders.trans v w u vInside wInside uInside vw wu⟩
    have vwTied := (preorders.eq_iff vInside wInside).2
      ⟨vw, preorders.trans w u v wInside uInside vInside wu before⟩
    have wuTied := (preorders.eq_iff wInside uInside).2
      ⟨wu, preorders.trans u v w uInside vInside wInside before vw⟩
    rw [vwOrder] at vwTied
    rw [wuOrder] at wuTied
    refine apart ⟨uvTied, ?_⟩
    rw [← Std.LawfulEqCmp.eq_of_compare wuTied, ← Std.LawfulEqCmp.eq_of_compare vwTied]

/-- Values of one scale are consistent if none of them is a NaN, and so they are with nulls among
them. -/
theorem consistent_of_scale {scale : Scale}
    (members : ∀ v, S v → v = .null ∨ v.scale = scale ∧ v.isNaN = false) : Consistent S := by
  constructor
  · intro n u v nInside _ _ nan _ _
    rcases members n nInside with rfl | ⟨-, number⟩
    · cases nan
    · rw [number] at nan
      cases nan
  · intro u v w uInside vInside wInside clash
    have own (x : Value) (inside : S x) (present : x ≠ .null) : x.scale = scale :=
      ((members x inside).resolve_left present).1
    exact clash.scales.2 ((own u uInside clash.present.1).trans (own w wInside clash.present.2.2).symm)

end Cycles

end Value

/-! ### Records -/

namespace SortKey

/-- The values that records have in the field of a key. -/
def Column (key : SortKey) (rs : List Record) (v : Value) : Prop :=
  ∃ r ∈ rs, r.valueAt key.field = v

theorem preorders_order (key : SortKey) {rs : List Record}
    (consistent : Value.Consistent (key.Column rs)) : Preorders key.order (· ∈ rs) := by
  have found := (consistent.preorders.comap fun r : Record => r.valueAt key.field).mono
    (T := (· ∈ rs)) fun r member => ⟨r, member, rfl⟩
  obtain ⟨field, direction⟩ := key
  cases direction with
  | asc => exact found
  | desc => exact found.reversed

end SortKey

namespace KeyValue

/-- The order of values is reflexive and answers the reverse the other way round.  It is transitive
exactly among consistent values, which those of one scale are.  Records that are consistent in every
column that a plan sorts by are sorted by its keys, and those that no key tells apart keep their
places. -/
theorem sortOrder_preorders_iff (S : Value → Prop) :
    (∀ v : Value, v.sortOrder v = .eq) ∧
    (∀ v w : Value, w.sortOrder v = (v.sortOrder w).swap) ∧
    ((∀ u v w, S u → S v → S w → (u.sortOrder v).isLE → (v.sortOrder w).isLE →
      (u.sortOrder w).isLE) ↔ Value.Consistent S) ∧
    (∀ scale : Value.Scale,
      (∀ v, S v → v = .null ∨ v.scale = scale ∧ v.isNaN = false) → Value.Consistent S) ∧
    ∀ (plan : Plan) (rs : List Record),
      (∀ key ∈ plan.sort, Value.Consistent (key.Column rs)) →
      Sorting.Sorts (plan.sort.map SortKey.order) rs (plan.sorted rs) := by
  refine ⟨Value.sortOrder_refl, Value.sortOrder_swap, ⟨fun trans => ?_, fun consistent => ?_⟩,
    fun scale => Value.consistent_of_scale, fun plan rs consistent => ?_⟩
  · exact Value.consistent_of_preorders ⟨fun u v _ _ => Value.sortOrder_swap u v, trans⟩
  · exact consistent.preorders.trans
  · have each : ∀ cmp ∈ plan.sort.map SortKey.order, Preorders cmp (· ∈ rs) := by
      intro cmp member
      obtain ⟨key, among, rfl⟩ := List.mem_map.1 member
      exact key.preorders_order (consistent key among)
    have sorted := Sorting.sorts_mergeSort each
    unfold Plan.sorted
    split
    next unsorted =>
      rw [List.isEmpty_iff.1 unsorted]
      exact Sorting.sorts_nil rs
    next =>
      have several : SortKey.orderAll plan.sort = Sorting.byAll (plan.sort.map SortKey.order) := by
        funext r s
        exact (Sorting.byAll_map SortKey.order plan.sort r s).symm
      rw [several]
      exact sorted

/-- A whole number, a fraction and a missing number: the missing one comes first, the others by
size. -/
theorem agesOfThree_sorted :
    let whole : Record := .ofList [("age", .int 9)]
    let fraction : Record := .ofList [("age", .float (.ofRatio false 5 2))]
    let missing : Record := .ofList [("name", .text "Ada")]
    Sorting.Sorts [SortKey.order ⟨"age", .asc⟩] [whole, fraction, missing]
      [missing, fraction, whole] := by
  intro whole fraction missing
  let age : SortKey := ⟨"age", .asc⟩
  obtain ⟨-, -, -, oneScale, sorted⟩ :=
    sortOrder_preorders_iff (age.Column [whole, fraction, missing])
  have sorts := sorted ⟨[], [], [age], none, none, [], [], false⟩ [whole, fraction, missing]
  have fractionFirst : SortKey.orderAll [age] whole fraction = .gt := by decide
  have missingFirst : SortKey.orderAll [age] fraction missing = .gt := by decide
  have answer : Plan.sorted ⟨[], [], [age], none, none, [], [], false⟩ [whole, fraction, missing]
      = [missing, fraction, whole] := by
    simp [Plan.sorted, List.mergeSort, List.MergeSort.Internal.splitInTwo, fractionFirst, missingFirst]
  rw [answer] at sorts
  refine sorts fun key member => ?_
  obtain rfl := List.mem_singleton.1 member
  refine oneScale .number fun v inside => ?_
  obtain ⟨r, among, rfl⟩ := inside
  simp only [List.mem_cons, List.not_mem_nil, or_false] at among
  rcases among with rfl | rfl | rfl
  · exact Or.inr (by decide)
  · exact Or.inr (by decide)
  · exact Or.inl rfl

/-- The number 10 counts as equal to its text, which comes before the number 9. -/
theorem textOfTen_cycle :
    (Value.sortOrder (.int 9) (.int 10)).isLE ∧ (Value.sortOrder (.int 10) (.text "10")).isLE ∧
      ¬(Value.sortOrder (.int 9) (.text "10")).isLE := by
  decide

end KeyValue

end Recordkeeper
