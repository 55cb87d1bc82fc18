import Recordkeeper.Engine.Resolve
import Recordkeeper.Proofs.Binary64.Exact
import Recordkeeper.Proofs.Value
import Recordkeeper.Relational.Binding

/-!
Contract: what cells stand for, whatever form they have.

Owns:
- the content of a cell: a number, a text, bytes or nothing;
- that cells are the same if and only if they have one content;
- the affinities that leave a content alone;
- values that are equal if and only if their cells have one content.

Does not own: columns, and tests on them.

A column may hold a number in another form than it was bound in: an integer column turns reals without
fraction to integers, and a real column turns integers to reals.  The number is the same.
-/

set_option autoImplicit false

namespace Recordkeeper

/-! ### Contents -/

/-- What a cell stands for. -/
inductive Sql.Content where
  | nothing
  | number (q : ℚ)
  | infinite (negative : Bool)
  | text (s : String)
  | bytes (b : Bytes)

def Sql.Content.rank : Content → Nat
  | .nothing => 0
  | .number _ | .infinite _ => 1
  | .text _ => 2
  | .bytes _ => 3

namespace Binary64

open Sql (Content)

def content (x : Binary64) : Content :=
  if x.isNaN then .nothing
  else if x.isInfinite then .infinite x.negative
  else .number x.exact

variable {x y : Binary64}

theorem content_infinite (infinite : x.isInfinite) : x.content = .infinite x.negative := by
  have top : x.magnitude = infinityWord := eq_of_beq infinite
  have number : x.isNaN = false := decide_eq_false (by omega)
  rw [content, number, infinite, if_neg Bool.false_ne_true, if_pos rfl]

theorem content_finite (finite : x.isFinite) : x.content = .number x.exact := by
  have below : x.magnitude < infinityWord := of_decide_eq_true finite
  have bounded : x.isInfinite = false := beq_eq_false_iff_ne.2 (by omega)
  rw [content, isNaN_of_finite finite, bounded, if_neg Bool.false_ne_true, if_neg Bool.false_ne_true]

theorem infinite_or_finite (number : x.isNaN = false) : x.isInfinite ∨ x.isFinite := by
  have bounded : x.magnitude ≤ infinityWord := Nat.not_lt.1 (of_decide_eq_false number)
  rcases Nat.lt_or_eq_of_le bounded with below | top
  · exact Or.inr (decide_eq_true below)
  · exact Or.inl (beq_iff_eq.2 top)

theorem content_cases (number : x.isNaN = false) :
    (∃ negative, x.content = .infinite negative) ∨ ∃ q, x.content = .number q := by
  rcases infinite_or_finite number with infinite | finite
  · exact Or.inl ⟨_, content_infinite infinite⟩
  · exact Or.inr ⟨_, content_finite finite⟩

theorem content_ne_nothing (number : x.isNaN = false) : x.content ≠ .nothing := by
  obtain ⟨_, same⟩ | ⟨_, same⟩ := content_cases number <;> rw [same] <;> exact Content.noConfusion

/-- Numbers stand in one place if and only if they have one content. -/
theorem content_eq_iff (xNumber : x.isNaN = false) (yNumber : y.isNaN = false) :
    x.content = y.content ↔ x.rank = y.rank := by
  have top : 0 < infinityWord := by decide
  have place {z : Binary64} : z.rank = if z.negative then -(z.magnitude : Int) else z.magnitude := rfl
  have outside {z : Binary64} (infinite : z.isInfinite) : z.magnitude = infinityWord :=
    eq_of_beq infinite
  have inside {z : Binary64} (finite : z.isFinite) : z.magnitude < infinityWord :=
    of_decide_eq_true finite
  rcases infinite_or_finite xNumber with xInfinite | xFinite <;>
    rcases infinite_or_finite yNumber with yInfinite | yFinite
  · have xTop := outside xInfinite
    have yTop := outside yInfinite
    rw [content_infinite xInfinite, content_infinite yInfinite, Content.infinite.injEq, place, place]
    cases x.negative <;> cases y.negative <;> simp only [reduceCtorEq, false_iff, true_iff, if_true,
      Bool.false_eq_true, if_false] <;> omega
  · have xTop := outside xInfinite
    have yBelow := inside yFinite
    rw [content_infinite xInfinite, content_finite yFinite, place, place]
    simp only [reduceCtorEq, false_iff]
    split <;> split <;> omega
  · have xBelow := inside xFinite
    have yTop := outside yInfinite
    rw [content_finite xFinite, content_infinite yInfinite, place, place]
    simp only [reduceCtorEq, false_iff]
    split <;> split <;> omega
  · rw [content_finite xFinite, content_finite yFinite, Content.number.injEq]
    exact exact_eq_iff

end Binary64

namespace Sql

namespace Cell

def content : Cell → Content
  | .null => .nothing
  | .integer n => .number n.toInt
  | .real x => x.content
  | .text s => .text s
  | .blob b => .bytes b

theorem isNaN_of_content {x : Binary64} (present : (Cell.real x).content ≠ .nothing) :
    x.isNaN = false := by
  by_contra undefined
  rw [Bool.not_eq_false] at undefined
  exact present (if_pos undefined)

theorem isNull_of_content {c : Cell} (present : c.content ≠ .nothing) : c.isNull = false := by
  cases c with
  | null => exact absurd rfl present
  | integer n | real x | text s | blob b => rfl

theorem rank_content {c : Cell} (present : c.content ≠ .nothing) : c.content.rank = c.rank := by
  cases c
  case real x =>
    obtain ⟨_, same⟩ | ⟨_, same⟩ := Binary64.content_cases (isNaN_of_content present) <;>
      rw [content, same] <;> rfl
  all_goals rfl

theorem compareIntReal_eq_iff {n : Int} {x : Binary64} (number : x.isNaN = false) :
    compareIntReal n x = .eq ↔ Content.number n = x.content := by
  unfold compareIntReal
  rcases Binary64.infinite_or_finite number with infinite | finite
  · rw [if_pos infinite, Binary64.content_infinite infinite]
    cases x.negative <;> simp
  · have bounded : x.isInfinite = false :=
      beq_eq_false_iff_ne.2 (Nat.ne_of_lt (of_decide_eq_true finite))
    rw [bounded, if_neg Bool.false_ne_true, Binary64.content_finite finite, Content.number.injEq,
      eq_comm (a := (n : ℚ)), Binary64.exact_eq_intCast_iff]
    exact compare_eq_iff_eq

/-- Cells that are not null are the same if and only if they have one content. -/
theorem same_iff {a b : Cell} (aPresent : a.content ≠ .nothing) (bPresent : b.content ≠ .nothing) :
    a.same b = true ↔ a.content = b.content := by
  unfold same
  rw [beq_iff_eq]
  cases a <;> cases b
  case integer.integer m n =>
    rw [content, content, Content.number.injEq, Int.cast_inj]
    exact compare_eq_iff_eq
  case integer.real m y => exact compareIntReal_eq_iff (isNaN_of_content bPresent)
  case real.integer x n =>
    show (compareIntReal n.toInt x).swap = .eq ↔ _
    rw [Ordering.swap_eq_eq, compareIntReal_eq_iff (isNaN_of_content aPresent)]
    exact eq_comm
  case real.real x y =>
    show compare x.rank y.rank = .eq ↔ x.content = y.content
    rw [Binary64.content_eq_iff (isNaN_of_content aPresent) (isNaN_of_content bPresent),
      compare_eq_iff_eq]
  case text.text s t =>
    rw [content, content, Content.text.injEq]
    show compare s t = .eq ↔ s = t
    exact Std.LawfulEqCmp.compare_eq_iff_eq
  case blob.blob x y =>
    rw [content, content, Content.bytes.injEq]
    exact Value.compareBytes_eq_iff
  -- What is left are nulls, and cells of two kinds.
  all_goals
    first
    | exact absurd rfl aPresent
    | exact absurd rfl bPresent
    | refine iff_of_false (fun same => nomatch same) fun same => ?_
      have kinds := congrArg Content.rank same
      rw [rank_content aPresent, rank_content bPresent] at kinds
      cases kinds

end Cell

/-! ### Affinities -/

/-- An affinity that leaves a content alone: texts do not become numbers, nor numbers texts. -/
def Content.Undisturbed (affinity : Option Affinity) : Content → Prop
  | .number _ | .infinite _ => affinity ≠ some .text
  | .text _ => ∀ a ∈ affinity, a.isNumeric = false
  | .bytes _ | .nothing => True

theorem undisturbed_real {affinity : Option Affinity} {x : Binary64} (number : x.isNaN = false) :
    x.content.Undisturbed affinity ↔ affinity ≠ some .text := by
  obtain ⟨_, same⟩ | ⟨_, same⟩ := Binary64.content_cases number <;> rw [same] <;> exact Iff.rfl

theorem content_whole (x : Binary64) : (Affinity.whole x).content = x.content := by
  unfold Affinity.whole
  split
  next integral =>
    obtain ⟨finite, value⟩ := Binary64.exact_truncate integral
    dsimp only
    split
    next inside =>
      have top : Int64.maxValue.toInt = 2 ^ 63 - 1 := rfl
      rw [Cell.content, Int64.toInt_ofInt_of_le inside.1.le (by omega),
        Binary64.content_finite finite, value]
    next => rfl
  next => rfl

theorem content_readNumber {c : Cell} (noText : ∀ s, c ≠ .text s) :
    (Affinity.readNumber c).content = c.content := by
  cases c with
  | real x => exact content_whole x
  | text s => exact absurd rfl (noText s)
  | null | integer n | blob b => rfl

/-- A cell as it is compared with others in a list. -/
def converted (affinity : Option Affinity) (c : Cell) : Cell :=
  match affinity with
  | some a => a.apply c
  | none => c

/-- In lists a real column counts as a numeric one, so nothing is rounded. -/
theorem content_converted {affinity : Option Affinity} {c : Cell} (present : c.content ≠ .nothing)
    (undisturbed : c.content.Undisturbed affinity) :
    (converted (Engine.memberAffinity affinity) c).content = c.content := by
  have numeric (a : Affinity) (member : a ∈ affinity) (isNumeric : a.isNumeric = true) :
      (Affinity.readNumber c).content = c.content := by
    refine content_readNumber fun s same => ?_
    rw [same] at undisturbed
    exact absurd (undisturbed a member) (by rw [isNumeric]; exact Bool.noConfusion)
  rcases affinity with _ | a
  · rfl
  · cases a with
    | blob => rfl
    | text =>
        cases c with
        | integer n => exact absurd rfl undisturbed
        | real x =>
            exact absurd rfl ((undisturbed_real (Cell.isNaN_of_content present)).1 undisturbed)
        | null | text s | blob b => rfl
    | numeric | integer | real => exact numeric _ rfl rfl

end Sql

/-! ### Values -/

namespace Value

/-- Values that are numbers as cells are: integers of at most 53 bits, and floats but NaN. -/
def IsNumber : Value → Prop
  | .int n => n.toInt.natAbs ≤ Binary64.exactLimit
  | .float x => x.isNaN = false
  | _ => False

/-- Values of one class: booleans, texts, bytes or numbers. -/
def Comparable : Value → Value → Prop
  | .bool _, .bool _ | .text _, .text _ | .bytes _, .bytes _ => True
  | v, o => v.IsNumber ∧ o.IsNumber

theorem IsNumber.number? {v : Value} (number : v.IsNumber) :
    ∃ x, v.number? = some x ∧ x.isNaN = false ∧ (Relational.bind v).content = x.content := by
  cases v with
  | int n =>
      obtain ⟨finite, value⟩ := Binary64.exact_ofInt number
      refine ⟨_, rfl, Binary64.isNaN_of_finite finite, ?_⟩
      rw [Binary64.content_finite finite, value]
      rfl
  | float x =>
      refine ⟨x, rfl, number, ?_⟩
      have isNumber : x.isNaN = false := number
      have kept : Relational.bind (.float x) = Sql.Cell.real x := by
        rw [Relational.bind, Sql.Cell.ofReal, isNumber, if_neg Bool.false_ne_true]
      rw [kept]
      rfl
  | _ => cases number

/-- Values of one class are both numbers, or their cells are of one kind. -/
theorem Comparable.cases {v o : Value} (comparable : v.Comparable o) :
    (∃ a b, v = .bool a ∧ o = .bool b) ∨ (∃ s t, v = .text s ∧ o = .text t) ∨
      (∃ a b, v = .bytes a ∧ o = .bytes b) ∨ v.IsNumber ∧ o.IsNumber := by
  cases v <;> cases o <;> try exact Or.inr (Or.inr (Or.inr comparable))
  case bool.bool a b => exact Or.inl ⟨a, b, rfl, rfl⟩
  case text.text s t => exact Or.inr (Or.inl ⟨s, t, rfl, rfl⟩)
  case bytes.bytes a b => exact Or.inr (Or.inr (Or.inl ⟨a, b, rfl, rfl⟩))

theorem IsNumber.present {v : Value} (number : v.IsNumber) :
    (Relational.bind v).content ≠ .nothing := by
  obtain ⟨x, -, xNumber, content⟩ := number.number?
  rw [content]
  exact Binary64.content_ne_nothing xNumber

theorem Comparable.present {v o : Value} (comparable : v.Comparable o) :
    (Relational.bind v).content ≠ .nothing ∧ (Relational.bind o).content ≠ .nothing := by
  rcases comparable.cases with
    ⟨a, b, rfl, rfl⟩ | ⟨s, t, rfl, rfl⟩ | ⟨a, b, rfl, rfl⟩ | ⟨vNumber, oNumber⟩
  · exact ⟨Sql.Content.noConfusion, Sql.Content.noConfusion⟩
  · exact ⟨Sql.Content.noConfusion, Sql.Content.noConfusion⟩
  · exact ⟨Sql.Content.noConfusion, Sql.Content.noConfusion⟩
  · exact ⟨vNumber.present, oNumber.present⟩

theorem Comparable.undisturbed {v o : Value} (comparable : v.Comparable o)
    {affinity : Option Sql.Affinity} (undisturbed : (Relational.bind v).content.Undisturbed affinity) :
    (Relational.bind o).content.Undisturbed affinity := by
  rcases comparable.cases with
    ⟨a, b, rfl, rfl⟩ | ⟨s, t, rfl, rfl⟩ | ⟨a, b, rfl, rfl⟩ | ⟨vNumber, oNumber⟩
  · have noText : affinity ≠ some .text := undisturbed
    exact noText
  · exact undisturbed
  · exact trivial
  · obtain ⟨x, -, xNumber, vContent⟩ := vNumber.number?
    obtain ⟨y, -, yNumber, oContent⟩ := oNumber.number?
    rw [vContent, Sql.undisturbed_real xNumber] at undisturbed
    rw [oContent, Sql.undisturbed_real yNumber]
    exact undisturbed

/-- Values of one class are equal if and only if their cells have one content. -/
theorem compare?_eq_iff {v o : Value} (comparable : v.Comparable o) :
    v.compare? o = some .eq ↔ (Relational.bind v).content = (Relational.bind o).content := by
  rcases comparable.cases with
    ⟨a, b, rfl, rfl⟩ | ⟨s, t, rfl, rfl⟩ | ⟨a, b, rfl, rfl⟩ | ⟨vNumber, oNumber⟩
  · show some (compare a b) = some .eq ↔ Sql.Content.number _ = Sql.Content.number _
    rw [Sql.Content.number.injEq, Int.cast_inj]
    cases a <;> cases b <;> decide
  · show some (compare s t) = some .eq ↔ Sql.Content.text s = Sql.Content.text t
    rw [Option.some.injEq, Sql.Content.text.injEq]
    exact Std.LawfulEqCmp.compare_eq_iff_eq
  · show some (compareBytes a b) = some .eq ↔ Sql.Content.bytes a = Sql.Content.bytes b
    rw [Option.some.injEq, Sql.Content.bytes.injEq]
    exact compareBytes_eq_iff
  · obtain ⟨x, vFloat, xNumber, vContent⟩ := vNumber.number?
    obtain ⟨y, oFloat, yNumber, oContent⟩ := oNumber.number?
    rw [compare?_number vFloat oFloat, Binary64.compare?_isSome xNumber yNumber, vContent, oContent,
      Binary64.content_eq_iff xNumber yNumber, Option.some.injEq, compare_eq_iff_eq]

end Value

end Recordkeeper
