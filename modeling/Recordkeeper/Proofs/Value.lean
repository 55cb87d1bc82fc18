import Recordkeeper.Proofs.Binary64
import Recordkeeper.Value

/-!
Contract: the classes of values within which every comparison has an answer.

Owns:
- numbers, booleans and texts as classes, with finite floats only;
- the answers of comparisons within a class.

Does not own: how a backend compares.
-/

set_option autoImplicit false

namespace Recordkeeper

namespace Value

/-- Booleans, integers, finite floats and texts. -/
def isPlain : Value → Bool
  | .bool _ | .int _ | .text _ => true
  | .float x => x.isFinite
  | _ => false

/-- Numbers of both forms are one class, booleans and texts are classes of their own. -/
def sameClass : Value → Value → Bool
  | .bool _, .bool _ => true
  | .text _, .text _ => true
  | .int _, .int _ | .int _, .float _ | .float _, .int _ | .float _, .float _ => true
  | _, _ => false

theorem number?_isNaN {v : Value} {x : Binary64} (plain : v.isPlain) (number : v.number? = some x) :
    x.isNaN = false := by
  cases v with
  | int n =>
      obtain rfl := Option.some.inj number
      exact Binary64.isNaN_ofRatio _ _ _
  | float y =>
      obtain rfl := Option.some.inj number
      exact Binary64.isNaN_of_finite plain
  | _ => cases number

theorem isNull_of_ne {v : Value} (present : v ≠ .null) : v.isNull = false := by
  cases v <;> first | rfl | exact absurd rfl present

theorem ne_null_of_isPlain {v : Value} (plain : v.isPlain) : v ≠ .null := by
  rintro rfl
  cases plain

theorem isNull_of_isPlain {v : Value} (plain : v.isPlain) : v.isNull = false :=
  isNull_of_ne (ne_null_of_isPlain plain)

theorem compare?_null {v : Value} (null : v.isNull) (o : Value) : v.compare? o = none := by
  unfold compare?
  rw [null]
  rfl

/-- Numbers compare by size, whatever their form. -/
theorem compare?_number {v w : Value} {x y : Binary64} (vNumber : v.number? = some x)
    (wNumber : w.number? = some y) : v.compare? w = x.compare? y := by
  have vPresent : v.isNull = false := by cases v <;> first | rfl | cases vNumber
  have wPresent : w.isNull = false := by cases w <;> first | rfl | cases wNumber
  unfold compare?
  rw [vPresent, wPresent, vNumber, wNumber]
  rfl

theorem compareBytes_eq_iff {a b : Bytes} : compareBytes a b = .eq ↔ a = b := by
  induction a generalizing b with
  | nil => cases b <;> simp [compareBytes]
  | cons x a inductionHypothesis =>
      cases b with
      | nil => simp [compareBytes]
      | cons y b =>
          rw [compareBytes, Ordering.then_eq_eq, inductionHypothesis, Nat.compare_eq_eq,
            List.cons.injEq, UInt8.toNat_inj]

theorem sameClass_comm (v w : Value) : v.sameClass w = w.sameClass v := by
  cases v <;> cases w <;> rfl

/-- Values of one class are numbers, booleans or texts. -/
theorem sameClass_cases {v w : Value} (same : v.sameClass w) :
    (∃ x y, v.number? = some x ∧ w.number? = some y) ∨ (∃ a b, v = .bool a ∧ w = .bool b) ∨
      ∃ s t, v = .text s ∧ w = .text t := by
  cases v <;> cases w <;> cases same
  case bool.bool a b => exact Or.inr (Or.inl ⟨a, b, rfl, rfl⟩)
  case text.text s t => exact Or.inr (Or.inr ⟨s, t, rfl, rfl⟩)
  all_goals exact Or.inl ⟨_, _, rfl, rfl⟩

end Value

end Recordkeeper
