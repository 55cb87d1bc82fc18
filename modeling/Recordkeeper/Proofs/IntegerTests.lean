import Recordkeeper.Proofs.Binary64.Rounding
import Recordkeeper.Proofs.Document.Selection
import Recordkeeper.Proofs.KeyValue.Planning
import Recordkeeper.Proofs.NameMap

/-!
Contract: integer fields tested against integers by a plan and by a store of documents.

Owns:
- the tests, and what each says of integers that are compared by their places;
- that both evaluators compare integers by the places of the numbers they are rounded to;
- which tests of which integers that misleads, and that none is misled below 54 bits.

Does not own: fields that hold fractions.
-/

set_option autoImplicit false

namespace Recordkeeper

/-- Tests of one integer against others. -/
inductive IntegerTest where
  | equal (b : Int64)
  | notEqual (b : Int64)
  | greaterThan (b : Int64)
  | greaterThanOrEqual (b : Int64)
  | lessThan (b : Int64)
  | lessThanOrEqual (b : Int64)
  | isIn (bs : List Int64)
  | notIn (bs : List Int64)
  | between (low high : Int64)
  | notBetween (low high : Int64)

/-- Different integers that are rounded to one number. -/
def Confused (a b : Int64) : Prop := a ≠ b ∧ Binary64.ofInt a.toInt = Binary64.ofInt b.toInt

instance (a b : Int64) : Decidable (Confused a b) := inferInstanceAs (Decidable (_ ∧ _))

namespace IntegerTest

def predicate (field : String) : IntegerTest → Predicate
  | .equal b => ⟨field, .equal, .int b⟩
  | .notEqual b => ⟨field, .notEqual, .int b⟩
  | .greaterThan b => ⟨field, .greaterThan, .int b⟩
  | .greaterThanOrEqual b => ⟨field, .greaterThanOrEqual, .int b⟩
  | .lessThan b => ⟨field, .lessThan, .int b⟩
  | .lessThanOrEqual b => ⟨field, .lessThanOrEqual, .int b⟩
  | .isIn bs => ⟨field, .isIn, .list (bs.map .int)⟩
  | .notIn bs => ⟨field, .notIn, .list (bs.map .int)⟩
  | .between low high => ⟨field, .between, .list [.int low, .int high]⟩
  | .notBetween low high => ⟨field, .notBetween, .list [.int low, .int high]⟩

/-- What a test says of an integer if integers are compared by their places. -/
def Holds (place : Int64 → Int) (a : Int64) : IntegerTest → Prop
  | .equal b => place a = place b
  | .notEqual b => place a ≠ place b
  | .greaterThan b => place b < place a
  | .greaterThanOrEqual b => place b ≤ place a
  | .lessThan b => place a < place b
  | .lessThanOrEqual b => place a ≤ place b
  | .isIn bs => ∃ b ∈ bs, place a = place b
  | .notIn bs => ∀ b ∈ bs, place a ≠ place b
  | .between low high => place low ≤ place a ∧ place a ≤ place high
  | .notBetween low high => place a < place low ∨ place high < place a

instance (place : Int64 → Int) (a : Int64) (t : IntegerTest) : Decidable (t.Holds place a) :=
  match t with
  | .equal b => inferInstanceAs (Decidable (place a = place b))
  | .notEqual b => inferInstanceAs (Decidable (place a ≠ place b))
  | .greaterThan b => inferInstanceAs (Decidable (place b < place a))
  | .greaterThanOrEqual b => inferInstanceAs (Decidable (place b ≤ place a))
  | .lessThan b => inferInstanceAs (Decidable (place a < place b))
  | .lessThanOrEqual b => inferInstanceAs (Decidable (place a ≤ place b))
  | .isIn bs => inferInstanceAs (Decidable (∃ b ∈ bs, place a = place b))
  | .notIn bs => inferInstanceAs (Decidable (∀ b ∈ bs, place a ≠ place b))
  | .between low high => inferInstanceAs (Decidable (place low ≤ place a ∧ place a ≤ place high))
  | .notBetween low high => inferInstanceAs (Decidable (place a < place low ∨ place high < place a))

/-- Where the number stands that an integer is rounded to. -/
def roundedPlace (a : Int64) : Int := (Binary64.ofInt a.toInt).rank

/-- The integers for which rounding changes what a test says. -/
def Misled (a : Int64) : IntegerTest → Prop
  | .equal b | .notEqual b => Confused a b
  | .greaterThan b | .lessThanOrEqual b => Confused a b ∧ b < a
  | .greaterThanOrEqual b | .lessThan b => Confused a b ∧ a < b
  | .isIn bs | .notIn bs => a ∉ bs ∧ ∃ b ∈ bs, Confused a b
  | .between low high | .notBetween low high =>
    ¬(low ≤ a ∧ a ≤ high) ∧ (low ≤ a ∨ Confused a low) ∧ (a ≤ high ∨ Confused a high)

/-! ### Places -/

section Places

variable {a b : Int64}

theorem roundedPlace_eq_iff : roundedPlace a = roundedPlace b ↔ a = b ∨ Confused a b := by
  unfold roundedPlace Confused
  rw [← Binary64.ofInt_eq_iff]
  constructor
  · intro same
    by_cases equal : a = b
    · exact Or.inl equal
    · exact Or.inr ⟨equal, same⟩
  · rintro (rfl | ⟨-, same⟩)
    · rfl
    · exact same

theorem confused_comm : Confused a b ↔ Confused b a := by
  unfold Confused
  rw [ne_comm, eq_comm (a := Binary64.ofInt a.toInt)]

theorem roundedPlace_le_iff : roundedPlace a ≤ roundedPlace b ↔ a ≤ b ∨ Confused a b := by
  constructor
  · intro ordered
    by_cases le : a ≤ b
    · exact Or.inl le
    · have less : b.toInt ≤ a.toInt := by
        rw [Int64.le_iff_toInt_le] at le
        omega
      have back := Binary64.rank_ofInt_mono less
      have same : roundedPlace a = roundedPlace b := Int.le_antisymm ordered back
      rcases roundedPlace_eq_iff.1 same with rfl | confused
      · exact absurd (Int64.le_refl a) le
      · exact Or.inr confused
  · rintro (ordered | confused)
    · exact Binary64.rank_ofInt_mono (Int64.le_iff_toInt_le.1 ordered)
    · exact Int.le_of_eq (roundedPlace_eq_iff.2 (Or.inr confused))

theorem roundedPlace_lt_iff : roundedPlace a < roundedPlace b ↔ a < b ∧ ¬Confused a b := by
  rw [← Int.not_le, roundedPlace_le_iff, not_or, Int64.not_le, confused_comm]

theorem exists_roundedPlace_iff {bs : List Int64} :
    (∃ b ∈ bs, roundedPlace a = roundedPlace b) ↔ a ∈ bs ∨ ∃ b ∈ bs, Confused a b := by
  constructor
  · rintro ⟨b, member, same⟩
    rcases roundedPlace_eq_iff.1 same with rfl | confused
    · exact Or.inl member
    · exact Or.inr ⟨b, member, confused⟩
  · rintro (member | ⟨b, member, confused⟩)
    · exact ⟨a, member, rfl⟩
    · exact ⟨b, member, roundedPlace_eq_iff.2 (Or.inr confused)⟩

theorem exists_toInt_iff {bs : List Int64} : (∃ b ∈ bs, a.toInt = b.toInt) ↔ a ∈ bs := by
  simp [Int64.toInt_inj]

end Places

/-- Rounding changes what a test says of the integers that it misleads, and of no others. -/
theorem holds_roundedPlace_iff (t : IntegerTest) (a : Int64) :
    (t.Holds roundedPlace a ↔ t.Holds Int64.toInt a) ↔ ¬t.Misled a := by
  cases t with
  | equal b =>
      simp only [Holds, Misled, roundedPlace_eq_iff, Int64.toInt_inj]
      have differ : Confused a b → a ≠ b := And.left
      tauto
  | notEqual b =>
      simp only [Holds, Misled, ne_eq, roundedPlace_eq_iff, Int64.toInt_inj]
      have differ : Confused a b → a ≠ b := And.left
      tauto
  | greaterThan b =>
      simp only [Holds, Misled, roundedPlace_lt_iff, ← Int64.lt_iff_toInt_lt, confused_comm (a := b)]
      tauto
  | lessThan b =>
      simp only [Holds, Misled, roundedPlace_lt_iff, ← Int64.lt_iff_toInt_lt]
      tauto
  | greaterThanOrEqual b =>
      simp only [Holds, Misled, roundedPlace_le_iff, ← Int64.le_iff_toInt_le, ← Int64.not_le,
        confused_comm (a := b)]
      tauto
  | lessThanOrEqual b =>
      simp only [Holds, Misled, roundedPlace_le_iff, ← Int64.le_iff_toInt_le, ← Int64.not_le]
      tauto
  | isIn bs =>
      rw [Holds, Holds, exists_roundedPlace_iff, exists_toInt_iff, Misled]
      grind
  | notIn bs =>
      have rounded : (∀ b ∈ bs, roundedPlace a ≠ roundedPlace b)
          ↔ ¬(a ∈ bs ∨ ∃ b ∈ bs, Confused a b) := by
        rw [← exists_roundedPlace_iff]
        simp
      have exact : (∀ b ∈ bs, a.toInt ≠ b.toInt) ↔ a ∉ bs := by
        rw [← exists_toInt_iff]
        simp
      rw [Holds, Holds, rounded, exact, Misled]
      grind
  | between low high =>
      simp only [Holds, Misled, roundedPlace_le_iff, ← Int64.le_iff_toInt_le, confused_comm (a := low)]
      tauto
  | notBetween low high =>
      simp only [Holds, Misled, roundedPlace_lt_iff, ← Int64.lt_iff_toInt_lt, ← Int64.not_le,
        confused_comm (a := high)]
      tauto

/-! ### The two evaluators -/

theorem compare?_int (a b : Int64) :
    (Value.int a).compare? (.int b) = some (compare (roundedPlace a) (roundedPlace b)) :=
  Binary64.compare?_isSome (Binary64.isNaN_ofRatio _ _ _) (Binary64.isNaN_ofRatio _ _ _)

theorem ofOrder_int (a b : Int64) (test : Ordering → Bool) :
    Truth.ofOrder ((Value.int a).compare? (.int b)) test
      = .ofBool (test (compare (roundedPlace a) (roundedPlace b))) := by
  rw [compare?_int]
  rfl

theorem ofBool_decide {b : Bool} {P : Prop} [Decidable P] (same : b = true ↔ P) :
    Truth.ofBool b = .ofBool (decide P) := by
  rw [Bool.eq_iff_iff.2 (same.trans decide_eq_true_iff.symm)]

/-- A plan compares integers by the numbers they are rounded to. -/
theorem truthFor_predicate (t : IntegerTest) (field : String) (a : Int64) :
    (t.predicate field).truthFor (.int a) = .ofBool (decide (t.Holds roundedPlace a)) := by
  cases t with
  | equal b => exact (ofOrder_int a b _).trans (ofBool_decide (by simp [Holds]))
  | notEqual b => exact (ofOrder_int a b _).trans (ofBool_decide (by simp [Holds]))
  | greaterThan b =>
      exact (ofOrder_int a b _).trans (ofBool_decide (by simp [Holds, compare_gt_iff_gt]))
  | greaterThanOrEqual b =>
      exact (ofOrder_int a b _).trans (ofBool_decide (by simp [Holds, compare_lt_iff_lt]))
  | lessThan b =>
      exact (ofOrder_int a b _).trans (ofBool_decide (by simp [Holds, compare_lt_iff_lt]))
  | lessThanOrEqual b =>
      exact (ofOrder_int a b _).trans (ofBool_decide (by simp [Holds, compare_gt_iff_gt]))
  | isIn bs =>
      refine ofBool_decide ?_
      show (bs.map Value.int).any _ ↔ _
      simp [Holds, compare?_int]
  | notIn bs =>
      refine ofBool_decide ?_
      show (!(bs.map Value.int).any _) ↔ _
      simp [Holds, compare?_int]
  | between low high =>
      show (Truth.ofOrder _ (· != .lt)).and (.ofOrder _ (· != .gt)) = _
      rw [ofOrder_int, ofOrder_int, Truth.and_ofBool]
      exact ofBool_decide (by simp [Holds, compare_lt_iff_lt, compare_gt_iff_gt])
  | notBetween low high =>
      show ((Truth.ofOrder _ (· != .lt)).and (.ofOrder _ (· != .gt))).not = _
      rw [ofOrder_int, ofOrder_int, Truth.and_ofBool, Truth.not_ofBool]
      exact ofBool_decide (by
        simp [Holds, compare_lt_iff_lt, compare_gt_iff_gt, or_iff_not_imp_left])

theorem field_predicate (t : IntegerTest) (field : String) : (t.predicate field).field = field := by
  cases t <;> rfl

theorem validate_predicate (t : IntegerTest) {field : String} (named : field ≠ "") :
    (t.predicate field).validate = .ok () := by
  unfold Predicate.validate
  rw [field_predicate, if_neg named]
  cases t with
  | isIn bs | notIn bs =>
      have scalars : ¬(bs.map Value.int).any fun v => !v.isScalar || v.isNull := by
        simp [Value.isScalar, Value.isNull]
      exact if_neg scalars
  | _ => rfl

theorem validateAll_predicate (t : IntegerTest) {field : String} (named : field ≠ "") :
    Condition.validateAll [.basic (t.predicate field)] = .ok () := by
  rw [Condition.validateAll, Condition.validate, validate_predicate t named]
  rfl

/-- Integers are compared with integers, and no expression is read. -/
theorem accords_predicate (t : IntegerTest) (field : String) (a : Int64) :
    (t.predicate field).Accords (.int a) where
  value := Or.inr rfl
  operand := by
    intro o member
    have integer : ∃ b, o = .int b := by
      cases t with
      | isIn bs | notIn bs =>
          obtain ⟨b, -, rfl⟩ := List.mem_map.1 member
          exact ⟨b, rfl⟩
      | between low high | notBetween low high =>
          rcases List.mem_cons.1 member with rfl | last
          · exact ⟨low, rfl⟩
          · exact ⟨high, List.mem_singleton.1 last⟩
      | equal b | notEqual b | greaterThan b | greaterThanOrEqual b | lessThan b
        | lessThanOrEqual b => exact ⟨b, List.mem_singleton.1 member⟩
    obtain ⟨b, rfl⟩ := integer
    exact ⟨rfl, fun _ => rfl⟩
  like asked := by cases t <;> simp [predicate] at asked

theorem isReadable_predicate (t : IntegerTest) (field : String) :
    (t.predicate field).IsReadable := by
  intro e read
  cases t <;> cases read

/-- A store of documents compares integers by the numbers they are rounded to. -/
theorem compileFilter_predicate (t : IntegerTest) {field : String} (named : field ≠ "")
    (c : Document.Compiler) (noSign : (c.key field).toList.head? ≠ some '$') :
    ∃ filter, c.compileFilter [.basic (t.predicate field)] = .ok (filter, []) ∧
      ∀ doc a, Document.lookup doc (c.key field) = some (.int a.toInt) →
        Document.matchesFilter doc filter = .ok (decide (t.Holds roundedPlace a)) := by
  have compiles (doc : Json) (r : Record) :=
    Document.conjunction_compiles c true doc r [.basic (t.predicate field)] rfl
  have valid := t.validateAll_predicate named
  have passes (doc : Json) (r : Record) := (compiles doc r).resolve_left fun failed => by
    obtain ⟨e, invalid, -⟩ := failed
    rw [valid] at invalid
    cases invalid
  obtain ⟨-, filter, compiled, -⟩ := passes .null .empty
  refine ⟨filter, compiled, fun doc a found => ?_⟩
  obtain ⟨r, shown⟩ : ∃ r : Record, r.valueAt field = .int a := by
    refine ⟨.ofList [(field, .int a)], ?_⟩
    rw [Record.valueAt, NameMap.get?_ofList_nodup (by simp)]
    simp
  obtain ⟨-, own, alike, answers⟩ := passes doc r
  obtain rfl : filter = own := by
    have same := compiled.symm.trans alike
    cases same
    rfl
  have fits : ∀ p ∈ Condition.predicatesOfAll [.basic (t.predicate field)],
      Document.FitsAt c true doc r p := by
    intro p member
    obtain rfl := List.mem_singleton.1 member
    refine ⟨?_, ?_, ?_⟩
    · rw [field_predicate]
      exact noSign
    · rw [field_predicate, shown]
      exact Or.inl found
    · rw [field_predicate, shown]
      exact accords_predicate t field a
  rcases answers fits with answered | ⟨⟨p, member, unread⟩, -⟩
  · rw [answered, Condition.definiteAll, Condition.definite, Condition.definiteAll, Bool.and_true,
      field_predicate, shown, truthFor_predicate, Truth.isTrue_ofBool]
  · obtain rfl := List.mem_singleton.1 member
    exact absurd (isReadable_predicate t field) unread

/-- A plan and a store of documents give every test of an integer the truth value that it has for the
numbers which the integers are rounded to.  That is its exact one but for the tests and integers that
`Misled` names, all of which are about two integers of more than 53 bits that are rounded to one
number. -/
theorem evaluated_rounded (t : IntegerTest) {field : String} (named : field ≠ "") :
    (∃ plan, KeyValue.Plan.compile { conditions := [.basic (t.predicate field)] } = .ok plan ∧
      ∀ (r : Record) (a : Int64), r.valueAt field = .int a →
        plan.evaluate r = .ofBool (decide (t.Holds roundedPlace a))) ∧
    (∀ c : Document.Compiler, (c.key field).toList.head? ≠ some '$' →
      ∃ filter, c.compileFilter [.basic (t.predicate field)] = .ok (filter, []) ∧
        ∀ (doc : Json) (a : Int64), Document.lookup doc (c.key field) = some (.int a.toInt) →
          Document.matchesFilter doc filter = .ok (decide (t.Holds roundedPlace a))) ∧
    (∀ a : Int64, (t.Holds roundedPlace a ↔ t.Holds Int64.toInt a) ↔ ¬t.Misled a) ∧
    ∀ a b : Int64, Confused a b →
      Binary64.exactLimit ≤ a.toInt.natAbs ∧ Binary64.exactLimit ≤ b.toInt.natAbs := by
  refine ⟨?_, fun c => t.compileFilter_predicate named c, t.holds_roundedPlace_iff, ?_⟩
  · have valid : Query.validate { conditions := [.basic (t.predicate field)] } = .ok () := by
      rw [Query.validate, t.validateAll_predicate named]
      rfl
    refine ⟨.ofQuery { conditions := [.basic (t.predicate field)] }, ?_, fun r a shown => ?_⟩
    · rw [KeyValue.Plan.compile, valid]
      rfl
    · show Truth.all (Condition.truths r [.basic (t.predicate field)]) = _
      rw [Condition.truths, Condition.truths, Condition.truth, field_predicate, shown,
        truthFor_predicate, Truth.all_cons]
      cases decide (t.Holds roundedPlace a) <;> rfl
  · intro a b confused
    exact Binary64.exactLimit_le_of_ofInt_eq (fun same => confused.1 (Int64.toInt_inj.1 same))
      confused.2

/-- An integer just below a range whose lower bound is rounded down to it: both evaluators find it in
the range. -/
theorem justBelow_found :
    let range : IntegerTest := .between 9007199254740993 9007199254740995
    let compiler : Document.Compiler := { collectionOf := fun _ => none }
    (∃ plan, KeyValue.Plan.compile { conditions := [.basic (range.predicate "age")] } = .ok plan ∧
      plan.evaluate (.ofList [("age", .int 9007199254740992)]) = .true) ∧
    (∃ filter, compiler.compileFilter [.basic (range.predicate "age")] = .ok (filter, []) ∧
      Document.matchesFilter (.single "age" (.int 9007199254740992)) filter = .ok true) ∧
    range.Misled 9007199254740992 := by
  intro range compiler
  have named : "age" ≠ "" := by decide
  obtain ⟨⟨plan, compiled, evaluates⟩, filters, misled, -⟩ := evaluated_rounded range named
  obtain ⟨filter, filtered, matched⟩ := filters compiler (by decide)
  have rounded : range.Holds roundedPlace 9007199254740992 := by decide
  refine ⟨⟨plan, compiled, ?_⟩, ⟨filter, filtered, ?_⟩, ?_⟩
  · rw [evaluates _ 9007199254740992 (by rfl), decide_eq_true rounded]
    rfl
  · have stored : Int64.toInt 9007199254740992 = 9007199254740992 := by decide
    have found : Document.lookup (.single "age" (.int 9007199254740992)) (compiler.key "age")
        = some (.int (Int64.toInt 9007199254740992)) := by
      rw [stored]
      exact Document.lookup_plain (by decide) _
    rw [matched _ _ found, decide_eq_true rounded]
  · by_contra exact
    have outside : ¬range.Holds Int64.toInt 9007199254740992 := by decide
    exact outside (((misled 9007199254740992).2 exact).1 rounded)

/-- Two neighbours of 54 bits are taken for equal. -/
theorem neighbours_equal :
    let equal : Condition := .on "id" .equal (.int 9007199254740993)
    let compiler : Document.Compiler := { collectionOf := fun _ => none }
    (9007199254740992 : Int64) ≠ 9007199254740993 ∧
    (∃ plan, KeyValue.Plan.compile { conditions := [equal] } = .ok plan ∧
      plan.evaluate (.ofList [("id", .int 9007199254740992)]) = .true) ∧
    ∃ filter, compiler.compileFilter [equal] = .ok (filter, []) ∧
      Document.matchesFilter (.single "_id" (.int 9007199254740992)) filter = .ok true :=
  ⟨by decide, ⟨_, rfl, rfl⟩, ⟨_, rfl, rfl⟩⟩

end IntegerTest

end Recordkeeper
