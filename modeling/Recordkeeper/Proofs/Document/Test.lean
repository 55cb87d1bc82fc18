import Recordkeeper.Proofs.Condition
import Recordkeeper.Proofs.Document.Stored
import Recordkeeper.Proofs.Pattern.Like
import Recordkeeper.Proofs.Predicate
import Recordkeeper.Proofs.Value

/-!
Contract: the test of one field in a document against the predicate it is compiled from.

Owns:
- predicates that suit the value of their field;
- comparisons of a stored value with a compiled operand;
- `exists_fieldTest`: the compiled test holds exactly when the predicate is true, unless the
  expression of its pattern cannot be read.

Does not own: filters of several predicates.
-/

set_option autoImplicit false

namespace Recordkeeper

namespace Predicate

/-- The expression a document store reads for an operator on texts. -/
def expression? (p : Predicate) : Option String :=
  let literal := String.ofList (Regex.Parser.escape p.pattern.toList)
  match p.effectiveOp with
  | .like | .notLike => some (Like.toRegex p.pattern)
  | .contains => some literal
  | .startsWith => some ("^" ++ literal)
  | .endsWith => some (literal ++ "$")
  | .regex => some p.pattern
  | _ => none

/-- The expression, if there is one, is read: it is well-formed and not too large. -/
def IsReadable (p : Predicate) : Prop := ∀ e ∈ p.expression?, (Regex.parse? e).isSome

/-- The value of a field and the operands it is compared with are plain and of one class, and a
pattern means the same to everybody. -/
structure Suits (p : Predicate) (v : Value) : Prop where
  value : v = .null ∨ v.isPlain
  operand : ∀ o ∈ p.operands, o.isPlain ∧ (v ≠ .null → v.sameClass o)
  noUnderscore : p.op = .like ∨ p.op = .notLike →
    Like.Element.anyChar ∉ Like.elements p.pattern.toList
  noFeed : ∀ s, v = .text s → '\n' ∉ s.toList

/-- What a test needs of a value and of the operands.  Only the expression of a LIKE pattern reads
texts in its own way: it takes an underscore for itself, and its runs end at a line feed. -/
structure Accords (p : Predicate) (v : Value) : Prop where
  value : v = .null ∨ v.isPlain
  operand : ∀ o ∈ p.operands, o.isPlain ∧ (v ≠ .null → v.sameClass o)
  like : p.op = .like ∨ p.op = .notLike →
    Like.Element.anyChar ∉ Like.elements p.pattern.toList ∧ ∀ s, v = .text s → '\n' ∉ s.toList

theorem Suits.accords {p : Predicate} {v : Value} (suits : p.Suits v) : p.Accords v where
  value := suits.value
  operand := suits.operand
  like asked := ⟨suits.noUnderscore asked, suits.noFeed⟩

end Predicate

namespace Document

/-! ### Stored values -/

/-- The place of a field holds its value; a null may also be missing. -/
def Holds (value : Option Json) (v : Value) : Prop :=
  value = some v.toJson ∨ (value = none ∧ v = .null)

theorem holds_valueAt (r : Record) (field : String) :
    Holds ((r.get? field).map Value.toJson) (r.valueAt field) := by
  unfold Holds Record.valueAt
  cases r.get? field with
  | none => exact Or.inr ⟨rfl, rfl⟩
  | some v => exact Or.inl rfl

theorem toJson_float {x : Binary64} (finite : x.isFinite) :
    (Value.float x).toJson = .number (.float x) := if_pos finite

theorem isNull_toJson {v : Value} (plain : v.isPlain) : v.toJson.isNull = false := by
  cases v with
  | float x =>
      rw [toJson_float plain]
      rfl
  | bytes | list | null => cases plain
  | _ => rfl

/-- A plain value is no array, so it is its only candidate. -/
theorem anyCandidate_plain {v : Value} (plain : v.isPlain) (test : Json → Bool) :
    anyCandidate v.toJson test = test v.toJson := by
  cases v with
  | float x =>
      rw [toJson_float plain]
      exact Bool.or_false _
  | bytes | list | null => cases plain
  | _ => exact Bool.or_false _

theorem toJson_number {v : Value} {x : Binary64} (plain : v.isPlain) (number : v.number? = some x) :
    ∃ n, v.toJson = .number n ∧ n.toBinary64 = x := by
  cases v with
  | int n =>
      obtain rfl := Option.some.inj number
      exact ⟨.int n.toInt, rfl, rfl⟩
  | float y =>
      obtain rfl := Option.some.inj number
      exact ⟨.float y, toJson_float plain, rfl⟩
  | _ => cases number

/-- Within a class documents compare as values do. -/
theorem order_toJson {v o : Value} (vPlain : v.isPlain) (oPlain : o.isPlain)
    (same : v.sameClass o) :
    v.compare? o = some (order v.toJson o.toJson) ∧ typeRank v.toJson = typeRank o.toJson := by
  rcases Value.sameClass_cases same with
    ⟨x, y, vNumber, oNumber⟩ | ⟨a, b, rfl, rfl⟩ | ⟨s, t, rfl, rfl⟩
  · obtain ⟨m, vJson, mNumber⟩ := toJson_number vPlain vNumber
    obtain ⟨n, oJson, nNumber⟩ := toJson_number oPlain oNumber
    have compared := Binary64.compare?_isSome (Value.number?_isNaN vPlain vNumber)
      (Value.number?_isNaN oPlain oNumber)
    have ordered : order (.number m) (.number n) = compare x.rank y.rank := by
      rw [order, mNumber, nNumber, compared]
      rfl
    rw [vJson, oJson, Value.compare?_number vNumber oNumber, compared, ordered]
    exact ⟨rfl, rfl⟩
  · exact ⟨rfl, rfl⟩
  · exact ⟨rfl, rfl⟩

theorem equals_some (v target : Json) :
    equals (some v) target = anyCandidate v fun c => order c target == .eq := rfl

theorem ordered_some (v target : Json) (test : Ordering → Bool) :
    ordered (some v) target test
      = anyCandidate v fun c => typeRank c == typeRank target && test (order c target) := rfl

section Comparison

variable {value : Option Json} {v o : Value} (held : Holds value v)
  (vClass : v = .null ∨ v.isPlain)

include held vClass

theorem equals_null : equals value .null = v.isNull := by
  rcases held with rfl | ⟨rfl, rfl⟩
  · rcases vClass with rfl | plain
    · rfl
    · rw [equals_some, anyCandidate_plain plain, Value.isNull_of_isPlain plain]
      cases v with
      | float x =>
          rw [toJson_float plain]
          rfl
      | bytes | list | null => cases plain
      | _ => rfl
  · rfl

variable (oPlain : o.isPlain) (same : v ≠ .null → v.sameClass o)

include oPlain same

/-- A stored value equals a compiled operand when the values compare as equal. -/
theorem equals_toJson : equals value o.toJson = (v.compare? o).any (· == .eq) := by
  rcases vClass with rfl | plain
  · rcases held with rfl | ⟨rfl, -⟩
    · cases o with
      | float x =>
          rw [toJson_float oPlain]
          rfl
      | bytes | list | null => cases oPlain
      | _ => rfl
    · exact isNull_toJson oPlain
  · rcases held with rfl | ⟨-, rfl⟩
    · obtain ⟨compared, -⟩ := order_toJson plain oPlain
        (same fun null => by rw [null] at plain; cases plain)
      rw [compared, equals_some, anyCandidate_plain plain]
      rfl
    · cases plain

/-- A stored value is ordered against a compiled operand as the values are. -/
theorem ordered_toJson (test : Ordering → Bool) :
    ordered value o.toJson test = (v.compare? o).any test := by
  rcases vClass with rfl | plain
  · rcases held with rfl | ⟨rfl, -⟩
    · cases o with
      | float x =>
          rw [toJson_float oPlain]
          rfl
      | bytes | list | null => cases oPlain
      | _ => rfl
    · rfl
  · rcases held with rfl | ⟨-, rfl⟩
    · obtain ⟨compared, rank⟩ := order_toJson plain oPlain
        (same fun null => by rw [null] at plain; cases plain)
      rw [compared, ordered_some, anyCandidate_plain plain, rank, beq_self_eq_true, Bool.true_and]
      rfl
    · cases plain

end Comparison

theorem toJsonItems_eq (items : List Value) : Value.toJsonItems items = items.map Value.toJson := by
  induction items with
  | nil => rfl
  | cons item rest inductionHypothesis =>
      rw [Value.toJsonItems, inductionHypothesis]
      rfl

theorem any_equals {value : Option Json} {v : Value} (held : Holds value v)
    (vClass : v = .null ∨ v.isPlain) (items : List Value)
    (suited : ∀ o ∈ items, o.isPlain ∧ (v ≠ .null → v.sameClass o)) :
    (Value.toJsonItems items).any (equals value) = items.any fun o => v.compare? o == some .eq := by
  rw [toJsonItems_eq, List.any_map]
  induction items with
  | nil => rfl
  | cons item rest inductionHypothesis =>
      obtain ⟨plain, same⟩ := suited item List.mem_cons_self
      rw [List.any_cons, List.any_cons,
        inductionHypothesis fun o member => suited o (List.mem_cons_of_mem _ member),
        Function.comp_apply, equals_toJson held vClass plain same]
      cases v.compare? item <;> rfl

/-! ### Operators -/

theorem isOperatorDoc_single {op : String} (arg : Json) (named : isOperator op) :
    isOperatorDoc (.single op arg) = true := by
  simp [isOperatorDoc, Json.single, named]

theorem fieldMatches_single (value : Option Json) {op : String} (arg : Json)
    (named : isOperator op) (plain : op ≠ "$not") :
    fieldMatches value (.single op arg) = simpleOperator value op arg [(op, arg)] := by
  have operators : isOperatorDoc (.object [(op, arg)]) = true := isOperatorDoc_single arg named
  show (if isOperatorDoc (.object [(op, arg)]) then operatorsMatch value [(op, arg)] [(op, arg)]
    else .ok (equals value (.object [(op, arg)]))) = _
  rw [if_pos operators, operatorsMatch, if_neg plain]
  cases simpleOperator value op arg [(op, arg)] with
  | error failure => rfl
  | ok holds => cases holds <;> rfl

theorem fieldMatches_pair (value : Option Json) {op other : String} (arg second : Json)
    (named : isOperator op) (otherNamed : isOperator other) :
    fieldMatches value (.object [(op, arg), (other, second)])
      = operatorsMatch value [(op, arg), (other, second)] [(op, arg), (other, second)] := by
  have operators : isOperatorDoc (.object [(op, arg), (other, second)]) = true := by
    simp [isOperatorDoc, named, otherNamed]
  show (if isOperatorDoc (.object [(op, arg), (other, second)]) then
    operatorsMatch value [(op, arg), (other, second)] [(op, arg), (other, second)]
    else .ok (equals value (.object [(op, arg), (other, second)]))) = _
  rw [if_pos operators]

/-- An outcome is a given answer, or an error for a stated reason. -/
def AnswersUnless (refused : Prop) (outcome : Outcome Bool) (answer : Bool) : Prop :=
  outcome = .ok answer ∨ (refused ∧ ∃ failure, outcome = .error failure)

theorem AnswersUnless.map {refused : Prop} {outcome : Outcome Bool} {answer : Bool}
    (answers : AnswersUnless refused outcome answer) (f : Bool → Bool) :
    AnswersUnless refused (outcome.map f) (f answer) := by
  rcases answers with answered | ⟨unread, failure, failed⟩
  · exact Or.inl (by rw [answered]; rfl)
  · exact Or.inr ⟨unread, failure, by rw [failed]; rfl⟩

/-- Without options an expression is read as it is written. -/
theorem filterRegex_plain (expression : String) :
    filterRegex (.text expression) none
      = match Regex.parse? expression with
        | some r => .ok r
        | none => badValue "invalid $regex: <regex error>" := by
  show (match Regex.parse? (if "" = "" then expression else _) with | some r => _ | none => _) = _
  rw [if_pos rfl]

/-- A test for an expression holds of the texts it matches, unless it cannot be read. -/
theorem regex_answers {value : Option Json} {v : Value} (held : Holds value v)
    (vClass : v = .null ∨ v.isPlain) (expression : String) {matched : Bool}
    (agrees : ∀ r s, Regex.parse? expression = some r → v = .text s → r.isMatch s = matched)
    (onTexts : v.text? = none → matched = false) :
    AnswersUnless (¬(Regex.parse? expression).isSome)
      (simpleOperator value "$regex" (.text expression) [("$regex", .text expression)])
      matched := by
  show AnswersUnless _ (filterRegex (.text expression) none >>= fun r => _) matched
  rw [filterRegex_plain]
  cases parsed : Regex.parse? expression with
  | none => exact Or.inr ⟨by simp, _, rfl⟩
  | some r =>
      refine Or.inl ?_
      show Except.ok _ = Except.ok _
      congr 1
      rcases held with rfl | ⟨rfl, rfl⟩
      · rcases vClass with rfl | plain
        · exact (onTexts rfl).symm
        · show anyCandidate v.toJson _ = _
          rw [anyCandidate_plain plain]
          cases v with
          | text s => exact agrees r s parsed rfl
          | float x =>
              rw [toJson_float plain]
              exact (onTexts rfl).symm
          | bytes | list | null => cases plain
          | _ => exact (onTexts rfl).symm
      · exact (onTexts rfl).symm

/-! ### Truth of a predicate -/

theorem isTrue_ofOrder (result : Option Ordering) (test : Ordering → Bool) :
    (Truth.ofOrder result test).isTrue = result.any test := by
  cases result with
  | none => rfl
  | some o => exact Truth.isTrue_ofBool _

/-- What does not compare is unknown anyway. -/
theorem isTrue_compared (v o : Value) (test : Ordering → Bool) :
    (if v.isNull then Truth.unknown else .ofOrder (v.compare? o) test).isTrue
      = (v.compare? o).any test := by
  by_cases null : v.isNull
  · rw [if_pos null, Value.compare?_null null]
    rfl
  · rw [if_neg null, isTrue_ofOrder]

theorem isTrue_found (v : Value) (items : List Value) :
    (if v.isNull then Truth.unknown
      else .ofBool (items.any fun o => v.compare? o == some .eq)).isTrue
      = items.any fun o => v.compare? o == some .eq := by
  by_cases null : v.isNull
  · rw [if_pos null]
    exact (List.any_eq_false.2 fun o _ => by rw [Value.compare?_null null]; decide).symm
  · rw [if_neg null, Truth.isTrue_ofBool]

theorem isTrue_unless_null (v : Value) (b : Bool) :
    (if v.isNull then Truth.unknown else .ofBool b).isTrue = (!v.isNull && b) := by
  cases v.isNull
  · exact Truth.isTrue_ofBool b
  · rfl

/-! ### Operands that pass validation -/

end Document

namespace Predicate

variable {p : Predicate}

theorem Accords.text {v : Value} (accords : p.Accords v) {t : String}
    (operands : p.operands = [.text t]) : v = .null ∨ ∃ s, v = .text s := by
  obtain ⟨-, same⟩ := accords.operand (.text t) (operands ▸ List.mem_cons_self)
  cases v with
  | null => exact Or.inl rfl
  | text s => exact Or.inr ⟨s, rfl⟩
  | _ => cases same (by simp)

end Predicate

namespace Document

/-! ### Compiled tests -/

theorem Predicate.Accords.compare?_isSome {p : Predicate} {v o : Value} (accords : p.Accords v)
    (present : v ≠ .null) (plain : o.isPlain) (same : v ≠ .null → v.sameClass o) :
    ∃ result, v.compare? o = some result := by
  rcases accords.value with null | vPlain
  · exact absurd null present
  · exact ⟨_, (order_toJson vPlain plain (same present)).1⟩

section Tests

variable {p : Predicate} {value : Option Json} {v : Value} (held : Holds value v)
  (accords : p.Accords v)

theorem ordered_answers {name : String} (test : Ordering → Bool) (refused : Prop)
    (named : isOperator name) (plain : name ≠ "$not")
    (means : ∀ arg siblings, arg.isNull = false →
      simpleOperator value name arg siblings = .ok (ordered value arg test))
    (held : Holds value v) (accords : p.Accords v)
    (operand : p.value.isPlain ∧ (v ≠ .null → v.sameClass p.value))
    (truth : p.truthFor v
      = if v.isNull then Truth.unknown else .ofOrder (v.compare? p.value) test) :
    AnswersUnless refused (fieldMatches value (.single name p.value.toJson))
      (p.truthFor v).isTrue := by
  refine Or.inl ?_
  rw [fieldMatches_single value _ named plain, means _ _ (isNull_toJson operand.1),
    ordered_toJson held accords.value operand.1 operand.2, truth, isTrue_compared]

theorem equal_answers (refused : Prop) (held : Holds value v) (accords : p.Accords v)
    (operand : p.value.isPlain ∧ (v ≠ .null → v.sameClass p.value))
    (truth : p.truthFor v
      = if v.isNull then Truth.unknown else .ofOrder (v.compare? p.value) (· == .eq)) :
    AnswersUnless refused (fieldMatches value (.single "$eq" p.value.toJson))
      (p.truthFor v).isTrue := by
  refine Or.inl ?_
  rw [fieldMatches_single value _ (by decide) (by decide),
    show simpleOperator value "$eq" p.value.toJson _ = .ok (equals value p.value.toJson) from rfl,
    equals_toJson held accords.value operand.1 operand.2, truth, isTrue_compared]

/-- What is neither equal to the operand nor null differs from it. -/
theorem notEqual_answers (refused : Prop) (held : Holds value v) (accords : p.Accords v)
    (operand : p.value.isPlain ∧ (v ≠ .null → v.sameClass p.value))
    (truth : p.truthFor v
      = if v.isNull then Truth.unknown else .ofOrder (v.compare? p.value) (· != .eq)) :
    AnswersUnless refused (fieldMatches value (.single "$nin" (.array [p.value.toJson, .null])))
      (p.truthFor v).isTrue := by
  refine Or.inl ?_
  rw [fieldMatches_single value _ (by decide) (by decide),
    show simpleOperator value "$nin" (.array [p.value.toJson, .null]) _
      = .ok !(equals value p.value.toJson || (equals value .null || false)) from rfl,
    equals_toJson held accords.value operand.1 operand.2, equals_null held accords.value, truth,
    isTrue_compared]
  cases null : v.isNull with
  | true =>
      rw [Value.compare?_null null]
      rfl
  | false =>
      obtain ⟨result, compared⟩ := Predicate.Accords.compare?_isSome accords
        (fun same => by rw [same] at null; cases null) operand.1 operand.2
      rw [compared]
      exact congrArg (fun b : Bool => (.ok !b : Outcome Bool)) (Bool.or_false _)

theorem isIn_answers (refused : Prop) (held : Holds value v) (accords : p.Accords v)
    {items : List Value} (operand : ∀ o ∈ items, o.isPlain ∧ (v ≠ .null → v.sameClass o))
    (truth : p.truthFor v = if v.isNull then Truth.unknown
      else .ofBool (items.any fun o => v.compare? o == some .eq)) :
    AnswersUnless refused
      (fieldMatches value (.single "$in" (.array (Value.toJsonItems items))))
      (p.truthFor v).isTrue := by
  refine Or.inl ?_
  rw [fieldMatches_single value _ (by decide) (by decide),
    show simpleOperator value "$in" (.array (Value.toJsonItems items)) _
      = .ok ((Value.toJsonItems items).any (equals value)) from rfl,
    any_equals held accords.value items operand, truth, isTrue_found]

theorem notIn_answers (refused : Prop) (held : Holds value v) (accords : p.Accords v)
    {items : List Value} (operand : ∀ o ∈ items, o.isPlain ∧ (v ≠ .null → v.sameClass o))
    (truth : p.truthFor v = if v.isNull then Truth.unknown
      else .ofBool !(items.any fun o => v.compare? o == some .eq)) :
    AnswersUnless refused
      (fieldMatches value (.single "$nin" (.array (Value.toJsonItems items ++ [Json.null]))))
      (p.truthFor v).isTrue := by
  refine Or.inl ?_
  rw [fieldMatches_single value _ (by decide) (by decide),
    show simpleOperator value "$nin" (.array (Value.toJsonItems items ++ [Json.null])) _
      = .ok !((Value.toJsonItems items ++ [Json.null]).any (equals value)) from rfl,
    List.any_append, any_equals held accords.value items operand, truth, isTrue_unless_null,
    List.any_cons, List.any_nil, Bool.or_false, equals_null held accords.value]
  cases v.isNull <;> simp

theorem isNull_answers (refused : Prop) (held : Holds value v) (accords : p.Accords v)
    (truth : p.truthFor v = .ofBool v.isNull) :
    AnswersUnless refused (fieldMatches value .null) (p.truthFor v).isTrue := by
  refine Or.inl ?_
  rw [show fieldMatches value .null = .ok (equals value .null) from rfl,
    equals_null held accords.value, truth, Truth.isTrue_ofBool]

theorem isNotNull_answers (refused : Prop) (held : Holds value v) (accords : p.Accords v)
    (truth : p.truthFor v = .ofBool !v.isNull) :
    AnswersUnless refused (fieldMatches value (.single "$ne" .null)) (p.truthFor v).isTrue := by
  refine Or.inl ?_
  rw [fieldMatches_single value _ (by decide) (by decide),
    show simpleOperator value "$ne" .null _ = .ok !(equals value .null) from rfl,
    equals_null held accords.value, truth, Truth.isTrue_ofBool]

/-- Operators are tested in order, up to the first that does not hold. -/
theorem operatorsMatch_cons {siblings rest : Fields} {name : String} {arg : Json} {answer : Bool}
    (plain : name ≠ "$not") (answered : simpleOperator value name arg siblings = .ok answer) :
    operatorsMatch value siblings ((name, arg) :: rest)
      = if answer then operatorsMatch value siblings rest else .ok false := by
  rw [operatorsMatch, if_neg plain, answered]
  rfl

/-- The negation of an expression, which leaves out what equals null. -/
theorem fieldMatches_notRegex (value : Option Json) (expression : String) :
    fieldMatches value
      (.object [("$not", .single "$regex" (.text expression)), ("$ne", .null)])
      = (fieldMatches value (.single "$regex" (.text expression))).map fun matched =>
          !matched && !equals value .null := by
  rw [fieldMatches_pair value _ _ (by decide) (by decide), operatorsMatch, if_pos rfl,
    isOperatorDoc_single _ (by decide), if_pos rfl]
  cases fieldMatches value (.single "$regex" (.text expression)) with
  | error failure => rfl
  | ok matched =>
      have present (siblings : Fields) : simpleOperator value "$ne" .null siblings
          = .ok !equals value .null := rfl
      cases matched with
      | true => rfl
      | false =>
          show operatorsMatch value _ [("$ne", .null)] = .ok !equals value .null
          rw [operatorsMatch_cons (by decide) (present _)]
          cases equals value .null <;> rfl

theorem isTrue_and (s t : Truth) : (s.and t).isTrue = (s.isTrue && t.isTrue) := by
  cases s <;> cases t <;> rfl

/-- A value between two bounds satisfies both comparisons. -/
theorem between_answers (refused : Prop) (held : Holds value v) (accords : p.Accords v)
    {low high : Value} (operand : ∀ o ∈ [low, high], o.isPlain ∧ (v ≠ .null → v.sameClass o))
    (truth : p.truthFor v = if v.isNull then Truth.unknown
      else (Truth.ofOrder (v.compare? low) (· != .lt)).and
        (.ofOrder (v.compare? high) (· != .gt))) :
    AnswersUnless refused
      (fieldMatches value (.object [("$gte", low.toJson), ("$lte", high.toJson)]))
      (p.truthFor v).isTrue := by
  obtain ⟨lowPlain, lowSame⟩ := operand low List.mem_cons_self
  obtain ⟨highPlain, highSame⟩ := operand high (List.mem_cons_of_mem _ List.mem_cons_self)
  refine Or.inl ?_
  have atLeast (siblings : Fields) : simpleOperator value "$gte" low.toJson siblings
      = .ok ((v.compare? low).any (· != .lt)) := by
    show Except.ok (ordered value low.toJson (· != .lt) || (low.toJson.isNull && _)) = _
    rw [isNull_toJson lowPlain, Bool.false_and, Bool.or_false,
      ordered_toJson held accords.value lowPlain lowSame]
  have atMost (siblings : Fields) : simpleOperator value "$lte" high.toJson siblings
      = .ok ((v.compare? high).any (· != .gt)) := by
    show Except.ok (ordered value high.toJson (· != .gt) || (high.toJson.isNull && _)) = _
    rw [isNull_toJson highPlain, Bool.false_and, Bool.or_false,
      ordered_toJson held accords.value highPlain highSame]
  rw [fieldMatches_pair value _ _ (by decide) (by decide),
    operatorsMatch_cons (by decide) (atLeast _), operatorsMatch_cons (by decide) (atMost _), truth]
  have both : (if v.isNull then Truth.unknown else (Truth.ofOrder (v.compare? low) (· != .lt)).and
      (.ofOrder (v.compare? high) (· != .gt))).isTrue
      = ((v.compare? low).any (· != .lt) && (v.compare? high).any (· != .gt)) := by
    by_cases null : v.isNull
    · rw [if_pos null, Value.compare?_null null]
      rfl
    · rw [if_neg null, isTrue_and, isTrue_ofOrder, isTrue_ofOrder]
  rw [both, show operatorsMatch value _ [] = .ok true from rfl]
  cases (v.compare? low).any (· != .lt) <;> cases (v.compare? high).any (· != .gt) <;> rfl

/-- A value outside of two bounds satisfies one of the opposite comparisons. -/
theorem isTrue_notBetween (accords : p.Accords v) {low high : Value}
    (operand : ∀ o ∈ [low, high], o.isPlain ∧ (v ≠ .null → v.sameClass o))
    (truth : p.truthFor v = if v.isNull then Truth.unknown
      else ((Truth.ofOrder (v.compare? low) (· != .lt)).and
        (.ofOrder (v.compare? high) (· != .gt))).not) :
    (p.truthFor v).isTrue
      = ((v.compare? low).any (· == .lt) || (v.compare? high).any (· == .gt)) := by
  obtain ⟨lowPlain, lowSame⟩ := operand low List.mem_cons_self
  obtain ⟨highPlain, highSame⟩ := operand high (List.mem_cons_of_mem _ List.mem_cons_self)
  rw [truth]
  by_cases null : v.isNull
  · rw [if_pos null, Value.compare?_null null, Value.compare?_null null]
    rfl
  · rw [if_neg null]
    have present : v ≠ .null := fun same => null (by rw [same]; rfl)
    obtain ⟨a, lowCompared⟩ := Predicate.Accords.compare?_isSome accords present lowPlain lowSame
    obtain ⟨b, highCompared⟩ := Predicate.Accords.compare?_isSome accords present highPlain highSame
    rw [lowCompared, highCompared]
    cases a <;> cases b <;> rfl

/-- The test for an expression that means what the predicate does on texts. -/
theorem pattern_answers {expression : String} (means : String → Bool)
    (agrees : ∀ r s, Regex.parse? expression = some r → v = .text s → r.isMatch s = means s)
    (held : Holds value v) (accords : p.Accords v) (text : v = .null ∨ ∃ s, v = .text s)
    (truth : p.truthFor v = if v.isNull then Truth.unknown else .ofBool (means v.coerced)) :
    AnswersUnless (¬(Regex.parse? expression).isSome)
      (fieldMatches value (.single "$regex" (.text expression))) (p.truthFor v).isTrue := by
  rw [fieldMatches_single value _ (by decide) (by decide)]
  refine regex_answers held accords.value expression ?_ ?_
  · rintro r s read rfl
    rw [agrees r s read rfl, truth, isTrue_unless_null]
    rfl
  · intro noText
    rcases text with rfl | ⟨s, rfl⟩
    · rw [truth]
      rfl
    · cases noText

/-- The test for the negation of an expression leaves out null and missing values. -/
theorem notPattern_answers {expression : String} (means : String → Bool)
    (agrees : ∀ r s, Regex.parse? expression = some r → v = .text s → r.isMatch s = means s)
    (held : Holds value v) (accords : p.Accords v) (text : v = .null ∨ ∃ s, v = .text s)
    (truth : p.truthFor v = if v.isNull then Truth.unknown else .ofBool !(means v.coerced)) :
    AnswersUnless (¬(Regex.parse? expression).isSome)
      (fieldMatches value
        (.object [("$not", .single "$regex" (.text expression)), ("$ne", .null)]))
      (p.truthFor v).isTrue := by
  have inner : AnswersUnless (¬(Regex.parse? expression).isSome)
      (fieldMatches value (.single "$regex" (.text expression)))
      (!v.isNull && means v.coerced) := by
    rw [fieldMatches_single value _ (by decide) (by decide)]
    refine regex_answers held accords.value expression ?_ ?_
    · rintro r s read rfl
      exact agrees r s read rfl
    · intro noText
      rcases text with rfl | ⟨s, rfl⟩
      · rfl
      · cases noText
  rw [fieldMatches_notRegex, equals_null held accords.value, truth, isTrue_unless_null]
  have answers := inner.map fun matched => !matched && !v.isNull
  cases present : v.isNull with
  | true =>
      rw [present, Bool.not_true, Bool.and_false] at answers
      exact answers
  | false =>
      rw [present, Bool.not_false, Bool.true_and, Bool.and_true] at answers
      exact answers

end Tests

theorem AnswersUnless.mono {refused other : Prop} {outcome : Outcome Bool} {answer : Bool}
    (answers : AnswersUnless refused outcome answer) (weaker : refused → other) :
    AnswersUnless other outcome answer := by
  rcases answers with answered | ⟨held, failed⟩
  · exact Or.inl answered
  · exact Or.inr ⟨weaker held, failed⟩

theorem not_isReadable {p : Predicate} {expression : String} (own : p.expression? = some expression)
    (unread : ¬(Regex.parse? expression).isSome) : ¬p.IsReadable :=
  fun readable => unread (readable expression own)

/-- The predicate is compiled to a test that holds exactly where the predicate is true, unless the
expression of its pattern cannot be read. -/
def Tested (p : Predicate) : Prop :=
  ∃ test, Compiler.fieldTest p = .ok (some test) ∧ ∀ (value : Option Json) (v : Value),
    Holds value v → p.Accords v →
    AnswersUnless (¬p.IsReadable) (fieldMatches value test) (p.truthFor v).isTrue

section Operators

variable {p : Predicate}

theorem tested_ordered {name : String} (test : Ordering → Bool)
    (compiled : Compiler.fieldTest p = .ok (some (.single name p.value.toJson)))
    (named : isOperator name) (plain : name ≠ "$not")
    (means : ∀ (value : Option Json) arg siblings, arg.isNull = false →
      simpleOperator value name arg siblings = .ok (ordered value arg test))
    (scalar : ∀ v, p.Accords v → p.value.isPlain ∧ (v ≠ .null → v.sameClass p.value))
    (truth : ∀ v, p.truthFor v
      = if v.isNull then Truth.unknown else .ofOrder (v.compare? p.value) test) : Tested p := by
  refine ⟨_, compiled, fun value v held accords => ?_⟩
  exact ordered_answers test _ named plain (means value) held accords (scalar v accords) (truth v)

/-- The meaning of a pattern may rest on what is asked of the pattern, so `agrees` has `Accords`. -/
theorem tested_pattern {expression : String} (means : String → Bool)
    (compiled : Compiler.fieldTest p = .ok (some (.single "$regex" (.text expression))))
    (own : p.expression? = some expression)
    (texts : ∀ v, p.Accords v → v = .null ∨ ∃ s, v = .text s)
    (agrees : ∀ v, p.Accords v → ∀ r s, Regex.parse? expression = some r → v = .text s →
      r.isMatch s = means s)
    (truth : ∀ v, p.truthFor v
      = if v.isNull then Truth.unknown else .ofBool (means v.coerced)) : Tested p := by
  refine ⟨_, compiled, fun value v held accords => ?_⟩
  exact (pattern_answers means (agrees v accords) held accords (texts v accords) (truth v)).mono
    (not_isReadable own)

theorem tested_comparison (operand : p.operands = [p.value])
    (comparison : p.effectiveOp ∈ [.equal, .notEqual, .greaterThan, .greaterThanOrEqual, .lessThan,
      .lessThanOrEqual]) : Tested p := by
  have scalar (v : Value) (accords : p.Accords v) :
      p.value.isPlain ∧ (v ≠ .null → v.sameClass p.value) :=
    accords.operand p.value (operand ▸ List.mem_cons_self)
  cases op : p.effectiveOp <;> rw [op] at comparison <;> try simp at comparison
  case equal =>
    refine ⟨_, by simp only [Compiler.fieldTest, op]; rfl, fun value v held accords => ?_⟩
    exact equal_answers _ held accords (scalar v accords) (by simp only [Predicate.truthFor, op])
  case notEqual =>
    refine ⟨_, by simp only [Compiler.fieldTest, op]; rfl, fun value v held accords => ?_⟩
    exact notEqual_answers _ held accords (scalar v accords) (by simp only [Predicate.truthFor, op])
  case greaterThan =>
    exact tested_ordered (· == .gt) (by simp only [Compiler.fieldTest, op]; rfl) (by decide)
      (by decide) (fun _ _ _ _ => rfl) scalar (fun _ => by simp only [Predicate.truthFor, op])
  case lessThan =>
    exact tested_ordered (· == .lt) (by simp only [Compiler.fieldTest, op]; rfl) (by decide)
      (by decide) (fun _ _ _ _ => rfl) scalar (fun _ => by simp only [Predicate.truthFor, op])
  -- Documents compare null with null as equal, which an operand without nulls leaves out.
  case greaterThanOrEqual =>
    refine tested_ordered (· != .lt) (by simp only [Compiler.fieldTest, op]; rfl) (by decide)
      (by decide) (fun value arg siblings present => ?_) scalar
      (fun _ => by simp only [Predicate.truthFor, op])
    show Except.ok (ordered value arg (· != .lt) || (arg.isNull && _)) = _
    rw [present, Bool.false_and, Bool.or_false]
  case lessThanOrEqual =>
    refine tested_ordered (· != .gt) (by simp only [Compiler.fieldTest, op]; rfl) (by decide)
      (by decide) (fun value arg siblings present => ?_) scalar
      (fun _ => by simp only [Predicate.truthFor, op])
    show Except.ok (ordered value arg (· != .gt) || (arg.isNull && _)) = _
    rw [present, Bool.false_and, Bool.or_false]

theorem tested_text {t : String} (operands : p.operands = [.text t])
    (written : p.expression?.isSome) : Tested p := by
  have texts (v : Value) (accords : p.Accords v) : v = .null ∨ ∃ s, v = .text s :=
    accords.text operands
  cases op : p.effectiveOp <;> try simp [Predicate.expression?, op] at written
  case like =>
    refine tested_pattern (fun s => Like.isMatch s p.pattern)
      (by simp only [Compiler.fieldTest, op]; rfl) (by simp only [Predicate.expression?, op]; rfl)
      texts (fun v accords r s read own => ?_)
      (fun _ => by simp only [Predicate.truthFor, op]; rfl)
    obtain ⟨noUnderscore, noFeed⟩ :=
      accords.like (Or.inl (Predicate.op_of_effectiveOp op (by simp) (by simp)))
    exact Like.isMatch_toRegex noUnderscore read (noFeed s own)
  case notLike =>
    refine ⟨_, by simp only [Compiler.fieldTest, op]; rfl, fun value v held accords => ?_⟩
    refine (notPattern_answers (fun s => Like.isMatch s p.pattern)
      (fun r s read own => ?_) held accords (texts v accords)
      (by simp only [Predicate.truthFor, op]; rfl)).mono
      (not_isReadable (by simp only [Predicate.expression?, op]; rfl))
    obtain ⟨noUnderscore, noFeed⟩ :=
      accords.like (Or.inr (Predicate.op_of_effectiveOp op (by simp) (by simp)))
    exact Like.isMatch_toRegex noUnderscore read (noFeed s own)
  case contains =>
    exact tested_pattern (fun s => Text.hasInfix p.pattern.toList s.toList)
      (by simp only [Compiler.fieldTest, op]; rfl) (by simp only [Predicate.expression?, op])
      texts (fun _ _ r s read _ => Like.isMatch_escape read)
      (fun _ => by simp only [Predicate.truthFor, op]; rfl)
  case startsWith =>
    exact tested_pattern (fun s => p.pattern.toList.isPrefixOf s.toList)
      (by simp only [Compiler.fieldTest, op]; rfl) (by simp only [Predicate.expression?, op])
      texts (fun _ _ r s read _ => Like.isMatch_start_escape read)
      (fun _ => by simp only [Predicate.truthFor, op]; rfl)
  case endsWith =>
    exact tested_pattern (fun s => p.pattern.toList.isSuffixOf s.toList)
      (by simp only [Compiler.fieldTest, op]; rfl) (by simp only [Predicate.expression?, op])
      texts (fun _ _ r s read _ => Like.isMatch_escape_end read)
      (fun _ => by simp only [Predicate.truthFor, op]; rfl)
  case regex =>
    exact tested_pattern (fun s => (Regex.parse? p.pattern).any (·.isMatch s))
      (by simp only [Compiler.fieldTest, op]; rfl) (by simp only [Predicate.expression?, op]; rfl)
      texts (fun _ _ r s read _ => by rw [Predicate.pattern, read]; rfl)
      (fun _ => by simp only [Predicate.truthFor, op]; rfl)

end Operators

/-- The compiled test of every operator but the one that needs two filters holds exactly when the
predicate is true. -/
theorem exists_fieldTest {p : Predicate} (valid : p.validate = .ok ())
    (single : p.effectiveOp ≠ .notBetween) : Tested p := by
  have form := Predicate.validate_cases valid
  cases op : p.effectiveOp <;> rw [op] at form <;> dsimp only at form
  case equal | notEqual | greaterThan | greaterThanOrEqual | lessThan | lessThanOrEqual =>
    exact tested_comparison form (by simp [op])
  case like | notLike | contains | startsWith | endsWith =>
    obtain ⟨t, -, operands⟩ := form
    exact tested_text operands (by simp [Predicate.expression?, op])
  case regex =>
    obtain ⟨t, -, operands, -⟩ := form
    exact tested_text operands (by simp [Predicate.expression?, op])
  case isIn =>
    obtain ⟨items, list, operands⟩ := form
    refine ⟨_, by simp only [Compiler.fieldTest, op]; rfl, fun value v held accords => ?_⟩
    rw [list]
    exact isIn_answers _ held accords (fun o member => accords.operand o (operands ▸ member))
      (by simp only [Predicate.truthFor, op, list])
  case notIn =>
    obtain ⟨items, list, operands⟩ := form
    refine ⟨_, by simp only [Compiler.fieldTest, op]; rfl, fun value v held accords => ?_⟩
    rw [list]
    exact notIn_answers _ held accords (fun o member => accords.operand o (operands ▸ member))
      (by simp only [Predicate.truthFor, op, list])
  case isNull =>
    refine ⟨_, by simp only [Compiler.fieldTest, op]; rfl, fun value v held accords => ?_⟩
    exact isNull_answers _ held accords (by simp only [Predicate.truthFor, op])
  case isNotNull =>
    refine ⟨_, by simp only [Compiler.fieldTest, op]; rfl, fun value v held accords => ?_⟩
    exact isNotNull_answers _ held accords (by simp only [Predicate.truthFor, op])
  case between =>
    obtain ⟨low, high, list, operands, bounds⟩ := form
    refine ⟨_, by simp only [Compiler.fieldTest, op, bounds]; rfl, fun value v held accords => ?_⟩
    exact between_answers _ held accords (fun o member => accords.operand o (operands ▸ member))
      (by simp only [Predicate.truthFor, op, list])
  case notBetween => exact absurd op single

end Document

end Recordkeeper
