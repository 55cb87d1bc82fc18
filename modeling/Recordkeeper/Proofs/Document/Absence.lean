import Recordkeeper.Proofs.Document.Selection

/-!
Contract: what a compiled predicate answers for a document that lacks its field.

Owns:
- the operands that JSON turns into null, which are the floats that are not finite;
- the predicates whose tests such an operand turns into tests for null;
- that these, and tests for null themselves, are the ones that select a document without the field.

Does not own: documents that have the field.
-/

set_option autoImplicit false

namespace Recordkeeper

/-- A NaN or an infinity. -/
def Value.isUnbounded : Value → Bool
  | .float x => !x.isFinite
  | _ => false

theorem Value.toJson_isNull {v : Value} (present : v.isNull = false) :
    v.toJson.isNull = v.isUnbounded := by
  cases v with
  | float x =>
      show (if x.isFinite then Json.number (.float x) else .null).isNull = !x.isFinite
      cases x.isFinite <;> rfl
  | null => cases present
  | _ => rfl

namespace Predicate

variable {p : Predicate}

/-- Whether the test that is made of a predicate holds of null. -/
def holdsOfNull (p : Predicate) : Bool :=
  match p.effectiveOp with
  | .isNull => true
  | .equal | .greaterThanOrEqual | .lessThanOrEqual | .isIn => p.operands.any Value.isUnbounded
  | .between => p.operands.all Value.isUnbounded
  | _ => false

/-- Validation refuses null for an operand. -/
theorem operands_present (valid : p.validate = .ok ()) : ∀ o ∈ p.operands, o.isNull = false := by
  have form := validate_cases valid
  unfold validate at valid
  split at valid
  next => cases valid
  next =>
    cases op : p.effectiveOp <;> rw [op] at valid form <;> dsimp only at valid form
    case equal | notEqual | greaterThan | greaterThanOrEqual | lessThan | lessThanOrEqual =>
      rw [form]
      intro o member
      obtain rfl := List.mem_singleton.1 member
      split at valid
      · cases valid
      · split at valid
        · cases valid
        next present => exact Bool.not_eq_true _ ▸ present
    case isIn | notIn =>
      obtain ⟨items, list, operands⟩ := form
      rw [operands]
      intro o member
      rw [list] at valid
      dsimp only at valid
      split at valid
      · cases valid
      next passed =>
        by_contra null
        exact passed (List.any_eq_true.2 ⟨o, member, by simp [Bool.not_eq_false _ ▸ null]⟩)
    case between | notBetween =>
      obtain ⟨low, high, list, operands, bounded⟩ := form
      rw [operands]
      unfold bounds at bounded
      rw [list] at bounded
      dsimp only at bounded
      split at bounded
      next plain => simp_all
      next => cases bounded
    case like | notLike | contains | startsWith | endsWith =>
      obtain ⟨t, text, operands⟩ := form
      rw [operands]
      simp [Value.isNull]
    case regex =>
      obtain ⟨t, text, operands, -⟩ := form
      rw [operands]
      simp [Value.isNull]
    case isNull | isNotNull =>
      rw [form]
      exact fun o member => absurd member List.not_mem_nil

theorem holdsOfNull_eq_false (valid : p.validate = .ok ()) (asksValue : p.effectiveOp ≠ .isNull)
    (bounded : ∀ o ∈ p.operands, o.isUnbounded = false) : p.holdsOfNull = false := by
  have none : p.operands.any Value.isUnbounded = false :=
    List.any_eq_false.2 fun o member => by rw [bounded o member]; exact Bool.false_ne_true
  cases op : p.effectiveOp <;> simp only [holdsOfNull, op]
  case isNull => exact absurd op asksValue
  case equal | greaterThanOrEqual | lessThanOrEqual | isIn => exact none
  case between =>
    have form := validate_cases valid
    rw [op] at form
    obtain ⟨low, high, list, operands, -⟩ := form
    rw [operands, List.all_cons, bounded low (by rw [operands]; exact List.mem_cons_self)]
    rfl

theorem isReadable_of_holdsOfNull (holds : p.holdsOfNull) : p.IsReadable := by
  intro expression written
  cases op : p.effectiveOp <;> simp [expression?, op] at written <;>
    simp [holdsOfNull, op] at holds

theorem operands_lost (valid : p.validate = .ok ()) {o : Value} (member : o ∈ p.operands) :
    o.toJson.isNull = o.isUnbounded :=
  Value.toJson_isNull (operands_present valid o member)

end Predicate

namespace Document

/-! ### Tests of nothing -/

section Lacking

variable {value : Option Json} (lacking : value.getD .null = .null)

include lacking

theorem lacking_cases : value = none ∨ value = some .null := by
  cases value with
  | none => exact Or.inl rfl
  | some v => exact Or.inr (congrArg some lacking)

theorem equals_lacking (target : Json) : equals value target = target.isNull := by
  rcases lacking_cases lacking with rfl | rfl
  · rfl
  · cases target <;> rfl

theorem ordered_lacking (target : Json) (test : Ordering → Bool) :
    ordered value target test = (value.isSome && target.isNull && test .eq) := by
  rcases lacking_cases lacking with rfl | rfl
  · rfl
  · cases target with
    | null => exact Bool.or_false _
    | _ => rfl

/-- Null is ordered against null, and a missing value is tested for equality with it. -/
theorem inclusive_lacking (target : Json) {test : Ordering → Bool} (atEqual : test .eq) :
    (ordered value target test || (target.isNull && equals value target)) = target.isNull := by
  rw [ordered_lacking lacking, equals_lacking lacking, atEqual]
  cases value.isSome <;> cases target.isNull <;> rfl

theorem any_equals_lacking (items : List Value) :
    (Value.toJsonItems items).any (equals value) = items.any fun v => v.toJson.isNull := by
  rw [toJsonItems_eq, List.any_map]
  exact congrArg _ (funext fun v => equals_lacking lacking v.toJson)

theorem regex_lacking (expression : String) :
    AnswersUnless (¬(Regex.parse? expression).isSome)
      (fieldMatches value (.single "$regex" (.text expression))) false := by
  have held : Holds value .null := (lacking_cases lacking).elim (fun none => Or.inr ⟨none, rfl⟩)
    Or.inl
  rw [fieldMatches_single value _ (by decide) (by decide)]
  exact regex_answers held (Or.inl rfl) expression nofun fun _ => rfl

theorem notRegex_lacking (expression : String) :
    AnswersUnless (¬(Regex.parse? expression).isSome)
      (fieldMatches value
        (.object [("$not", .single "$regex" (.text expression)), ("$ne", .null)])) false := by
  rw [fieldMatches_notRegex, equals_lacking lacking]
  exact (regex_lacking lacking expression).map _

theorem range_lacking (low high : Json) :
    fieldMatches value (.object [("$gte", low), ("$lte", high)])
      = .ok (low.isNull && high.isNull) := by
  have atLeast (siblings : Fields) : simpleOperator value "$gte" low siblings = .ok low.isNull :=
    congrArg Except.ok (inclusive_lacking lacking low rfl)
  have atMost (siblings : Fields) : simpleOperator value "$lte" high siblings = .ok high.isNull :=
    congrArg Except.ok (inclusive_lacking lacking high rfl)
  rw [fieldMatches_pair value _ _ (by decide) (by decide),
    operatorsMatch_cons (by decide) (atLeast _), operatorsMatch_cons (by decide) (atMost _),
    show operatorsMatch value _ [] = .ok true from rfl]
  cases low.isNull <;> cases high.isNull <;> rfl

end Lacking

/-! ### Compiled predicates -/

variable {p : Predicate}

/-- The test of a predicate answers of null, and of nothing, what it is said to. -/
def TestedOfNull (p : Predicate) : Prop :=
  ∃ test, Compiler.fieldTest p = .ok (some test) ∧
    ∀ value : Option Json, value.getD .null = .null →
      AnswersUnless (¬p.IsReadable) (fieldMatches value test) p.holdsOfNull

theorem testedOfNull_comparison (valid : p.validate = .ok ()) (operand : p.operands = [p.value])
    (comparison : p.effectiveOp ∈ [.equal, .notEqual, .greaterThan, .greaterThanOrEqual, .lessThan,
      .lessThanOrEqual]) : TestedOfNull p := by
  have lost : p.value.toJson.isNull = p.value.isUnbounded :=
    Predicate.operands_lost valid (operand ▸ List.mem_cons_self)
  have own (holds : p.holdsOfNull = p.operands.any Value.isUnbounded) :
      p.holdsOfNull = p.value.toJson.isNull := by
    rw [holds, operand, lost]
    exact Bool.or_false _
  have answered {value : Option Json} {name : String} {arg : Json} {answer : Bool}
      (named : isOperator name) (plain : name ≠ "$not")
      (answers : ∀ siblings, simpleOperator value name arg siblings = .ok answer)
      (same : p.holdsOfNull = answer) :
      AnswersUnless (¬p.IsReadable) (fieldMatches value (.single name arg)) p.holdsOfNull := by
    rw [fieldMatches_single value arg named plain, answers, same]
    exact Or.inl rfl
  have unordered {value : Option Json} (lacking : value.getD .null = .null) (arg : Json)
      {test : Ordering → Bool} (strict : test .eq = false) : ordered value arg test = false := by
    rw [ordered_lacking lacking, strict, Bool.and_false]
  cases op : p.effectiveOp <;> rw [op] at comparison <;> try simp at comparison
  case equal =>
    refine ⟨_, by simp only [Compiler.fieldTest, op]; rfl, fun value lacking => ?_⟩
    exact answered (by decide) (by decide)
      (fun _ => congrArg Except.ok (equals_lacking lacking _))
      (own (by simp only [Predicate.holdsOfNull, op]))
  case notEqual =>
    refine ⟨_, by simp only [Compiler.fieldTest, op]; rfl, fun value lacking => ?_⟩
    refine answered (by decide) (by decide) (fun _ => ?_)
      (by simp only [Predicate.holdsOfNull, op] : p.holdsOfNull = false)
    show Except.ok (!(equals value p.value.toJson || (equals value .null || false))) = _
    rw [equals_lacking lacking .null, Bool.or_false, show Json.null.isNull = true from rfl,
      Bool.or_true]
    rfl
  case greaterThan =>
    refine ⟨_, by simp only [Compiler.fieldTest, op]; rfl, fun value lacking => ?_⟩
    exact answered (by decide) (by decide)
      (fun _ => congrArg Except.ok (unordered lacking _ rfl))
      (by simp only [Predicate.holdsOfNull, op])
  case lessThan =>
    refine ⟨_, by simp only [Compiler.fieldTest, op]; rfl, fun value lacking => ?_⟩
    exact answered (by decide) (by decide)
      (fun _ => congrArg Except.ok (unordered lacking _ rfl))
      (by simp only [Predicate.holdsOfNull, op])
  case greaterThanOrEqual =>
    refine ⟨_, by simp only [Compiler.fieldTest, op]; rfl, fun value lacking => ?_⟩
    exact answered (by decide) (by decide)
      (fun _ => congrArg Except.ok (inclusive_lacking lacking _ rfl))
      (own (by simp only [Predicate.holdsOfNull, op]))
  case lessThanOrEqual =>
    refine ⟨_, by simp only [Compiler.fieldTest, op]; rfl, fun value lacking => ?_⟩
    exact answered (by decide) (by decide)
      (fun _ => congrArg Except.ok (inclusive_lacking lacking _ rfl))
      (own (by simp only [Predicate.holdsOfNull, op]))

theorem testedOfNull_list (valid : p.validate = .ok ()) {items : List Value}
    (list : p.value = .list items) (operands : p.operands = items)
    (membership : p.effectiveOp ∈ [.isIn, .notIn]) : TestedOfNull p := by
  have lost : (items.any fun v => v.toJson.isNull) = items.any Value.isUnbounded := by
    rw [Bool.eq_iff_iff, List.any_eq_true, List.any_eq_true]
    refine exists_congr fun o => and_congr_right fun member => ?_
    rw [Predicate.operands_lost valid (operands ▸ member)]
  cases op : p.effectiveOp <;> rw [op] at membership <;> try simp at membership
  case isIn =>
    refine ⟨_, by simp only [Compiler.fieldTest, op]; rfl, fun value lacking => Or.inl ?_⟩
    rw [list, fieldMatches_single value _ (by decide) (by decide)]
    show Except.ok ((Value.toJsonItems items).any (equals value)) = _
    rw [any_equals_lacking lacking, lost, ← operands]
    simp only [Predicate.holdsOfNull, op]
  case notIn =>
    refine ⟨_, by simp only [Compiler.fieldTest, op]; rfl, fun value lacking => Or.inl ?_⟩
    rw [list, fieldMatches_single value _ (by decide) (by decide)]
    show Except.ok (!(Value.toJsonItems items ++ [Json.null]).any (equals value)) = _
    rw [List.any_append, List.any_cons, equals_lacking lacking .null]
    simp [Predicate.holdsOfNull, op, Json.isNull]

theorem testedOfNull_text (written : p.expression?.isSome) : TestedOfNull p := by
  have negative (holds : p.holdsOfNull = false) {expression : String}
      (own : p.expression? = some expression) {value : Option Json} {test : Json}
      (answers : AnswersUnless (¬(Regex.parse? expression).isSome) (fieldMatches value test) false) :
      AnswersUnless (¬p.IsReadable) (fieldMatches value test) p.holdsOfNull := by
    rw [holds]
    exact answers.mono (not_isReadable own)
  cases op : p.effectiveOp <;> try simp [Predicate.expression?, op] at written
  case notLike =>
    refine ⟨_, by simp only [Compiler.fieldTest, op]; rfl, fun value lacking => ?_⟩
    exact negative (by simp only [Predicate.holdsOfNull, op])
      (by simp only [Predicate.expression?, op]; rfl) (notRegex_lacking lacking _)
  all_goals
    refine ⟨_, by simp only [Compiler.fieldTest, op]; rfl, fun value lacking => ?_⟩
    exact negative (by simp only [Predicate.holdsOfNull, op])
      (by simp only [Predicate.expression?, op]; rfl) (regex_lacking lacking _)

theorem testedOfNull_between (valid : p.validate = .ok ()) (range : p.effectiveOp = .between) :
    TestedOfNull p := by
  have form := Predicate.validate_cases valid
  rw [range] at form
  obtain ⟨low, high, list, operands, bounds⟩ := form
  have lost (o : Value) (member : o ∈ [low, high]) : o.toJson.isNull = o.isUnbounded :=
    Predicate.operands_lost valid (operands ▸ member)
  refine ⟨_, by simp only [Compiler.fieldTest, range, bounds]; rfl, fun value lacking => Or.inl ?_⟩
  rw [range_lacking lacking, lost low (by simp), lost high (by simp)]
  simp only [Predicate.holdsOfNull, range, operands, List.all_cons, List.all_nil, Bool.and_true]

theorem exists_testOfNull (valid : p.validate = .ok ()) (single : p.effectiveOp ≠ .notBetween) :
    TestedOfNull p := by
  have form := Predicate.validate_cases valid
  cases op : p.effectiveOp <;> rw [op] at form <;> dsimp only at form
  case equal | notEqual | greaterThan | greaterThanOrEqual | lessThan | lessThanOrEqual =>
    exact testedOfNull_comparison valid form (by simp [op])
  case like | notLike | contains | startsWith | endsWith | regex =>
    exact testedOfNull_text (by simp [Predicate.expression?, op])
  case isIn | notIn =>
    obtain ⟨items, list, operands⟩ := form
    exact testedOfNull_list valid list operands (by simp [op])
  case isNull =>
    refine ⟨_, by simp only [Compiler.fieldTest, op]; rfl, fun value lacking => Or.inl ?_⟩
    show Except.ok (equals value .null) = _
    rw [equals_lacking lacking]
    simp only [Predicate.holdsOfNull, op]
    rfl
  case isNotNull =>
    refine ⟨_, by simp only [Compiler.fieldTest, op]; rfl, fun value lacking => Or.inl ?_⟩
    rw [fieldMatches_single value _ (by decide) (by decide)]
    show Except.ok (!equals value .null) = _
    rw [equals_lacking lacking]
    simp only [Predicate.holdsOfNull, op]
    rfl
  case between => exact testedOfNull_between valid op
  case notBetween => exact absurd op single

/-! ### Documents -/

variable {c : Compiler} {doc : Json}

/-- Of the two filters of a range that is left out neither holds of null. -/
theorem notBetween_lacking {key : String} (noSign : key.toList.head? ≠ some '$')
    (lacking : (lookup doc key).getD .null = .null) (low high : Json) :
    matchesFilter doc (.single "$or" (.array
      [.single key (.single "$lt" low), .single key (.single "$gt" high)])) = .ok false := by
  have side {name : String} {bound : Json} {test : Ordering → Bool} (strict : test .eq = false)
      (named : isOperator name) (plain : name ≠ "$not")
      (means : ∀ siblings, simpleOperator (lookup doc key) name bound siblings
        = .ok (ordered (lookup doc key) bound test)) :
      matchesFilter doc (.single key (.single name bound)) = .ok false := by
    rw [matchesFilter_single noSign, fieldMatches_single _ _ named plain, means,
      ordered_lacking lacking, strict, Bool.and_false]
  have group := matchesFilter_group doc .or (.single key (.single "$lt" low))
    [.single key (.single "$gt" high)]
  rw [Compiler.groupOperator] at group
  rw [group]
  dsimp only
  rw [anyMatch, side rfl (by decide) (by decide) fun _ => rfl, anyMatch,
    side rfl (by decide) (by decide) fun _ => rfl]
  rfl

/-- A valid predicate is compiled to a filter that selects a document whose field is null or missing
if and only if it asks for null itself or has an operand that JSON turns into null; so it selects
none if it asks for a value and its operands are bounded.  Where it does not select, it answers so,
unless the expression of its pattern cannot be read. -/
theorem absent_selected_iff (valid : p.validate = .ok ())
    (noSign : (c.key p.field).toList.head? ≠ some '$') :
    (p.effectiveOp ≠ .isNull → (∀ o ∈ p.operands, o.isUnbounded = false) →
      p.holdsOfNull = false) ∧
    ∃ filter, c.compileFilter [.basic p] = .ok (filter, []) ∧
      ∀ doc, (lookup doc (c.key p.field)).getD .null = .null →
        (matchesFilter doc filter = .ok true ↔ p.holdsOfNull) ∧
        (p.IsReadable → matchesFilter doc filter = .ok p.holdsOfNull) := by
  have compiled (filter : Json) (made : c.predicate true p = .ok filter) :
      c.compileFilter [.basic p] = .ok (filter, []) := by
    show (c.predicate true p >>= fun filter => pure (filter, [])) = _
    rw [made]
    rfl
  -- A predicate that holds of null has no pattern that may fail to be read.
  have conclude {doc filter : Json}
      (answers : AnswersUnless (¬p.IsReadable) (matchesFilter doc filter) p.holdsOfNull) :
      (matchesFilter doc filter = .ok true ↔ p.holdsOfNull) ∧
        (p.IsReadable → matchesFilter doc filter = .ok p.holdsOfNull) := by
    rcases answers with answered | ⟨unread, failure, failed⟩
    · rw [answered, Except.ok.injEq]
      exact ⟨Iff.rfl, fun _ => rfl⟩
    · rw [failed]
      exact ⟨⟨nofun, fun holds => absurd (Predicate.isReadable_of_holdsOfNull holds) unread⟩,
        fun readable => absurd readable unread⟩
  refine ⟨Predicate.holdsOfNull_eq_false valid, ?_⟩
  by_cases range : p.effectiveOp = .notBetween
  · have form := Predicate.validate_cases valid
    rw [range] at form
    obtain ⟨low, high, list, -, bounds⟩ := form
    have made : c.predicate true p = .ok (.single "$or" (.array
        [.single (c.key p.field) (.single "$lt" low.toJson),
          .single (c.key p.field) (.single "$gt" high.toJson)])) := by
      rw [Compiler.predicate, valid,
        show Compiler.fieldTest p = .ok none by simp only [Compiler.fieldTest, range], bounds]
      rfl
    have never : p.holdsOfNull = false := by simp only [Predicate.holdsOfNull, range]
    refine ⟨_, compiled _ made, fun doc lacking => conclude ?_⟩
    rw [notBetween_lacking noSign lacking, never]
    exact Or.inl rfl
  · obtain ⟨test, tested, answers⟩ := exists_testOfNull valid range
    refine ⟨.single (c.key p.field) test, compiled _ ?_, fun doc lacking => conclude ?_⟩
    · rw [Compiler.predicate, valid, tested]
      rfl
    · rw [matchesFilter_single noSign]
      exact answers _ lacking

/-- A range with one bound at infinity leaves out a document without a score. -/
theorem halfBoundedScore_unselected :
    let c : Compiler := { collectionOf := fun _ => none }
    let p : Predicate := ⟨"score", .between, .list [.int 0, .float (.infinity false)]⟩
    ∃ filter, c.compileFilter [.basic p] = .ok (filter, []) ∧
      matchesFilter (.single idField (.text "1")) filter = .ok false := by
  intro c p
  have valid : p.validate = .ok () := by decide
  have noSign : (c.key p.field).toList.head? ≠ some '$' := by decide
  obtain ⟨-, filter, compiled, answers⟩ := absent_selected_iff valid noSign
  have missing : lookup (.single idField (.text "1")) (c.key p.field) = none := by decide
  have readable : p.IsReadable := nofun
  refine ⟨filter, compiled, ?_⟩
  rw [(answers _ (congrArg (Option.getD · .null) missing)).2 readable]
  decide

/-- A test for an infinite score selects a document without a score. -/
theorem infiniteScore_selected :
    let c : Compiler := { collectionOf := fun _ => none }
    let p : Predicate := ⟨"score", .equal, .float (.infinity false)⟩
    p.validate = .ok () ∧ p.effectiveOp = .equal ∧ c.key p.field = "score" ∧
      lookup (.single idField (.text "1")) "score" = none ∧
      ∃ filter, c.compileFilter [.basic p] = .ok (filter, []) ∧
        matchesFilter (.single idField (.text "1")) filter = .ok true := by
  refine ⟨by decide, by decide, by decide, by decide, _, rfl, ?_⟩
  decide

end Document

end Recordkeeper
