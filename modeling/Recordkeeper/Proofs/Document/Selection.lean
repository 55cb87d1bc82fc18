import Recordkeeper.Proofs.Document.Test

/-!
Contract: what a compiled filter selects, against what a plan selects record by record.

Owns:
- documents that hold the values of a record where a filter reads them;
- filters of predicates and groups, which are read with two truth values;
- that compilation refuses exactly what validation refuses, without degradations;
- the agreement of filters and plans, and where it ends: expressions that are too large, and
  unknown predicates below negations.

Does not own: tests of single fields.
-/

set_option autoImplicit false

namespace Recordkeeper.Document

open Condition (predicates predicatesOfAll definite definiteAll definiteAny negated oddlyNegated
  Known)

/-! ### Filters -/

theorem isOperator_eq_false {name : String} (noSign : name.toList.head? ≠ some '$') :
    isOperator name = false := by
  unfold isOperator
  cases chars : name.toList with
  | nil => rfl
  | cons c rest =>
      have differs : c ≠ '$' := fun same => noSign (by rw [chars, same]; rfl)
      show ((('$' == c) && _) : Bool) = false
      rw [beq_false_of_ne (Ne.symm differs), Bool.false_and]

theorem matchesFilter_single {key : String} (noSign : key.toList.head? ≠ some '$')
    (doc test : Json) :
    matchesFilter doc (.single key test) = fieldMatches (lookup doc key) test := by
  have notOperator := isOperator_eq_false noSign
  have differs {name : String} (named : isOperator name) : key ≠ name := fun same => by
    rw [same, named] at notOperator
    cases notOperator
  show clausesMatch doc [(key, test)] = _
  unfold clausesMatch
  rw [if_neg (differs (by decide)), if_neg (differs (by decide)), if_neg (differs (by decide)),
    if_neg (differs (by decide)), notOperator, if_neg Bool.false_ne_true]
  cases fieldMatches (lookup doc key) test with
  | error failure => rfl
  | ok holds => cases holds <;> rfl

theorem matchesFilter_group (doc : Json) (logic : Logic) (f : Json) (more : List Json) :
    matchesFilter doc (.single (Compiler.groupOperator logic) (.array (f :: more)))
      = match logic with
        | .and => allMatch doc (f :: more)
        | .or => anyMatch doc (f :: more)
        | .not => (anyMatch doc (f :: more)).map (!·) := by
  cases logic with
  | and =>
      show clausesMatch doc [("$and", .array (f :: more))] = _
      rw [clausesMatch, if_pos rfl]
      cases allMatch doc (f :: more) with
      | error failure => rfl
      | ok holds => cases holds <;> rfl
  | or =>
      show clausesMatch doc [("$or", .array (f :: more))] = _
      rw [clausesMatch, if_neg (by decide), if_pos rfl]
      cases anyMatch doc (f :: more) with
      | error failure => rfl
      | ok holds => cases holds <;> rfl
  | not =>
      show clausesMatch doc [("$nor", .array (f :: more))] = _
      rw [clausesMatch, if_neg (by decide), if_neg (by decide), if_pos rfl]
      cases anyMatch doc (f :: more) with
      | error failure => rfl
      | ok holds => cases holds <;> rfl

theorem matchesFilter_selectAll (doc : Json) : matchesFilter doc selectAll = .ok true := rfl

theorem matchesFilter_selectNothing (doc : Json) : matchesFilter doc selectNothing = .ok false := by
  rw [selectNothing, matchesFilter_single (by decide),
    fieldMatches_single _ _ (by decide) (by decide)]
  rfl

/-! ### Filters of predicates -/

/-- The key under which a filter reads a field; unless names are mapped, the name itself. -/
def Compiler.filterKey (c : Compiler) (mapped : Bool) (field : String) : String :=
  if mapped then c.key field else field

theorem Compiler.filterKey_mapped (c : Compiler) (field : String) :
    c.filterKey true field = c.key field := if_pos rfl

/-- A document holds the value of a predicate's field where a filter reads it, and the two
accord. -/
structure FitsAt (c : Compiler) (mapped : Bool) (doc : Json) (r : Record) (p : Predicate) :
    Prop where
  noSign : (c.filterKey mapped p.field).toList.head? ≠ some '$'
  held : Holds (lookup doc (c.filterKey mapped p.field)) (r.valueAt p.field)
  accords : p.Accords (r.valueAt p.field)

/-- What an outcome of compilation has to be: the failure of validation, or a filter without
degradations whose answer for a document is the given one where the predicates fit, unless some
expression cannot be read. -/
def CompilesTo (fits : Predicate → Prop) (doc : Json) (ps : List Predicate)
    (valid : Except Error Unit) (compiled : Except Error (Degraded Json)) (answer : Bool) : Prop :=
  (∃ e, valid = .error e ∧ compiled = .error e) ∨
    (valid = .ok () ∧ ∃ filter, compiled = .ok (filter, []) ∧
      ((∀ p ∈ ps, fits p) →
        AnswersUnless (∃ p ∈ ps, ¬p.IsReadable) (matchesFilter doc filter) answer))

theorem CompilesTo.mono {fits stronger : Predicate → Prop} {doc : Json} {ps : List Predicate}
    {valid : Except Error Unit} {compiled : Except Error (Degraded Json)} {answer : Bool}
    (compiles : CompilesTo fits doc ps valid compiled answer)
    (weaker : ∀ p, stronger p → fits p) : CompilesTo stronger doc ps valid compiled answer := by
  rcases compiles with failed | ⟨passed, filter, compiled, answers⟩
  · exact Or.inl failed
  · exact Or.inr ⟨passed, filter, compiled,
      fun fits => answers fun p member => weaker p (fits p member)⟩

section Compiled

variable {c : Compiler} {mapped : Bool} {doc : Json} {r : Record}

theorem FitsAt.matchesFilter_eq {p : Predicate} (fits : FitsAt c mapped doc r p) (test : Json) :
    matchesFilter doc (.single (c.filterKey mapped p.field) test)
      = fieldMatches (lookup doc (c.filterKey mapped p.field)) test :=
  matchesFilter_single fits.noSign doc test

/-- The two filters of a range that is left out, either of which may hold. -/
theorem notBetween_answers {p : Predicate} (fits : FitsAt c mapped doc r p)
    (op : p.effectiveOp = .notBetween) {low high : Value} (list : p.value = .list [low, high])
    (operands : p.operands = [low, high]) (refused : Prop) :
    AnswersUnless refused
      (matchesFilter doc (.single "$or" (.array
        [.single (c.filterKey mapped p.field) (.single "$lt" low.toJson),
          .single (c.filterKey mapped p.field) (.single "$gt" high.toJson)])))
      (p.truthFor (r.valueAt p.field)).isTrue := by
  have operand := fits.accords.operand
  rw [operands] at operand
  obtain ⟨lowPlain, lowSame⟩ := operand low List.mem_cons_self
  obtain ⟨highPlain, highSame⟩ := operand high (List.mem_cons_of_mem _ List.mem_cons_self)
  have side {name : String} {o : Value} {test : Ordering → Bool} (oPlain : o.isPlain)
      (oSame : r.valueAt p.field ≠ .null → (r.valueAt p.field).sameClass o)
      (named : isOperator name) (notNot : name ≠ "$not")
      (means : ∀ value arg siblings,
        simpleOperator value name arg siblings = .ok (ordered value arg test)) :
      matchesFilter doc (.single (c.filterKey mapped p.field) (.single name o.toJson))
        = .ok (((r.valueAt p.field).compare? o).any test) := by
    rw [fits.matchesFilter_eq, fieldMatches_single _ _ named notNot, means,
      ordered_toJson fits.held fits.accords.value oPlain oSame]
  refine Or.inl ?_
  have group := matchesFilter_group doc .or
    (.single (c.filterKey mapped p.field) (.single "$lt" low.toJson))
    [.single (c.filterKey mapped p.field) (.single "$gt" high.toJson)]
  rw [Compiler.groupOperator] at group
  rw [group, isTrue_notBetween fits.accords operand
    (by simp only [Predicate.truthFor, op, list])]
  dsimp only
  rw [anyMatch, side lowPlain lowSame (by decide) (by decide) (fun _ _ _ => rfl), anyMatch,
    side highPlain highSame (by decide) (by decide) (fun _ _ _ => rfl)]
  cases ((r.valueAt p.field).compare? low).any (· == .lt) <;>
    cases ((r.valueAt p.field).compare? high).any (· == .gt) <;> rfl

variable (c mapped doc r)

theorem predicate_compiles (p : Predicate) :
    CompilesTo (FitsAt c mapped doc r) doc [p] p.validate (c.condition mapped (.basic p))
      (p.truthFor (r.valueAt p.field)).isTrue := by
  cases valid : p.validate with
  | error e =>
      refine Or.inl ⟨e, rfl, ?_⟩
      rw [Compiler.condition, Compiler.predicate, valid]
      rfl
  | ok passed =>
      refine Or.inr ⟨rfl, ?_⟩
      by_cases range : p.effectiveOp = .notBetween
      · have form := Predicate.validate_cases valid
        rw [range] at form
        obtain ⟨low, high, list, operands, bounds⟩ := form
        refine ⟨_, ?_, fun fits =>
          notBetween_answers (fits p List.mem_cons_self) range list operands _⟩
        rw [Compiler.condition, Compiler.predicate, valid,
          show Compiler.fieldTest p = .ok none by simp only [Compiler.fieldTest, range], bounds]
        rfl
      · obtain ⟨test, compiled, answers⟩ := exists_fieldTest valid range
        refine ⟨.single (c.filterKey mapped p.field) test, ?_, fun fits => ?_⟩
        · rw [Compiler.condition, Compiler.predicate, valid, compiled]
          rfl
        · have own := fits p List.mem_cons_self
          rw [own.matchesFilter_eq]
          exact (answers _ _ own.held own.accords).mono
            fun unread => ⟨p, List.mem_cons_self, unread⟩

/-! ### Filters of conditions -/

variable {c mapped doc r}

/-- A filter and those after it, tested up to the first that does not hold. -/
theorem allMatch_answers {f : Json} {rest : List Json} {refused refusedRest : Prop}
    {first others : Bool} (head : AnswersUnless refused (matchesFilter doc f) first)
    (tail : AnswersUnless refusedRest (allMatch doc rest) others) :
    AnswersUnless (refused ∨ refusedRest) (allMatch doc (f :: rest)) (first && others) := by
  rw [allMatch]
  rcases head with answered | ⟨unread, failure, failed⟩
  · rw [answered]
    cases first with
    | false => exact Or.inl rfl
    | true => exact tail.mono Or.inr
  · exact Or.inr ⟨Or.inl unread, failure, by rw [failed]; rfl⟩

/-- A filter and those after it, tested up to the first that holds. -/
theorem anyMatch_answers {f : Json} {rest : List Json} {refused refusedRest : Prop}
    {first others : Bool} (head : AnswersUnless refused (matchesFilter doc f) first)
    (tail : AnswersUnless refusedRest (anyMatch doc rest) others) :
    AnswersUnless (refused ∨ refusedRest) (anyMatch doc (f :: rest)) (first || others) := by
  rw [anyMatch]
  rcases head with answered | ⟨unread, failure, failed⟩
  · rw [answered]
    cases first with
    | true => exact Or.inl rfl
    | false => exact tail.mono Or.inr
  · exact Or.inr ⟨Or.inl unread, failure, by rw [failed]; rfl⟩

variable (c mapped doc r)

/-- What several compiled conditions have to be: the first failure of validation, or a filter for
each, which answer alike for the conjunction and for the disjunction. -/
def AllCompileTo (cs : List Condition)
    (compiled : Except Error (Degraded (List Json))) : Prop :=
  (∃ e, Condition.validateAll cs = .error e ∧ compiled = .error e) ∨
    (Condition.validateAll cs = .ok () ∧ ∃ filters, compiled = .ok (filters, []) ∧
      filters.length = cs.length ∧
      ((∀ p ∈ predicatesOfAll cs, FitsAt c mapped doc r p) →
        AnswersUnless (∃ p ∈ predicatesOfAll cs, ¬p.IsReadable)
          (allMatch doc filters) (definiteAll r cs) ∧
        AnswersUnless (∃ p ∈ predicatesOfAll cs, ¬p.IsReadable)
          (anyMatch doc filters) (definiteAny r cs)))

mutual

/-- A compiled condition is read definitely, whatever its nesting. -/
theorem condition_compiles (x : Condition) (closed : x.hasSubquery = false) :
    CompilesTo (FitsAt c mapped doc r) doc (predicates x) x.validate (c.condition mapped x)
      (definite r x) := by
  cases x with
  | basic p => exact predicate_compiles c mapped doc r p
  | sub q => cases closed
  | group logic children =>
      cases children with
      | nil =>
          cases logic with
          | and => exact Or.inr ⟨rfl, _, rfl, fun _ => Or.inl (matchesFilter_selectAll _)⟩
          | or => exact Or.inr ⟨rfl, _, rfl, fun _ => Or.inl (matchesFilter_selectNothing _)⟩
          | not => exact Or.inr ⟨rfl, _, rfl, fun _ => Or.inl (matchesFilter_selectAll _)⟩
      | cons child rest =>
          rcases conditions_compile (child :: rest) closed with
            ⟨e, invalid, failed⟩ | ⟨valid, filters, compiled, sameLength, answers⟩
          · refine Or.inl ⟨e, invalid, ?_⟩
            rw [Compiler.condition, failed]
            rfl
          · cases filters with
            | nil => cases sameLength
            | cons f more =>
                refine Or.inr ⟨valid, .single (Compiler.groupOperator logic) (.array (f :: more)),
                  ?_, fun fits => ?_⟩
                · rw [Compiler.condition, compiled]
                  rfl
                · obtain ⟨conjunction, disjunction⟩ := answers fits
                  rw [matchesFilter_group]
                  cases logic with
                  | and => exact conjunction
                  | or => exact disjunction
                  | not => exact disjunction.map _
termination_by structural x

theorem conditions_compile (cs : List Condition) (closed : Condition.anySubquery cs = false) :
    AllCompileTo c mapped doc r cs (c.conditions mapped cs) := by
  cases cs with
  | nil => exact Or.inr ⟨rfl, [], rfl, rfl, fun _ => ⟨Or.inl rfl, Or.inl rfl⟩⟩
  | cons x rest =>
      obtain ⟨closedFirst, closedRest⟩ := Bool.or_eq_false_iff.1 closed
      rcases condition_compiles x closedFirst with
        ⟨e, invalid, failed⟩ | ⟨valid, filter, compiled, answers⟩
      · refine Or.inl ⟨e, ?_, ?_⟩
        · rw [Condition.validateAll, invalid]
        · rw [Compiler.conditions, failed]
          rfl
      · rcases conditions_compile rest closedRest with
          ⟨e, invalid, failed⟩ | ⟨validRest, filters, compiledRest, sameLength, answersRest⟩
        · refine Or.inl ⟨e, ?_, ?_⟩
          · rw [Condition.validateAll, valid]
            exact invalid
          · rw [Compiler.conditions, compiled, failed]
            rfl
        · refine Or.inr ⟨?_, filter :: filters, ?_, congrArg (· + 1) sameLength, fun fits => ?_⟩
          · rw [Condition.validateAll, valid]
            exact validRest
          · rw [Compiler.conditions, compiled, compiledRest]
            rfl
          · have own := answers fun p member => fits p (List.mem_append_left _ member)
            obtain ⟨conjunction, disjunction⟩ :=
              answersRest fun p member => fits p (List.mem_append_right _ member)
            have unread : (∃ p ∈ predicates x, ¬p.IsReadable) ∨
                (∃ p ∈ predicatesOfAll rest, ¬p.IsReadable) →
                ∃ p ∈ predicatesOfAll (x :: rest), ¬p.IsReadable := by
              rintro (⟨p, member, unread⟩ | ⟨p, member, unread⟩)
              · exact ⟨p, List.mem_append_left _ member, unread⟩
              · exact ⟨p, List.mem_append_right _ member, unread⟩
            exact ⟨(allMatch_answers own conjunction).mono unread,
              (anyMatch_answers own disjunction).mono unread⟩
termination_by structural cs

end

/-- The filter of a list of conditions is their conjunction, read definitely. -/
theorem conjunction_compiles (cs : List Condition) (closed : Condition.anySubquery cs = false) :
    CompilesTo (FitsAt c mapped doc r) doc (predicatesOfAll cs) (Condition.validateAll cs)
      (c.conjunction mapped cs) (definiteAll r cs) := by
  match cs with
  | [] => exact Or.inr ⟨rfl, _, rfl, fun _ => Or.inl (matchesFilter_selectAll _)⟩
  | [x] =>
      have single := condition_compiles c mapped doc r x (Bool.or_eq_false_iff.1 closed).1
      have sameValid : Condition.validateAll [x] = x.validate := by
        rw [Condition.validateAll]
        cases x.validate <;> rfl
      have samePredicates : predicatesOfAll [x] = predicates x := List.append_nil _
      have sameAnswer : definiteAll r [x] = definite r x := Bool.and_true _
      rw [sameValid, samePredicates, sameAnswer]
      exact single
  | first :: second :: rest =>
      rcases conditions_compile c mapped doc r (first :: second :: rest) closed with
        ⟨e, invalid, failed⟩ | ⟨valid, filters, compiled, sameLength, answers⟩
      · refine Or.inl ⟨e, invalid, ?_⟩
        rw [Compiler.conjunction, failed]
        rfl
        all_goals simp
      · cases filters with
        | nil => cases sameLength
        | cons f more =>
            refine Or.inr ⟨valid, .single "$and" (.array (f :: more)), ?_, fun fits => ?_⟩
            · rw [Compiler.conjunction, compiled]
              rfl
              all_goals simp
            · exact matchesFilter_group doc .and f more ▸ (answers fits).1

end Compiled

/-! ### Stored records -/

section Stored

variable {σ E : Type} (d : Records σ E) (r : Record)

/-- A predicate names a field of the schema and suits its value in the record. -/
structure Fits (p : Predicate) : Prop where
  declared : (d.schema.field? p.field).isSome
  suits : p.Suits (r.valueAt p.field)

variable {d r}

/-- The document of a record holds what a predicate on a declared field reads. -/
theorem fitsAt_toDoc (plain : d.schema.IsPlain) (keeps : r.KeepsColumns d.schema) {p : Predicate}
    (declared : (d.schema.field? p.field).isSome) (accords : p.Accords (r.valueAt p.field)) :
    FitsAt d.compiler true (d.toDoc r) r p := by
  refine ⟨?_, ?_, accords⟩
  · rw [Compiler.filterKey_mapped]
    exact Compiler.key_noSign rfl plain declared
  · rw [Compiler.filterKey_mapped, d.lookup_toDoc plain keeps declared]
    exact holds_valueAt r p.field

theorem compileFilter_compiles (plain : d.schema.IsPlain) (keeps : r.KeepsColumns d.schema)
    (cs : List Condition) (closed : Condition.anySubquery cs = false) :
    CompilesTo (Fits d r) (d.toDoc r) (predicatesOfAll cs) (Condition.validateAll cs)
      (d.compiler.compileFilter cs) (definiteAll r cs) :=
  (conjunction_compiles d.compiler true (d.toDoc r) r cs closed).mono fun _ fits =>
    fitsAt_toDoc plain keeps fits.declared fits.suits.accords

end Stored

/-! ### Known predicates -/

/-- A valid predicate is known where its field has a value that suits it. -/
theorem truthFor_known {p : Predicate} {v : Value} (valid : p.validate = .ok ())
    (accords : p.Accords v) (present : v ≠ .null) : p.truthFor v ≠ .unknown := by
  have notNull := Value.isNull_of_ne present
  have form := Predicate.validate_cases valid
  have known {o : Value} (operand : o.isPlain ∧ (v ≠ .null → v.sameClass o)) :
      ∃ result, v.compare? o = some result :=
    Predicate.Accords.compare?_isSome accords present operand.1 operand.2
  cases op : p.effectiveOp <;> rw [op] at form <;> dsimp only at form
  case equal | notEqual | greaterThan | greaterThanOrEqual | lessThan | lessThanOrEqual =>
    obtain ⟨result, compared⟩ := known (accords.operand p.value (form ▸ List.mem_cons_self))
    simp only [Predicate.truthFor, op, notNull, compared, Truth.ofOrder]
    exact Truth.ofBool_ne_unknown _
  case between | notBetween =>
    obtain ⟨low, high, list, operands, -⟩ := form
    have operand := accords.operand
    rw [operands] at operand
    obtain ⟨a, lowCompared⟩ := known (operand low List.mem_cons_self)
    obtain ⟨b, highCompared⟩ := known (operand high (List.mem_cons_of_mem _ List.mem_cons_self))
    simp only [Predicate.truthFor, op, notNull, list, lowCompared, highCompared, Truth.ofOrder]
    cases a <;> cases b <;> simp [Truth.ofBool, Truth.and, Truth.not]
  all_goals
    simp only [Predicate.truthFor, op, notNull]
    exact Truth.ofBool_ne_unknown _

end Recordkeeper.Document
