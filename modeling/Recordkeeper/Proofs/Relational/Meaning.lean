import Recordkeeper.Proofs.Engine.Cells
import Recordkeeper.Proofs.Engine.Terms
import Recordkeeper.Proofs.Relational.Phrases
import Recordkeeper.Proofs.Sql.Reading

/-!
Contract: compiled conditions mean to the engine what they mean to a plan.

Owns:
- the truth of an expression over the rows of an environment;
- columns that show the value of a field, and predicates that suit the value they show;
- the truth of tests, groups and whole conditions, with unknown values at every level.

Does not own: how the text of a condition is read.
-/

set_option autoImplicit false

namespace Recordkeeper.Relational

open Sql Engine

/-! ### Expressions with a truth value -/

section Expressions

variable {cat : Catalog} {scope : Scope} {env : Env}

/-- The truth of an expression: its names are found, and its value counts as true, false or
unknown. -/
def Means (cat : Catalog) (scope : Scope) (env : Env) (e : Expr) (t : Truth) : Prop :=
  ∃ typed cell, resolve cat scope e = .ok typed ∧ eval env typed.term = .ok cell ∧ truthOf cell = t

/-- A column shows a value: its name is found, and its cell is that of the value in a column whose
affinity leaves the value alone. -/
def Shows (cat : Catalog) (scope : Scope) (env : Env) (column : ColumnName) (v : Value) : Prop :=
  ∃ typed, resolve cat scope column.expr = .ok typed ∧ eval env typed.term = .ok (bind v) ∧
    v.Keeps typed.affinity

/-- A column displays a value: its name is found, and its cell has the content of the value. -/
def Displayed (cat : Catalog) (scope : Scope) (env : Env) (column : ColumnName) (v : Value) : Prop :=
  ∃ typed c, resolve cat scope column.expr = .ok typed ∧ eval env typed.term = .ok c ∧
    Displays c typed.affinity v

theorem Shows.displayed {column : ColumnName} {v : Value} (shows' : Shows cat scope env column v)
    (vExact : v.IsExact) : Displayed cat scope env column v := by
  obtain ⟨typed, resolved, value, keeps⟩ := shows'
  exact ⟨typed, bind v, resolved, value, displays_bind keeps vExact⟩

variable {a b : Expr} {s t : Truth}

theorem Means.not (means : Means cat scope env a t) : Means cat scope env (.not a) t.not := by
  obtain ⟨typed, cell, resolved, value, truth⟩ := means
  exact ⟨_, _, resolve_not resolved, eval_not value, by rw [truthOf_notCell, truth]⟩

theorem Means.and (left : Means cat scope env a s) (right : Means cat scope env b t) :
    Means cat scope env (.and a b) (s.and t) := by
  obtain ⟨typed, cell, resolved, value, rfl⟩ := left
  obtain ⟨other, second, otherResolved, otherValue, rfl⟩ := right
  refine ⟨_, _, resolve_and resolved otherResolved, eval_and value otherValue, ?_⟩
  exact truthOf_and cell second

theorem Means.or (left : Means cat scope env a s) (right : Means cat scope env b t) :
    Means cat scope env (.or a b) (s.or t) := by
  obtain ⟨typed, cell, resolved, value, rfl⟩ := left
  obtain ⟨other, second, otherResolved, otherValue, rfl⟩ := right
  refine ⟨_, _, resolve_or resolved otherResolved, eval_or value otherValue, ?_⟩
  exact truthOf_or cell second

theorem means_constant (holds : Bool) :
    Means cat scope env (Phrase.constantExpr holds) (.ofBool holds) := by
  cases holds <;> exact ⟨_, _, rfl, rfl, rfl⟩

/-! ### Tests -/

variable {column : ColumnName} {v o : Value} {place : Nat}

theorem checkWidths_pair (column : ColumnName) (place : Nat) :
    checkWidths cat [column.expr, .parameter place] = .ok () := by
  rcases column with ⟨_ | table, name⟩ <;> rfl

theorem checkWidths_triple (column : ColumnName) (low high : Nat) :
    checkWidths cat [column.expr, .parameter low, .parameter high] = .ok () := by
  rcases column with ⟨_ | table, name⟩ <;> rfl

theorem eval_comparison (op : Comparison) {typed : Typed}
    (value : eval env typed.term = .ok (bind v)) (keeps : v.Keeps typed.affinity)
    (bound : env.params[place]? = some (bind o)) (vExact : v.IsExact) (operand : v ≠ .null → o.IsExact ∧ v.sameClass o) :
    ∃ c, eval env (comparison op typed { term := .parameter place }) = .ok c ∧
      truthOf c = .ofOrder (v.compare? o) (passes op) := by
  have affinity : Affinity.ofComparison typed.affinity none = typed.affinity := by
    cases typed.affinity <;> rfl
  refine ⟨_, ?_, truthOf_compareCells op keeps vExact operand⟩
  show eval env (.compare op (Affinity.ofComparison typed.affinity none) typed.term _) = _
  rw [affinity]
  exact eval_compare op typed.affinity value (eval_parameter bound)

theorem means_compare (op : Comparison) (shows' : Shows cat scope env column v)
    (bound : env.params[place]? = some (bind o)) (vExact : v.IsExact)
    (operand : v ≠ .null → o.IsExact ∧ v.sameClass o) :
    Means cat scope env (.compare op column.expr (.parameter place))
      (.ofOrder (v.compare? o) (passes op)) := by
  obtain ⟨typed, resolved, value, keeps⟩ := shows'
  obtain ⟨c, compared, truth⟩ := eval_comparison op value keeps bound vExact operand
  have place := resolve_parameter cat scope place
  exact ⟨_, c, resolve_compare op (checkWidths_pair _ _) resolved place, compared, truth⟩

theorem eval_negated (negate : Bool) (typed : Typed) {c : Cell}
    (value : eval env typed.term = .ok c) :
    ∃ c', eval env (negated negate typed).term = .ok c' ∧
      truthOf c' = if negate then (truthOf c).not else truthOf c := by
  cases negate with
  | false => exact ⟨c, value, rfl⟩
  | true => exact ⟨_, eval_not value, truthOf_notCell c⟩

theorem means_null (negate : Bool) (displayed : Displayed cat scope env column v) :
    Means cat scope env (.isNull negate column.expr) (.ofBool (v.isNull != negate)) := by
  obtain ⟨typed, cell, resolved, value, displays⟩ := displayed
  obtain ⟨c, tested, truth⟩ :=
    eval_negated negate (.of [typed] (.isNull typed.term)) (eval_isNull value)
  refine ⟨_, c, resolve_isNull negate resolved, tested, ?_⟩
  rw [truth, truthOf_ofBool, displays.isNull]
  cases negate <;> cases v.isNull <;> rfl

theorem means_between (negate : Bool) {low high : Value} (shows' : Shows cat scope env column v)
    (lowBound : env.params[place]? = some (bind low))
    (highBound : env.params[place + 1]? = some (bind high)) (vExact : v.IsExact)
    (lowOperand : v ≠ .null → low.IsExact ∧ v.sameClass low)
    (highOperand : v ≠ .null → high.IsExact ∧ v.sameClass high) {inside : Truth}
    (both : inside = (Truth.ofOrder (v.compare? low) (passes .ge)).and
      (.ofOrder (v.compare? high) (passes .le))) :
    Means cat scope env (.between negate column.expr (.parameter place) (.parameter (place + 1)))
      (if negate then inside.not else inside) := by
  obtain ⟨typed, resolved, value, keeps⟩ := shows'
  obtain ⟨x, above, xTruth⟩ := eval_comparison .ge value keeps lowBound vExact lowOperand
  obtain ⟨y, below, yTruth⟩ := eval_comparison .le value keeps highBound vExact highOperand
  obtain ⟨c, tested, truth⟩ := eval_negated negate (.of
    [typed, { term := .parameter place }, { term := .parameter (place + 1) }] (.and _ _))
    (eval_and above below)
  refine ⟨_, c, resolve_between negate (checkWidths_triple column place (place + 1)) resolved
    (resolve_parameter cat scope _) (resolve_parameter cat scope _), tested, ?_⟩
  rw [truth, truthOf_and, xTruth, yTruth, both]

theorem means_member (negate : Bool) {items : List Value} {places : List Nat}
    (displayed : Displayed cat scope env column v)
    (bound : places.map (fun i => env.params[i]?) = items.map fun o => some (bind o))
    (listed : items ≠ []) (comparable : ∀ o ∈ items, v ≠ .null → v.Comparable o) :
    Means cat scope env (.inList negate column.expr (places.map .parameter))
      (if v.isNull then .unknown
        else .ofBool ((items.any fun o => v.compare? o == some .eq) != negate)) := by
  obtain ⟨typed, cell, resolved, value, displays⟩ := displayed
  obtain ⟨c, tested, truth⟩ := eval_negated negate
    (.of (typed :: places.map fun i => { term := .parameter i }) (.inList _ _ _))
    (eval_inList (memberAffinity typed.affinity) value
      (evalAll_parameters (bound.trans List.map_map.symm)))
  refine ⟨_, c, ?_, tested, ?_⟩
  · rw [resolve_inList negate resolved (resolveAll_parameters cat scope places), List.map_map]
    rfl
  · rw [truth, truthOf_memberCell displays listed comparable]
    cases negate <;> cases v.isNull <;>
      cases items.any (fun o => v.compare? o == some .eq) <;> rfl

theorem means_like (negate : Bool) {pattern : String} (shows' : Shows cat scope env column v)
    (bound : env.params[place]? = some (.text pattern)) (text : v = .null ∨ ∃ s, v = .text s) :
    Means cat scope env (.like negate column.expr (.parameter place) none)
      (if v.isNull then .unknown
        else .ofBool (likeTexts env.settings none v.coerced pattern != negate)) := by
  obtain ⟨typed, resolved, value, keeps⟩ := shows'
  obtain ⟨cell, matched, matchedTruth⟩ : ∃ cell,
      likeCells env.settings (bind v) (.text pattern) none = .ok cell ∧
        truthOf cell = if v.isNull then .unknown else .ofBool (likeTexts env.settings none v.coerced pattern) := by
    rcases text with rfl | ⟨s, rfl⟩
    · exact ⟨_, rfl, rfl⟩
    · exact ⟨_, rfl, truthOf_ofBool _⟩
  have test : eval env (.like typed.term (.parameter place) none) = .ok cell :=
    (eval_like value (eval_parameter bound) rfl).trans matched
  obtain ⟨c, tested, truth⟩ := eval_negated negate (.of
    [typed, { term := .parameter place }] (.like _ _ none)) test
  refine ⟨_, c, resolve_like negate resolved (resolve_parameter cat scope _) rfl, tested, ?_⟩
  rw [truth, matchedTruth]
  cases negate <;> cases v.isNull <;>
    cases likeTexts env.settings none v.coerced pattern <;> rfl

theorem means_part {pattern : String} (shows' : Shows cat scope env column v)
    (bound : env.params[place]? = some (.text pattern)) (text : v = .null ∨ ∃ s, v = .text s) :
    Means cat scope env
      (.like false column.expr (.parameter place) (some (.literal (.text "\\"))))
      (if v.isNull then .unknown
        else .ofBool (likeTexts env.settings (some '\\') v.coerced pattern)) := by
  obtain ⟨typed, resolved, value, keeps⟩ := shows'
  obtain ⟨cell, matched, truth⟩ : ∃ cell,
      likeCells env.settings (bind v) (.text pattern) (some (.text "\\")) = .ok cell ∧
        truthOf cell = if v.isNull then .unknown
          else .ofBool (likeTexts env.settings (some '\\') v.coerced pattern) := by
    rcases text with rfl | ⟨s, rfl⟩
    · exact ⟨_, rfl, rfl⟩
    · exact ⟨_, rfl, truthOf_ofBool _⟩
  have test : eval env (.like typed.term (.parameter place) (some (.constant (.text "\\"))))
      = .ok cell := (eval_like value (eval_parameter bound) rfl).trans matched
  exact ⟨_, cell, resolve_like false resolved (resolve_parameter cat scope _) rfl, test, truth⟩

end Expressions

/-! ### Places -/

def Binds (env : Env) (place : Nat) (vs : List Value) : Prop :=
  ∃ rest, env.params.drop place = vs.map bind ++ rest

section Places

variable {env : Env} {place : Nat} {v : Value} {vs ws : List Value}

theorem Binds.append (binds : Binds env place (vs ++ ws)) :
    Binds env place vs ∧ Binds env (place + vs.length) ws := by
  obtain ⟨rest, params⟩ := binds
  rw [List.map_append, List.append_assoc] at params
  refine ⟨⟨_, params⟩, rest, ?_⟩
  rw [← List.drop_drop, params, List.drop_append_of_le_length (by rw [List.length_map]),
    List.drop_of_length_le (by rw [List.length_map]), List.nil_append]

theorem Binds.cons (binds : Binds env place (v :: vs)) :
    env.params[place]? = some (bind v) ∧ Binds env (place + 1) vs := by
  have split : Binds env place ([v] ++ vs) := binds
  refine ⟨?_, split.append.2⟩
  obtain ⟨rest, params⟩ := binds
  have first := congrArg (·[0]?) params
  simpa using first

theorem Binds.places (binds : Binds env place vs) :
    (List.range' place vs.length).map (fun i => env.params[i]?)
      = vs.map fun o => some (bind o) := by
  induction vs generalizing place with
  | nil => rfl
  | cons v vs inductionHypothesis =>
      obtain ⟨first, others⟩ := binds.cons
      rw [List.length_cons, List.range'_succ, List.map_cons, List.map_cons, first,
        inductionHypothesis others]

end Places

/-! ### Memberships -/

section Memberships

variable {cat : Catalog} {scope : Scope} {env : Env} {column : ColumnName} {v : Value}
  {place : Nat} {p : Predicate} (displayed : Displayed cat scope env column v)
  (comparable : ∀ o ∈ p.operands, v ≠ .null → v.Comparable o)

include displayed comparable

theorem means_listed (negate : Bool) {items : List Value} (operands : p.operands = items)
    (present : items ≠ []) (binds : Binds env place p.operands) :
    Means cat scope env
      (.inList negate column.expr
        ((List.range' place (p.operands.length - 1 + 1)).map .parameter))
      (if v.isNull then .unknown
        else .ofBool ((items.any fun o => v.compare? o == some .eq) != negate)) := by
  subst operands
  have length : p.operands.length - 1 + 1 = p.operands.length :=
    Nat.sub_add_cancel (List.length_pos_iff.2 present)
  rw [length]
  exact means_member negate displayed binds.places present comparable

/-- A membership in a list that is not empty, and a test for null, mean what they mean on the value
the column displays. -/
theorem membership_means (valid : p.validate = .ok ()) (formed : p.HasForm)
    (membership : p.IsMembership) (binds : Binds env place p.bound) :
    Means cat scope env (p.form.expr column.expr place) (p.truthFor v) := by
  have shape := Predicate.validate_cases valid
  rcases membership with op | op | op | op <;> rw [op] at shape <;> dsimp only at shape <;>
    simp only [Predicate.bound, op] at binds <;>
    simp only [Predicate.form, Predicate.truthFor, op, Form.expr]
  case inl =>
    obtain ⟨items, list, operands⟩ := shape
    have present := formed.listed (Or.inl op)
    rw [operands] at present
    rw [list, ← Bool.bne_false (List.any _ _)]
    exact means_listed displayed comparable false operands present binds
  case inr.inl =>
    obtain ⟨items, list, operands⟩ := shape
    have present := formed.listed (Or.inr op)
    rw [operands] at present
    rw [list, ← Bool.bne_true (List.any _ _)]
    exact means_listed displayed comparable true operands present binds
  case inr.inr.inl =>
    rw [← Bool.bne_false v.isNull]
    exact means_null false displayed
  case inr.inr.inr =>
    rw [← Bool.bne_true v.isNull]
    exact means_null true displayed

end Memberships

/-! ### Predicates -/

end Recordkeeper.Relational

namespace Recordkeeper.Predicate

/-- The value of a field and the operands it is compared with are exact and of one class. -/
structure FitsColumn (p : Predicate) (v : Value) : Prop where
  value : v.IsExact
  operand : ∀ o ∈ p.operands, v ≠ .null → o.IsExact ∧ v.sameClass o

theorem FitsColumn.comparable {p : Predicate} {v : Value} (fits : p.FitsColumn v) :
    ∀ o ∈ p.operands, v ≠ .null → v.Comparable o := by
  intro o member present
  obtain ⟨oExact, same⟩ := fits.operand o member present
  exact Value.comparable_of_sameClass fits.value oExact same

end Recordkeeper.Predicate

namespace Recordkeeper.Relational

open Sql Engine

section Predicates

variable {cat : Catalog} {scope : Scope} {env : Env} {column : ColumnName} {v : Value}
  {place : Nat} {p : Predicate}

/-- What does not compare is unknown anyway. -/
theorem ofOrder_present (v o : Value) (test : Ordering → Bool) :
    (if v.isNull then Truth.unknown else .ofOrder (v.compare? o) test)
      = .ofOrder (v.compare? o) test := by
  by_cases null : v.isNull
  · rw [if_pos null, Value.compare?_null null]
    rfl
  · rw [if_neg null]

/-- A field compared with a text holds a text, unless it is null, and neither has a zero in it. -/
theorem text_of_fits (fits : p.FitsColumn v) {t : String} (operands : p.operands = [.text t]) :
    v = .null ∨ ∃ s, v = .text s ∧ (∀ c ∈ s.toList, c.toNat ≠ 0) ∧ ∀ c ∈ t.toList, c.toNat ≠ 0 := by
  by_cases null : v = .null
  · exact Or.inl null
  · obtain ⟨tExact, same⟩ := fits.operand (.text t) (operands ▸ List.mem_cons_self) null
    have vExact := fits.value
    cases v <;> cases same
    exact Or.inr ⟨_, rfl, vExact, tExact⟩

variable (fits : p.FitsColumn v) (shows' : Shows cat scope env column v)

include fits shows'

theorem means_compared (op : Comparison) {test : Ordering → Bool} (same : passes op = test)
    (operands : p.operands = [p.value]) (binds : Binds env place p.operands) :
    Means cat scope env (.compare op column.expr (.parameter place))
      (if v.isNull then .unknown else .ofOrder (v.compare? p.value) test) := by
  have operand := fits.operand p.value (operands ▸ List.mem_cons_self)
  rw [operands] at binds
  rw [ofOrder_present, ← same]
  exact means_compare op shows' binds.cons.1 fits.value operand

theorem means_liked (sensitive : env.settings.caseSensitive) (negate : Bool) {t : String}
    (operands : p.operands = [.text t]) (binds : Binds env place p.operands)
    (noEscape : '\\' ∉ t.toList) :
    Means cat scope env (.like negate column.expr (.parameter place) none)
      (if v.isNull then .unknown else .ofBool (Like.isMatch v.coerced t != negate)) := by
  have texts := text_of_fits fits operands
  rw [operands] at binds
  rcases texts with rfl | ⟨s, rfl, sClean, tClean⟩
  · exact means_like negate shows' binds.cons.1 (Or.inl rfl)
  · rw [← likeTexts_plain sensitive (s := (Value.text s).coerced) sClean tClean fun member =>
      noEscape (List.dropLast_subset _ member)]
    exact means_like negate shows' binds.cons.1 (Or.inr ⟨s, rfl⟩)

/-- A pattern made of a part matches the texts the part is found in. -/
theorem means_found {t pattern : String} (found : String → Bool)
    (operands : p.operands = [.text t]) (binds : Binds env place [.text pattern])
    (same : ∀ s : String, (∀ c ∈ s.toList, c.toNat ≠ 0) → (∀ c ∈ t.toList, c.toNat ≠ 0) →
      likeTexts env.settings (some '\\') s pattern = found s) :
    Means cat scope env (.like false column.expr (.parameter place) (some (.literal (.text "\\"))))
      (if v.isNull then .unknown else .ofBool (found v.coerced)) := by
  rcases text_of_fits fits operands with rfl | ⟨s, rfl, sClean, tClean⟩
  · exact means_part shows' binds.cons.1 (Or.inl rfl)
  · rw [← same (Value.text s).coerced sClean tClean]
    exact means_part shows' binds.cons.1 (Or.inr ⟨s, rfl⟩)

theorem means_ranged (negate : Bool) {low high : Value} (operands : p.operands = [low, high])
    (binds : Binds env place p.operands) {inside : Truth}
    (both : inside = (Truth.ofOrder (v.compare? low) (· != .lt)).and
      (.ofOrder (v.compare? high) (· != .gt))) :
    Means cat scope env
      (.between negate column.expr (.parameter place) (.parameter (place + 1)))
      (if v.isNull then .unknown else if negate then inside.not else inside) := by
  have ge : passes .ge = (· != .lt) := funext fun o => by cases o <;> rfl
  have le : passes .le = (· != .gt) := funext fun o => by cases o <;> rfl
  have missing (null : v.isNull) : inside = .unknown := by
    rw [both, Value.compare?_null null, Value.compare?_null null]
    rfl
  have present : (if v.isNull then .unknown else if negate then inside.not else inside)
      = if negate then inside.not else inside := by
    by_cases null : v.isNull
    · rw [if_pos null, missing null]
      cases negate <;> rfl
    · exact if_neg null
  have operand := fits.operand
  rw [operands] at operand binds
  rw [present]
  exact means_between negate shows' binds.cons.1 binds.cons.2.cons.1 fits.value
    (operand low List.mem_cons_self) (operand high (List.mem_cons_of_mem _ List.mem_cons_self))
    (by rw [ge, le, both])

/-- A predicate on a column means what it means on the value the column shows. -/
theorem predicate_means (valid : p.validate = .ok ()) (ordinary : p.IsOrdinary)
    (sensitive : env.settings.caseSensitive) (binds : Binds env place p.bound) :
    Means cat scope env (p.form.expr column.expr place) (p.truthFor v) := by
  by_cases other : p.IsMembership
  · exact membership_means (shows'.displayed fits.value) fits.comparable valid ordinary.hasForm other
      binds
  have shape := Predicate.validate_cases valid
  cases op : p.effectiveOp <;> rw [op] at shape <;> dsimp only at shape <;>
    simp only [Predicate.bound, op] at binds <;>
    simp only [Predicate.form, Predicate.truthFor, op, Form.expr]
  case equal | notEqual | greaterThan | greaterThanOrEqual | lessThan | lessThanOrEqual =>
    exact means_compared fits shows' _ (funext fun o => by cases o <;> rfl) shape binds
  case like =>
    obtain ⟨t, text, operands⟩ := shape
    have noEscape := ordinary.noEscape (Or.inl op)
    rw [Predicate.pattern, text] at noEscape
    rw [text]
    rw [← Bool.bne_false (Like.isMatch _ _)]
    exact means_liked fits shows' sensitive false operands binds noEscape
  case notLike =>
    obtain ⟨t, text, operands⟩ := shape
    have noEscape := ordinary.noEscape (Or.inr op)
    rw [Predicate.pattern, text] at noEscape
    rw [text]
    rw [← Bool.bne_true (Like.isMatch _ _)]
    exact means_liked fits shows' sensitive true operands binds noEscape
  case isIn => exact absurd (Or.inl op) other
  case notIn => exact absurd (Or.inr (Or.inl op)) other
  case isNull => exact absurd (Or.inr (Or.inr (Or.inl op))) other
  case isNotNull => exact absurd (Or.inr (Or.inr (Or.inr op))) other
  case between =>
    obtain ⟨low, high, list, operands, -⟩ := shape
    rw [list]
    exact means_ranged fits shows' false operands binds rfl
  case notBetween =>
    obtain ⟨low, high, list, operands, -⟩ := shape
    rw [list]
    exact means_ranged fits shows' true operands binds rfl
  case contains =>
    obtain ⟨t, text, operands⟩ := shape
    rw [Predicate.pattern, text] at binds
    rw [text]
    exact means_found fits shows' (Text.hasInfix t.toList ·.toList) operands binds
      fun s sClean tClean => likeTexts_contains sensitive sClean tClean
  case startsWith =>
    obtain ⟨t, text, operands⟩ := shape
    rw [Predicate.pattern, text] at binds
    rw [text]
    exact means_found fits shows' (t.toList.isPrefixOf ·.toList) operands binds
      fun s sClean tClean => likeTexts_startsWith sensitive sClean tClean
  case endsWith =>
    obtain ⟨t, text, operands⟩ := shape
    rw [Predicate.pattern, text] at binds
    rw [text]
    exact means_found fits shows' (t.toList.isSuffixOf ·.toList) operands binds
      fun s sClean tClean => likeTexts_endsWith sensitive sClean tClean
  case regex => exact absurd op ordinary.noRegex

end Predicates

end Recordkeeper.Relational
