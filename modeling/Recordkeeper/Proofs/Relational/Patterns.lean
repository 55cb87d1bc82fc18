import Recordkeeper.Proofs.Pattern.Escaping
import Recordkeeper.Proofs.Relational.Agreement
import Recordkeeper.Relational.Client

/-!
Contract: LIKE predicates on a relational column against the same predicates on a record.

Owns:
- the rows a filter selects;
- the text of a predicate with a pattern, which has no clause for an escape;
- `likePredicate_selects`: the rows that the predicate selects, and for which patterns they are those
  whose records a plan selects.

Does not own: the operators for parts of a text, which name their escape.

The engine takes a backslash for itself, and a plan takes it for an escape if a character follows.
So the two agree on a pattern exactly if no backslash stands before its last character.  A zero ends a
text in the engine, which is why the texts that are compared have none.
-/

set_option autoImplicit false

namespace Recordkeeper.Relational

open Sql Engine

/-! ### Filters -/

section Filters

variable {cat : Catalog} {scope : Scope} {env : Env} {e : Expr} {t : Truth}

/-- Whether a filter selects the row of an environment: its names are found and its conditions are
tried. -/
def Selects (cat : Catalog) (scope : Scope) (env : Env) (e : Expr) (answer : Bool) : Prop :=
  ∃ typed, resolve cat scope e = .ok typed ∧
    holds env (conditionsOf (some typed.term)) = .ok answer

theorem isTrue_truthOf (c : Cell) : (truthOf c).isTrue = (c.truth? == some true) := by
  unfold truthOf
  rcases c.truth? with _ | _ | _ <;> rfl

/-- A filter selects the rows for which it is true, and neither those for which it is false nor those
for which it is unknown. -/
theorem Means.selects (means : Means cat scope env e t) : Selects cat scope env e t.isTrue := by
  obtain ⟨typed, cell, resolved, value, rfl⟩ := means
  rw [isTrue_truthOf]
  exact ⟨typed, resolved, holds_conjuncts value⟩

end Filters

/-! ### The text of a pattern -/

/-- The operator of a pattern, or its negation. -/
def likeOperator (negate : Bool) : Operator := if negate then .notLike else .like

section Patterns

variable {c : Compiler} {negate : Bool} {field pattern : String} {statement : Statement}

/-- A predicate with a pattern is written as the pattern bound behind its column. -/
theorem likePredicate_written (sqlite : c.dialect = .sqlite)
    (compiled : c.compilePredicate [.on field (likeOperator negate) (.text pattern)]
      = .ok statement) :
    Parser.wholeExpr statement.sql.toList
        = .ok (.like negate (c.columnName field).expr (.parameter 0) none) ∧
      statement.params = [.text pattern] ∧
      Predicate.validate ⟨field, likeOperator negate, .text pattern⟩ = .ok () := by
  let p : Predicate := ⟨field, likeOperator negate, .text pattern⟩
  obtain ⟨fs, body, rendered⟩ := exists_of_bind compiled
  obtain rfl := Except.ok.inj rendered
  have formed : p.HasForm := by
    cases negate <;> exact ⟨nofun, by rintro (member | member) <;> cases member⟩
  have single : c.predicate false p = .ok fs := body
  obtain ⟨⟨text, values⟩, clean, valid⟩ := predicate_compiled sqlite formed single
  have written : (c.finish fs []).sql.toList = (Phrase.test (c.columnName field) p.form).text := by
    show (renderFrom c.dialect 0 fs).toList = _
    rw [sqlite, toList_renderFrom, text]
  have read := Parser.wholeExpr_members .and (.test (c.columnName field) p.form) [] clean trivial
  rw [Phrase.textAll, List.append_nil] at read
  refine ⟨?_, ?_, valid⟩
  · rw [written, read]
    cases negate <;> rfl
  · show boundValues fs = _
    rw [values]
    cases negate <;> rfl

/-- A plan selects the records whose text matches the pattern, or does not match it. -/
theorem exists_likePlan
    (valid : Predicate.validate ⟨field, likeOperator negate, .text pattern⟩ = .ok ()) :
    ∃ plan, KeyValue.Plan.compile
        { conditions := [.on field (likeOperator negate) (.text pattern)] } = .ok plan ∧
      ∀ r text, r.valueAt field = .text text →
        plan.selects r = (Like.isMatch text pattern != negate) := by
  have validAll : Condition.validateAll [.on field (likeOperator negate) (.text pattern)]
      = .ok () := by
    rw [Condition.validateAll, Condition.on, Condition.validate, valid]
    rfl
  rw [KeyValue.Plan.compile_conditions rfl, validAll]
  refine ⟨_, rfl, fun r text held => ?_⟩
  show (Truth.all [Predicate.truthFor ⟨field, likeOperator negate, .text pattern⟩
    (r.valueAt field)]).isTrue = _
  rw [held, Truth.all_cons]
  cases negate with
  | false =>
      show ((Truth.ofBool (Like.isMatch text pattern)).and .true).isTrue = _
      cases Like.isMatch text pattern <;> rfl
  | true =>
      show ((Truth.ofBool !Like.isMatch text pattern).and .true).isTrue = _
      cases Like.isMatch text pattern <;> rfl

/-! ### Rows and records -/

/-- A row of a repository's connection whose column holds a text, with the values of a statement
bound, and a record whose field holds the same text. -/
structure TextRow (c : Compiler) (statement : Statement) (field : String) where
  catalog : Catalog
  scope : Scope
  env : Env
  record : Record
  text : String
  settings : env.settings = Shared.settings
  params : env.params = statement.params.map bind
  held : record.valueAt field = .text text
  shown : Shows catalog scope env (c.columnName field) (.text text)

def TextRow.Selects (row : TextRow c statement field) (e : Expr) (answer : Bool) : Prop :=
  Relational.Selects row.catalog row.scope row.env e answer

/-- The engine matches the text of a row against a pattern without an escape. -/
theorem TextRow.selects_like (row : TextRow c statement field) (negate : Bool)
    (params : statement.params = [.text pattern]) :
    row.Selects (.like negate (c.columnName field).expr (.parameter 0) none)
      (likeTexts Shared.settings none row.text pattern != negate) := by
  have bound : row.env.params[0]? = some (.text pattern) := by
    rw [row.params, params]
    rfl
  have means := means_like negate row.shown bound (Or.inr ⟨row.text, rfl⟩)
  have answer := means.selects
  rw [row.settings, if_neg (by simp [Value.isNull]), Truth.isTrue_ofBool] at answer
  exact answer

/-- A text without zeros that is matched by the engine or by a plan, but not by both. -/
theorem exists_differing (exact : (Value.text pattern).IsExact)
    (escape : '\\' ∈ pattern.toList.dropLast) :
    ∃ text, (Value.text text).IsExact ∧
      likeTexts Shared.settings none text pattern = !Like.isMatch text pattern := by
  obtain ⟨chars, clean, matched, missed⟩ := Like.exists_escaped escape
  have own : (String.ofList chars).toList = chars := String.toList_ofList
  have textExact : (Value.text (String.ofList chars)).IsExact := by
    intro c member
    rcases clean c (own ▸ member) with rfl | written
    · decide
    · exact exact c written
  refine ⟨String.ofList chars, textExact, ?_⟩
  have found : Like.isMatch (String.ofList chars) pattern = true := by
    rw [Like.isMatch_iff, own]
    exact matched
  rw [found, Bool.not_true, Bool.eq_false_iff, ne_eq, likeTexts_none rfl textExact exact, own]
  exact missed

/-- On a row the predicate of a pattern is tested without an escape, on a record with the backslash
as one.  For the texts and patterns without zeros the row is selected exactly if the record is, when
no backslash stands before another character of the pattern; when one does, there is a text for which
only one of them is selected. -/
theorem likePredicate_selects (sqlite : c.dialect = .sqlite)
    (compiled : c.compilePredicate [.on field (likeOperator negate) (.text pattern)]
      = .ok statement) :
    ∃ plan e, KeyValue.Plan.compile
        { conditions := [.on field (likeOperator negate) (.text pattern)] } = .ok plan ∧
      Parser.wholeExpr statement.sql.toList = .ok e ∧
      (∀ row : TextRow c statement field,
        row.Selects e (likeTexts Shared.settings none row.text pattern != negate) ∧
        plan.selects row.record = (Like.isMatch row.text pattern != negate)) ∧
      ((Value.text pattern).IsExact → '\\' ∉ pattern.toList.dropLast →
        ∀ row : TextRow c statement field, (Value.text row.text).IsExact →
          row.Selects e (plan.selects row.record)) ∧
      ((Value.text pattern).IsExact → '\\' ∈ pattern.toList.dropLast →
        ∃ text, (Value.text text).IsExact ∧
          ∀ row : TextRow c statement field, row.text = text →
            row.Selects e (!plan.selects row.record)) := by
  obtain ⟨read, params, valid⟩ := likePredicate_written sqlite compiled
  obtain ⟨plan, planned, selects⟩ := exists_likePlan valid
  have onRow (row : TextRow c statement field) := row.selects_like negate params
  have onRecord (row : TextRow c statement field) := selects row.record row.text row.held
  refine ⟨plan, _, planned, read, fun row => ⟨onRow row, onRecord row⟩, ?_, ?_⟩
  · intro exact noEscape row textExact
    have sensitive : Shared.settings.caseSensitive = true := rfl
    rw [onRecord row, ← likeTexts_plain sensitive textExact exact noEscape]
    exact onRow row
  · intro exact escape
    obtain ⟨text, textExact, differs⟩ := exists_differing exact escape
    refine ⟨text, textExact, ?_⟩
    rintro row rfl
    have answer := onRow row
    rw [differs, Bool.not_bne] at answer
    rw [onRecord row]
    exact answer

end Patterns

/-! ### A column of names -/

def nameStatement (pattern : String) : Statement where
  sql := "\"name\" LIKE ?"
  params := [.text pattern]

/-- The only row of a table with a column of names. -/
def nameRow (pattern text : String) : TextRow {} (nameStatement pattern) "name" where
  catalog := peopleCatalog
  scope := [{ columns := [⟨"people", "name", some .text, false⟩] }]
  env := { table := fun _ => [], params := [.text pattern], settings := Shared.settings,
           rows := [[.text text]] }
  record := .ofList [("name", .text text)]
  text := text
  settings := rfl
  params := rfl
  held := rfl
  shown := ⟨⟨.cell 0 0, some .text, [], some "name"⟩, by with_unfolding_all rfl, rfl,
    by rintro a ⟨⟩; rfl⟩

/-- Ada is selected by the beginning of her name. -/
theorem beginningWithA_selects :
    Compiler.dialect {} = .sqlite ∧
    Compiler.compilePredicate {} [.on "name" (likeOperator false) (.text "A%")]
      = .ok (nameStatement "A%") ∧
    ∃ plan e, KeyValue.Plan.compile
        { conditions := [.on "name" (likeOperator false) (.text "A%")] } = .ok plan ∧
      Parser.wholeExpr (nameStatement "A%").sql.toList = .ok e ∧
      plan.selects (nameRow "A%" "Ada").record = true ∧ (nameRow "A%" "Ada").Selects e true := by
  have compiled : Compiler.compilePredicate {} [.on "name" (likeOperator false) (.text "A%")]
      = .ok (nameStatement "A%") := by
    with_unfolding_all rfl
  obtain ⟨plan, e, planned, read, answers, agrees, -⟩ := likePredicate_selects rfl compiled
  have matched : Like.isMatch "Ada" "A%" = true :=
    (Like.isMatch_iff _ _).2 ⟨['d', 'a'], rfl, ['d', 'a'], [], rfl, rfl⟩
  have selected : plan.selects (nameRow "A%" "Ada").record = true := by
    rw [(answers _).2]
    exact congrArg (· != false) matched
  refine ⟨rfl, compiled, plan, e, planned, read, selected, ?_⟩
  rw [← selected]
  exact agrees (by decide) (by decide) _ (by decide)

/-- An escaped percent sign selects the record with that name, and not the row. -/
theorem escapedPercent_selects :
    Compiler.dialect {} = .sqlite ∧
    Compiler.compilePredicate {} [.on "name" (likeOperator false) (.text "100\\%")]
      = .ok (nameStatement "100\\%") ∧
    ∃ plan e, KeyValue.Plan.compile
        { conditions := [.on "name" (likeOperator false) (.text "100\\%")] } = .ok plan ∧
      Parser.wholeExpr (nameStatement "100\\%").sql.toList = .ok e ∧
      plan.selects (nameRow "100\\%" "100%").record = true ∧
      (nameRow "100\\%" "100%").Selects e false := by
  have compiled :
      Compiler.compilePredicate {} [.on "name" (likeOperator false) (.text "100\\%")]
        = .ok (nameStatement "100\\%") := by
    with_unfolding_all rfl
  obtain ⟨read, params, valid⟩ := likePredicate_written rfl compiled
  obtain ⟨plan, planned, selects⟩ := exists_likePlan valid
  have matched : Like.isMatch "100%" "100\\%" = true := by decide +kernel
  have missed : likeTexts Shared.settings none "100%" "100\\%" = false := by decide +kernel
  have onRow := (nameRow "100\\%" "100%").selects_like false params
  refine ⟨rfl, compiled, plan, _, planned, read, ?_, ?_⟩
  · rw [selects _ "100%" rfl, matched]
    rfl
  · have same : (nameRow "100\\%" "100%").text = "100%" := rfl
    rw [same, missed] at onRow
    exact onRow

end Recordkeeper.Relational
