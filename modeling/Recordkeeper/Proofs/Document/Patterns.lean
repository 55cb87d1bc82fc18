import Recordkeeper.Proofs.Document.Test

/-!
Contract: LIKE patterns in a document store against the patterns themselves.

Owns:
- the answer of a document store to the test that a LIKE predicate is compiled to;
- `likeExpression_matches`: the texts that the expression of a pattern matches, and when they are
  those that the pattern matches.

Does not own: patterns with an underscore, which an expression takes for itself.
-/

set_option autoImplicit false

namespace Recordkeeper.Document

open Recordkeeper.Like (Element elements toRegex wholeRegex)

/-! ### The test of a pattern -/

/-- The answer for an expression that was read, which depends on its size alone. -/
def unlessLarge (r : Regex) (answer : Bool) : Outcome Bool :=
  if Regex.Parser.size r ≤ Regex.Parser.sizeLimit then .ok answer
  else badValue "invalid $regex: <regex error>"

/-- An expression stands for a pattern in a document store: it is what the written pattern is read
as, and texts are tested with it for the operator and for its negation. -/
structure Stands (pattern : String) (r : Regex) : Prop where
  read : Regex.Parser.expression ((toRegex pattern).length + 1) {} {} [] [] (toRegex pattern).toList
    = some r
  like : ∀ field text, ∃ test, Compiler.fieldTest ⟨field, .like, .text pattern⟩ = .ok (some test) ∧
    fieldMatches (some (.text text)) test = unlessLarge r (r.isMatch text)
  notLike : ∀ field text, ∃ test,
    Compiler.fieldTest ⟨field, .notLike, .text pattern⟩ = .ok (some test) ∧
    fieldMatches (some (.text text)) test = unlessLarge r (!r.isMatch text)

theorem filterRegex_toRegex (pattern : String) :
    filterRegex (.text (toRegex pattern)) none
      = if Regex.Parser.size (wholeRegex pattern) ≤ Regex.Parser.sizeLimit then
          .ok (wholeRegex pattern)
        else badValue "invalid $regex: <regex error>" := by
  rw [filterRegex_plain, Like.parse?_eq_wholeRegex]
  by_cases small : Regex.Parser.size (wholeRegex pattern) ≤ Regex.Parser.sizeLimit
  · rw [if_pos small, if_pos small]
  · rw [if_neg small, if_neg small]

/-- A text has no candidates but itself. -/
theorem fieldMatches_toRegex (pattern text : String) :
    fieldMatches (some (.text text)) (.single "$regex" (.text (toRegex pattern)))
      = unlessLarge (wholeRegex pattern) ((wholeRegex pattern).isMatch text) := by
  rw [fieldMatches_single _ _ (by decide) (by decide)]
  show (filterRegex (.text (toRegex pattern)) none >>= fun r => _) = _
  rw [filterRegex_toRegex, unlessLarge]
  split
  · exact congrArg Except.ok (Bool.or_false _)
  · rfl

theorem stands_wholeRegex (pattern : String) : Stands pattern (wholeRegex pattern) where
  read := Like.expression_toRegex pattern
  like _ text := ⟨_, rfl, fieldMatches_toRegex pattern text⟩
  notLike _ text := by
    refine ⟨_, rfl, ?_⟩
    show fieldMatches _ (.object [("$not", .single "$regex" (.text (toRegex pattern))),
      ("$ne", .null)]) = _
    rw [fieldMatches_pair _ _ _ (by decide) (by decide), operatorsMatch, if_pos rfl,
      isOperatorDoc_single _ (by decide), if_pos rfl, fieldMatches_toRegex, unlessLarge, unlessLarge]
    split
    · cases (wholeRegex pattern).isMatch text <;> rfl
    · rfl

/-! ### Expressions and patterns -/

/-- The expression of a pattern without underscores matches the texts that split into what the
elements of the pattern accept, where no run goes past a line feed.  It never matches more than the
pattern, it matches the same texts of one line, and it matches the same texts of any kind only if the
pattern has no percent sign. -/
theorem likeExpression_matches {pattern : String}
    (noUnderscore : Element.anyChar ∉ elements pattern.toList) :
    ∃ r, Stands pattern r ∧
      (∀ text, r.isMatch text = true ↔
        ∃ pieces : List (List Char), text.toList = pieces.flatten ∧
          List.Forall₂ Element.AcceptsInLine (elements pattern.toList) pieces) ∧
      (∀ text, r.isMatch text = true → Like.isMatch text pattern = true) ∧
      (∀ text, '\n' ∉ text.toList → r.isMatch text = Like.isMatch text pattern) ∧
      ((∀ text, r.isMatch text = Like.isMatch text pattern) ↔
        .anyRun ∉ elements pattern.toList) := by
  refine ⟨wholeRegex pattern, stands_wholeRegex pattern, Like.isMatch_wholeRegex_iff noUnderscore,
    fun text => Like.isMatch_of_wholeRegex noUnderscore,
    fun text noFeed => Like.isMatch_wholeRegex noUnderscore fun _ => noFeed, ?_⟩
  constructor
  · intro agree run
    obtain ⟨text, matched, missed⟩ := Like.exists_missed noUnderscore run
    rw [← agree, missed] at matched
    cases matched
  · intro noRun text
    exact Like.isMatch_wholeRegex noUnderscore fun run => absurd run noRun

/-- The texts that begin with a letter: Ada is found, and some text of several lines is not. -/
theorem beginningWithA_matches :
    Element.anyChar ∉ elements "A%".toList ∧
    ∃ r, Stands "A%" r ∧ r.isMatch "Ada" = true ∧
      ¬∀ text, r.isMatch text = Like.isMatch text "A%" := by
  have noUnderscore : Element.anyChar ∉ elements "A%".toList := by decide
  obtain ⟨r, stands, -, -, sameLine, same⟩ := likeExpression_matches noUnderscore
  refine ⟨noUnderscore, r, stands, ?_, fun agree => same.1 agree (by decide)⟩
  rw [sameLine "Ada" (by decide), Like.isMatch_iff]
  exact ⟨['d', 'a'], rfl, ['d', 'a'], [], rfl, rfl⟩

/-- A percent sign does not find a text of two lines. -/
theorem twoLines_missed :
    Element.anyChar ∉ elements "%".toList ∧ Like.isMatch "Ada\nLovelace" "%" = true ∧
    ∃ r, Stands "%" r ∧ Regex.parse? (toRegex "%") = some r ∧ r.isMatch "Ada\nLovelace" = false := by
  have readable : (Regex.parse? (toRegex "%")).isSome := Like.parse?_toRegex (by decide)
  obtain ⟨r, read⟩ := Option.isSome_iff_exists.1 readable
  have missed : r.isMatch "Ada\nLovelace" = false :=
    Bool.eq_false_iff.2 fun matched => (Like.isMatch_percent read _).1 matched (by decide)
  have stands : Stands "%" r := Like.eq_wholeRegex read ▸ stands_wholeRegex "%"
  exact ⟨by decide, Like.isMatch_percents "Ada\nLovelace" 0, r, stands, read, missed⟩

end Recordkeeper.Document
