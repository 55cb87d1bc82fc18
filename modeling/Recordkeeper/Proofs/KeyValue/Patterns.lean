import Recordkeeper.KeyValue.Store
import Recordkeeper.Proofs.Pattern.Parts

/-!
Contract: key patterns of a key-value store against their meaning.

Owns:
- the expression that a store reads a pattern as, and the one reason to refuse it;
- `keyPattern_means`: the keys that a pattern matches, and the patterns that have no meaning.

Does not own: which keys a scan reads.
-/

set_option autoImplicit false

namespace Recordkeeper.KeyValue

open Recordkeeper.Glob (WellFormed Written Fits Unclosed)

/-- An expression stands for a pattern in a store: the pattern is read as the expression, and the
store accepts it unless it is too large, which it is for long patterns only. -/
structure Stands (pattern : String) (r : Regex) : Prop where
  read : Glob.expression? pattern = some r
  accepted : keyPattern pattern
    = if Regex.Parser.size r ≤ Regex.Parser.sizeLimit then .ok r
      else .error ⟨"ERR bad pattern '" ++ pattern ++ "': <regex error>"⟩
  short : 10 * pattern.length + 2 ≤ Regex.Parser.sizeLimit → keyPattern pattern = .ok r

theorem keyPattern_of_expression? {pattern : String} {r : Regex}
    (read : Glob.expression? pattern = some r) :
    keyPattern pattern
      = if Regex.Parser.size r ≤ Regex.Parser.sizeLimit then .ok r
        else .error ⟨"ERR bad pattern '" ++ pattern ++ "': <regex error>"⟩ := by
  rw [keyPattern, Glob.toRegex_of_expression? read]
  by_cases small : Regex.Parser.size r ≤ Regex.Parser.sizeLimit
  · rw [if_pos small, if_pos small]
  · rw [if_neg small, if_neg small]

theorem stands_of_written {pattern : String} {parts : List Glob.Part}
    (written : Written parts pattern.toList) :
    Stands pattern (Regex.chain (Glob.wholeExpressions parts)) where
  read := Glob.expression?_written written
  accepted := keyPattern_of_expression? (Glob.expression?_written written)
  short bounded := by
    have size := Glob.size_wholeExpressions_le written
    rw [String.length_toList] at size
    rw [keyPattern_of_expression? (Glob.expression?_written written),
      if_pos (Nat.le_trans size bounded)]

theorem keyPattern_unterminated_iff (pattern : String) :
    keyPattern pattern = .error ⟨"ERR unterminated class in pattern '" ++ pattern ++ "'"⟩
      ↔ Unclosed pattern.toList := by
  rw [← Glob.toRegex_unterminated_iff, keyPattern]
  split
  next same => simp [same]
  next same => simp [same]
  next same =>
    refine iff_of_false (fun equal => ?_) (by simp [same])
    have messages := congrArg String.toList (KeyValueFailure.mk.inj (Except.error.inj equal))
    simp [String.toList_append] at messages

/-- A pattern whose classes hold letters, digits and ascending ranges of them is read as an
expression that matches the keys which split into pieces for the parts of the pattern.  A pattern
in which a class is not closed is refused, whatever else it holds. -/
theorem keyPattern_means (pattern : String) :
    (WellFormed pattern.toList →
      (∃ parts, Written parts pattern.toList) ∧
      ∃ r, Stands pattern r ∧ ∀ parts, Written parts pattern.toList →
        ∀ key : String, r.isMatch key = true ↔ Fits parts key.toList) ∧
    (keyPattern pattern = .error ⟨"ERR unterminated class in pattern '" ++ pattern ++ "'"⟩
      ↔ Unclosed pattern.toList) := by
  refine ⟨fun whole => ?_, keyPattern_unterminated_iff pattern⟩
  obtain ⟨parts, written⟩ := (Glob.wellFormed_iff _).1 whole
  have stands := stands_of_written written
  refine ⟨⟨parts, written⟩, _, stands, fun others otherWritten key => ?_⟩
  have same := Option.some.inj (stands.read.symm.trans (Glob.expression?_written otherWritten))
  rw [same, Glob.isMatch_wholeExpressions]

/-- A key, a character that is none of three digits, a star that is meant, and more. -/
def guardedParts : List Glob.Part :=
  [.exactly 'k', .oneOf ⟨true, [.range '0' '2'], by decide, by decide⟩, .exactly '*', .anyChar,
    .anyRun]

theorem guardedParts_written : Written guardedParts "k[!0-2]\\*?*".toList :=
  .cons (.plain (by decide)) (.cons (.oneOf (.negated rfl (Or.inl rfl)))
    (.cons (.escaped '*') (.cons .anyChar (.cons .anyRun .nil))))

/-- The star that is escaped has to be there, the characters behind it may be line feeds, and without
its closing bracket the pattern is refused. -/
theorem guardedParts_mean :
    WellFormed "k[!0-2]\\*?*".toList ∧
    (∃ r, keyPattern "k[!0-2]\\*?*" = .ok r ∧ r.isMatch "k3*\n\n" = true ∧
      r.isMatch "k1*\n\n" = false) ∧
    Unclosed "k[!0-2\\*?*".toList ∧
    keyPattern "k[!0-2\\*?*" = .error ⟨"ERR unterminated class in pattern 'k[!0-2\\*?*'"⟩ := by
  have whole := (Glob.wellFormed_iff _).2 ⟨_, guardedParts_written⟩
  obtain ⟨-, r, stands, means⟩ := (keyPattern_means "k[!0-2]\\*?*").1 whole
  have unclosed : Unclosed "k[!0-2\\*?*".toList :=
    ⟨_, .sign (by decide) (by decide) (.start _), by decide⟩
  refine ⟨whole, ⟨r, stands.short (by decide), ?_, ?_⟩, unclosed,
    (keyPattern_means "k[!0-2\\*?*").2.2 unclosed⟩
  · refine (means _ guardedParts_written _).2 ⟨[['k'], ['3'], ['*'], ['\n'], ['\n']], rfl, ?_⟩
    exact .cons rfl (.cons ⟨'3', rfl, by decide⟩
      (.cons rfl (.cons ⟨'\n', rfl⟩ (.cons trivial .nil))))
  · refine Bool.eq_false_iff.2 fun matched => ?_
    obtain ⟨_, split, _ | ⟨first, _ | ⟨⟨c, second, held⟩, -⟩⟩⟩ :=
      (means _ guardedParts_written _).1 matched
    subst first second
    obtain ⟨-, rest⟩ := List.cons.inj split
    obtain ⟨rfl, -⟩ := List.cons.inj rest
    exact absurd held (by decide)

end Recordkeeper.KeyValue
