import Recordkeeper.KeyValue.Plan
import Recordkeeper.Proofs.Pattern.Like
import Recordkeeper.Relational.Compiler

/-!
Contract: escaped literals in patterns.

Owns:
- the elements of an escaped literal, whatever follows it;
- `exists_escaped`: a text that tells a backslash before another character from a literal one;
- `parts_mean`: a pattern made of an escaped literal and percent signs matches the texts that have
  the literal as a part, and it is the pattern that the relational compiler binds for the operators
  whose truth a plan finds by a direct test of the text.

Does not own: how an engine reads the pattern.
-/

set_option autoImplicit false

namespace Recordkeeper.Like

/-! ### The elements of an escaped literal -/

/-- An escaped literal is read as its characters, and ends where it was written to end. -/
theorem elements_escapeChars (literal rest : List Char) :
    elements (escapeChars literal ++ rest) = literal.map .exactly ++ elements rest := by
  induction literal with
  | nil => rfl
  | cons c literal inductionHypothesis =>
      rw [escapeChars]
      split
      next =>
        rw [List.cons_append, List.cons_append, elements, inductionHypothesis]
        rfl
      next ordinary =>
        simp only [not_or] at ordinary
        obtain ⟨noEscape, noRun, noChar⟩ := ordinary
        rw [List.cons_append, elements_cons noEscape, sign, if_neg noRun, if_neg noChar,
          inductionHypothesis]
        rfl

theorem elements_escapeChars_nil (literal : List Char) :
    elements (escapeChars literal) = literal.map .exactly := by
  simpa [elements] using elements_escapeChars literal []

theorem toList_escape (literal : String) : (escape literal).toList = escapeChars literal.toList :=
  String.toList_ofList

theorem escape_inj {s t : String} : escape s = escape t ↔ s = t := by
  refine ⟨fun same => ?_, congrArg _⟩
  have chars := congrArg (fun escaped => elements escaped.toList) same
  simp only [toList_escape, elements_escapeChars_nil] at chars
  exact String.toList_inj.1 ((List.map_inj_right fun _ _ equal => Element.exactly.inj equal).1 chars)

/-! ### Patterns in which a backslash is literal -/

theorem sign_beq {d : Char} (noRun : d ≠ '%') (noMark : d ≠ '_') (c : Char) :
    (sign c == .exactly d) = (c == d) := by
  rw [Bool.eq_iff_iff, beq_iff_eq, beq_iff_eq, sign]
  split
  next run => exact iff_of_false (by rintro ⟨⟩) fun same => noRun (same ▸ run)
  next =>
    split
    next mark => exact iff_of_false (by rintro ⟨⟩) fun same => noMark (same ▸ mark)
    next => exact Element.exactly.injEq c d ▸ Iff.rfl

theorem count_signs {d : Char} (noRun : d ≠ '%') (noMark : d ≠ '_') (cs : List Char) :
    (cs.map sign).count (.exactly d) = cs.count d := by
  induction cs with
  | nil => rfl
  | cons c rest inductionHypothesis =>
      rw [List.map_cons, List.count_cons, List.count_cons, inductionHypothesis,
        sign_beq noRun noMark]

/-- A pattern has at most as many literal backslashes as it writes, and fewer if one of them makes
another character literal. -/
theorem count_elements (cs : List Char) :
    (elements cs).count (.exactly '\\') ≤ cs.count '\\' ∧
      ('\\' ∈ cs.dropLast → (elements cs).count (.exactly '\\') < cs.count '\\') := by
  induction cs using elements_induction with
  | nil => exact ⟨Nat.le_refl _, fun escape => absurd escape List.not_mem_nil⟩
  | last => exact ⟨Nat.le_refl _, fun escape => absurd escape List.not_mem_nil⟩
  | escaped c rest inductionHypothesis =>
      have others := inductionHypothesis.1
      have first : (Element.exactly c == .exactly '\\') = (c == '\\') := by
        rw [Bool.eq_iff_iff, beq_iff_eq, beq_iff_eq, Element.exactly.injEq]
      have fewer : (Element.exactly c :: elements rest).count (.exactly '\\')
          < ('\\' :: c :: rest).count '\\' := by
        rw [List.count_cons, List.count_cons_self, List.count_cons, first]
        omega
      exact ⟨Nat.le_of_lt fewer, fun _ => fewer⟩
  | plain c rest noBackslash inductionHypothesis =>
      rw [elements_cons noBackslash, List.count_cons, List.count_cons,
        sign_beq (by decide) (by decide), beq_eq_false_iff_ne.2 noBackslash]
      refine ⟨inductionHypothesis.1, fun escape => inductionHypothesis.2 ?_⟩
      cases rest with
      | nil => cases escape
      | cons d rest =>
          rw [List.dropLast_cons_cons, List.mem_cons] at escape
          exact escape.resolve_left (Ne.symm noBackslash)

theorem mem_of_exactly {c : Char} {cs : List Char} (member : .exactly c ∈ elements cs) :
    c ∈ cs := by
  induction cs using elements_induction with
  | nil => cases member
  | last =>
      cases List.mem_singleton.1 member
      exact List.mem_cons_self
  | escaped d rest inductionHypothesis =>
      refine List.mem_cons_of_mem _ ?_
      rcases List.mem_cons.1 member with same | later
      · cases same
        exact List.mem_cons_self
      · exact List.mem_cons_of_mem _ (inductionHypothesis later)
  | plain d rest noBackslash inductionHypothesis =>
      rw [elements_cons noBackslash, sign] at member
      rcases List.mem_cons.1 member with same | later
      · split at same
        · cases same
        · split at same
          · cases same
          · cases same
            exact List.mem_cons_self
      · exact List.mem_cons_of_mem _ (inductionHypothesis later)

/-- A backslash before another character is told from a literal one by a text that has no characters
but those of the pattern and the one that an underscore stands for. -/
theorem exists_escaped {cs : List Char} (escape : '\\' ∈ cs.dropLast) :
    ∃ text, (∀ c ∈ text, c = '_' ∨ c ∈ cs) ∧ Matches (elements cs) text ∧
      ¬Matches (cs.map sign) text := by
  refine ⟨sampleText [] (elements cs), ?_, matches_sampleText _ _, fun matched => ?_⟩
  · intro c member
    obtain ⟨piece, listed, held⟩ := List.mem_flatten.1 member
    obtain ⟨e, element, rfl⟩ := List.mem_map.1 listed
    cases e with
    | anyRun => cases held
    | anyChar => exact Or.inl (List.mem_singleton.1 held)
    | exactly d =>
        obtain rfl := List.mem_singleton.1 held
        exact Or.inr (mem_of_exactly element)
  · -- the pattern writes more backslashes than the text has
    have atLeast := count_exactly_le matched '\\'
    have fewer := (count_elements cs).2 escape
    rw [count_signs (by decide) (by decide), count_sampleText (by decide), List.count_nil,
      Nat.mul_zero] at atLeast
    omega

/-! ### Parts of a text -/

section Parts

variable (text literal : String)

theorem isMatch_part_iff :
    isMatch text ("%" ++ escape literal ++ "%") = true ↔ literal.toList <:+: text.toList := by
  have pattern : ("%" ++ escape literal ++ "%").toList
      = '%' :: (escapeChars literal.toList ++ ['%']) := by
    simp [toList_escape]
  rw [isMatch_iff, pattern, elements_cons (by decide), elements_escapeChars]
  exact matches_part_iff _ _

theorem isMatch_start_iff :
    isMatch text (escape literal ++ "%") = true ↔ literal.toList <+: text.toList := by
  have pattern : (escape literal ++ "%").toList = escapeChars literal.toList ++ ['%'] := by
    simp [toList_escape]
  rw [isMatch_iff, pattern, elements_escapeChars]
  exact matches_start_iff _ _

theorem isMatch_end_iff :
    isMatch text ("%" ++ escape literal) = true ↔ literal.toList <:+ text.toList := by
  have pattern : ("%" ++ escape literal).toList = '%' :: (escapeChars literal.toList ++ []) := by
    simp [toList_escape]
  rw [isMatch_iff, pattern, elements_cons (by decide), elements_escapeChars, elements,
    List.append_nil]
  exact matches_end_iff _ _

theorem isMatch_escape_iff : isMatch text (escape literal) = true ↔ text = literal := by
  rw [isMatch_iff, toList_escape, elements_escapeChars_nil, matches_literal_iff, String.toList_inj]

end Parts

/-! ### The patterns of predicates -/

/-- A predicate stands for a pattern: it is written as a test of its column against the pattern, in
which the backslash is the escape, and it is true for the texts that match the pattern. -/
structure StandsFor (c : Relational.Compiler) (p : Predicate) (pattern : String) : Prop where
  written : ∀ column, c.predicateOn p column
    = .ok [.text (column ++ " LIKE "), .bound (.text pattern),
        .text (Relational.Compiler.escapeClause c.dialect)]
  means : ∀ text, p.truthFor (.text text) = .ofBool (isMatch text pattern)

/-- Around an escaped literal a percent sign is any rest of the text and nothing else is a sign.  So
the patterns match the texts that contain, begin with, end with or are the literal, and the operators
that are written with them are true for the same texts. -/
theorem parts_mean (text literal : String) :
    (isMatch text ("%" ++ escape literal ++ "%") = true ↔ literal.toList <:+: text.toList) ∧
    (isMatch text (escape literal ++ "%") = true ↔ literal.toList <+: text.toList) ∧
    (isMatch text ("%" ++ escape literal) = true ↔ literal.toList <:+ text.toList) ∧
    (isMatch text (escape literal) = true ↔ text = literal) ∧
    ∀ (c : Relational.Compiler) (field : String),
      StandsFor c ⟨field, .contains, .text literal⟩ ("%" ++ escape literal ++ "%") ∧
      StandsFor c ⟨field, .startsWith, .text literal⟩ (escape literal ++ "%") ∧
      StandsFor c ⟨field, .endsWith, .text literal⟩ ("%" ++ escape literal) := by
  refine ⟨isMatch_part_iff text literal, isMatch_start_iff text literal,
    isMatch_end_iff text literal, isMatch_escape_iff text literal, fun c field => ⟨?_, ?_, ?_⟩⟩
  · refine ⟨fun column => rfl, fun text => congrArg Truth.ofBool ?_⟩
    rw [Bool.eq_iff_iff, isMatch_part_iff]
    exact hasInfix_iff _ _
  · refine ⟨fun column => rfl, fun text => congrArg Truth.ofBool ?_⟩
    rw [Bool.eq_iff_iff, isMatch_start_iff]
    exact List.isPrefixOf_iff_prefix
  · refine ⟨fun column => rfl, fun text => congrArg Truth.ofBool ?_⟩
    rw [Bool.eq_iff_iff, isMatch_end_iff]
    exact List.isSuffixOf_iff_suffix

end Recordkeeper.Like
