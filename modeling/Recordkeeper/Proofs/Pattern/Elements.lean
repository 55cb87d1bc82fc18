import Mathlib.Data.List.Forall2
import Recordkeeper.Pattern.Like

/-!
Contract: what a LIKE pattern means.

Owns:
- the elements of a pattern, and induction on a pattern by them;
- `Matches`: the texts that a list of elements matches, and that they are the texts that split into
  one accepted piece for each element;
- a sample of the texts that elements match, with the number of times a character is in it;
- the matcher of elements decides it.

Does not own: the search for a match of a written pattern, and expressions.
-/

set_option autoImplicit false

namespace Recordkeeper.Like

/-! ### The elements of a pattern -/

/-- The elements of a pattern: a percent sign is any run of characters, an underscore any one
character, and a backslash makes the next character literal.  A backslash at the end stands
for itself. -/
def elements : List Char → List Element
  | [] => []
  | ['\\'] => [.exactly '\\']
  | '\\' :: c :: rest => .exactly c :: elements rest
  | c :: rest =>
    (if c = '%' then .anyRun else if c = '_' then .anyChar else .exactly c) :: elements rest

/-- Induction on a pattern by the elements that it is read as. -/
@[elab_as_elim]
theorem elements_induction {motive : List Char → Prop} (nil : motive []) (last : motive ['\\'])
    (escaped : ∀ c rest, motive rest → motive ('\\' :: c :: rest))
    (plain : ∀ c rest, c ≠ '\\' → motive rest → motive (c :: rest)) (cs : List Char) :
    motive cs := by
  fun_induction elements cs with
  | case1 => exact nil
  | case2 => exact last
  | case3 c rest inductionHypothesis => exact escaped c rest inductionHypothesis
  | case4 c rest single pair inductionHypothesis =>
      refine plain c rest ?_ inductionHypothesis
      rintro rfl
      cases rest with
      | nil => exact single rfl rfl
      | cons d rest => exact pair d rest rfl rfl

/-- The element of a character for itself. -/
def sign (c : Char) : Element :=
  if c = '%' then .anyRun else if c = '_' then .anyChar else .exactly c

/-- A character that is no backslash is an element of its own. -/
theorem elements_cons {c : Char} (noBackslash : c ≠ '\\') (rest : List Char) :
    elements (c :: rest) = sign c :: elements rest := by
  rw [elements, sign]
  · exact fun same => absurd same noBackslash
  · exact fun _ _ same => absurd same noBackslash

/-- Nothing is literal but for a backslash before it. -/
theorem elements_eq_signs {cs : List Char} (noEscape : '\\' ∉ cs.dropLast) :
    elements cs = cs.map sign := by
  induction cs with
  | nil => rfl
  | cons c rest inductionHypothesis =>
      cases rest with
      | nil =>
          by_cases backslash : c = '\\'
          · subst backslash
            rfl
          · exact elements_cons backslash []
      | cons d rest =>
          rw [List.dropLast_cons_cons, List.mem_cons, not_or] at noEscape
          rw [elements_cons (Ne.symm noEscape.1), inductionHypothesis noEscape.2]
          rfl

/-! ### The meaning of a pattern -/

/-- Whether a text splits into pieces that the elements match one after another. -/
def Matches : List Element → List Char → Prop
  | [], text => text = []
  | .anyRun :: es, text => ∃ front back, text = front ++ back ∧ Matches es back
  | .anyChar :: es, text => ∃ c back, text = c :: back ∧ Matches es back
  | .exactly d :: es, text => ∃ back, text = d :: back ∧ Matches es back

/-- What one element takes off the front of a text. -/
def Element.Takes : Element → List Char → List Char → Prop
  | .anyRun, text, rest => ∃ front, text = front ++ rest
  | .anyChar, text, rest => ∃ c, text = c :: rest
  | .exactly d, text, rest => text = d :: rest

theorem matches_cons (e : Element) (es : List Element) (text : List Char) :
    Matches (e :: es) text ↔ ∃ rest, e.Takes text rest ∧ Matches es rest := by
  cases e with
  | anyRun =>
      constructor
      · rintro ⟨front, back, split, matched⟩
        exact ⟨back, ⟨front, split⟩, matched⟩
      · rintro ⟨back, ⟨front, split⟩, matched⟩
        exact ⟨front, back, split, matched⟩
  | anyChar =>
      constructor
      · rintro ⟨c, back, split, matched⟩
        exact ⟨back, ⟨c, split⟩, matched⟩
      · rintro ⟨back, ⟨c, split⟩, matched⟩
        exact ⟨c, back, split, matched⟩
  | exactly d => rfl

/-! ### Pieces of a text -/

/-- The pieces of a text that an element stands for. -/
def Element.Accepts : Element → List Char → Prop
  | .anyRun, _ => True
  | .anyChar, piece => ∃ c, piece = [c]
  | .exactly d, piece => piece = [d]

theorem takes_iff_accepts (e : Element) (text rest : List Char) :
    e.Takes text rest ↔ ∃ piece, e.Accepts piece ∧ text = piece ++ rest := by
  cases e with
  | anyRun => exact exists_congr fun piece => (and_iff_right trivial).symm
  | anyChar =>
      constructor
      · rintro ⟨c, split⟩
        exact ⟨[c], ⟨c, rfl⟩, split⟩
      · rintro ⟨_, ⟨c, rfl⟩, split⟩
        exact ⟨c, split⟩
  | exactly d =>
      constructor
      · intro split
        exact ⟨[d], rfl, split⟩
      · rintro ⟨_, rfl, split⟩
        exact split

/-- A text matches when it splits into consecutive pieces, one for each element. -/
theorem matches_iff_pieces (es : List Element) (text : List Char) :
    Matches es text ↔
      ∃ pieces : List (List Char), text = pieces.flatten ∧ List.Forall₂ Element.Accepts es pieces := by
  induction es generalizing text with
  | nil =>
      constructor
      · rintro rfl
        exact ⟨[], rfl, .nil⟩
      · rintro ⟨_, split, ⟨⟩⟩
        exact split
  | cons e es inductionHypothesis =>
      rw [matches_cons]
      simp only [takes_iff_accepts, inductionHypothesis]
      constructor
      · rintro ⟨rest, ⟨piece, accepted, rfl⟩, pieces, rfl, others⟩
        exact ⟨piece :: pieces, rfl, .cons accepted others⟩
      · rintro ⟨_, split, others⟩
        obtain _ | ⟨accepted, others⟩ := others
        exact ⟨_, ⟨_, accepted, split⟩, _, rfl, others⟩

/-! ### Literals and runs -/

theorem matches_literals (literal : List Char) (es : List Element) (text : List Char) :
    Matches (literal.map .exactly ++ es) text ↔ ∃ back, text = literal ++ back ∧ Matches es back := by
  induction literal generalizing text with
  | nil => simp
  | cons d literal inductionHypothesis =>
      show (∃ back, text = d :: back ∧ Matches (literal.map .exactly ++ es) back) ↔ _
      simp only [inductionHypothesis]
      constructor
      · rintro ⟨_, rfl, back, rfl, later⟩
        exact ⟨back, rfl, later⟩
      · rintro ⟨back, rfl, later⟩
        exact ⟨_, rfl, back, rfl, later⟩

theorem matches_anyRun (text : List Char) : Matches [.anyRun] text :=
  ⟨text, [], (List.append_nil _).symm, rfl⟩

theorem matches_literal_iff (literal text : List Char) :
    Matches (literal.map .exactly) text ↔ text = literal := by
  have matched := matches_literals literal [] text
  rw [List.append_nil] at matched
  rw [matched]
  constructor
  · rintro ⟨_, rfl, rfl⟩
    exact List.append_nil literal
  · rintro rfl
    exact ⟨[], (List.append_nil _).symm, rfl⟩

theorem matches_start_iff (part text : List Char) :
    Matches (part.map .exactly ++ [.anyRun]) text ↔ part <+: text := by
  simp only [matches_literals, matches_anyRun, and_true]
  exact exists_congr fun back => eq_comm

theorem matches_end_iff (part text : List Char) :
    Matches (.anyRun :: part.map .exactly) text ↔ part <:+ text := by
  show (∃ front back, text = front ++ back ∧ Matches (part.map .exactly) back) ↔ _
  simp only [matches_literal_iff]
  constructor
  · rintro ⟨front, _, rfl, rfl⟩
    exact ⟨front, rfl⟩
  · rintro ⟨front, rfl⟩
    exact ⟨front, part, rfl, rfl⟩

theorem matches_part_iff (part text : List Char) :
    Matches (.anyRun :: (part.map .exactly ++ [.anyRun])) text ↔ part <:+: text := by
  show (∃ front back, text = front ++ back ∧ Matches (part.map .exactly ++ [.anyRun]) back) ↔ _
  simp only [matches_start_iff]
  constructor
  · rintro ⟨front, _, rfl, back, rfl⟩
    exact ⟨front, back, List.append_assoc _ _ _⟩
  · rintro ⟨front, back, rfl⟩
    exact ⟨front, part ++ back, List.append_assoc _ _ _, List.prefix_append part back⟩

/-! ### Samples -/

/-- An element that stands for one character takes it from the text. -/
theorem count_exactly_le {es : List Element} {text : List Char} (matched : Matches es text)
    (d : Char) : es.count (.exactly d) ≤ text.count d := by
  induction es generalizing text with
  | nil => exact Nat.zero_le _
  | cons e es inductionHypothesis =>
      obtain ⟨rest, takes, later⟩ := (matches_cons e es text).1 matched
      obtain ⟨piece, accepted, rfl⟩ := (takes_iff_accepts e text rest).1 takes
      have others := inductionHypothesis later
      rw [List.count_append, List.count_cons]
      split
      next same =>
        obtain rfl : e = .exactly d := eq_of_beq same
        obtain rfl : piece = [d] := accepted
        rw [List.count_singleton_self]
        omega
      next => omega

/-- A piece that an element accepts, where a run of characters is a given one. -/
def Element.sample (run : List Char) : Element → List Char
  | .anyRun => run
  | .anyChar => ['_']
  | .exactly c => [c]

/-- A text that elements match. -/
def sampleText (run : List Char) (es : List Element) : List Char :=
  (es.map (Element.sample run)).flatten

theorem matches_sampleText (run : List Char) (es : List Element) :
    Matches es (sampleText run es) := by
  refine (matches_iff_pieces _ _).2 ⟨es.map (Element.sample run), rfl, ?_⟩
  rw [List.forall₂_map_right_iff, List.forall₂_same]
  intro e _
  cases e with
  | anyRun => exact trivial
  | anyChar => exact ⟨'_', rfl⟩
  | exactly c => exact rfl

theorem count_sampleText {d : Char} (noMark : d ≠ '_') (run : List Char) (es : List Element) :
    (sampleText run es).count d = es.count (.exactly d) + es.count .anyRun * run.count d := by
  induction es with
  | nil => simp [sampleText]
  | cons e es inductionHypothesis =>
      rw [sampleText, List.map_cons, List.flatten_cons, List.count_append]
      show (e.sample run).count d + (sampleText run es).count d = _
      rw [inductionHypothesis, List.count_cons, List.count_cons]
      cases e with
      | anyRun => simp [Element.sample, Nat.add_mul]; omega
      | anyChar => simp [Element.sample, noMark.symm]
      | exactly c => simp [Element.sample, List.count_cons]; omega

/-! ### The ends of a text -/

theorem matchingEnds_ne_nil (text : List Char) (es : List Element) :
    matchingEnds text es ≠ [] := by
  induction es with
  | nil => simp [matchingEnds]
  | cons e es inductionHypothesis =>
      cases e with
      | anyRun =>
          rw [show matchingEnds text (.anyRun :: es) = anyLater (matchingEnds text es) from rfl]
          cases ends : matchingEnds text es with
          | nil => exact absurd ends inductionHypothesis
          | cons flag rest => simp [anyLater]
      | anyChar => simp [matchingEnds]
      | exactly d => simp [matchingEnds]

theorem matchElements_eq (text : List Char) (es : List Element) :
    ∃ rest, matchingEnds text es = matchElements es text :: rest := by
  unfold matchElements
  cases ends : matchingEnds text es with
  | nil => exact absurd ends (matchingEnds_ne_nil text es)
  | cons flag rest => exact ⟨rest, rfl⟩

/-- The ends of a longer text are the text itself and the ends of the shorter one. -/
theorem matchingEnds_tail (c : Char) (text : List Char) (es : List Element) :
    (matchingEnds (c :: text) es).tail = matchingEnds text es := by
  induction es with
  | nil => rfl
  | cons e es inductionHypothesis =>
      obtain ⟨rest, whole⟩ := matchElements_eq (c :: text) es
      obtain ⟨others, shorter⟩ := matchElements_eq text es
      rw [whole, List.tail_cons] at inductionHypothesis
      cases e with
      | anyRun =>
          show (anyLater (matchingEnds (c :: text) es)).tail = anyLater (matchingEnds text es)
          rw [whole, inductionHypothesis]
          rfl
      | anyChar =>
          show ((matchingEnds (c :: text) es).tail ++ [false]).tail
            = (matchingEnds text es).tail ++ [false]
          rw [whole, List.tail_cons, inductionHypothesis, shorter]
          rfl
      | exactly d =>
          show (List.zipWith _ (c :: text) (matchingEnds (c :: text) es).tail ++ [false]).tail
            = List.zipWith _ text (matchingEnds text es).tail ++ [false]
          rw [whole, List.tail_cons, inductionHypothesis, shorter]
          rfl

theorem matchingEnds_cons (c : Char) (text : List Char) (es : List Element) :
    matchingEnds (c :: text) es = matchElements es (c :: text) :: matchingEnds text es := by
  obtain ⟨rest, whole⟩ := matchElements_eq (c :: text) es
  have tail := matchingEnds_tail c text es
  rw [whole, List.tail_cons] at tail
  rw [whole, tail]

theorem matchingEnds_nil (es : List Element) :
    matchingEnds [] es = [matchElements es []] := by
  have single : (matchingEnds [] es).length = 1 := by
    induction es with
    | nil => rfl
    | cons e es inductionHypothesis =>
        obtain ⟨flag, one⟩ := List.length_eq_one_iff.1 inductionHypothesis
        cases e <;> simp [matchingEnds, one, anyLater]
  obtain ⟨flag, one⟩ := List.length_eq_one_iff.1 single
  rw [matchElements, one]
  rfl

/-! ### The matcher by the elements -/

theorem matchElements_anyRun_nil (es : List Element) :
    matchElements (.anyRun :: es) [] = matchElements es [] := by
  show (anyLater (matchingEnds [] es)).headD false = _
  rw [matchingEnds_nil]
  simp [anyLater]

theorem matchElements_anyRun_cons (es : List Element) (c : Char) (text : List Char) :
    matchElements (.anyRun :: es) (c :: text)
      = (matchElements es (c :: text) || matchElements (.anyRun :: es) text) := by
  show (anyLater (matchingEnds (c :: text) es)).headD false = _
  rw [matchingEnds_cons]
  rfl

theorem matchElements_anyChar_nil (es : List Element) :
    matchElements (.anyChar :: es) [] = false := by
  show ((matchingEnds [] es).tail ++ [false]).headD false = _
  rw [matchingEnds_nil]
  rfl

theorem matchElements_anyChar_cons (es : List Element) (c : Char) (text : List Char) :
    matchElements (.anyChar :: es) (c :: text) = matchElements es text := by
  show ((matchingEnds (c :: text) es).tail ++ [false]).headD false = _
  obtain ⟨rest, ends⟩ := matchElements_eq text es
  rw [matchingEnds_tail, ends]
  rfl

theorem matchElements_exactly_nil (d : Char) (es : List Element) :
    matchElements (.exactly d :: es) [] = false := rfl

theorem matchElements_exactly_cons (d : Char) (es : List Element) (c : Char) (text : List Char) :
    matchElements (.exactly d :: es) (c :: text) = (c == d && matchElements es text) := by
  show (List.zipWith _ (c :: text) (matchingEnds (c :: text) es).tail ++ [false]).headD false = _
  obtain ⟨rest, ends⟩ := matchElements_eq text es
  rw [matchingEnds_tail, ends]
  rfl

/-- The matcher decides the meaning of the elements. -/
theorem matchElements_iff (es : List Element) (text : List Char) :
    matchElements es text = true ↔ Matches es text := by
  induction es generalizing text with
  | nil => cases text <;> simp [matchElements, matchingEnds, Matches]
  | cons e es inductionHypothesis =>
      cases e with
      | anyRun =>
          show _ ↔ ∃ front back, text = front ++ back ∧ Matches es back
          induction text with
          | nil =>
              rw [matchElements_anyRun_nil, inductionHypothesis]
              constructor
              · intro matched
                exact ⟨[], [], rfl, matched⟩
              · rintro ⟨front, back, split, matched⟩
                rwa [(List.append_eq_nil_iff.1 split.symm).2] at matched
          | cons c text textHypothesis =>
              rw [matchElements_anyRun_cons, Bool.or_eq_true, inductionHypothesis, textHypothesis]
              constructor
              · rintro (matched | ⟨front, back, rfl, matched⟩)
                · exact ⟨[], c :: text, rfl, matched⟩
                · exact ⟨c :: front, back, rfl, matched⟩
              · rintro ⟨front, back, split, matched⟩
                cases front with
                | nil =>
                    left
                    rwa [split]
                | cons d front =>
                    right
                    injection split with _ sameRest
                    exact ⟨front, back, sameRest, matched⟩
      | anyChar =>
          show _ ↔ ∃ c back, text = c :: back ∧ Matches es back
          cases text with
          | nil => simp [matchElements_anyChar_nil]
          | cons c text =>
              rw [matchElements_anyChar_cons, inductionHypothesis]
              constructor
              · intro matched
                exact ⟨c, text, rfl, matched⟩
              · rintro ⟨d, back, split, matched⟩
                injection split with _ sameRest
                rwa [sameRest]
      | exactly d =>
          show _ ↔ ∃ back, text = d :: back ∧ Matches es back
          cases text with
          | nil => simp [matchElements_exactly_nil]
          | cons c text =>
              rw [matchElements_exactly_cons, Bool.and_eq_true, beq_iff_eq, inductionHypothesis]
              constructor
              · rintro ⟨rfl, matched⟩
                exact ⟨text, rfl, matched⟩
              · rintro ⟨back, split, matched⟩
                injection split with sameChar sameRest
                exact ⟨sameChar, by rwa [sameRest]⟩

end Recordkeeper.Like
