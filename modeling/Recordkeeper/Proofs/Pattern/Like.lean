import Recordkeeper.Proofs.Pattern.Backtracking
import Recordkeeper.Proofs.Pattern.Expression

/-!
Contract: the expressions of patterns and of parts of texts match what those match.

Owns:
- `isMatch_wholeRegex_iff`: the texts that the expression of a pattern matches, which are those the
  pattern matches where no run meets a line feed;
- `exists_missed`: a pattern with a run of characters matches a text that its expression misses;
- the expressions for parts, beginnings and ends of a text.

Does not own: the meaning of patterns, and reading and matching expressions.

A run of characters ends at a line feed in an expression and does not in a pattern, and an
underscore is a literal in an expression.  So the expression of a pattern agrees with it on texts
without line feeds and for patterns that do not use the underscore.
-/

set_option autoImplicit false

namespace Recordkeeper.Like

/-! ### Patterns as expressions -/

open Recordkeeper.Regex (Piece Cursor Ahead chain)

/-- The piece of an expression for an element; an underscore is a literal there. -/
def Element.piece : Element → Piece
  | .anyRun => .anyRun
  | .anyChar => .exactly '_'
  | .exactly c => .exactly c

theorem regexBody_eq (cs : List Char) :
    regexBody cs = Piece.writtenAll ((elements cs).map Element.piece) := by
  fun_induction regexBody cs with
  | case1 => rfl
  | case2 => rfl
  | case3 c rest inductionHypothesis =>
      rw [elements, List.map_cons, Regex.writtenAll_cons, inductionHypothesis]
      rfl
  | case4 c rest single pair inductionHypothesis =>
      rw [elements, List.map_cons, Regex.writtenAll_cons, inductionHypothesis]
      · by_cases percent : c = '%'
        · subst percent
          rfl
        · rw [if_neg percent, if_neg percent]
          by_cases underscore : c = '_'
          · subst underscore
            rfl
          · rw [if_neg underscore]
            rfl
      · exact single
      · exact pair

def wholePieces (es : List Element) : List Piece :=
  .textStart :: (es.map Element.piece ++ [.textEnd])

theorem toRegex_eq (pattern : String) :
    toRegex pattern
      = String.ofList (Piece.writtenAll (wholePieces (elements pattern.toList))) := by
  unfold toRegex wholePieces
  rw [regexBody_eq, Regex.writtenAll_cons, Piece.writtenAll, Piece.writtenAll,
    List.flatMap_append]
  rfl

/-- The expressions of elements span what is left of a text when it splits into pieces that the
elements accept, if each of them spans the pieces that its element accepts. -/
theorem exists_spans_iff {α : Type} {expression : α → Regex} {accepts : α → List Char → Prop}
    {es : List α} {p : Cursor}
    (takes : ∀ e ∈ es, ∀ m rest, (∃ q, (expression e).Spans m q ∧ q.after = rest) ↔
      ∃ piece, accepts e piece ∧ m.after = piece ++ rest) :
    (∃ q, (chain (es.map expression ++ [.look .textEnd])).Spans p q) ↔
      ∃ pieces : List (List Char), p.after = pieces.flatten ∧ List.Forall₂ accepts es pieces := by
  induction es generalizing p with
  | nil =>
      show (∃ q, q = p ∧ p.after.isEmpty = true) ↔ _
      rw [List.isEmpty_iff]
      constructor
      · rintro ⟨_, -, atEnd⟩
        exact ⟨[], atEnd, .nil⟩
      · rintro ⟨_, atEnd, ⟨⟩⟩
        exact ⟨p, rfl, atEnd⟩
  | cons e es inductionHypothesis =>
      have first := takes e List.mem_cons_self p
      have later {m : Cursor} := inductionHypothesis (p := m) fun e member =>
        takes e (List.mem_cons_of_mem _ member)
      rw [List.map_cons, List.cons_append]
      constructor
      · rintro ⟨q, spans⟩
        obtain ⟨m, taken, others⟩ := (Regex.spans_chain_cons _ _ p q).1 spans
        obtain ⟨piece, accepted, split⟩ := (first m.after).1 ⟨m, taken, rfl⟩
        obtain ⟨pieces, rest, acceptedLater⟩ := later.1 ⟨q, others⟩
        exact ⟨piece :: pieces, by rw [split, rest]; rfl, .cons accepted acceptedLater⟩
      · rintro ⟨_, split, acceptedAll⟩
        obtain _ | ⟨accepted, acceptedLater⟩ := acceptedAll
        obtain ⟨m, spans, rest⟩ := (first _).2 ⟨_, accepted, split⟩
        obtain ⟨q, others⟩ := later.2 ⟨_, rest, acceptedLater⟩
        exact ⟨q, (Regex.spans_chain_cons _ _ p q).2 ⟨m, spans, others⟩⟩

theorem takes_exactly (c : Char) (p : Cursor) (rest : List Char) :
    (∃ q, (Piece.exactly c).regex.Spans p q ∧ q.after = rest) ↔
      ∃ piece, piece = [c] ∧ p.after = piece ++ rest := by
  constructor
  · rintro ⟨q, spans, rfl⟩
    exact ⟨[c], rfl, ((Regex.spans_exactly c p q).1 spans).1⟩
  · rintro ⟨_, rfl, after⟩
    exact ⟨⟨some c, rest⟩, (Regex.spans_exactly c p _).2 ⟨after, rfl⟩, rfl⟩

/-- An expression for single characters takes the pieces of one character that it allows. -/
theorem takes_one {r : Regex} {allowed : Char → Prop}
    (spans : ∀ p q : Cursor, r.Spans p q ↔
      ∃ c, allowed c ∧ p.after = c :: q.after ∧ q.before = some c) (p : Cursor) (rest : List Char) :
    (∃ q, r.Spans p q ∧ q.after = rest) ↔
      ∃ piece, (∃ c, piece = [c] ∧ allowed c) ∧ p.after = piece ++ rest := by
  constructor
  · rintro ⟨q, taken, rfl⟩
    obtain ⟨c, ok, after, -⟩ := (spans p q).1 taken
    exact ⟨[c], ⟨c, rfl, ok⟩, after⟩
  · rintro ⟨_, ⟨c, rfl, ok⟩, after⟩
    exact ⟨⟨some c, rest⟩, (spans p _).2 ⟨c, ok, after, rfl⟩, rfl⟩

/-- A run of characters takes any part of a text, one without line feeds unless a dot stands for
them. -/
theorem takes_anyRun (dotAll : Bool) (p : Cursor) (rest : List Char) :
    (∃ q, (Piece.anyRun.regexIn dotAll).Spans p q ∧ q.after = rest) ↔
      ∃ piece, (dotAll = false → '\n' ∉ piece) ∧ p.after = piece ++ rest := by
  constructor
  · rintro ⟨q, spans, rfl⟩
    obtain ⟨taken, noFeed, after, -⟩ := (Regex.spans_anyRun dotAll p q).1 spans
    exact ⟨taken, noFeed, after⟩
  · rintro ⟨front, noFeed, after⟩
    exact ⟨⟨front.getLast?.or p.before, rest⟩,
      (Regex.spans_anyRun dotAll p _).2 ⟨front, noFeed, after, rfl⟩, rfl⟩

/-! ### Lines -/

/-- The pieces that an element accepts when a run of characters ends at a line feed. -/
def Element.AcceptsInLine (e : Element) (piece : List Char) : Prop :=
  e.Accepts piece ∧ (e = .anyRun → '\n' ∉ piece)

/-- From any position, the pieces of elements span the rest of the text when it splits into what the
elements accept within a line. -/
theorem exists_spans_elements {es : List Element} (noUnderscore : Element.anyChar ∉ es)
    (p : Cursor) :
    (∃ q, (chain ((es.map Element.piece ++ [Piece.textEnd]).map Piece.regex)).Spans p q) ↔
      ∃ pieces : List (List Char),
        p.after = pieces.flatten ∧ List.Forall₂ Element.AcceptsInLine es pieces := by
  rw [List.map_append, List.map_map]
  refine exists_spans_iff fun e member m rest => ?_
  cases e with
  | anyRun =>
      refine (takes_anyRun false m rest).trans (exists_congr fun piece => and_congr_left' ?_)
      exact ⟨fun noFeed => ⟨trivial, fun _ => noFeed rfl⟩, fun accepted _ => accepted.2 rfl⟩
  | anyChar => exact absurd member noUnderscore
  | exactly c =>
      refine (takes_exactly c m rest).trans (exists_congr fun piece => and_congr_left' ?_)
      exact ⟨fun same => ⟨same, nofun⟩, fun accepted => accepted.1⟩

theorem accepts_of_inLine {es : List Element} {pieces : List (List Char)}
    (accepted : List.Forall₂ Element.AcceptsInLine es pieces) :
    List.Forall₂ Element.Accepts es pieces :=
  accepted.imp fun _ _ => And.left

/-- Without line feeds in the text, or without runs in the pattern, lines make no difference. -/
theorem inLine_of_accepts {es : List Element} {pieces : List (List Char)}
    (noFeed : .anyRun ∈ es → '\n' ∉ pieces.flatten)
    (accepted : List.Forall₂ Element.Accepts es pieces) :
    List.Forall₂ Element.AcceptsInLine es pieces := by
  induction accepted with
  | nil => exact .nil
  | cons first _ inductionHypothesis =>
      rw [List.flatten_cons] at noFeed
      refine .cons ⟨first, ?_⟩ (inductionHypothesis fun member feed => ?_)
      · rintro rfl feed
        exact noFeed List.mem_cons_self (List.mem_append_left _ feed)
      · exact noFeed (List.mem_cons_of_mem _ member) (List.mem_append_right _ feed)

/-! ### Whole texts -/

/-- Only the start of a text has no character before it. -/
theorem eq_start {text : List Char} {p : Cursor} (ahead : Ahead ⟨none, text⟩ p)
    (first : p.before = none) : p = ⟨none, text⟩ := by
  obtain ⟨taken, after, before⟩ := ahead
  rw [before, Option.or_none] at first
  obtain rfl := List.getLast?_eq_none_iff.1 first
  cases p
  simp only [List.nil_append, List.getLast?_nil, Option.none_or] at after before
  rw [after, before]

/-- An expression that starts with the start of the text has to match there. -/
theorem isMatch_fromStart (rest : List Regex) (text : String) :
    (chain (.look .textStart :: rest)).isMatch text = true ↔
      ∃ q, (chain rest).Spans ⟨none, text.toList⟩ q := by
  rw [Regex.isMatch_iff]
  constructor
  · rintro ⟨p, q, ahead, spans⟩
    obtain ⟨m, ⟨rfl, atStart⟩, later⟩ := (Regex.spans_chain_cons _ _ p q).1 spans
    rw [eq_start ahead (Option.isNone_iff_eq_none.1 atStart)] at later
    exact ⟨q, later⟩
  · rintro ⟨q, later⟩
    exact ⟨_, q, Ahead.refl _, (Regex.spans_chain_cons _ _ _ q).2 ⟨_, ⟨rfl, rfl⟩, later⟩⟩

theorem isMatch_textStart (rest : List Piece) (text : String) :
    (chain ((Piece.textStart :: rest).map Piece.regex)).isMatch text = true ↔
      ∃ q, (chain (rest.map Piece.regex)).Spans ⟨none, text.toList⟩ q :=
  isMatch_fromStart (rest.map Piece.regex) text

theorem eq_chain_of_parse? {pieces : List Piece} {r : Regex}
    (read : Regex.parse? (String.ofList (Piece.writtenAll pieces)) = some r) :
    r = chain (pieces.map Piece.regex) := by
  rw [Regex.parse?_written] at read
  split at read
  next => exact (Option.some.inj read).symm
  next => cases read

/-- The expression of a pattern. -/
def wholeRegex (pattern : String) : Regex :=
  chain ((wholePieces (elements pattern.toList)).map Piece.regex)

theorem expression_toRegex (pattern : String) :
    Regex.Parser.expression ((toRegex pattern).length + 1) {} {} [] [] (toRegex pattern).toList
      = some (wholeRegex pattern) := by
  rw [toRegex_eq, String.length_ofList, String.toList_ofList, Regex.expression_written]
  rfl

theorem parse?_eq_wholeRegex (pattern : String) :
    Regex.parse? (toRegex pattern)
      = if Regex.Parser.size (wholeRegex pattern) ≤ Regex.Parser.sizeLimit then
          some (wholeRegex pattern)
        else none := by
  rw [toRegex_eq, Regex.parse?_written]
  rfl

theorem eq_wholeRegex {pattern : String} {r : Regex}
    (read : Regex.parse? (toRegex pattern) = some r) : r = wholeRegex pattern :=
  eq_chain_of_parse? (toRegex_eq pattern ▸ read)

section Agreement

variable {pattern : String} (noUnderscore : Element.anyChar ∉ elements pattern.toList)

include noUnderscore

/-- The expression of a pattern matches a text that splits into what the elements of the pattern
accept within a line. -/
theorem isMatch_wholeRegex_iff (text : String) :
    (wholeRegex pattern).isMatch text = true ↔
      ∃ pieces : List (List Char), text.toList = pieces.flatten ∧
        List.Forall₂ Element.AcceptsInLine (elements pattern.toList) pieces :=
  (isMatch_textStart _ text).trans (exists_spans_elements noUnderscore _)

theorem isMatch_of_wholeRegex {text : String}
    (matched : (wholeRegex pattern).isMatch text = true) : isMatch text pattern = true := by
  obtain ⟨pieces, split, accepted⟩ := (isMatch_wholeRegex_iff noUnderscore text).1 matched
  exact (isMatch_iff text pattern).2
    ((matches_iff_pieces _ _).2 ⟨pieces, split, accepts_of_inLine accepted⟩)

/-- Where no run can meet a line feed the expression matches the texts that the pattern matches. -/
theorem isMatch_wholeRegex {text : String}
    (noFeed : .anyRun ∈ elements pattern.toList → '\n' ∉ text.toList) :
    (wholeRegex pattern).isMatch text = isMatch text pattern := by
  rw [Bool.eq_iff_iff]
  refine ⟨isMatch_of_wholeRegex noUnderscore, fun matched => ?_⟩
  obtain ⟨pieces, split, accepted⟩ :=
    (matches_iff_pieces _ _).1 ((isMatch_iff text pattern).1 matched)
  exact (isMatch_wholeRegex_iff noUnderscore text).2
    ⟨pieces, split, inLine_of_accepts (split ▸ noFeed) accepted⟩

theorem isMatch_toRegex {text : String} {r : Regex}
    (read : Regex.parse? (toRegex pattern) = some r) (noFeed : '\n' ∉ text.toList) :
    r.isMatch text = isMatch text pattern := by
  rw [eq_wholeRegex read, isMatch_wholeRegex noUnderscore fun _ => noFeed]

end Agreement

/-! ### Line feeds -/

/-- Within a line the only line feeds of a text are those written in the pattern. -/
theorem count_inLine {es : List Element} {pieces : List (List Char)}
    (noUnderscore : Element.anyChar ∉ es)
    (accepted : List.Forall₂ Element.AcceptsInLine es pieces) :
    pieces.flatten.count '\n' = es.count (.exactly '\n') := by
  induction accepted with
  | nil => rfl
  | @cons e piece es pieces first _ inductionHypothesis =>
      rw [List.flatten_cons, List.count_append, List.count_cons,
        inductionHypothesis fun member => noUnderscore (List.mem_cons_of_mem _ member),
        Nat.add_comm]
      congr 1
      obtain ⟨accepts, inLine⟩ := first
      cases e with
      | anyRun => exact List.count_eq_zero.2 (inLine rfl)
      | anyChar => exact absurd List.mem_cons_self noUnderscore
      | exactly c =>
          obtain rfl : piece = [c] := accepts
          simp [List.count_cons]

/-- A pattern with a run of characters matches a text that its expression does not match. -/
theorem exists_missed {pattern : String} (noUnderscore : Element.anyChar ∉ elements pattern.toList)
    (run : .anyRun ∈ elements pattern.toList) :
    ∃ text, isMatch text pattern = true ∧ (wholeRegex pattern).isMatch text = false := by
  let text := String.ofList (sampleText ['\n'] (elements pattern.toList))
  have chars : text.toList = sampleText ['\n'] (elements pattern.toList) := String.toList_ofList
  have matched : isMatch text pattern = true := by
    rw [isMatch_iff, chars]
    exact matches_sampleText _ _
  refine ⟨text, matched, Bool.eq_false_iff.2 fun matched => ?_⟩
  -- each run of the text is a line feed that the pattern does not write
  obtain ⟨pieces, split, accepted⟩ := (isMatch_wholeRegex_iff noUnderscore text).1 matched
  have written := count_inLine noUnderscore accepted
  rw [← split, chars, count_sampleText (by decide), List.count_singleton_self] at written
  have some := List.count_pos_iff.2 run
  omega

/-! ### Sizes of patterns -/

theorem size_anyRun : Regex.Parser.size Piece.anyRun.regex = 12 := by
  show (0 + 1) * Regex.Parser.size (.oneOf (Text.Ranges.complement [(0x0A, 0x0A)])) + 1 = 12
  rw [Regex.complement_lineFeed]
  rfl

/-- No element takes more steps of the expression than a percent sign. -/
theorem size_piece_le (e : Element) : Regex.Parser.size e.piece.regex ≤ 12 := by
  have literal (c : Char) : Regex.Parser.size (Piece.exactly c).regex ≤ 12 :=
    Nat.le_trans (Regex.size_literal_le c) (by decide)
  cases e with
  | anyRun => exact Nat.le_of_eq size_anyRun
  | anyChar => exact literal '_'
  | exactly c => exact literal c

theorem size_wholePieces (es : List Element) :
    Regex.Parser.size (chain ((wholePieces es).map Piece.regex))
      = Regex.sizeAll ((es.map Element.piece).map Piece.regex) + 2 := by
  rw [wholePieces, List.map_cons, Regex.size_chain, List.map_append]
  show 1 + Regex.sizeAll (_ ++ [.look .textEnd]) = _
  rw [Regex.sizeAll_append]
  show 1 + (_ + 1) = _
  omega

theorem sizeAll_le (es : List Element) :
    Regex.sizeAll ((es.map Element.piece).map Piece.regex) ≤ 12 * es.length := by
  induction es with
  | nil => exact Nat.le_refl _
  | cons e es inductionHypothesis =>
      have first := size_piece_le e
      rw [List.map_cons, List.map_cons, Regex.sizeAll, List.length_cons]
      omega

theorem length_elements_le (cs : List Char) : (elements cs).length ≤ cs.length := by
  induction cs using elements_induction with
  | nil => exact Nat.le_refl _
  | last => exact Nat.le_refl _
  | escaped c rest inductionHypothesis =>
      show (elements rest).length + 1 ≤ rest.length + 1 + 1
      omega
  | plain c rest noBackslash inductionHypothesis =>
      rw [elements_cons noBackslash, List.length_cons, List.length_cons]
      exact Nat.succ_le_succ inductionHypothesis

/-- A pattern that is not too long is an expression. -/
theorem parse?_toRegex {pattern : String}
    (short : 12 * pattern.toList.length + 2 ≤ Regex.Parser.sizeLimit) :
    (Regex.parse? (toRegex pattern)).isSome := by
  have length := length_elements_le pattern.toList
  have size := sizeAll_le (elements pattern.toList)
  rw [toRegex_eq, Regex.parse?_written, size_wholePieces, if_pos (by omega)]
  rfl

def percents (n : Nat) : String := String.ofList (List.replicate n '%')

theorem elements_percents (n : Nat) :
    elements (percents n).toList = List.replicate n .anyRun := by
  rw [percents, String.toList_ofList]
  induction n with
  | zero => rfl
  | succ n inductionHypothesis =>
      rw [List.replicate_succ, List.replicate_succ, elements, inductionHypothesis, if_pos rfl]
      · intro same
        exact absurd same (by decide)
      · intro c rest same
        exact absurd same (by decide)

theorem isMatch_percents (text : String) (n : Nat) : isMatch text (percents (n + 1)) = true := by
  have nothing (n : Nat) : Matches (List.replicate n .anyRun) [] := by
    induction n with
    | zero => rfl
    | succ n inductionHypothesis => exact ⟨[], [], rfl, inductionHypothesis⟩
  rw [isMatch_iff, elements_percents]
  exact ⟨text.toList, [], (List.append_nil _).symm, nothing n⟩

/-- A percent sign alone matches every text, and its expression the texts without line feeds. -/
theorem isMatch_percent {r : Regex} (read : Regex.parse? (toRegex "%") = some r) (text : String) :
    r.isMatch text = true ↔ '\n' ∉ text.toList := by
  have single : elements "%".toList = [.anyRun] := rfl
  rw [eq_wholeRegex read, isMatch_wholeRegex_iff (by rw [single]; decide), single]
  constructor
  · rintro ⟨_, split, _ | ⟨⟨-, noFeed⟩, _ | _⟩⟩
    rw [split, List.flatten_cons, List.flatten_nil, List.append_nil]
    exact noFeed rfl
  · intro noFeed
    exact ⟨[text.toList], (List.append_nil _).symm, .cons ⟨trivial, fun _ => noFeed⟩ .nil⟩

/-! ### Parts of a text as expressions -/

theorem escape_eq (literal : List Char) :
    Regex.Parser.escape literal = Piece.writtenAll (literal.map .exactly) := by
  induction literal with
  | nil => rfl
  | cons c rest inductionHypothesis =>
      rw [List.map_cons, Regex.writtenAll_cons, ← inductionHypothesis]
      simp [Regex.Parser.escape, Piece.written]

theorem hasInfix_iff (part text : List Char) :
    Text.hasInfix part text = true ↔ part <:+: text := by
  induction text with
  | nil =>
      show part.isEmpty = true ↔ _
      rw [List.isEmpty_iff, List.infix_nil]
  | cons c text inductionHypothesis =>
      show (part.isPrefixOf (c :: text) || Text.hasInfix part text) = true ↔ _
      rw [Bool.or_eq_true, List.isPrefixOf_iff_prefix, inductionHypothesis, List.infix_cons_iff]

theorem spans_literal (literal : List Char) (rest : List Piece) (p q : Cursor) :
    (chain ((literal.map Piece.exactly ++ rest).map Piece.regex)).Spans p q ↔
      ∃ m, p.after = literal ++ m.after ∧ m.before = literal.getLast?.or p.before ∧
        (chain (rest.map Piece.regex)).Spans m q := by
  rw [List.map_append, List.map_map]
  exact Regex.exists_spans_literals literal (rest.map Piece.regex) p q

theorem isMatch_escape {part text : String} {r : Regex}
    (read : Regex.parse? (String.ofList (Regex.Parser.escape part.toList)) = some r) :
    r.isMatch text = Text.hasInfix part.toList text.toList := by
  rw [escape_eq] at read
  rw [eq_chain_of_parse? read, Bool.eq_iff_iff, Regex.isMatch_iff, hasInfix_iff]
  have spans (p q : Cursor) := spans_literal part.toList [] p q
  rw [List.append_nil] at spans
  constructor
  · rintro ⟨p, q, ⟨taken, after, -⟩, matched⟩
    obtain ⟨m, left, -, -⟩ := (spans p q).1 matched
    refine ⟨taken, m.after, ?_⟩
    rw [List.append_assoc, ← left]
    exact after.symm
  · rintro ⟨front, back, split⟩
    refine ⟨⟨front.getLast?, part.toList ++ back⟩, ⟨_, back⟩, ⟨front, ?_, ?_⟩,
      (spans _ _).2 ⟨⟨_, back⟩, rfl, rfl, rfl⟩⟩
    · rw [← List.append_assoc]
      exact split.symm
    · rw [Option.or_none]

theorem isMatch_start_escape {part text : String} {r : Regex}
    (read : Regex.parse? ("^" ++ String.ofList (Regex.Parser.escape part.toList)) = some r) :
    r.isMatch text = part.toList.isPrefixOf text.toList := by
  have written : "^" ++ String.ofList (Regex.Parser.escape part.toList)
      = String.ofList (Piece.writtenAll (.textStart :: part.toList.map .exactly)) := by
    rw [escape_eq, Regex.writtenAll_cons, String.ofList_append]
    rfl
  rw [written] at read
  rw [eq_chain_of_parse? read, Bool.eq_iff_iff, isMatch_textStart, List.isPrefixOf_iff_prefix]
  have spans (p q : Cursor) := spans_literal part.toList [] p q
  rw [List.append_nil] at spans
  constructor
  · rintro ⟨q, matched⟩
    obtain ⟨m, left, -, -⟩ := (spans _ q).1 matched
    exact ⟨m.after, left.symm⟩
  · rintro ⟨back, split⟩
    exact ⟨⟨_, back⟩, (spans _ _).2 ⟨⟨_, back⟩, split.symm, rfl, rfl⟩⟩

theorem isMatch_escape_end {part text : String} {r : Regex}
    (read : Regex.parse? (String.ofList (Regex.Parser.escape part.toList) ++ "$") = some r) :
    r.isMatch text = part.toList.isSuffixOf text.toList := by
  have written : String.ofList (Regex.Parser.escape part.toList) ++ "$"
      = String.ofList (Piece.writtenAll (part.toList.map .exactly ++ [.textEnd])) := by
    rw [escape_eq, Piece.writtenAll, Piece.writtenAll, List.flatMap_append, String.ofList_append]
    rfl
  rw [written] at read
  rw [eq_chain_of_parse? read, Bool.eq_iff_iff, Regex.isMatch_iff, List.isSuffixOf_iff_suffix]
  constructor
  · rintro ⟨p, q, ⟨taken, after, -⟩, matched⟩
    obtain ⟨m, left, -, -, atEnd⟩ := (spans_literal part.toList [.textEnd] p q).1 matched
    refine ⟨taken, ?_⟩
    have nothing : m.after = [] := List.isEmpty_iff.1 atEnd
    rw [nothing, List.append_nil] at left
    rw [← left]
    exact after.symm
  · rintro ⟨front, split⟩
    have matched := (spans_literal part.toList [.textEnd] ⟨front.getLast?, part.toList⟩
      ⟨part.toList.getLast?.or front.getLast?, []⟩).2
      ⟨_, (List.append_nil _).symm, rfl, rfl, rfl⟩
    refine ⟨_, _, ⟨front, split.symm, ?_⟩, matched⟩
    rw [Option.or_none]

end Recordkeeper.Like
