import Mathlib.Data.List.Forall2
import Recordkeeper.Proofs.Pattern.Matching
import Recordkeeper.Proofs.Text.Ranges
import Recordkeeper.Pattern.Regex.Parser

/-!
Contract: reading expressions that are written from one item after another.

Owns:
- `Reads`: a text that is read as one item of an expression, whatever stands around it;
- pieces of an expression: a literal character, any one character, any run of characters, and the
  two ends of a text;
- `parse?_written`: what the reader makes of written pieces, and when it refuses them for their
  size; `expression_dotAll`: what it makes of items behind the flag with which any character is also
  a line feed;
- the spans of a chain of pieces.

Does not own: classes, and which items a pattern is written with.
-/

set_option autoImplicit false

namespace Recordkeeper.Regex

open Recordkeeper.Regex.Parser

/-! ### Pieces -/

inductive Piece where
  | exactly (c : Char)
  | anyChar
  | anyRun
  | textStart
  | textEnd

namespace Piece

def written : Piece → List Char
  | exactly c => escape [c]
  | anyChar => ['.']
  | anyRun => ['.', '*']
  | textStart => ['^']
  | textEnd => ['$']

/-- The expression of a piece, with or without line feeds among the characters a dot stands for. -/
def regexIn (dotAll : Bool) : Piece → Regex
  | exactly c => literal {} c.toNat
  | anyChar => anyCharacter { dotAll }
  | anyRun => .rep (anyCharacter { dotAll }) 0 none
  | textStart => .look .textStart
  | textEnd => .look .textEnd

def regex : Piece → Regex := regexIn false

def writtenAll (pieces : List Piece) : List Char := pieces.flatMap written

end Piece

def chain : List Regex → Regex
  | [] => .empty
  | [r] => r
  | r :: rest => .seq r (chain rest)

/-! ### Reading one piece -/

theorem skip_plain (dotAll : Bool) (cs : List Char) : skip { dotAll } cs = cs := by
  cases cs <;> rfl

private theorem escapeAtom?_meta (dotAll : Bool) {c : Char} (isMeta : c ∈ metaCharacters) (rest : List Char) :
    escapeAtom? { dotAll } (c :: rest) = some (.char c.toNat, rest) := by
  simp only [metaCharacters, List.mem_cons, List.not_mem_nil, or_false] at isMeta
  rcases isMeta with rfl | rfl | rfl | rfl | rfl | rfl | rfl | rfl | rfl | rfl | rfl | rfl | rfl |
    rfl | rfl | rfl | rfl | rfl <;> rfl

section Reading

variable (dotAll : Bool) (fuel : Nat) (current : Partial) (rest : List Char)

theorem expression_end :
    expression (fuel + 1) { dotAll } current [] [] [] = some current.finish := rfl

theorem expression_literal {c : Char} (plain : c ∉ metaCharacters) :
    expression (fuel + 1) { dotAll } current [] [] (c :: rest)
      = expression fuel { dotAll } (current.push (literal {} c.toNat)) [] [] rest := by
  have differs {d : Char} (isMeta : d ∈ metaCharacters) : c ≠ d := fun same =>
    plain (same ▸ isMeta)
  rw [expression, skip_plain]
  dsimp only
  rw [if_neg (differs (by decide)), if_neg (differs (by decide)), if_neg (differs (by decide)),
    if_neg (differs (by decide)), if_neg (differs (by decide)), if_neg (differs (by decide)),
    if_neg (differs (by decide)), if_neg (differs (by decide)), if_neg (differs (by decide)),
    if_neg (differs (by decide)), if_neg (differs (by decide)), if_neg (differs (by decide))]
  rfl

theorem expression_escaped {c : Char} (isMeta : c ∈ metaCharacters) :
    expression (fuel + 1) { dotAll } current [] [] ('\\' :: c :: rest)
      = expression fuel { dotAll } (current.push (literal {} c.toNat)) [] [] rest := by
  rw [expression, skip_plain]
  simp only [escapeAtom?_meta dotAll isMeta]
  rfl

theorem expression_dot :
    expression (fuel + 1) { dotAll } current [] [] ('.' :: rest)
      = expression fuel { dotAll } (current.push (anyCharacter { dotAll })) [] [] rest := by
  rw [expression, skip_plain]
  rfl

/-- A star repeats the item before it, unless a question mark follows. -/
theorem expression_star (r : Regex) (noMark : rest.head? ≠ some '?') :
    expression (fuel + 1) { dotAll } (current.push r) [] [] ('*' :: rest)
      = expression fuel { dotAll } (current.push (.rep r 0 none)) [] [] rest := by
  have repeated : (current.push r).repeatLast? 0 none = some (current.push (.rep r 0 none)) := rfl
  rw [expression, skip_plain]
  simp only [Char.reduceEq, ↓reduceIte, repeated, skip_plain]
  cases rest with
  | nil => rfl
  | cons c rest =>
      split
      next _ _ same =>
        injection same with sameChar
        subst sameChar
        exact absurd rfl noMark
      next => rfl

theorem expression_textStart :
    expression (fuel + 1) { dotAll } current [] [] ('^' :: rest)
      = expression fuel { dotAll } (current.push (.look .textStart)) [] [] rest := by
  rw [expression, skip_plain]
  rfl

theorem expression_textEnd :
    expression (fuel + 1) { dotAll } current [] [] ('$' :: rest)
      = expression fuel { dotAll } (current.push (.look .textEnd)) [] [] rest := by
  rw [expression, skip_plain]
  rfl

end Reading

/-! ### Reading all pieces -/

theorem writtenAll_cons (piece : Piece) (pieces : List Piece) :
    Piece.writtenAll (piece :: pieces) = piece.written ++ Piece.writtenAll pieces := rfl

theorem written_exactly (c : Char) :
    (Piece.exactly c).written = if c ∈ metaCharacters then ['\\', c] else [c] := by
  simp only [Piece.written, escape, List.flatMap_cons, List.flatMap_nil, List.append_nil,
    List.contains_eq_mem, decide_eq_true_eq]

theorem push_items (items : List (Option Regex)) (r : Regex) :
    ({ items } : Partial).push r = { items := some r :: items } := rfl

/-- A text is one item of an expression.  It is read in as many steps as it has characters, or
fewer, and what follows it is left, but for a question mark, which would belong to the item. -/
structure Reads (dotAll : Bool) (text : List Char) (r : Regex) : Prop where
  item : ∃ steps ≤ text.length, ∀ (fuel : Nat) (current : Partial) (rest : List Char),
    rest.head? ≠ some '?' →
      expression (fuel + steps) { dotAll } current [] [] (text ++ rest)
        = expression fuel { dotAll } (current.push r) [] [] rest
  start : ∃ c more, text = c :: more ∧ c ≠ '?'

/-- A text that is read in one step, whatever follows it. -/
theorem Reads.of_step {dotAll : Bool} {c : Char} {more : List Char} {r : Regex} (noMark : c ≠ '?')
    (step : ∀ (fuel : Nat) (current : Partial) (rest : List Char),
      expression (fuel + 1) { dotAll } current [] [] (c :: more ++ rest)
        = expression fuel { dotAll } (current.push r) [] [] rest) : Reads dotAll (c :: more) r where
  item := ⟨1, Nat.le_add_left 1 _, fun fuel current rest _ => step fuel current rest⟩
  start := ⟨c, more, rfl, noMark⟩

theorem reads_exactly (dotAll : Bool) (c : Char) : Reads dotAll (escape [c]) (literal {} c.toNat) := by
  rw [show escape [c] = (Piece.exactly c).written from rfl, written_exactly]
  by_cases isMeta : c ∈ metaCharacters
  · rw [if_pos isMeta]
    exact .of_step (by decide) fun fuel current rest =>
      expression_escaped dotAll fuel current rest isMeta
  · rw [if_neg isMeta]
    refine .of_step ?_ fun fuel current rest => expression_literal dotAll fuel current rest isMeta
    rintro rfl
    exact isMeta (by decide)

theorem reads_anyRun (dotAll : Bool) :
    Reads dotAll ['.', '*'] (.rep (anyCharacter { dotAll }) 0 none) where
  item := ⟨2, Nat.le_refl 2, fun fuel current rest noMark =>
    (expression_dot dotAll (fuel + 1) current ('*' :: rest)).trans
      (expression_star dotAll fuel current rest _ noMark)⟩
  start := ⟨'.', ['*'], rfl, by decide⟩

theorem reads_piece (dotAll : Bool) (piece : Piece) :
    Reads dotAll piece.written (piece.regexIn dotAll) := by
  cases piece with
  | exactly c => exact reads_exactly dotAll c
  | anyChar => exact .of_step (by decide) (expression_dot dotAll)
  | anyRun => exact reads_anyRun dotAll
  | textStart => exact .of_step (by decide) (expression_textStart dotAll)
  | textEnd => exact .of_step (by decide) (expression_textEnd dotAll)

theorem reads_pieces (dotAll : Bool) (pieces : List Piece) :
    List.Forall₂ (Reads dotAll) (pieces.map Piece.written) (pieces.map (Piece.regexIn dotAll)) := by
  rw [List.forall₂_map_left_iff, List.forall₂_map_right_iff, List.forall₂_same]
  exact fun piece _ => reads_piece dotAll piece

theorem head?_flatten {dotAll : Bool} {texts : List (List Char)} {rs : List Regex}
    (reads : List.Forall₂ (Reads dotAll) texts rs) : texts.flatten.head? ≠ some '?' := by
  cases reads with
  | nil => exact nofun
  | cons first _ =>
      obtain ⟨c, more, rfl, noMark⟩ := first.start
      exact fun same => noMark (Option.some.inj same)

/-- The reader pushes the expressions of the items one after another. -/
theorem expression_flatten {dotAll : Bool} {texts : List (List Char)} {rs : List Regex}
    (reads : List.Forall₂ (Reads dotAll) texts rs) (fuel : Nat) (items : List (Option Regex))
    (enough : texts.flatten.length < fuel) :
    expression fuel { dotAll } { items } [] [] texts.flatten
      = some ({ items := (rs.map some).reverse ++ items } : Partial).finish := by
  induction reads generalizing fuel items with
  | nil =>
      obtain ⟨fuel, rfl⟩ := Nat.exists_eq_add_of_lt enough
      exact expression_end _ _ _
  | @cons text r texts rs first later inductionHypothesis =>
      obtain ⟨steps, bounded, step⟩ := first.item
      rw [List.flatten_cons, List.length_append] at enough
      obtain ⟨fuel, rfl⟩ : ∃ left, fuel = left + steps := ⟨fuel - steps, by omega⟩
      rw [List.flatten_cons, step _ _ _ (head?_flatten later), push_items,
        inductionHypothesis fuel _ (by omega), List.map_cons, List.reverse_cons, List.append_assoc]
      rfl

theorem foldl_seq (front : List Regex) (last : Regex) :
    front.reverse.foldl (fun acc r => .seq r acc) last = chain (front ++ [last]) := by
  induction front with
  | nil => rfl
  | cons r rest inductionHypothesis =>
      rw [List.reverse_cons, List.foldl_append, inductionHypothesis]
      cases rest <;> rfl

theorem finish_pushed (rs : List Regex) :
    ({ items := (rs.map some).reverse } : Partial).finish = chain rs := by
  show Partial.sequence { items := (rs.map some).reverse } = chain rs
  unfold Partial.sequence
  rw [← List.map_reverse, List.filterMap_map]
  rcases rs.eq_nil_or_concat with rfl | ⟨front, last, rfl⟩
  · rfl
  · rw [List.concat_eq_append]
    have kept : ((front ++ [last]).reverse.filterMap (id ∘ some)) = last :: front.reverse := by
      rw [List.reverse_append]
      simp
    rw [kept]
    exact foldl_seq front last

/-- Written pieces are read as the chain of their expressions. -/
theorem expression_written (pieces : List Piece) :
    expression ((Piece.writtenAll pieces).length + 1) {} {} [] [] (Piece.writtenAll pieces)
      = some (chain (pieces.map Piece.regex)) := by
  have read := expression_flatten (reads_pieces false pieces) _ [] (Nat.lt_succ_self _)
  rw [List.append_nil, finish_pushed] at read
  exact read

/-- The chain is refused if it is too large. -/
theorem parse?_written (pieces : List Piece) :
    Regex.parse? (String.ofList (Piece.writtenAll pieces))
      = if size (chain (pieces.map Piece.regex)) ≤ sizeLimit then
          some (chain (pieces.map Piece.regex))
        else none := by
  unfold Regex.parse?
  rw [String.length_ofList, String.toList_ofList, expression_written]

/-- What stands for a setting of flags at the start is not part of the expression. -/
theorem finish_behind_flag (rs : List Regex) :
    ({ items := (rs.map some).reverse ++ [none] } : Partial).finish = chain rs := by
  rw [← finish_pushed]
  show Partial.sequence { items := _ } = Partial.sequence { items := _ }
  unfold Partial.sequence
  rw [List.filterMap_append]
  simp only [List.filterMap_cons, List.filterMap_nil, id, List.append_nil]

/-- The flag for line feeds. -/
def dotAllFlag : List Char := ['(', '?', 's', ')']

/-- Items behind the flag for line feeds are read as the chain of their expressions. -/
theorem expression_dotAll {texts : List (List Char)} {rs : List Regex}
    (reads : List.Forall₂ (Reads true) texts rs) :
    expression ((dotAllFlag ++ texts.flatten).length + 1) {} {} [] [] (dotAllFlag ++ texts.flatten)
      = some (chain rs) := by
  have read := expression_flatten reads (texts.flatten.length + 4) [none] (by omega)
  rw [finish_behind_flag] at read
  have flagged (fuel : Nat) (cs : List Char) :
      expression (fuel + 1) {} {} [] [] (dotAllFlag ++ cs)
        = expression fuel { dotAll := true } { items := [none] } [] [] cs := rfl
  rw [List.length_append, Nat.add_comm dotAllFlag.length, show dotAllFlag.length = 4 from rfl,
    flagged, read]

/-! ### Size -/

def sizeAll : List Regex → Nat
  | [] => 0
  | r :: rest => size r + sizeAll rest

theorem sizeAll_append (front back : List Regex) :
    sizeAll (front ++ back) = sizeAll front + sizeAll back := by
  induction front with
  | nil => exact (Nat.zero_add _).symm
  | cons r rest inductionHypothesis =>
      rw [List.cons_append, sizeAll, inductionHypothesis, sizeAll, Nat.add_assoc]

theorem size_chain (r : Regex) (rest : List Regex) :
    size (chain (r :: rest)) = sizeAll (r :: rest) := by
  induction rest generalizing r with
  | nil => rfl
  | cons s rest inductionHypothesis =>
      show size r + size (chain (s :: rest)) = _
      rw [inductionHypothesis]
      rfl

/-! ### Spans of pieces -/

theorem spans_chain_cons (r : Regex) (rest : List Regex) (p q : Cursor) :
    (chain (r :: rest)).Spans p q ↔ ∃ m, r.Spans p m ∧ (chain rest).Spans m q := by
  cases rest with
  | nil =>
      constructor
      · intro spans
        exact ⟨q, spans, rfl⟩
      · rintro ⟨m, spans, same⟩
        obtain rfl : q = m := same
        exact spans
  | cons s rest => rfl

theorem folded_literal (c : Nat) : folded {} [(c, c)] = [(c, c)] := by
  simp [folded, Text.Ranges.normal, Text.Ranges.joinTouching]

theorem size_literal_le (c : Char) : size (literal {} c.toNat) ≤ 7 := by
  rw [literal, folded_literal, size]
  split
  · decide
  · exact Nat.le_refl 7

theorem contains_literal (c d : Char) :
    (folded {} [(c.toNat, c.toNat)]).contains d.toNat = true ↔ d = c := by
  rw [folded_literal]
  simp only [Text.Ranges.contains, List.any_cons, List.any_nil, Bool.or_false, Bool.and_eq_true,
    decide_eq_true_eq]
  constructor
  · rintro ⟨atLeast, atMost⟩
    exact Char.toNat_inj.1 (by omega)
  · rintro rfl
    exact ⟨Nat.le_refl _, Nat.le_refl _⟩

/-- Any character but a line feed, as ranges. -/
theorem complement_lineFeed :
    Text.Ranges.complement [(0x0A, 0x0A)] = [(0, 9), (11, 0xD7FF), (0xE000, Text.Ranges.top)] := by
  have ordered : ([(0, 9), (11, 0xD7FF), (0xE000, Text.Ranges.top)] : Text.Ranges).mergeSort
      (fun a b => decide (a.1 ≤ b.1)) = [(0, 9), (11, 0xD7FF), (0xE000, Text.Ranges.top)] :=
    List.mergeSort_of_pairwise (by decide)
  simp only [Text.Ranges.complement, Text.Ranges.everything, Text.Ranges.normal, Text.Ranges.inter,
    Text.Ranges.gaps, Text.Ranges.joinTouching, List.mergeSort_singleton]
  show Text.Ranges.joinTouching
    (List.mergeSort [(0, 9), (11, 0xD7FF), (0xE000, Text.Ranges.top)] _) = _
  rw [ordered]
  rfl

theorem contains_anyCharacter (dotAll : Bool) (c : Char) :
    (if dotAll then Text.Ranges.everything else Text.Ranges.complement [(0x0A, 0x0A)]).contains
      c.toNat = true ↔ (dotAll = false → c ≠ '\n') := by
  cases dotAll with
  | true =>
      rw [if_pos rfl]
      exact iff_of_true (Text.Ranges.contains_everything c) nofun
  | false =>
      have filled : Text.Ranges.Filled [(0x0A, 0x0A)] := by simp [Text.Ranges.Filled]
      have lineFeed : c ≠ '\n' ↔ c.toNat ≠ 10 := not_congr Char.toNat_inj.symm
      rw [if_neg Bool.false_ne_true, Text.Ranges.contains_complement filled, lineFeed,
        Bool.not_eq_true', ← Bool.not_eq_true, Text.Ranges.contains_cons]
      simp only [Text.Ranges.contains, List.any_nil, Bool.false_eq_true, or_false, true_implies]
      omega

theorem spans_exactly (c : Char) (p q : Cursor) :
    (Piece.exactly c).regex.Spans p q ↔ p.after = c :: q.after ∧ q.before = some c := by
  constructor
  · rintro ⟨d, after, before, member⟩
    obtain rfl := (contains_literal c d).1 member
    exact ⟨after, before⟩
  · rintro ⟨after, before⟩
    exact ⟨c, after, before, (contains_literal c c).2 rfl⟩

theorem spans_anyChar (dotAll : Bool) (p q : Cursor) :
    (anyCharacter { dotAll }).Spans p q ↔
      ∃ c, (dotAll = false → c ≠ '\n') ∧ p.after = c :: q.after ∧ q.before = some c := by
  constructor
  · rintro ⟨c, after, before, member⟩
    exact ⟨c, (contains_anyCharacter dotAll c).1 member, after, before⟩
  · rintro ⟨c, allowed, after, before⟩
    exact ⟨c, after, before, (contains_anyCharacter dotAll c).2 allowed⟩

/-- Any run of characters ends at every position up to the next line feed, and behind it too if a
dot stands for line feeds. -/
theorem spans_anyRun (dotAll : Bool) (p q : Cursor) :
    (Piece.anyRun.regexIn dotAll).Spans p q ↔
      ∃ taken, (dotAll = false → '\n' ∉ taken) ∧ p.after = taken ++ q.after ∧
        q.before = taken.getLast?.or p.before := by
  have iterates (n : Nat) : ∀ p : Cursor, Iterates (anyCharacter { dotAll }).Spans n p q →
      ∃ taken, (dotAll = false → '\n' ∉ taken) ∧ p.after = taken ++ q.after ∧
        q.before = taken.getLast?.or p.before := by
    induction n with
    | zero =>
        intro p same
        obtain rfl : q = p := same
        exact ⟨[], fun _ => List.not_mem_nil, rfl, rfl⟩
    | succ n inductionHypothesis =>
        rintro p ⟨m, first, later⟩
        obtain ⟨c, allowed, after, before⟩ := (spans_anyChar dotAll p m).1 first
        obtain ⟨taken, noFeed, afterLater, beforeLater⟩ := inductionHypothesis m later
        refine ⟨c :: taken, ?_, ?_, ?_⟩
        · rintro plain (_ | ⟨_, held⟩)
          · exact allowed plain rfl
          · exact noFeed plain held
        · rw [after, afterLater]
          rfl
        · rw [beforeLater, before, List.getLast?_cons]
          cases taken.getLast? <;> rfl
  constructor
  · rintro ⟨n, -, -, reached⟩
    exact iterates n p reached
  · rintro ⟨taken, noFeed, after, before⟩
    refine ⟨taken.length, Nat.zero_le _, (fun _ unbounded => by cases unbounded), ?_⟩
    induction taken generalizing p with
    | nil =>
        cases p
        cases q
        simp only [List.nil_append, List.getLast?_nil, Option.none_or] at after before
        rw [after, before]
        rfl
    | cons c taken inductionHypothesis =>
        refine ⟨⟨some c, taken ++ q.after⟩, (spans_anyChar dotAll p _).2 ⟨c, ?_, after, rfl⟩, ?_⟩
        · intro plain same
          exact noFeed plain (same ▸ List.mem_cons_self)
        · refine inductionHypothesis ⟨some c, taken ++ q.after⟩
            (fun plain member => noFeed plain (List.mem_cons_of_mem _ member)) rfl ?_
          rw [before, List.getLast?_cons]
          cases taken.getLast? <;> rfl

theorem exists_spans_literals (chars : List Char) (rest : List Regex) (p q : Cursor) :
    (chain (chars.map (fun c => (Piece.exactly c).regex) ++ rest)).Spans p q ↔
      ∃ m, p.after = chars ++ m.after ∧ m.before = chars.getLast?.or p.before ∧
        (chain rest).Spans m q := by
  induction chars generalizing p with
  | nil =>
      constructor
      · intro spans
        exact ⟨p, rfl, rfl, spans⟩
      · rintro ⟨m, after, before, spans⟩
        cases p
        cases m
        simp only [List.nil_append, List.getLast?_nil, Option.none_or] at after before
        subst after before
        exact spans
  | cons c chars inductionHypothesis =>
      rw [List.map_cons, List.cons_append, spans_chain_cons]
      simp only [spans_exactly, inductionHypothesis]
      constructor
      · rintro ⟨t, ⟨afterFirst, beforeFirst⟩, m, after, before, spans⟩
        refine ⟨m, by rw [afterFirst, after]; rfl, ?_, spans⟩
        rw [before, beforeFirst, List.getLast?_cons]
        cases chars.getLast? <;> rfl
      · rintro ⟨m, after, before, spans⟩
        refine ⟨⟨some c, chars ++ m.after⟩, ⟨after, rfl⟩, m, rfl, ?_, spans⟩
        rw [before, List.getLast?_cons]
        cases chars.getLast? <;> rfl

end Recordkeeper.Regex
