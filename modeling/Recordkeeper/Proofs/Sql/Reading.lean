import Recordkeeper.Proofs.Sql.Phrase
import Recordkeeper.Sql.Parser

/-!
Contract: phrases are read as the expressions they stand for.

Owns:
- readings seen through the words that are left and the number of places so far;
- one step of the reader of operators: a binary operator, a test, an end;
- columns, tests, groups and conjunctions, with the fuel they take.

Does not own: how a text is split into words.
-/

set_option autoImplicit false

namespace Recordkeeper.Sql.Parser

open Token

/-! ### Readings -/

def Reading.words (r : Reading) : List Word := r.rest.map Lexeme.written

def Reading.count (r : Reading) : Nat := r.places.length

def Reading.skipped (r : Reading) : Reading :=
  match r.rest with
  | l :: rest => { r with rest, stop := l.stop }
  | [] => r

@[simp] theorem Reading.words_skipped (r : Reading) : r.skipped.words = r.words.tail := by
  rcases r with ⟨text, _ | ⟨l, rest⟩, stop, places⟩ <;> rfl

@[simp] theorem Reading.count_skipped (r : Reading) : r.skipped.count = r.count := by
  rcases r with ⟨text, _ | ⟨l, rest⟩, stop, places⟩ <;> rfl

/-- A reader takes words up to a rest, with some places among them, for a result. -/
def Takes {α : Type} (p : Parse α) (r : Reading) (rest : List Word) (places : Nat) (a : α) : Prop :=
  ∃ r', p r = .ok (a, r') ∧ r'.words = rest ∧ r'.count = r.count + places

section Steps

variable {α β : Type} {r r' : Reading} {w : Word} {ws rest : List Word}

theorem run_bind {p : Parse α} {q : α → Parse β} {a : α} (step : p r = .ok (a, r')) :
    (p >>= q) r = q a r' := by
  show (p r >>= fun x => q x.1 x.2) = _
  rw [step]
  rfl

theorem next?_run (r : Reading) : next? r = .ok (r.rest.head?, r) := rfl

theorem skip_run (r : Reading) : skip r = .ok ((), r.skipped) := rfl

theorem accept_run (test : Token → Bool) (r : Reading) :
    accept test r = if r.words.head?.any fun w => test w.token then .ok (true, r.skipped)
      else .ok (false, r) := by
  unfold accept Reading.words
  rw [run_bind (next?_run r)]
  cases rest : r.rest with
  | nil => rfl
  | cons l more =>
      show (if test l.token then _ else _ : Parse Bool) r = if test l.token = true then _ else _
      split <;> rfl

theorem accept_taken {test : Token → Bool} (words : r.words = w :: ws) (passed : test w.token) :
    accept test r = .ok (true, r.skipped) := by
  rw [accept_run, words]
  exact if_pos passed

theorem accept_left {test : Token → Bool} (failed : ∀ w ∈ r.words.head?, test w.token = false) :
    accept test r = .ok (false, r) := by
  rw [accept_run]
  cases head : r.words.head? with
  | none => rfl
  | some w => exact if_neg (by simp [failed w head])

theorem expect_taken {taken : Parse Bool} (step : taken r = .ok (true, r')) :
    expect taken r = .ok ((), r') := by
  unfold expect
  rw [run_bind step]
  rfl

theorem exists_lexeme (words : r.words = w :: ws) :
    ∃ l, r.rest.head? = some l ∧ l.token = w.token ∧ l.chars = w.chars := by
  obtain ⟨l, more, read, rfl, -⟩ := List.map_eq_cons_iff.1 words
  exact ⟨l, by rw [read]; rfl, rfl, rfl⟩

end Steps

/-! ### Keywords -/

def phraseKeywords : List String :=
  ["NOT", "AND", "OR", "IN", "LIKE", "ESCAPE", "IS", "NULL", "BETWEEN"]

theorem toUpper_phraseKeywords {s : String} (member : s ∈ phraseKeywords) : s.toUpper = s := by
  simp only [phraseKeywords, List.mem_cons, List.not_mem_nil, or_false] at member
  rcases member with rfl | rfl | rfl | rfl | rfl | rfl | rfl | rfl | rfl <;> decide +kernel

theorem isKeyword_eq {s : String} (member : s ∈ phraseKeywords) (other : String) :
    (Token.word s).isKeyword other = (s == other) := by
  show (s.toUpper == other) = _
  rw [toUpper_phraseKeywords member]

theorem word_taken {r : Reading} {s : String} {ws : List Word} (member : s ∈ phraseKeywords)
    (words : r.words = .keyword s :: ws) : word s r = .ok (true, r.skipped) :=
  accept_taken words (by
    show (Token.word s).isKeyword s
    rw [isKeyword_eq member, beq_self_eq_true])

theorem word_left {r : Reading} {s : String}
    (failed : ∀ w ∈ r.words.head?, w.token.isKeyword s = false) : word s r = .ok (false, r) :=
  accept_left failed

theorem symbol_taken {r : Reading} {s : String} {ws : List Word} (words : r.words = .sign s :: ws) :
    symbol s r = .ok (true, r.skipped) :=
  accept_taken words (beq_self_eq_true (Token.symbol s))

theorem symbol_left {r : Reading} {s : String}
    (failed : ∀ w ∈ r.words.head?, w.token ≠ .symbol s) : symbol s r = .ok (false, r) :=
  accept_left fun w head => beq_false_of_ne (failed w head)

/-- A keyword does not follow where another word does. -/
theorem follows_left {r : Reading} {w : Word} {ws : List Word} {s : String}
    (words : r.words = w :: ws) (other : w.token.isKeyword s = false) :
    follows [isWord s] r = .ok (false, r) := by
  obtain ⟨l, more, read, rfl, -⟩ := List.map_eq_cons_iff.1 words
  have alone : follows [isWord s] r = .ok (l.token.isKeyword s && true, r) := by
    show Except.ok (((r.rest.take 1).length == 1 &&
      (List.zipWith _ _ (r.rest.take 1)).all id), r) = _
    rw [read]
    rfl
  rw [alone]
  show Except.ok (l.written.token.isKeyword s && true, r) = _
  rw [other]
  rfl

theorem binary?_keyword {s : String} (member : s ∈ phraseKeywords) :
    binary? (.word s) = if s = "OR" then some (.or, .or) else if s = "AND" then some (.and, .and)
      else none := by
  show (if (Token.word s).isKeyword "OR" then _
    else if (Token.word s).isKeyword "AND" then _ else _) = _
  rw [isKeyword_eq member, isKeyword_eq member]
  simp only [beq_iff_eq]

theorem binary?_sign (op : Comparison) :
    ∃ level, Level.equality.rank ≤ Level.rank level ∧ Level.next level ∈ [Level.comparison, .bits] ∧
      binary? (.symbol op.sign) = some (level, .compare op) := by
  cases op with
  | eq => exact ⟨.equality, by decide, by decide, rfl⟩
  | ne => exact ⟨.equality, by decide, by decide, rfl⟩
  | lt => exact ⟨.comparison, by decide, by decide, rfl⟩
  | le => exact ⟨.comparison, by decide, by decide, rfl⟩
  | gt => exact ⟨.comparison, by decide, by decide, rfl⟩
  | ge => exact ⟨.comparison, by decide, by decide, rfl⟩

/-! ### Tests and operators -/

section Operators

variable {r r' : Reading} {w : Word} {ws rest : List Word} {level : Level} {left : Expr}

def Test.keyword? : Test → Option String
  | .between => some "BETWEEN"
  | .member => some "IN"
  | .like => some "LIKE"
  | _ => none

theorem test?_is (words : r.words = .keyword "IS" :: ws) :
    test? r = .ok (some (false, .same), r.skipped) := by
  obtain ⟨l, head, token, -⟩ := exists_lexeme words
  unfold test?
  rw [run_bind (next?_run r), head]
  have keyword (other : String) : l.token.isKeyword other = ("IS" == other) := by
    rw [token]
    exact isKeyword_eq (by decide) other
  simp only [List.cons_append, List.nil_append, List.find?_cons, keyword]
  rfl

theorem test?_keyword {negated : Bool} {t : Test} {keyword : String}
    (named : t.keyword? = some keyword)
    (words : r.words = negationWords negated ++ .keyword keyword :: ws) :
    ∃ r', test? r = .ok (some (negated, t), r') ∧ r'.words = ws ∧ r'.count = r.count := by
  have known : keyword ∈ phraseKeywords := by
    cases t <;> cases named <;> decide
  cases negated with
  | false =>
      refine ⟨r.skipped, ?_, by rw [Reading.words_skipped, words]; rfl, Reading.count_skipped r⟩
      obtain ⟨l, head, token, -⟩ := exists_lexeme (w := .keyword keyword) words
      unfold test?
      rw [run_bind (next?_run r), head]
      have isKeyword (other : String) : l.token.isKeyword other = (keyword == other) := by
        rw [token]
        exact isKeyword_eq known other
      simp only [List.cons_append, List.nil_append, List.find?_cons, isKeyword]
      cases t <;> cases named <;> rfl
  | true =>
      have next : r.skipped.words = .keyword keyword :: ws := by
        rw [Reading.words_skipped, words]
        rfl
      refine ⟨r.skipped.skipped, ?_, by rw [Reading.words_skipped, next]; rfl, by simp⟩
      obtain ⟨l, head, token, -⟩ := exists_lexeme (w := .keyword "NOT") words
      obtain ⟨m, nextHead, nextToken, -⟩ := exists_lexeme next
      unfold test?
      rw [run_bind (next?_run r), head]
      have isNot (other : String) : l.token.isKeyword other = ("NOT" == other) := by
        rw [token]
        exact isKeyword_eq (by decide) other
      have isKeyword (other : String) : m.token.isKeyword other = (keyword == other) := by
        rw [nextToken]
        exact isKeyword_eq known other
      simp only [List.cons_append, List.nil_append, List.find?_cons, isNot]
      show (skip >>= fun _ => next? >>= fun _ => _ : Parse _) r = _
      rw [run_bind (skip_run r), run_bind (next?_run _), nextHead]
      simp only [isKeyword]
      cases t <;> cases named <;> rfl

theorem test?_sign {s : String} (words : r.words = .sign s :: ws) : test? r = .ok (none, r) := by
  obtain ⟨l, head, token, -⟩ := exists_lexeme words
  unfold test?
  rw [run_bind (next?_run r), head]
  have keyword (other : String) : l.token.isKeyword other = false := by
    rw [token]
    rfl
  simp only [List.cons_append, List.nil_append, List.find?_cons, keyword]
  rfl

theorem expr_succ (fuel : Nat) (level : Level) (r : Reading) :
    expr (fuel + 1) level r = (operand fuel >>= operators fuel level) r := by
  rw [expr]

/-- The next word decides between an operator, a test and an end. -/
theorem operators_next (fuel : Nat) (words : r.words = w :: ws) :
    operators (fuel + 1) level left r
      = (match binary? w.token with
        | some (its, make) =>
          if its.rank < level.rank then return left
          else do
            skip
            let right ← expr fuel its.next
            operators fuel level (make left right)
        | none =>
          if Level.equality.rank < level.rank then return left
          else do
            match ← test? with
            | none => return left
            | some (negated, t) => do
              let tested ← tail fuel negated t left
              operators fuel level tested : Parse Expr) r := by
  obtain ⟨l, head, token, -⟩ := exists_lexeme words
  rw [operators, run_bind (next?_run r), head]
  dsimp only
  generalize w.token = t at token ⊢
  subst token
  rfl

/-- An operator that binds tightly enough takes its right operand. -/
theorem operators_binary (fuel : Nat) {its : Level} {make : Expr → Expr → Expr}
    (words : r.words = w :: ws) (binary : binary? w.token = some (its, make))
    (tight : level.rank ≤ its.rank) :
    operators (fuel + 1) level left r
      = (expr fuel its.next >>= fun right => operators fuel level (make left right)) r.skipped := by
  rw [operators_next fuel words, binary]
  dsimp only
  rw [if_neg (Nat.not_lt.2 tight), run_bind (skip_run r)]

theorem operators_test (fuel : Nat) {negated : Bool} {t : Test} (words : r.words = w :: ws)
    (single : binary? w.token = none) (loose : level.rank ≤ Level.equality.rank)
    (test : test? r = .ok (some (negated, t), r')) :
    operators (fuel + 1) level left r
      = (tail fuel negated t left >>= operators fuel level) r' := by
  rw [operators_next fuel words, single]
  dsimp only
  rw [if_neg (Nat.not_lt.2 loose), run_bind test]

/-- What no operator of a level starts with. -/
inductive Ends (level : Level) : List Word → Prop where
  | nothing : Ends level []
  | sign {s : String} (ws : List Word) (single : binary? (.symbol s) = none) :
      Ends level (.sign s :: ws)
  | conjunction (ws : List Word) (tight : Level.and.rank < level.rank) :
      Ends level (.keyword "AND" :: ws)
  | disjunction (ws : List Word) (tight : Level.or.rank < level.rank) :
      Ends level (.keyword "OR" :: ws)
  | escape (ws : List Word) (tight : Level.equality.rank < level.rank) :
      Ends level (.keyword "ESCAPE" :: ws)

theorem operators_ends (fuel : Nat) (ends : Ends level r.words) :
    operators (fuel + 1) level left r = .ok (left, r) := by
  generalize words : r.words = ws at ends
  cases ends with
  | nothing =>
      have none : r.rest.head? = none := by
        rw [List.head?_eq_none_iff]
        exact List.map_eq_nil_iff.1 words
      rw [operators, run_bind (next?_run r), none]
      rfl
  | sign ws single =>
      rw [operators_next fuel words]
      dsimp only [Word.sign]
      rw [single]
      dsimp only
      split
      · rfl
      · rw [run_bind (test?_sign words)]
        rfl
  | conjunction ws tight =>
      rw [operators_next fuel words]
      dsimp only [Word.keyword]
      rw [binary?_keyword (by decide), if_neg (by decide), if_pos rfl]
      dsimp only
      rw [if_pos tight]
      rfl
  | disjunction ws tight =>
      rw [operators_next fuel words]
      dsimp only [Word.keyword]
      rw [binary?_keyword (by decide), if_pos rfl]
      dsimp only
      rw [if_pos tight]
      rfl
  | escape ws tight =>
      rw [operators_next fuel words]
      dsimp only [Word.keyword]
      rw [binary?_keyword (by decide), if_neg (by decide), if_neg (by decide)]
      dsimp only
      rw [if_pos tight]
      rfl

end Operators

/-! ### Operands -/

section Operands

variable {r : Reading} {ws : List Word}

/-- A place is numbered by the places before it. -/
theorem operand_place (fuel : Nat) (words : r.words = .place :: ws) :
    Takes (operand (fuel + 1)) r ws 1 (.parameter r.count) := by
  obtain ⟨⟨token, chars, start⟩, head, same, -⟩ := exists_lexeme words
  obtain rfl : token = .parameter "?" := same
  refine ⟨{ r.skipped with places := r.skipped.places ++ [none] }, ?_, ?_, ?_⟩
  · rw [operand, run_bind (next?_run r), head]
    dsimp only
    rw [run_bind (skip_run r)]
    show Except.ok (Expr.parameter r.skipped.count, _) = _
    rw [Reading.count_skipped]
  · show r.skipped.words = ws
    rw [Reading.words_skipped, words]
    rfl
  · show (r.skipped.places ++ [none]).length = r.count + 1
    rw [List.length_append]
    exact congrArg (· + 1) (Reading.count_skipped r)

theorem operand_digit (fuel : Nat) (holds : Bool)
    (words : r.words = .digit (if holds then '1' else '0') :: ws) :
    Takes (operand (fuel + 1)) r ws 0 (.literal (.integer (if holds then 1 else 0))) := by
  obtain ⟨⟨token, chars, start⟩, head, same, -⟩ := exists_lexeme words
  obtain rfl : token = .number (String.ofList [if holds then '1' else '0']) := same
  have value : numberCell (String.ofList [if holds then '1' else '0'])
      = .integer (if holds then 1 else 0) := by
    cases holds <;> rfl
  refine ⟨r.skipped, ?_, by rw [Reading.words_skipped, words]; rfl, Reading.count_skipped r⟩
  rw [operand, run_bind (next?_run r), head]
  dsimp only
  rw [run_bind (skip_run r), value]
  rfl

theorem operand_escape (fuel : Nat) (words : r.words = .escape :: ws) :
    Takes (operand (fuel + 1)) r ws 0 (.literal (.text "\\")) := by
  obtain ⟨⟨token, chars, start⟩, head, same, -⟩ := exists_lexeme words
  obtain rfl : token = .text "\\" := same
  refine ⟨r.skipped, ?_, by rw [Reading.words_skipped, words]; rfl, Reading.count_skipped r⟩
  rw [operand, run_bind (next?_run r), head]
  dsimp only
  rw [run_bind (skip_run r)]
  rfl

theorem operand_null (fuel : Nat) (words : r.words = .keyword "NULL" :: ws) :
    Takes (operand (fuel + 2)) r ws 0 (.literal .null) := by
  obtain ⟨⟨token, chars, start⟩, head, same, -⟩ := exists_lexeme words
  obtain rfl : token = .word "NULL" := same
  refine ⟨r.skipped, ?_, by rw [Reading.words_skipped, words]; rfl, Reading.count_skipped r⟩
  rw [operand, run_bind (next?_run r), head]
  dsimp only
  rw [keywordOrName, run_bind (word_taken (by decide) words)]
  rfl

/-- A column is read to the end of its name, unless a point or a parenthesis follows. -/
theorem operand_column (fuel : Nat) (column : ColumnName) (words : r.words = column.words ++ ws)
    (ended : ∀ w ∈ ws.head?, w.token ≠ .symbol "(" ∧ w.token ≠ .symbol ".") :
    Takes (operand (fuel + 2)) r ws 0 column.expr := by
  have plain {s : String} (mark : s ∈ ["(", "."]) : ∀ w ∈ ws.head?, w.token ≠ .symbol s := by
    intro w head
    simp only [List.mem_cons, List.not_mem_nil, or_false] at mark
    rcases mark with rfl | rfl
    · exact (ended w head).1
    · exact (ended w head).2
  rcases column with ⟨_ | table, name⟩
  · obtain ⟨⟨token, chars, start⟩, head, same, rfl⟩ := exists_lexeme (w := .name name) words
    obtain rfl : token = .name (String.ofList name) := same
    have next : r.skipped.words = ws := by rw [Reading.words_skipped, words]; rfl
    refine ⟨r.skipped, ?_, next, Reading.count_skipped r⟩
    rw [operand, run_bind (next?_run r), head]
    dsimp only
    rw [named, run_bind (skip_run r), run_bind (symbol_left (next ▸ plain (by decide))),
      if_neg Bool.false_ne_true, run_bind (symbol_left (next ▸ plain (by decide)))]
    rfl
  · obtain ⟨⟨token, chars, start⟩, head, same, rfl⟩ := exists_lexeme (w := .name table) words
    obtain rfl : token = .name (String.ofList table) := same
    have point : r.skipped.words = .sign "." :: .name name :: ws := by
      rw [Reading.words_skipped, words]
      rfl
    have second : r.skipped.skipped.words = .name name :: ws := by
      rw [Reading.words_skipped, point]
      rfl
    obtain ⟨⟨token, chars, start⟩, nextHead, same, -⟩ := exists_lexeme second
    obtain rfl : token = .name (String.ofList name) := same
    refine ⟨r.skipped.skipped.skipped, ?_, by rw [Reading.words_skipped, second]; rfl, by simp⟩
    rw [operand, run_bind (next?_run r), head]
    dsimp only
    rw [named, run_bind (skip_run r), run_bind (symbol_left ?_)]
    · rw [if_neg Bool.false_ne_true, run_bind (symbol_taken point), if_pos rfl]
      have column : Parser.name r.skipped.skipped
          = .ok (String.ofList name, r.skipped.skipped.skipped) := by
        unfold Parser.name
        rw [run_bind (next?_run _), nextHead]
        rfl
      rw [run_bind column]
      rfl
    · rw [point]
      rintro w ⟨⟩
      decide

/-- An operand is a whole expression where no operator follows. -/
theorem expr_operand {fuel places : Nat} (level : Level) {e : Expr}
    (taken : Takes (operand (fuel + 1)) r ws places e) (ends : Ends level ws) :
    Takes (expr (fuel + 2) level) r ws places e := by
  obtain ⟨r', step, words', count'⟩ := taken
  refine ⟨r', ?_, words', count'⟩
  rw [expr_succ, run_bind step, operators_ends fuel (words' ▸ ends)]

theorem expr_place (fuel : Nat) (level : Level) (words : r.words = .place :: ws)
    (ends : Ends level ws) : Takes (expr (fuel + 2) level) r ws 1 (.parameter r.count) :=
  expr_operand level (operand_place fuel words) ends

end Operands

/-! ### Tests -/

inductive Follows : List Word → Prop where
  | nothing : Follows []
  | close (ws : List Word) : Follows (.sign ")" :: ws)
  | joiner (logic : Logic) (ws : List Word) : Follows (.keyword (Phrase.joiner logic) :: ws)

theorem Follows.ends {ws : List Word} {level : Level} (follows : Follows ws)
    (tight : Level.and.rank < level.rank) : Ends level ws := by
  cases follows with
  | nothing => exact .nothing
  | close ws => exact .sign ws rfl
  | joiner logic ws =>
      cases logic with
      | and => exact .conjunction ws tight
      | or => exact .disjunction ws (Nat.lt_trans (by decide) tight)
      | not => exact .disjunction ws (Nat.lt_trans (by decide) tight)

section Tests

variable {r : Reading} {ws : List Word} {left : Expr}

theorem tail_null (fuel : Nat) (negated : Bool) (left : Expr)
    (words : r.words = negationWords negated ++ .keyword "NULL" :: ws) (follows : Follows ws) :
    Takes (tail (fuel + 4) false .same left) r ws 0 (.isNull negated left) := by
  have absent {r' : Reading} (words : r'.words = .keyword "NULL" :: ws) :
      Takes (expr (fuel + 3) .comparison) r' ws 0 (.literal .null) :=
    expr_operand .comparison (operand_null fuel words) (follows.ends (by decide))
  cases negated with
  | false =>
      obtain ⟨r', step, words', count'⟩ := absent words
      refine ⟨r', ?_, words', count'⟩
      rw [tail, run_bind (word_left ?_), run_bind step]
      · rfl
      · rw [words]
        rintro w ⟨⟩
        exact isKeyword_eq (by decide) _
  | true =>
      have next : r.skipped.words = .keyword "NULL" :: ws := by
        rw [Reading.words_skipped, words]
        rfl
      obtain ⟨r', step, words', count'⟩ := absent next
      refine ⟨r', ?_, words', by rw [count', Reading.count_skipped]⟩
      rw [tail, run_bind (word_taken (by decide) words), run_bind step]
      rfl

theorem tail_between (fuel : Nat) (negated : Bool)
    (words : r.words = .place :: .keyword "AND" :: .place :: ws) (follows : Follows ws) :
    Takes (tail (fuel + 3) negated .between left) r ws 2
      (.between negated left (.parameter r.count) (.parameter (r.count + 1))) := by
  obtain ⟨low, lowStep, lowWords, lowCount⟩ :=
    expr_place fuel .comparison words (.conjunction _ (by decide))
  have next : low.skipped.words = .place :: ws := by
    rw [Reading.words_skipped, lowWords]
    rfl
  obtain ⟨high, highStep, highWords, highCount⟩ :=
    expr_place fuel .comparison next (follows.ends (by decide))
  rw [Reading.count_skipped, lowCount] at highStep highCount
  refine ⟨high, ?_, highWords, highCount⟩
  rw [tail, run_bind lowStep, run_bind (expect_taken (word_taken (by decide) lowWords)),
    run_bind highStep]
  rfl

theorem tail_like (fuel : Nat) (negated : Bool) (words : r.words = .place :: ws)
    (follows : Follows ws) :
    Takes (tail (fuel + 3) negated .like left) r ws 1
      (.like negated left (.parameter r.count) none) := by
  obtain ⟨r', step, words', count'⟩ :=
    expr_place fuel .comparison words (follows.ends (by decide))
  refine ⟨r', ?_, words', count'⟩
  rw [tail, run_bind step, run_bind (word_left ?_)]
  · rfl
  · rw [words']
    cases follows with
    | nothing => exact fun w head => nomatch head
    | close ws =>
        rintro w ⟨⟩
        rfl
    | joiner logic ws =>
        rintro w ⟨⟩
        cases logic <;> exact isKeyword_eq (by decide) _

theorem tail_part (fuel : Nat)
    (words : r.words = .place :: .keyword "ESCAPE" :: .escape :: ws) (follows : Follows ws) :
    Takes (tail (fuel + 3) false .like left) r ws 1
      (.like false left (.parameter r.count) (some (.literal (.text "\\")))) := by
  obtain ⟨pattern, patternStep, patternWords, patternCount⟩ :=
    expr_place fuel .comparison words (.escape _ (by decide))
  have next : pattern.skipped.words = .escape :: ws := by
    rw [Reading.words_skipped, patternWords]
    rfl
  obtain ⟨r', step, words', count'⟩ := expr_operand .bits (operand_escape fuel next)
    (follows.ends (by decide))
  refine ⟨r', ?_, words', by rw [count', Reading.count_skipped, patternCount]⟩
  rw [tail, run_bind patternStep, run_bind (word_taken (by decide) patternWords), if_pos rfl,
    run_bind step]
  rfl

theorem exprs_places (more fuel : Nat) :
    ∀ r : Reading, r.words = .place :: morePlaceWords more ++ .sign ")" :: ws →
      Takes (exprs (fuel + more + 3)) r (.sign ")" :: ws) (more + 1)
        ((List.range' r.count (more + 1)).map .parameter) := by
  induction more with
  | zero =>
      intro r words
      obtain ⟨r', step, words', count'⟩ :=
        expr_place fuel .or words (.sign ws rfl)
      refine ⟨r', ?_, words', count'⟩
      rw [exprs, run_bind step, run_bind (symbol_left ?_)]
      · rfl
      · rw [words']
        rintro w ⟨⟩
        decide
  | succ more inductionHypothesis =>
      intro r words
      obtain ⟨first, firstStep, firstWords, firstCount⟩ :=
        expr_place (fuel + more + 1) .or words (.sign _ rfl)
      obtain ⟨r', step, words', count'⟩ := inductionHypothesis first.skipped (by
        rw [Reading.words_skipped, firstWords]
        rfl)
      rw [Reading.count_skipped, firstCount] at step count'
      refine ⟨r', ?_, words', by omega⟩
      show exprs ((fuel + more + 3) + 1) r = _
      rw [exprs, run_bind firstStep, run_bind (symbol_taken firstWords), if_pos rfl, run_bind step]
      rfl

theorem tail_member (fuel more : Nat) (negated : Bool)
    (words : r.words = .sign "(" :: .place :: morePlaceWords more ++ .sign ")" :: ws) :
    Takes (tail (fuel + more + 4) negated .member left) r ws (more + 1)
      (.inList negated left ((List.range' r.count (more + 1)).map .parameter)) := by
  have next : r.skipped.words = .place :: morePlaceWords more ++ .sign ")" :: ws := by
    rw [Reading.words_skipped, words]
    rfl
  obtain ⟨items, step, itemsWords, itemsCount⟩ := exprs_places more fuel r.skipped next
  rw [Reading.count_skipped] at step itemsCount
  refine ⟨items.skipped, ?_, by rw [Reading.words_skipped, itemsWords]; rfl,
    by rw [Reading.count_skipped, itemsCount]⟩
  have noSelection : follows [isWord "SELECT"] r.skipped = .ok (false, r.skipped) :=
    follows_left next rfl
  have noEnd : symbol ")" r.skipped = .ok (false, r.skipped) := symbol_left (by
    rw [next]
    rintro w ⟨⟩
    decide)
  rw [tail, run_bind (expect_taken (symbol_taken words)), run_bind noSelection,
    if_neg Bool.false_ne_true, run_bind noEnd, if_neg Bool.false_ne_true, run_bind step,
    run_bind (expect_taken (symbol_taken itemsWords))]
  rfl

/-- What a test takes is the left operand of the operators behind it. -/
theorem operators_tested (fuel : Nat) (negated : Bool) (t : Test) {level : Level}
    (loose : level.rank ≤ Level.not.rank) {keyword : String} {more : List Word} {places : Nat}
    {e : Expr} (named : t.keyword? = some keyword)
    (words : r.words = negationWords negated ++ .keyword keyword :: more)
    (taken : ∀ r' : Reading, r'.words = more → r'.count = r.count →
      Takes (tail fuel negated t left) r' ws places e) :
    ∃ r', operators (fuel + 1) level left r = operators fuel level e r' ∧
      r'.words = ws ∧ r'.count = r.count + places := by
  obtain ⟨r₁, test, words₁, count₁⟩ := test?_keyword named words
  obtain ⟨r₂, step, words₂, count₂⟩ := taken r₁ words₁ count₁
  refine ⟨r₂, ?_, words₂, by rw [count₂, count₁]⟩
  have first : ∃ w more, r.words = w :: more ∧ binary? w.token = none := by
    cases negated with
    | false =>
        refine ⟨_, _, words, ?_⟩
        cases t <;> cases named <;> exact binary?_keyword (by decide)
    | true => exact ⟨_, _, words, binary?_keyword (by decide)⟩
  obtain ⟨w, others, split, single⟩ := first
  rw [operators_test fuel split single (Nat.le_trans loose (by decide)) test, run_bind step]

/-- The operators behind a column are those of its form, and one is taken. -/
theorem operators_form (fuel : Nat) (form : Form) (left : Expr) {level : Level}
    (enough : form.places + 4 ≤ fuel) (loose : level.rank ≤ Level.not.rank)
    (words : r.words = form.words ++ ws) (follows : Follows ws) :
    ∃ r', operators (fuel + 1) level left r = operators fuel level (form.expr left r.count) r' ∧
      r'.words = ws ∧ r'.count = r.count + form.places := by
  obtain ⟨fuel, rfl⟩ : ∃ n, fuel = n + form.places + 4 := ⟨fuel - form.places - 4, by omega⟩
  cases form with
  | compare op =>
      obtain ⟨its, tight, right, binary⟩ := binary?_sign op
      have next : r.skipped.words = .place :: ws := by
        rw [Reading.words_skipped, words]
        rfl
      have ends : Ends its.next ws := follows.ends (by
        simp only [List.mem_cons, List.not_mem_nil, or_false] at right
        rcases right with same | same <;> rw [same] <;> decide)
      obtain ⟨r', step, words', count'⟩ := expr_place (fuel + 3) its.next next ends
      rw [Reading.count_skipped] at step count'
      refine ⟨r', ?_, words', count'⟩
      rw [operators_binary _ words binary (Nat.le_trans loose (Nat.le_trans (by decide) tight))]
      show (expr (fuel + 3 + 2) its.next >>= _) r.skipped = _
      rw [run_bind step]
      rfl
  | like negated =>
      refine operators_tested _ negated .like loose rfl (words.trans (by simp [Form.words]; rfl)) ?_
      intro r' words' count'
      rw [← count']
      exact tail_like (fuel + 2) negated words' follows
  | part =>
      refine operators_tested _ false .like loose rfl words ?_
      intro r' words' count'
      rw [← count']
      exact tail_part (fuel + 2) words' follows
  | null negated =>
      have split : r.words = .keyword "IS" :: (negationWords negated ++ .keyword "NULL" :: ws) := by
        simp [words, Form.words]
      have next : r.skipped.words = negationWords negated ++ .keyword "NULL" :: ws := by
        rw [Reading.words_skipped, split]
        rfl
      obtain ⟨r', step, words', count'⟩ := tail_null fuel negated left next follows
      rw [Reading.count_skipped] at count'
      refine ⟨r', ?_, words', count'⟩
      rw [operators_test _ split (binary?_keyword (by decide)) (Nat.le_trans loose (by decide))
        (test?_is split)]
      show (tail (fuel + 4) false .same left >>= _) r.skipped = _
      rw [run_bind step]
      rfl
  | between negated =>
      refine operators_tested _ negated .between loose rfl
        (words.trans (by simp [Form.words]; rfl)) ?_
      intro r' words' count'
      rw [← count']
      exact tail_between (fuel + 3) negated words' follows
  | member negated more =>
      refine operators_tested _ negated .member loose rfl
        (words.trans (by simp [Form.words]; rfl)) ?_
      intro r' words' count'
      rw [← count']
      show Takes (tail (fuel + (more + 1) + 4) negated .member left) _ _ _ _
      rw [show fuel + (more + 1) + 4 = (fuel + 1) + more + 4 by omega]
      exact tail_member (fuel + 1) more negated words'

end Tests

/-! ### Phrases -/

section Phrases

variable {r : Reading} {ws : List Word}

/-- A phrase starts with a word that opens no selection. -/
theorem exists_opening (p : Phrase) :
    ∃ w more, p.words = w :: more ∧ w.token.isKeyword "SELECT" = false := by
  cases p with
  | test column form =>
      rcases column with ⟨_ | table, name⟩
      · exact ⟨_, _, rfl, rfl⟩
      · exact ⟨_, _, rfl, rfl⟩
  | constant holds => exact ⟨_, _, rfl, rfl⟩
  | group logic first rest =>
      cases logic with
      | and => exact ⟨_, _, rfl, rfl⟩
      | or => exact ⟨_, _, rfl, rfl⟩
      | not => exact ⟨_, _, rfl, isKeyword_eq (by decide) _⟩

theorem operand_enclosed {fuel places : Nat} {inner : List Word} {e : Expr} {w : Word}
    {more : List Word} (words : r.words = .sign "(" :: inner ++ .sign ")" :: ws)
    (opening : inner = w :: more) (noSelection : w.token.isKeyword "SELECT" = false)
    (taken : Takes (expr fuel .or) r.skipped (.sign ")" :: ws) places e) :
    Takes (operand (fuel + 1)) r ws places e := by
  obtain ⟨⟨token, chars, start⟩, head, same, -⟩ := exists_lexeme words
  obtain rfl : token = .symbol "(" := same
  obtain ⟨r', step, words', count'⟩ := taken
  have next : r.skipped.words = w :: (more ++ .sign ")" :: ws) := by
    rw [Reading.words_skipped, words, opening]
    rfl
  refine ⟨r'.skipped, ?_, by rw [Reading.words_skipped, words']; rfl,
    by rw [Reading.count_skipped, count', Reading.count_skipped]⟩
  rw [operand, run_bind (next?_run r), head]
  show (skip >>= fun _ => _ : Parse Expr) r = _
  rw [run_bind (skip_run r), run_bind (follows_left next noSelection), if_neg Bool.false_ne_true,
    run_bind step, run_bind (expect_taken (symbol_taken words'))]
  rfl

/-- A negation is an operand, and it reaches up to what follows a phrase. -/
theorem operand_not {fuel places : Nat} {e : Expr} {next : List Word}
    (words : r.words = .keyword "NOT" :: next) (follows : Follows ws)
    (taken : Takes (operand (fuel + 1)) r.skipped ws places e) :
    Takes (operand (fuel + 4)) r ws places (.not e) := by
  obtain ⟨⟨token, chars, start⟩, head, same, -⟩ := exists_lexeme words
  obtain rfl : token = .word "NOT" := same
  obtain ⟨r', step, words', count'⟩ :=
    expr_operand .not taken (follows.ends (by decide))
  refine ⟨r', ?_, words', by rw [count', Reading.count_skipped]⟩
  have notNull : word "NULL" r = .ok (false, r) := word_left (by
    rw [words]
    rintro w ⟨⟩
    exact isKeyword_eq (by decide) _)
  rw [operand, run_bind (next?_run r), head]
  dsimp only
  rw [keywordOrName, run_bind notNull, if_neg Bool.false_ne_true,
    run_bind (word_taken (by decide) words), if_pos rfl, run_bind step]
  rfl

theorem length_morePlaceWords (more : Nat) : (morePlaceWords more).length = 2 * more := by
  induction more with
  | zero => rfl
  | succ more inductionHypothesis =>
      show (morePlaceWords more).length + 1 + 1 = _
      omega

theorem places_le_words (form : Form) : form.places ≤ form.words.length := by
  cases form with
  | compare op => exact Nat.le_succ 1
  | like negated => cases negated <;> decide
  | part => decide
  | null negated => exact Nat.zero_le _
  | between negated => cases negated <;> decide
  | member negated more =>
      show more + 1 ≤ _
      simp only [Form.words, List.length_append, List.length_cons, length_morePlaceWords]
      omega

theorem words_ne_nil (column : ColumnName) : 1 ≤ column.words.length := by
  rcases column with ⟨_ | table, name⟩ <;> exact Nat.succ_pos _

theorem phrase_words_ne_nil (p : Phrase) : 1 ≤ p.words.length := by
  obtain ⟨w, more, words, -⟩ := exists_opening p
  rw [words]
  exact Nat.succ_pos _

/-- No name of a column goes on into the form behind it. -/
theorem form_opening (form : Form) (ws : List Word) :
    ∀ w ∈ (form.words ++ ws).head?, w.token ≠ .symbol "(" ∧ w.token ≠ .symbol "." := by
  have keyword (s : String) :
      (Word.keyword s).token ≠ .symbol "(" ∧ (Word.keyword s).token ≠ .symbol "." :=
    ⟨(nomatch ·), (nomatch ·)⟩
  rcases form with op | negated | _ | negated | negated | ⟨negated, more⟩
  · rintro w ⟨⟩
    cases op <;> decide
  · cases negated <;> rintro w ⟨⟩ <;> exact keyword _
  · rintro w ⟨⟩
    exact keyword _
  · rintro w ⟨⟩
    exact keyword _
  · cases negated <;> rintro w ⟨⟩ <;> exact keyword _
  · cases negated <;> rintro w ⟨⟩ <;> exact keyword _

theorem expr_constant (fuel : Nat) (holds : Bool) {level : Level}
    (loose : level.rank ≤ Level.not.rank) (words : r.words = Phrase.constantWords holds ++ ws)
    (follows : Follows ws) :
    ∃ r', expr (fuel + 4) level r = operators (fuel + 2) level (Phrase.constantExpr holds) r' ∧
      r'.words = ws ∧ r'.count = r.count := by
  obtain ⟨one, oneStep, oneWords, oneCount⟩ := operand_digit (fuel + 2) true words
  have next : one.skipped.words = .digit (if holds then '1' else '0') :: ws := by
    rw [Reading.words_skipped, oneWords]
    rfl
  obtain ⟨r', step, words', count'⟩ := expr_operand Level.equality.next
    (operand_digit fuel holds next) (follows.ends (by decide))
  rw [Reading.count_skipped] at count'
  refine ⟨r', ?_, words', by omega⟩
  rw [expr_succ, run_bind oneStep, operators_binary _ oneWords rfl
    (Nat.le_trans loose (by decide)), run_bind step]
  rfl

/-- Where a conjunction or disjunction is over. -/
def Closed (ws : List Word) : Prop := ws = [] ∨ ∃ more, ws = .sign ")" :: more

/-- A conjunction or disjunction goes on with its next member, up to a further one or its end. -/
theorem operators_joiner (fuel : Nat) (logic : Logic) (left : Expr) {next : List Word}
    (words : r.words = .keyword (Phrase.joiner logic) :: next) :
    ∃ level, Level.rank level ≤ Level.not.rank ∧
      (∀ more, Ends level (.keyword (Phrase.joiner logic) :: more)) ∧
      operators (fuel + 1) .or left r
        = (expr fuel level >>= fun right =>
            operators fuel .or (Phrase.connective logic left right)) r.skipped := by
  have disjunction (words : r.words = .keyword "OR" :: next) :
      operators (fuel + 1) .or left r
        = (expr fuel .and >>= fun right => operators fuel .or (.or left right)) r.skipped :=
    operators_binary fuel words (binary?_keyword (by decide)) (by decide)
  cases logic with
  | and =>
      exact ⟨.not, Nat.le_refl _, fun more => .conjunction more (by decide),
        operators_binary fuel words (binary?_keyword (by decide)) (by decide)⟩
  | or =>
      exact ⟨.and, by decide, fun more => .disjunction more (by decide), disjunction words⟩
  | not =>
      exact ⟨.and, by decide, fun more => .disjunction more (by decide), disjunction words⟩

theorem Closed.ends {ws : List Word} (closed : Closed ws) (level : Level) : Ends level ws := by
  rcases closed with rfl | ⟨more, rfl⟩
  · exact .nothing
  · exact .sign more rfl

theorem follows_wordsAll (logic : Logic) (ps : List Phrase) (closed : Closed ws) :
    Follows (Phrase.wordsAll (Phrase.joiner logic) ps ++ ws) := by
  cases ps with
  | nil =>
      rcases closed with rfl | ⟨more, rfl⟩
      · exact .nothing
      · exact .close more
  | cons p ps => exact .joiner logic _

/-- A phrase is read as its expression, and what is left are the operators behind it. -/
def IsRead (p : Phrase) : Prop :=
  ∀ (fuel : Nat) (level : Level) ⦃r : Reading⦄ ⦃ws : List Word⦄, 8 * p.words.length ≤ fuel →
    level.rank ≤ Level.not.rank → r.words = p.words ++ ws → Follows ws →
    ∃ fuel' r', expr fuel level r = operators fuel' level (p.expr r.count) r' ∧
      fuel ≤ fuel' + 2 ∧ r'.words = ws ∧ r'.count = r.count + p.places

/-- Further members of a conjunction or disjunction are read up to its end. -/
def AreRead (logic : Logic) (ps : List Phrase) : Prop :=
  ∀ (fuel : Nat) (joined : Expr) ⦃r : Reading⦄ ⦃ws : List Word⦄,
    8 * (Phrase.wordsAll (Phrase.joiner logic) ps).length + 1 ≤ fuel →
    r.words = Phrase.wordsAll (Phrase.joiner logic) ps ++ ws → Closed ws →
    Takes (operators fuel .or joined) r ws (Phrase.placesAll ps)
      (Phrase.exprAll logic r.count joined ps)

theorem isRead_test (column : ColumnName) (form : Form) : IsRead (.test column form) := by
  intro fuel level r ws enough loose words follows
  have size : (Phrase.test column form).words.length
      = column.words.length + form.words.length := List.length_append
  have atLeast := words_ne_nil column
  have places := places_le_words form
  obtain ⟨fuel, rfl⟩ : ∃ n, fuel = n + 4 := ⟨fuel - 4, by omega⟩
  have split : r.words = column.words ++ (form.words ++ ws) := by
    rw [words, Phrase.words, List.append_assoc]
  obtain ⟨named, step, namedWords, namedCount⟩ :=
    operand_column (fuel + 1) column split (form_opening form ws)
  obtain ⟨r', tested, words', count'⟩ := operators_form (fuel + 2) form column.expr
    (by omega) loose namedWords follows
  rw [namedCount] at tested count'
  refine ⟨fuel + 2, r', ?_, Nat.le_refl _, words', count'⟩
  rw [expr_succ, run_bind step]
  exact tested

theorem isRead_constant (holds : Bool) : IsRead (.constant holds) := by
  intro fuel level r ws enough loose words follows
  have size : (Phrase.constant holds).words.length = 3 := rfl
  obtain ⟨fuel, rfl⟩ : ∃ n, fuel = n + 4 := ⟨fuel - 4, by omega⟩
  obtain ⟨r', step, words', count'⟩ := expr_constant fuel holds loose words follows
  exact ⟨fuel + 2, r', step, Nat.le_refl _, words', count'⟩

theorem expr_members {logic : Logic} {first : Phrase} {rest : List Phrase}
    (firstRead : IsRead first) (restRead : AreRead logic rest) (fuel : Nat) {r : Reading}
    {ws : List Word} (enough : 8 * (first.words.length
      + (Phrase.wordsAll (Phrase.joiner logic) rest).length) + 8 ≤ fuel)
    (words : r.words = (first.words ++ Phrase.wordsAll (Phrase.joiner logic) rest) ++ ws)
    (closed : Closed ws) :
    Takes (expr fuel .or) r ws (first.places + Phrase.placesAll rest)
      (Phrase.exprAll logic (r.count + first.places) (first.expr r.count) rest) := by
  rw [List.append_assoc] at words
  obtain ⟨later, r₁, step, left, words₁, count₁⟩ := firstRead fuel .or
    (by omega) (by decide) words (follows_wordsAll logic rest closed)
  obtain ⟨r₂, more, words₂, count₂⟩ := restRead later (first.expr r.count)
    (by omega) words₁ closed
  rw [count₁] at more count₂
  exact ⟨r₂, step.trans more, words₂, by omega⟩

theorem operand_members {logic : Logic} {first : Phrase} {rest : List Phrase}
    (firstRead : IsRead first) (restRead : AreRead logic rest) (fuel : Nat) {r : Reading}
    {ws : List Word} (enough : 8 * (first.words.length
      + (Phrase.wordsAll (Phrase.joiner logic) rest).length) + 8 ≤ fuel)
    (words : r.words = .sign "(" :: (first.words ++ Phrase.wordsAll (Phrase.joiner logic) rest)
      ++ .sign ")" :: ws) :
    Takes (operand (fuel + 1)) r ws (first.places + Phrase.placesAll rest)
      (Phrase.exprAll logic (r.count + first.places) (first.expr r.count) rest) := by
  obtain ⟨w, others, opening, noSelection⟩ := exists_opening first
  have next : r.skipped.words
      = (first.words ++ Phrase.wordsAll (Phrase.joiner logic) rest) ++ .sign ")" :: ws := by
    rw [Reading.words_skipped, words]
    rfl
  have members := expr_members firstRead restRead fuel enough next (Or.inr ⟨ws, rfl⟩)
  rw [Reading.count_skipped] at members
  exact operand_enclosed words (by rw [opening]; rfl) noSelection members

/-- Without a negation a group is the operand between its parentheses. -/
theorem isRead_enclosed {logic : Logic} {first : Phrase} {rest : List Phrase}
    (plain : Phrase.openingWords logic = [.sign "("]) (same : Phrase.enclosed logic = id)
    (firstRead : IsRead first) (restRead : AreRead logic rest) :
    IsRead (.group logic first rest) := by
  intro fuel level r ws enough loose words follows
  have split : (Phrase.group logic first rest).words = .sign "(" ::
      (first.words ++ Phrase.wordsAll (Phrase.joiner logic) rest) ++ [.sign ")"] := by
    rw [Phrase.words, plain]
    rfl
  have size : (Phrase.group logic first rest).words.length = first.words.length
      + (Phrase.wordsAll (Phrase.joiner logic) rest).length + 2 := by
    rw [split]
    simp [Nat.add_assoc]
  obtain ⟨fuel, rfl⟩ : ∃ n, fuel = n + 2 := ⟨fuel - 2, by omega⟩
  rw [split, List.append_assoc] at words
  obtain ⟨r', step, words', count'⟩ :=
    operand_members firstRead restRead fuel (by omega) words
  refine ⟨fuel + 1, r', ?_, Nat.le_succ _, words', count'⟩
  rw [expr_succ, run_bind step, Phrase.expr, same]
  rfl

theorem isRead_not {first : Phrase} {rest : List Phrase} (firstRead : IsRead first)
    (restRead : AreRead .not rest) : IsRead (.group .not first rest) := by
  intro fuel level r ws enough loose words follows
  have split : (Phrase.group .not first rest).words = .keyword "NOT" :: (.sign "(" ::
      (first.words ++ Phrase.wordsAll (Phrase.joiner .not) rest) ++ [.sign ")"]) := rfl
  have size : (Phrase.group .not first rest).words.length = first.words.length
      + (Phrase.wordsAll (Phrase.joiner .not) rest).length + 3 := by
    rw [split]
    simp [Nat.add_assoc]
  obtain ⟨fuel, rfl⟩ : ∃ n, fuel = n + 5 := ⟨fuel - 5, by omega⟩
  rw [split, List.cons_append, List.append_assoc] at words
  have next : r.skipped.words = .sign "(" ::
      (first.words ++ Phrase.wordsAll (Phrase.joiner .not) rest) ++ .sign ")" :: ws := by
    rw [Reading.words_skipped, words]
    rfl
  have members := operand_members firstRead restRead fuel (by omega) next
  rw [Reading.count_skipped] at members
  obtain ⟨r', step, words', count'⟩ := operand_not words follows members
  refine ⟨fuel + 4, r', ?_, by omega, words', count'⟩
  rw [expr_succ, run_bind step]
  rfl

theorem areRead_nil (logic : Logic) : AreRead logic [] := by
  intro fuel joined r ws enough words closed
  obtain ⟨fuel, rfl⟩ : ∃ n, fuel = n + 1 := ⟨fuel - 1, by omega⟩
  exact ⟨r, operators_ends fuel (words ▸ closed.ends .or), words, rfl⟩

theorem areRead_cons {logic : Logic} {p : Phrase} {rest : List Phrase} (firstRead : IsRead p)
    (restRead : AreRead logic rest) : AreRead logic (p :: rest) := by
  intro fuel joined r ws enough words closed
  have size : (Phrase.wordsAll (Phrase.joiner logic) (p :: rest)).length
      = p.words.length + (Phrase.wordsAll (Phrase.joiner logic) rest).length + 1 := by
    simp [Phrase.wordsAll]
  obtain ⟨fuel, rfl⟩ : ∃ n, fuel = n + 1 := ⟨fuel - 1, by omega⟩
  have split : r.words = .keyword (Phrase.joiner logic)
      :: (p.words ++ (Phrase.wordsAll (Phrase.joiner logic) rest ++ ws)) := by
    rw [words, Phrase.wordsAll, List.append_assoc]
    rfl
  have next : r.skipped.words
      = p.words ++ (Phrase.wordsAll (Phrase.joiner logic) rest ++ ws) := by
    rw [Reading.words_skipped, split]
    rfl
  obtain ⟨level, loose, ends, taken⟩ := operators_joiner fuel logic joined split
  obtain ⟨later, r₁, step, left, words₁, count₁⟩ := firstRead fuel level (by omega)
    loose next (follows_wordsAll logic rest closed)
  obtain ⟨later, rfl⟩ : ∃ n, later = n + 1 := ⟨later - 1, by
    have atLeast := phrase_words_ne_nil p
    omega⟩
  have ended : Ends level r₁.words := by
    rw [words₁]
    cases rest with
    | nil => exact closed.ends level
    | cons p rest => exact ends _
  rw [operators_ends later ended, Reading.count_skipped] at step
  obtain ⟨r₂, more, words₂, count₂⟩ := restRead fuel
    (Phrase.connective logic joined (p.expr r.count)) (by omega) words₁ closed
  rw [Reading.count_skipped] at count₁
  rw [count₁] at more count₂
  refine ⟨r₂, ?_, words₂, ?_⟩
  · rw [taken, run_bind step]
    exact more
  · rw [count₂, Phrase.placesAll]
    omega

mutual

theorem isRead (p : Phrase) : IsRead p := by
  match p with
  | .test column form => exact isRead_test column form
  | .constant holds => exact isRead_constant holds
  | .group .and first rest =>
      exact isRead_enclosed rfl (funext fun _ => rfl) (isRead first) (areRead .and rest)
  | .group .or first rest =>
      exact isRead_enclosed rfl (funext fun _ => rfl) (isRead first) (areRead .or rest)
  | .group .not first rest => exact isRead_not (isRead first) (areRead .not rest)

theorem areRead (logic : Logic) (ps : List Phrase) : AreRead logic ps := by
  match ps with
  | [] => exact areRead_nil logic
  | p :: rest => exact areRead_cons (isRead p) (areRead logic rest)

end

end Phrases

/-! ### Whole texts -/

/-- The expression that a whole text is, read with the fuel of statements. -/
def wholeExpr (text : List Char) : Except Fault Expr :=
  let tokens := Token.split .engine text
  let start : Reading := { text, rest := tokens }
  match (expr (16 * tokens.length + 16) .or).run start with
  | .error e => .error e
  | .ok (e, r) => if r.rest.isEmpty then .ok e else .error r.fault

/-- Phrases with ANDs between are read as their conjunction. -/
theorem wholeExpr_members (logic : Logic) (first : Phrase) (rest : List Phrase)
    (firstClean : first.IsClean) (restClean : Phrase.AllClean rest) :
    wholeExpr (first.text ++ Phrase.textAll (Phrase.joiner logic) rest)
      = .ok (Phrase.exprAll logic first.places (first.expr 0) rest) := by
  have split : Sql.words (first.text ++ Phrase.textAll (Phrase.joiner logic) rest)
      = first.words ++ Phrase.wordsAll (Phrase.joiner logic) rest := by
    have stops := stops_textAll (Phrase.joiner logic) rest (Or.inl rfl)
    have others := words_phrases logic rest restClean (Or.inl rfl)
    rw [List.append_nil] at stops others
    rw [words_phrase first firstClean stops, others, words_nil, List.append_nil]
  generalize first.text ++ Phrase.textAll (Phrase.joiner logic) rest = text at split
  have size : (Token.split .engine text).length
      = first.words.length + (Phrase.wordsAll (Phrase.joiner logic) rest).length := by
    rw [← List.length_append, ← split, Sql.words, List.length_map]
  have start : ({ text, rest := Token.split .engine text } : Reading).words
      = (first.words ++ Phrase.wordsAll (Phrase.joiner logic) rest) ++ [] := by
    rw [List.append_nil]
    exact split
  obtain ⟨r, step, words, -⟩ := expr_members (isRead first) (areRead logic rest)
    (16 * (Token.split .engine text).length + 16) (by omega) start (Or.inl rfl)
  unfold wholeExpr
  show (match expr _ .or _ with | .error e => _ | .ok (e, r) => _) = _
  rw [step]
  have finished : r.rest.isEmpty := by
    rw [List.isEmpty_iff]
    exact List.map_eq_nil_iff.1 words
  dsimp only
  rw [if_pos finished]
  show Except.ok (Phrase.exprAll logic (0 + first.places) (first.expr 0) rest) = _
  rw [Nat.zero_add]

end Recordkeeper.Sql.Parser
