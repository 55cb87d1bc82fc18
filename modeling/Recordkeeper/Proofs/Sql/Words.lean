import Recordkeeper.Sql.Token

/-!
Contract: the words of a text, piece by piece.

Owns:
- words, which are tokens as they are written, wherever they stand;
- that blanks vanish and that a piece in front of a text gives its words first;
- words that are keywords, signs, places, quoted names and single digits.

Does not own: what the words of a text mean.
-/

set_option autoImplicit false

namespace Recordkeeper.Sql

structure Word where
  token : Token
  chars : List Char
  deriving DecidableEq, Repr

def Lexeme.written (l : Lexeme) : Word := ⟨l.token, l.chars⟩

def words (text : List Char) : List Word := (Token.split .engine text).map Lexeme.written

/-! ### One step -/

/-- With fuel enough, neither the fuel nor what has been read before changes the words. -/
theorem splitFrom_written (lexis : Lexis) (fuel : Nat) :
    ∀ (more before later : Nat) (text : List Char), text.length < fuel → text.length < more →
      (Token.splitFrom lexis fuel before text).map Lexeme.written
        = (Token.splitFrom lexis more later text).map Lexeme.written := by
  induction fuel with
  | zero => exact fun _ _ _ text enough => absurd enough (Nat.not_lt_zero _)
  | succ fuel inductionHypothesis =>
      intro more before later text enough enoughMore
      obtain ⟨more, rfl⟩ : ∃ n, more = n + 1 := ⟨more - 1, by omega⟩
      have dropped (n : Nat) (front : Token.front lexis text ≠ .finished) :
          (text.drop (max n 1)).length < text.length := by
        have nonempty : text.length ≠ 0 := fun none => front (by
          rw [List.length_eq_zero_iff.1 none]
          rfl)
        rw [List.length_drop]
        omega
      unfold Token.splitFrom
      cases front : Token.front lexis text with
      | finished => rfl
      | skip n =>
          have shorter := dropped n (by simp [front])
          exact inductionHypothesis _ _ _ _ (by omega) (by omega)
      | lexeme token n =>
          have shorter := dropped n (by simp [front])
          simp only [List.map_cons]
          rw [inductionHypothesis more (before + max n 1) (later + max n 1) _ (by omega) (by omega)]
          rfl

theorem words_nil : words [] = [] := rfl

theorem words_blank (rest : List Char) : words (' ' :: rest) = words rest :=
  splitFrom_written .engine _ _ 1 0 rest (Nat.lt_succ_self _) (Nat.lt_succ_self _)

theorem words_lexeme {token : Token} {piece : List Char} {rest : List Char} (present : piece ≠ [])
    (front : Token.front .engine (piece ++ rest) = .lexeme token piece.length) :
    words (piece ++ rest) = ⟨token, piece⟩ :: words rest := by
  have long : max piece.length 1 = piece.length :=
    Nat.max_eq_left (List.length_pos_iff.2 present)
  show (Token.splitFrom .engine ((piece ++ rest).length + 1) 0 (piece ++ rest)).map _ = _
  rw [Token.splitFrom, front]
  dsimp only
  rw [long, List.take_left, List.drop_left, List.map_cons]
  congr 1
  refine splitFrom_written .engine _ _ _ _ rest ?_ (Nat.lt_succ_self _)
  rw [List.length_append]
  have positive := List.length_pos_iff.2 present
  omega

/-! ### Keywords and signs -/

/-- A keyword in front of a blank is a word. -/
theorem words_keyword (keyword : String) (rest : List Char) (present : keyword.toList ≠ [])
    (front : ∀ more, Token.front .engine (keyword.toList ++ ' ' :: more)
      = .lexeme (.word keyword) keyword.toList.length) :
    words (keyword.toList ++ ' ' :: rest) = ⟨.word keyword, keyword.toList⟩ :: words rest := by
  rw [words_lexeme present (front rest), words_blank]

theorem words_sign (sign : String) {rest : List Char} (present : sign.toList ≠ [])
    (front : Token.front .engine (sign.toList ++ rest)
      = .lexeme (.symbol (Token.symbolAt (sign.toList ++ rest)))
          (Token.symbolAt (sign.toList ++ rest)).length)
    (taken : Token.symbolAt (sign.toList ++ rest) = sign) :
    words (sign.toList ++ rest) = ⟨.symbol sign, sign.toList⟩ :: words rest := by
  rw [taken] at front
  exact words_lexeme present (by rw [front, String.length_toList])

end Recordkeeper.Sql
