import Recordkeeper.Operator
import Recordkeeper.Proofs.Sql.Words
import Recordkeeper.Sql.Syntax

/-!
Contract: conditions in the way they are written for the engine.

Owns:
- phrases, which are tests of columns, constants and groups, with their texts;
- the words of a phrase, whatever stands after it;
- the expression a phrase stands for, whose places are numbered from the left.

Does not own: how words are read.
-/

set_option autoImplicit false

namespace Recordkeeper.Sql

/-- A column as it is written, with its table in front if there is one. -/
structure ColumnName where
  table : Option (List Char)
  name : List Char

/-- What is asked of a column; a place stands for every value. -/
inductive Form where
  | compare (op : Comparison)
  | like (negated : Bool)
  /-- A pattern whose escape is the backslash. -/
  | part
  | null (negated : Bool)
  | between (negated : Bool)
  /-- A list of one place and as many more. -/
  | member (negated : Bool) (more : Nat)

/-- A written condition. -/
inductive Phrase where
  | test (column : ColumnName) (form : Form)
  | constant (holds : Bool)
  | group (logic : Logic) (first : Phrase) (rest : List Phrase)

def Comparison.sign : Comparison → String
  | .eq => "="
  | .ne => "<>"
  | .lt => "<"
  | .le => "<="
  | .gt => ">"
  | .ge => ">="

/-! ### Texts -/

def ColumnName.quoted (name : List Char) : List Char := '"' :: name ++ ['"']

def ColumnName.text (column : ColumnName) : List Char :=
  match column.table with
  | some table => quoted table ++ '.' :: quoted column.name
  | none => quoted column.name

def negation (negated : Bool) : List Char := if negated then "NOT ".toList else []

def morePlaces : Nat → List Char
  | 0 => []
  | n + 1 => ", ?".toList ++ morePlaces n

def Form.text : Form → List Char
  | .compare op => ' ' :: op.sign.toList ++ " ?".toList
  | .like negated => ' ' :: negation negated ++ "LIKE ?".toList
  | .part => " LIKE ? ESCAPE '\\'".toList
  | .null negated => " IS ".toList ++ negation negated ++ "NULL".toList
  | .between negated => ' ' :: negation negated ++ "BETWEEN ? AND ?".toList
  | .member negated more => ' ' :: negation negated ++ "IN (?".toList ++ morePlaces more ++ [')']

def Phrase.constantText (holds : Bool) : List Char :=
  "1 = ".toList ++ [if holds then '1' else '0']

def Phrase.joiner : Logic → String
  | .and => "AND"
  | .or | .not => "OR"

def Phrase.opening : Logic → List Char
  | .not => "NOT (".toList
  | .and | .or => ['(']

mutual

def Phrase.text : Phrase → List Char
  | .test column form => column.text ++ form.text
  | .constant holds => Phrase.constantText holds
  | .group logic first rest =>
    Phrase.opening logic ++ first.text ++ Phrase.textAll (Phrase.joiner logic) rest ++ [')']
termination_by structural p => p

def Phrase.textAll (joiner : String) : List Phrase → List Char
  | [] => []
  | p :: rest => ' ' :: joiner.toList ++ ' ' :: p.text ++ Phrase.textAll joiner rest
termination_by structural ps => ps

end

/-! ### Words -/

def Word.keyword (s : String) : Word := ⟨.word s, s.toList⟩

def Word.sign (s : String) : Word := ⟨.symbol s, s.toList⟩

def Word.name (name : List Char) : Word := ⟨.name (String.ofList name), ColumnName.quoted name⟩

def Word.place : Word := ⟨.parameter "?", ['?']⟩

def Word.escape : Word := ⟨.text "\\", ['\'', '\\', '\'']⟩

def Word.digit (c : Char) : Word := ⟨.number (String.ofList [c]), [c]⟩

/-! ### Expressions -/

/-- A column without table is a quoted name; behind a table the quotes are not kept. -/
def ColumnName.expr (column : ColumnName) : Expr :=
  match column.table with
  | some table => .column (some (String.ofList table)) (String.ofList column.name) false
  | none => .column none (String.ofList column.name) true

def Form.places : Form → Nat
  | .null _ => 0
  | .between _ => 2
  | .member _ more => more + 1
  | .compare _ | .like _ | .part => 1

/-- The test of an expression, with places from a number on. -/
def Form.expr (e : Expr) (place : Nat) : Form → Expr
  | .compare op => .compare op e (.parameter place)
  | .like negated => .like negated e (.parameter place) none
  | .part => .like false e (.parameter place) (some (.literal (.text "\\")))
  | .null negated => .isNull negated e
  | .between negated => .between negated e (.parameter place) (.parameter (place + 1))
  | .member negated more => .inList negated e ((List.range' place (more + 1)).map .parameter)

def Phrase.constantExpr (holds : Bool) : Expr :=
  .compare .eq (.literal (.integer 1)) (.literal (.integer (if holds then 1 else 0)))

def Phrase.connective : Logic → Expr → Expr → Expr
  | .and => .and
  | .or | .not => .or

/-- What a group makes of its joined members. -/
def Phrase.enclosed : Logic → Expr → Expr
  | .not, e => .not e
  | .and, e | .or, e => e

mutual

def Phrase.places : Phrase → Nat
  | .test _ form => form.places
  | .constant _ => 0
  | .group _ first rest => first.places + Phrase.placesAll rest
termination_by structural p => p

def Phrase.placesAll : List Phrase → Nat
  | [] => 0
  | p :: rest => p.places + Phrase.placesAll rest
termination_by structural ps => ps

end

mutual

/-- The expression of a phrase, with places from a number on. -/
def Phrase.expr (place : Nat) : Phrase → Expr
  | .test column form => form.expr column.expr place
  | .constant holds => Phrase.constantExpr holds
  | .group logic first rest =>
    Phrase.enclosed logic
      (Phrase.exprAll logic (place + first.places) (Phrase.expr place first) rest)
termination_by structural p => p

/-- An expression joined with those of further phrases, from the left. -/
def Phrase.exprAll (logic : Logic) (place : Nat) (joined : Expr) : List Phrase → Expr
  | [] => joined
  | p :: rest =>
    Phrase.exprAll logic (place + p.places) (Phrase.connective logic joined (Phrase.expr place p))
      rest
termination_by structural ps => ps

end

open Word

def ColumnName.words (column : ColumnName) : List Word :=
  match column.table with
  | some table => [Word.name table, sign ".", Word.name column.name]
  | none => [Word.name column.name]

def negationWords (negated : Bool) : List Word := if negated then [keyword "NOT"] else []

def morePlaceWords : Nat → List Word
  | 0 => []
  | n + 1 => sign "," :: place :: morePlaceWords n

def Form.words : Form → List Word
  | .compare op => [sign op.sign, place]
  | .like negated => negationWords negated ++ [keyword "LIKE", place]
  | .part => [keyword "LIKE", place, keyword "ESCAPE", escape]
  | .null negated => keyword "IS" :: negationWords negated ++ [keyword "NULL"]
  | .between negated =>
    negationWords negated ++ [keyword "BETWEEN", place, keyword "AND", place]
  | .member negated more =>
    negationWords negated ++ [keyword "IN", sign "(", place] ++ morePlaceWords more ++ [sign ")"]

def Phrase.constantWords (holds : Bool) : List Word :=
  [digit '1', sign "=", digit (if holds then '1' else '0')]

def Phrase.openingWords : Logic → List Word
  | .not => [keyword "NOT", sign "("]
  | .and | .or => [sign "("]

mutual

def Phrase.words : Phrase → List Word
  | .test column form => column.words ++ form.words
  | .constant holds => Phrase.constantWords holds
  | .group logic first rest =>
    Phrase.openingWords logic ++ first.words ++ Phrase.wordsAll (Phrase.joiner logic) rest
      ++ [sign ")"]
termination_by structural p => p

def Phrase.wordsAll (joiner : String) : List Phrase → List Word
  | [] => []
  | p :: rest => keyword joiner :: p.words ++ Phrase.wordsAll joiner rest
termination_by structural ps => ps

end

/-! ### The words of a text -/

/-- Texts in front of which a place, a digit or a keyword ends. -/
def Stops (rest : List Char) : Prop :=
  rest = [] ∨ ∃ more, rest = ' ' :: more ∨ rest = ',' :: more ∨ rest = ')' :: more

theorem stops_blank (more : List Char) : Stops (' ' :: more) := Or.inr ⟨more, Or.inl rfl⟩

theorem stops_comma (more : List Char) : Stops (',' :: more) := Or.inr ⟨more, Or.inr (Or.inl rfl)⟩

theorem stops_close (more : List Char) : Stops (')' :: more) := Or.inr ⟨more, Or.inr (Or.inr rfl)⟩

/-- A piece that is one token in front of everything it may stand in front of is a word. -/
theorem words_before {token : Token} (piece : List Char) {rest : List Char} (stops : Stops rest)
    (present : piece ≠ []) (alone : Token.front .engine (piece ++ []) = .lexeme token piece.length)
    (blank : ∀ more, Token.front .engine (piece ++ ' ' :: more) = .lexeme token piece.length)
    (comma : ∀ more, Token.front .engine (piece ++ ',' :: more) = .lexeme token piece.length)
    (close : ∀ more, Token.front .engine (piece ++ ')' :: more) = .lexeme token piece.length) :
    words (piece ++ rest) = ⟨token, piece⟩ :: words rest := by
  refine words_lexeme present ?_
  rcases stops with rfl | ⟨more, rfl | rfl | rfl⟩
  · exact alone
  · exact blank more
  · exact comma more
  · exact close more

theorem words_place {rest : List Char} (stops : Stops rest) :
    words ('?' :: rest) = place :: words rest :=
  words_before ['?'] stops (by decide) rfl (fun _ => rfl) (fun _ => rfl) (fun _ => rfl)

theorem words_null {rest : List Char} (stops : Stops rest) :
    words ("NULL".toList ++ rest) = keyword "NULL" :: words rest :=
  words_before "NULL".toList stops (by decide) rfl (fun _ => rfl) (fun _ => rfl) (fun _ => rfl)

theorem words_escape {rest : List Char} (stops : Stops rest) :
    words ("'\\'".toList ++ rest) = escape :: words rest :=
  words_before "'\\'".toList stops (by decide) rfl (fun _ => rfl) (fun _ => rfl) (fun _ => rfl)

theorem words_digit (holds : Bool) {rest : List Char} (stops : Stops rest) :
    words ((if holds then '1' else '0') :: rest)
      = digit (if holds then '1' else '0') :: words rest := by
  cases holds with
  | true =>
      exact words_before ['1'] stops (by decide) rfl (fun _ => rfl) (fun _ => rfl) (fun _ => rfl)
  | false =>
      exact words_before ['0'] stops (by decide) rfl (fun _ => rfl) (fun _ => rfl) (fun _ => rfl)

theorem words_open (rest : List Char) : words ('(' :: rest) = sign "(" :: words rest :=
  words_sign "(" (by decide) rfl rfl

theorem words_close (rest : List Char) : words (')' :: rest) = sign ")" :: words rest :=
  words_sign ")" (by decide) rfl rfl

theorem words_equals (rest : List Char) :
    words ('=' :: ' ' :: rest) = sign "=" :: words (' ' :: rest) :=
  words_sign "=" (by decide) rfl rfl

theorem words_point (rest : List Char) :
    words ('.' :: '"' :: rest) = sign "." :: words ('"' :: rest) :=
  words_sign "." (by decide) rfl rfl

theorem words_comma (rest : List Char) : words (',' :: rest) = sign "," :: words rest :=
  words_sign "," (by decide) rfl rfl

/-- A name without quotes is read up to the quote behind it. -/
theorem quotedBody_name {name : List Char} (clean : '"' ∉ name) {rest : List Char}
    (single : rest.head? ≠ some '"') :
    Token.quotedBody '"' (name ++ '"' :: rest) = some (name, name.length + 1) := by
  induction name with
  | nil =>
      rw [List.nil_append, Token.quotedBody.eq_def]
      dsimp only
      rw [if_pos rfl]
      cases rest with
      | nil => rfl
      | cons c rest =>
          have differs : c ≠ '"' := fun same => single (congrArg some same)
          exact if_neg differs
  | cons c name inductionHypothesis =>
      have differs : c ≠ '"' := fun same => clean (same ▸ List.mem_cons_self)
      rw [List.cons_append, Token.quotedBody.eq_def]
      dsimp only
      rw [if_neg differs, inductionHypothesis fun member => clean (List.mem_cons_of_mem _ member)]
      rfl

theorem words_name {name : List Char} (clean : '"' ∉ name) {rest : List Char}
    (single : rest.head? ≠ some '"') :
    words (ColumnName.quoted name ++ rest) = Word.name name :: words rest := by
  refine words_lexeme (List.cons_ne_nil _ _) ?_
  have body : Token.first .engine ('"' :: (name ++ '"' :: rest))
      = (.name (String.ofList name), name.length + 1 + 1) := by
    unfold Token.first
    simp only [Char.reduceEq, ↓reduceIte, true_or, quotedBody_name clean single]
  show Token.front .engine ('"' :: ((name ++ ['"']) ++ rest)) = _
  rw [List.append_assoc]
  show (Token.Front.lexeme (Token.first .engine ('"' :: (name ++ '"' :: rest))).1
    (Token.first .engine ('"' :: (name ++ '"' :: rest))).2) = _
  rw [body]
  simp [ColumnName.quoted]

def ColumnName.IsClean (column : ColumnName) : Prop :=
  '"' ∉ column.name ∧ ∀ table ∈ column.table, '"' ∉ table

theorem words_column {column : ColumnName} (clean : column.IsClean) {rest : List Char}
    (single : rest.head? ≠ some '"') :
    words (column.text ++ rest) = column.words ++ words rest := by
  rcases column with ⟨_ | table, name⟩
  · exact words_name clean.1 single
  · have point : ('.' :: ColumnName.quoted name ++ rest).head? ≠ some '"' :=
      fun same => absurd (Option.some.inj same) (by decide)
    show words ((ColumnName.quoted table ++ '.' :: ColumnName.quoted name) ++ rest) = _
    rw [List.append_assoc, words_name (clean.2 table rfl) point]
    show _ :: words ('.' :: '"' :: (name ++ ['"'] ++ rest)) = _
    rw [words_point]
    show _ :: _ :: words (ColumnName.quoted name ++ rest) = _
    rw [words_name clean.1 single]
    rfl

/-! ### The words of a phrase -/

theorem words_negation (negated : Bool) (rest : List Char) :
    words (negation negated ++ rest) = negationWords negated ++ words rest := by
  cases negated with
  | false => rfl
  | true => exact words_keyword "NOT" rest (by decide) fun _ => rfl

theorem stops_morePlaces (more : Nat) (rest : List Char) :
    Stops (morePlaces more ++ ')' :: rest) := by
  cases more with
  | zero => exact stops_close _
  | succ more => exact stops_comma _

theorem words_morePlaces (more : Nat) (rest : List Char) :
    words (morePlaces more ++ ')' :: rest) = morePlaceWords more ++ words (')' :: rest) := by
  induction more with
  | zero => rfl
  | succ more inductionHypothesis =>
      show words (',' :: ' ' :: '?' :: (morePlaces more ++ ')' :: rest)) = _
      rw [words_comma, words_blank, words_place (stops_morePlaces more rest), inductionHypothesis]
      rfl

theorem words_comparison (op : Comparison) {rest : List Char} (stops : Stops rest) :
    words (op.sign.toList ++ ' ' :: '?' :: rest) = sign op.sign :: place :: words rest := by
  have written : words (op.sign.toList ++ ' ' :: '?' :: rest)
      = sign op.sign :: words (' ' :: '?' :: rest) := by
    cases op <;> exact words_sign _ (by decide) rfl rfl
  rw [written, words_blank, words_place stops]

theorem words_form (form : Form) {rest : List Char} (stops : Stops rest) :
    words (form.text ++ rest) = form.words ++ words rest := by
  cases form with
  | compare op =>
      show words (' ' :: ((op.sign.toList ++ " ?".toList) ++ rest)) = _
      rw [words_blank, List.append_assoc]
      exact words_comparison op stops
  | like negated =>
      show words (' ' :: ((negation negated ++ "LIKE ?".toList) ++ rest)) = _
      rw [words_blank, List.append_assoc, words_negation]
      show _ ++ words ("LIKE".toList ++ ' ' :: '?' :: rest) = _
      rw [words_keyword "LIKE" _ (by decide) (fun _ => rfl), words_place stops, Form.words,
        List.append_assoc]
      rfl
  | part =>
      show words (' ' :: ("LIKE".toList ++ ' ' :: '?' :: ' ' :: ("ESCAPE".toList
        ++ ' ' :: ("'\\'".toList ++ rest)))) = _
      rw [words_blank, words_keyword "LIKE" _ (by decide) (fun _ => rfl),
        words_place (stops_blank _), words_blank,
        words_keyword "ESCAPE" _ (by decide) (fun _ => rfl), words_escape stops]
      rfl
  | null negated =>
      show words ((" IS ".toList ++ negation negated ++ "NULL".toList) ++ rest) = _
      rw [List.append_assoc, List.append_assoc]
      show words (' ' :: ("IS".toList ++ ' ' :: (negation negated ++ ("NULL".toList ++ rest)))) = _
      rw [words_blank, words_keyword "IS" _ (by decide) (fun _ => rfl), words_negation,
        words_null stops]
      show _ = keyword "IS" :: ((negationWords negated ++ [keyword "NULL"]) ++ words rest)
      rw [List.append_assoc]
      rfl
  | between negated =>
      show words (' ' :: ((negation negated ++ "BETWEEN ? AND ?".toList) ++ rest)) = _
      rw [words_blank, List.append_assoc, words_negation]
      show _ ++ words ("BETWEEN".toList ++ ' ' :: '?' :: ' ' :: ("AND".toList ++ ' ' :: '?' ::
        rest)) = _
      rw [words_keyword "BETWEEN" _ (by decide) (fun _ => rfl), words_place (stops_blank _),
        words_blank, words_keyword "AND" _ (by decide) (fun _ => rfl), words_place stops,
        Form.words, List.append_assoc]
      rfl
  | member negated more =>
      show words (' ' :: (negation negated ++ "IN (?".toList ++ morePlaces more ++ [')'] ++ rest))
        = _
      rw [List.append_assoc, List.append_assoc, List.append_assoc]
      show words (' ' :: (negation negated ++ ("IN".toList ++ ' ' :: '(' :: '?' ::
        (morePlaces more ++ ')' :: rest)))) = _
      rw [words_blank, words_negation, words_keyword "IN" _ (by decide) (fun _ => rfl), words_open,
        words_place (stops_morePlaces more rest), words_morePlaces, words_close, Form.words,
        List.append_assoc, List.append_assoc, List.append_assoc]
      rfl

theorem words_constant (holds : Bool) {rest : List Char} (stops : Stops rest) :
    words (Phrase.constantText holds ++ rest) = Phrase.constantWords holds ++ words rest := by
  show words ('1' :: ' ' :: '=' :: ' ' :: (if holds then '1' else '0') :: rest) = _
  have first (more : List Char) : words ('1' :: ' ' :: more) = digit '1' :: words (' ' :: more) :=
    words_digit true (stops_blank more)
  rw [first, words_blank, words_equals, words_blank, words_digit holds stops]
  rfl

theorem words_opening (logic : Logic) (rest : List Char) :
    words (Phrase.opening logic ++ rest) = Phrase.openingWords logic ++ words rest := by
  have negated : words ("NOT ".toList ++ '(' :: rest) = keyword "NOT" :: words ('(' :: rest) :=
    words_negation true _
  cases logic with
  | and => exact words_open rest
  | or => exact words_open rest
  | not =>
      rw [words_open] at negated
      exact negated

theorem words_joiner (logic : Logic) (rest : List Char) :
    words (' ' :: (Phrase.joiner logic).toList ++ ' ' :: rest)
      = keyword (Phrase.joiner logic) :: words rest := by
  show words (' ' :: ((Phrase.joiner logic).toList ++ ' ' :: rest)) = _
  rw [words_blank]
  cases logic <;> exact words_keyword _ rest (by decide) fun _ => rfl

mutual

def Phrase.IsClean : Phrase → Prop
  | .test column _ => column.IsClean
  | .constant _ => True
  | .group _ first rest => first.IsClean ∧ Phrase.AllClean rest
termination_by structural p => p

def Phrase.AllClean : List Phrase → Prop
  | [] => True
  | p :: rest => p.IsClean ∧ Phrase.AllClean rest
termination_by structural ps => ps

end

theorem stops_textAll (joiner : String) (ps : List Phrase) {rest : List Char}
    (stops : Stops rest) : Stops (Phrase.textAll joiner ps ++ rest) := by
  cases ps with
  | nil => exact stops
  | cons p ps => exact stops_blank _

theorem form_text_head (form : Form) (rest : List Char) :
    (form.text ++ rest).head? = some ' ' := by
  cases form <;> rfl

mutual

/-- The words of a phrase stand in front of the words of what follows it. -/
theorem words_phrase (p : Phrase) (clean : p.IsClean) {rest : List Char} (stops : Stops rest) :
    words (p.text ++ rest) = p.words ++ words rest := by
  match p with
  | .test column form =>
      rw [Phrase.text, List.append_assoc, words_column clean (by rw [form_text_head]; decide),
        words_form form stops, Phrase.words, List.append_assoc]
  | .constant holds => exact words_constant holds stops
  | .group logic first more =>
      have split : (Phrase.group logic first more).text ++ rest
          = Phrase.opening logic ++ (first.text ++
            (Phrase.textAll (Phrase.joiner logic) more ++ ')' :: rest)) := by
        simp [Phrase.text]
      rw [split, words_opening,
        words_phrase first clean.1 (stops_textAll _ more (stops_close rest)),
        words_phrases logic more clean.2 (stops_close rest), words_close, Phrase.words]
      simp

theorem words_phrases (logic : Logic) (ps : List Phrase) (clean : Phrase.AllClean ps)
    {rest : List Char} (stops : Stops rest) :
    words (Phrase.textAll (Phrase.joiner logic) ps ++ rest)
      = Phrase.wordsAll (Phrase.joiner logic) ps ++ words rest := by
  match ps with
  | [] => rfl
  | p :: more =>
      have split : Phrase.textAll (Phrase.joiner logic) (p :: more) ++ rest
          = ' ' :: (Phrase.joiner logic).toList ++ ' ' ::
            (p.text ++ (Phrase.textAll (Phrase.joiner logic) more ++ rest)) := by
        simp [Phrase.textAll]
      rw [split, words_joiner, words_phrase p clean.1 (stops_textAll _ more stops),
        words_phrases logic more clean.2 stops, Phrase.wordsAll]
      simp

end

end Recordkeeper.Sql
