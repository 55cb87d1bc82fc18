import Recordkeeper.Proofs.Action
import Recordkeeper.Proofs.Sql.Reading

/-!
Contract: the text of an insertion is read as the insertion it stands for.

Owns:
- insertions of one row of places, as they are written, with their words;
- that such a text, if it is read at all, names the table and the columns it was written with.

Does not own: what an insertion does.

A name in two parts is no name of a table or column here, so a text with one is refused.  The
readings are therefore followed backwards, from what was read to the names that were written.
-/

set_option autoImplicit false

namespace Recordkeeper.Sql

/-- An insertion of one row: into columns of a table, with a place for every column. -/
structure InsertText where
  table : ColumnName
  first : ColumnName
  rest : List ColumnName

namespace InsertText

/-! ### Texts and words -/

def moreNames : List ColumnName → List Char
  | [] => []
  | column :: rest => ", ".toList ++ (column.text ++ moreNames rest)

def moreNameWords : List ColumnName → List Word
  | [] => []
  | column :: rest => .sign "," :: (column.words ++ moreNameWords rest)

def columns (i : InsertText) : List ColumnName := i.first :: i.rest

def text (i : InsertText) : List Char :=
  "INSERT INTO ".toList ++ (i.table.text ++ (" (".toList ++ (i.first.text ++ (moreNames i.rest ++
    (") VALUES (".toList ++ '?' :: (morePlaces i.rest.length ++ [')']))))))

def words (i : InsertText) : List Word :=
  .keyword "INSERT" :: .keyword "INTO" :: (i.table.words ++ .sign "(" :: (i.first.words ++
    (moreNameWords i.rest ++ .sign ")" :: .keyword "VALUES" :: .sign "(" :: .place ::
      (morePlaceWords i.rest.length ++ [.sign ")"]))))

def IsClean (i : InsertText) : Prop := i.table.IsClean ∧ ∀ column ∈ i.columns, column.IsClean

/-- No name has another one in front. -/
def IsPlain (i : InsertText) : Prop := ∀ name ∈ i.table :: i.columns, name.table = none

/-- The insertion as a statement, with places counted from zero. -/
def statement (i : InsertText) : Statement :=
  .insert (String.ofList i.table.name) (i.columns.map fun column => String.ofList column.name)
    (.values [(List.range i.columns.length).map .parameter])

theorem words_moreNames (columns : List ColumnName) (clean : ∀ column ∈ columns, column.IsClean)
    (rest : List Char) :
    Sql.words (moreNames columns ++ ')' :: rest)
      = moreNameWords columns ++ Sql.words (')' :: rest) := by
  induction columns with
  | nil => rfl
  | cons column columns inductionHypothesis =>
      have single : (moreNames columns ++ ')' :: rest).head? ≠ some '"' := by
        cases columns <;> exact fun same => absurd (Option.some.inj same) (by decide)
      show Sql.words (',' :: ' ' :: ((column.text ++ moreNames columns) ++ ')' :: rest)) = _
      rw [words_comma, words_blank, List.append_assoc,
        words_column (clean column List.mem_cons_self) single,
        inductionHypothesis fun other member => clean other (List.mem_cons_of_mem _ member),
        moreNameWords, List.cons_append, List.append_assoc]

theorem words_text (i : InsertText) (clean : i.IsClean) : Sql.words i.text = i.words := by
  have single (c : Char) (more : List Char) (other : c ≠ '"') : (c :: more).head? ≠ some '"' :=
    fun same => other (Option.some.inj same)
  have behindFirst (more : List Char) : (moreNames i.rest ++ ')' :: more).head? ≠ some '"' := by
    cases i.rest <;> exact single _ _ (by decide)
  show Sql.words ("INSERT".toList ++ ' ' :: ("INTO".toList ++ ' ' :: (i.table.text ++ ' ' :: '(' ::
    (i.first.text ++ (moreNames i.rest ++ ')' :: ' ' :: ("VALUES".toList ++ ' ' :: '(' :: '?' ::
      (morePlaces i.rest.length ++ [')']))))))) = _
  rw [words_keyword "INSERT" _ (by decide) (fun _ => rfl),
    words_keyword "INTO" _ (by decide) (fun _ => rfl),
    words_column clean.1 (single _ _ (by decide)), words_blank, words_open,
    words_column (clean.2 i.first List.mem_cons_self) (behindFirst _),
    words_moreNames i.rest fun column member => clean.2 column (List.mem_cons_of_mem _ member),
    words_close, words_blank, words_keyword "VALUES" _ (by decide) (fun _ => rfl), words_open,
    words_place (stops_morePlaces _ _), words_morePlaces, words_close, words_nil]
  rfl

end InsertText

namespace Parser

open InsertText

variable {α β : Type} {r r' : Reading} {ws : List Word}

/-! ### Readings, followed backwards -/

/-- A reading in two parts: what the first part took, the second one went on from. -/
theorem exists_of_run_bind {p : Parse α} {q : α → Parse β} {b : β}
    (read : (p >>= q) r = .ok (b, r')) :
    ∃ a mid, p r = .ok (a, mid) ∧ q a mid = .ok (b, r') := by
  obtain ⟨⟨a, mid⟩, first, rest⟩ := exists_of_bind (x := p r) (f := fun x => q x.1 x.2) read
  exact ⟨a, mid, first, rest⟩

theorem not_expected {taken : Parse Bool} (left : taken r = .ok (false, r)) (r' : Reading) :
    expect taken r ≠ .ok ((), r') := by
  intro read
  unfold expect at read
  rw [run_bind left] at read
  cases read

theorem name_taken {name : List Char} (words : r.words = .name name :: ws) :
    Parser.name r = .ok (String.ofList name, r.skipped) := by
  obtain ⟨⟨token, chars, start⟩, head, same, -⟩ := exists_lexeme words
  obtain rfl : token = .name (String.ofList name) := same
  unfold Parser.name
  rw [run_bind (next?_run r), head]
  rfl

/-- A column is read as a name up to a point in it. -/
theorem name_column (column : ColumnName) (words : r.words = column.words ++ ws) :
    ∃ s, Parser.name r = .ok (s, r.skipped) ∧ r.skipped.count = r.count ∧
      ((column.table = none ∧ s = String.ofList column.name ∧ r.skipped.words = ws) ∨
        ∃ more, r.skipped.words = .sign "." :: more) := by
  rcases column with ⟨_ | table, name⟩
  · refine ⟨_, name_taken words, Reading.count_skipped r, .inl ⟨rfl, rfl, ?_⟩⟩
    rw [Reading.words_skipped, words]
    rfl
  · have split : r.words = .name table :: .sign "." :: .name name :: ws := words
    refine ⟨_, name_taken split, Reading.count_skipped r, .inr ⟨.name name :: ws, ?_⟩⟩
    rw [Reading.words_skipped, split]
    rfl

theorem names_read (fuel : Nat) :
    ∀ (first : ColumnName) (rest : List ColumnName) (r : Reading) (read : List String),
      r.words = first.words ++ (moreNameWords rest ++ .sign ")" :: ws) →
      names fuel r = .ok (read, r') →
      (∀ column ∈ first :: rest, column.table = none) ∧
        read = (first :: rest).map (fun column => String.ofList column.name) ∧
        r'.words = ws ∧ r'.count = r.count := by
  induction fuel with
  | zero => exact fun _ _ _ _ _ taken => nomatch taken
  | succ fuel inductionHypothesis =>
      intro first rest r read words taken
      obtain ⟨s, named, count, shape⟩ := name_column first words
      rw [names, run_bind named] at taken
      rcases shape with ⟨plain, rfl, words⟩ | ⟨more, words⟩
      · cases rest with
        | nil =>
            have closing : r.skipped.words = .sign ")" :: ws := words
            rw [run_bind (symbol_left (by rw [closing]; rintro w ⟨⟩; decide)),
              if_neg Bool.false_ne_true,
              run_bind (expect_taken (symbol_taken closing))] at taken
            cases taken
            refine ⟨?_, rfl, by rw [Reading.words_skipped, closing]; rfl,
              (Reading.count_skipped _).trans count⟩
            rintro column member
            rwa [List.mem_singleton.1 member]
        | cons second rest =>
            have comma : r.skipped.words
                = .sign "," :: (second.words ++ (moreNameWords rest ++ .sign ")" :: ws)) := by
              rw [words, moreNameWords, List.cons_append, List.append_assoc]
            rw [run_bind (symbol_taken comma), if_pos rfl] at taken
            obtain ⟨others, mid, later, same⟩ := exists_of_run_bind taken
            cases same
            obtain ⟨plains, rfl, words', count'⟩ := inductionHypothesis second rest _ others
              (by rw [Reading.words_skipped, comma]; rfl) later
            rw [Reading.count_skipped, count] at count'
            refine ⟨?_, rfl, words', count'⟩
            rintro column member
            rcases List.mem_cons.1 member with rfl | inside
            · exact plain
            · exact plains column inside
      · rw [run_bind (symbol_left (by rw [words]; rintro w ⟨⟩; decide)),
          if_neg Bool.false_ne_true] at taken
        obtain ⟨⟨⟩, mid, closed, -⟩ := exists_of_run_bind taken
        exact absurd closed
          (not_expected (symbol_left (by rw [words]; rintro w ⟨⟩; decide)) mid)

/-! ### Rows of places -/

theorem row_places (more fuel : Nat)
    (words : r.words = .sign "(" :: .place :: (morePlaceWords more ++ [.sign ")"])) :
    Takes (valueRows (fuel + more + 4)) r [] (more + 1)
      [(List.range' r.count (more + 1)).map .parameter] := by
  have next : r.skipped.words = .place :: morePlaceWords more ++ .sign ")" :: [] := by
    rw [Reading.words_skipped, words]
    rfl
  obtain ⟨items, step, itemsWords, itemsCount⟩ := exprs_places more fuel r.skipped next
  rw [Reading.count_skipped] at step itemsCount
  have finished : items.skipped.words = [] := by rw [Reading.words_skipped, itemsWords]; rfl
  refine ⟨items.skipped, ?_, finished, by rw [Reading.count_skipped, itemsCount]⟩
  show valueRows ((fuel + more + 3) + 1) r = _
  rw [valueRows, run_bind (expect_taken (symbol_taken words)), run_bind step,
    run_bind (expect_taken (symbol_taken itemsWords)),
    run_bind (symbol_left (by rw [finished]; exact fun _ head => nomatch head))]
  rfl

theorem capital_taken {s : String} (capital : s.toUpper = s) (words : r.words = .keyword s :: ws) :
    word s r = .ok (true, r.skipped) :=
  accept_taken words (by
    show (s.toUpper == s) = true
    rw [capital, beq_self_eq_true])

theorem newRows_places (more fuel : Nat)
    (words : r.words = .keyword "VALUES" :: .sign "(" :: .place ::
      (morePlaceWords more ++ [.sign ")"])) :
    Takes (newRows (fuel + more + 4)) r [] (more + 1)
      (.values [(List.range' r.count (more + 1)).map .parameter]) := by
  have next : r.skipped.words = .sign "(" :: .place :: (morePlaceWords more ++ [.sign ")"]) := by
    rw [Reading.words_skipped, words]
    rfl
  obtain ⟨r', step, words', count'⟩ := row_places more fuel next
  rw [Reading.count_skipped] at step count'
  refine ⟨r', ?_, words', count'⟩
  unfold newRows
  rw [run_bind (capital_taken (by decide +kernel) words), if_pos rfl, run_bind step]
  rfl

/-- No rows begin with a sign. -/
theorem newRows_sign {s : String} (fuel : Nat) (words : r.words = .sign s :: ws) (rows : NewRows) :
    newRows fuel r ≠ .ok (rows, r') := by
  intro read
  have noWord (keyword : String) : word keyword r = .ok (false, r) :=
    word_left (by rw [words]; rintro w ⟨⟩; rfl)
  unfold newRows at read
  rw [run_bind (noWord "VALUES"), if_neg Bool.false_ne_true, run_bind (follows_left words rfl),
    if_neg Bool.false_ne_true] at read
  obtain ⟨⟨⟩, mid, expected, -⟩ := exists_of_run_bind read
  exact not_expected (noWord "DEFAULT") mid expected

/-! ### Statements -/

theorem statement_read (i : InsertText) (fuel : Nat) {statement : Statement}
    (words : r.words = i.words) (start : r.count = 0) (enough : i.rest.length + 4 ≤ fuel)
    (read : Parser.statement fuel r = .ok (statement, r')) :
    i.IsPlain ∧ statement = i.statement ∧ r'.count = i.columns.length := by
  have into : r.skipped.words = i.words.tail := by rw [Reading.words_skipped, words]
  have table : r.skipped.skipped.words = i.words.tail.tail := by rw [Reading.words_skipped, into]
  unfold Parser.statement at read
  dsimp only at read
  rw [run_bind (follows_left words (by decide +kernel)), if_neg Bool.false_ne_true,
    run_bind (capital_taken (by decide +kernel) words), if_pos rfl,
    run_bind (expect_taken (capital_taken (by decide +kernel) into))] at read
  obtain ⟨s, named, count, shape⟩ := name_column i.table table
  rw [run_bind named] at read
  rcases shape with ⟨plain, rfl, target⟩ | ⟨more, point⟩
  · rw [run_bind (symbol_taken target), if_pos rfl] at read
    obtain ⟨columns, mid, listed, read⟩ := exists_of_run_bind read
    obtain ⟨plains, rfl, rows, midCount⟩ := names_read fuel i.first i.rest _ columns
      (by rw [Reading.words_skipped, target]; rfl) listed
    obtain ⟨fuel, rfl⟩ : ∃ n, fuel = n + i.rest.length + 4 := ⟨fuel - i.rest.length - 4, by omega⟩
    obtain ⟨last, step, -, lastCount⟩ := newRows_places i.rest.length fuel rows
    have fresh : mid.count = 0 := by
      rw [midCount, Reading.count_skipped, count, Reading.count_skipped, Reading.count_skipped,
        start]
    rw [run_bind step] at read
    cases read
    refine ⟨?_, ?_, ?_⟩
    · rintro name member
      rcases List.mem_cons.1 member with rfl | inside
      · exact plain
      · exact plains name inside
    · rw [fresh, ← List.range_eq_range']
      rfl
    · rw [lastCount, fresh]
      exact Nat.zero_add _
  · rw [run_bind (symbol_left (by rw [point]; rintro w ⟨⟩; decide)),
      if_neg Bool.false_ne_true] at read
    obtain ⟨columns, mid, none, read⟩ := exists_of_run_bind read
    cases none
    obtain ⟨rows, mid, refused, -⟩ := exists_of_run_bind read
    exact absurd refused (newRows_sign fuel point rows)

/-- If the text of an insertion is read, no name in it has another one in front, and it is the
insertion. -/
theorem first_insert (i : InsertText) (clean : i.IsClean) {parsed : Option Parsed}
    {rest : List Char} (read : first i.text = .ok (parsed, rest)) :
    i.IsPlain ∧ parsed = some ⟨i.statement, i.columns.length⟩ := by
  have words := i.words_text clean
  obtain ⟨l, more, split, opening, -⟩ := List.map_eq_cons_iff.1 words
  have length : (Token.split .engine i.text).length = i.words.length := by
    rw [← words, Sql.words, List.length_map]
  have kept : ((Token.split .engine i.text).dropWhile fun l => l.token == .symbol ";")
      = l :: more := by
    have token : l.token = .word "INSERT" := congrArg Word.token opening
    rw [split, List.dropWhile_cons, token]
    rfl
  have long : i.rest.length + 4 ≤ 16 * (l :: more).length + 16 := by
    have places := length_morePlaceWords i.rest.length
    rw [← split, length]
    simp only [InsertText.words, List.length_cons, List.length_append]
    omega
  have start : ({ text := i.text, rest := l :: more } : Reading).words = i.words := by
    rw [← words, Sql.words, split]
    rfl
  unfold first at read
  rw [kept] at read
  dsimp only [StateT.run] at read
  rcases outcome : Parser.statement (16 * (l :: more).length + 16)
    { text := i.text, rest := l :: more } with fault | ⟨statement, r⟩
  · rw [outcome] at read
    cases read
  · obtain ⟨plain, rfl, count⟩ := statement_read i _ start rfl long outcome
    refine ⟨plain, ?_⟩
    rw [outcome] at read
    dsimp only at read
    rw [← count]
    split at read
    · cases read
      rfl
    · split at read
      · cases read
        rfl
      · cases read

end Parser

end Recordkeeper.Sql
