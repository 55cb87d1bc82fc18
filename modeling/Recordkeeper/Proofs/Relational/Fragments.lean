import Recordkeeper.Relational.Statement

/-!
Contract: the placeholders of a rendered text.

Owns:
- the placeholders of a text as they are written, outside of single quotes;
- a text filled with values in the places of its placeholders;
- texts between the places, which hold no placeholder of their own and close their quotes;
- that rendering writes a placeholder for each value, numbered from the left, and nothing else that
  reads as one, unless a digit stands directly behind a place;
- foreign texts, which are cut at their own placeholders.

Does not own: which statement is rendered.

A reader of the text knows nothing of fragments.  It takes as many digits for the number of a
placeholder as it finds.
-/

set_option autoImplicit false

namespace Recordkeeper.Relational

/-! ### Reading placeholders -/

def placeholderSign : Dialect → Char
  | .postgres => '$'
  | .mysql | .sqlite => '?'

/-- The number behind the sign of a placeholder, which only one dialect writes. -/
def numberAfter : Dialect → List Char → List Char
  | .postgres, text => text.takeWhile Char.isDigit
  | .mysql, _ | .sqlite, _ => []

/-- The placeholders of a text from left to right, as they are written.  The flag tells whether the
text starts inside of single quotes. -/
def placeholders (dialect : Dialect) : Bool → List Char → List (List Char)
  | _, [] => []
  | quoted, c :: rest =>
    if c = '\'' then placeholders dialect (!quoted) rest
    else if c = placeholderSign dialect ∧ !quoted then
      (c :: numberAfter dialect rest) :: placeholders dialect quoted rest
    else placeholders dialect quoted rest

/-- A text with the values written in the places of its placeholders; the number tells how many
characters of a placeholder are still to be left out. -/
def fill (dialect : Dialect) (write : Value → String) :
    Nat → Bool → List Char → List Value → List Char
  | _, _, [], _ => []
  | left + 1, quoted, _ :: rest, values => fill dialect write left quoted rest values
  | 0, quoted, c :: rest, values =>
    if c = '\'' then c :: fill dialect write 0 (!quoted) rest values
    else if c = placeholderSign dialect ∧ !quoted then
      match values with
      | v :: more =>
        (write v).toList ++ fill dialect write (numberAfter dialect rest).length quoted rest more
      | [] => c :: fill dialect write 0 quoted rest []
    else c :: fill dialect write 0 quoted rest values

/-- Whether a text without placeholders ends inside of quotes; none for a text with one. -/
def ends (dialect : Dialect) : Bool → List Char → Option Bool
  | quoted, [] => some quoted
  | quoted, c :: rest =>
    if c = '\'' then ends dialect (!quoted) rest
    else if c = placeholderSign dialect ∧ !quoted then none
    else ends dialect quoted rest

section Reading

variable {dialect : Dialect} {write : Value → String}

theorem ends_append (quoted : Bool) (text more : List Char) :
    ends dialect quoted (text ++ more)
      = (ends dialect quoted text).bind fun after => ends dialect after more := by
  induction text generalizing quoted with
  | nil => rfl
  | cons c rest inductionHypothesis =>
      rw [List.cons_append, ends, ends]
      split
      next => exact inductionHypothesis _
      next =>
        split
        next => rfl
        next => exact inductionHypothesis _

theorem placeholders_append {quoted after : Bool} {text : List Char}
    (still : ends dialect quoted text = some after) (more : List Char) :
    placeholders dialect quoted (text ++ more) = placeholders dialect after more := by
  induction text generalizing quoted with
  | nil =>
      obtain rfl := Option.some.inj still
      rfl
  | cons c rest inductionHypothesis =>
      rw [ends] at still
      rw [List.cons_append, placeholders]
      split at still
      next mark =>
        rw [if_pos mark]
        exact inductionHypothesis still
      next noMark =>
        rw [if_neg noMark]
        split at still
        next => cases still
        next noSign =>
          rw [if_neg noSign]
          exact inductionHypothesis still

theorem fill_cons (quoted : Bool) (c : Char) (rest : List Char) (values : List Value) :
    fill dialect write 0 quoted (c :: rest) values
      = if c = '\'' then c :: fill dialect write 0 (!quoted) rest values
        else if c = placeholderSign dialect ∧ !quoted then
          match values with
          | v :: more =>
            (write v).toList
              ++ fill dialect write (numberAfter dialect rest).length quoted rest more
          | [] => c :: fill dialect write 0 quoted rest []
        else c :: fill dialect write 0 quoted rest values := rfl

theorem fill_append {quoted after : Bool} {text : List Char}
    (still : ends dialect quoted text = some after) (more : List Char) (values : List Value) :
    fill dialect write 0 quoted (text ++ more) values
      = text ++ fill dialect write 0 after more values := by
  induction text generalizing quoted with
  | nil =>
      obtain rfl := Option.some.inj still
      rfl
  | cons c rest inductionHypothesis =>
      rw [ends] at still
      rw [List.cons_append, fill_cons, List.cons_append]
      split at still
      next mark =>
        rw [if_pos mark, inductionHypothesis still]
      next noMark =>
        rw [if_neg noMark]
        split at still
        next => cases still
        next noSign => rw [if_neg noSign, inductionHypothesis still]

/-- What belongs to the placeholder is left out. -/
theorem fill_left (quoted : Bool) (passed more : List Char) (left : Nat) (values : List Value) :
    fill dialect write (passed.length + left) quoted (passed ++ more) values
      = fill dialect write left quoted more values := by
  induction passed with
  | nil => rw [List.length_nil, Nat.zero_add, List.nil_append]
  | cons c rest inductionHypothesis =>
      rw [List.length_cons, Nat.add_right_comm]
      exact inductionHypothesis

theorem placeholders_digits (digits more : List Char) (numeral : ∀ c ∈ digits, c.isDigit) :
    placeholders dialect false (digits ++ more) = placeholders dialect false more := by
  refine placeholders_append ?_ more
  induction digits with
  | nil => rfl
  | cons c rest inductionHypothesis =>
      have digit := numeral c List.mem_cons_self
      have noMark : c ≠ '\'' := by
        rintro rfl
        exact absurd digit (by decide)
      have noSign : c ≠ placeholderSign dialect := by
        rintro rfl
        cases dialect <;> exact absurd digit (by decide)
      rw [ends, if_neg noMark, if_neg fun both => noSign both.1]
      exact inductionHypothesis fun d member => numeral d (List.mem_cons_of_mem _ member)

end Reading

/-! ### Quiet texts -/

/-- A text that holds no placeholder and closes its quotes. -/
def Quiet (dialect : Dialect) (s : String) : Prop := ends dialect false s.toList = some false

/-- A text without quotes and signs, quiet in every dialect. -/
def Bare (s : String) : Prop := ∀ c ∈ s.toList, c ≠ '\'' ∧ c ≠ '?' ∧ c ≠ '$'

instance (s : String) : Decidable (Bare s) := List.decidableBAll _ s.toList

theorem Bare.quiet {s : String} (bare : Bare s) (dialect : Dialect) : Quiet dialect s := by
  unfold Bare at bare
  unfold Quiet
  generalize s.toList = text at bare
  induction text with
  | nil => rfl
  | cons c rest inductionHypothesis =>
      obtain ⟨noMark, noQuestion, noDollar⟩ := bare c List.mem_cons_self
      have noSign : c ≠ placeholderSign dialect := by
        cases dialect
        · exact noDollar
        · exact noQuestion
        · exact noQuestion
      rw [ends, if_neg noMark, if_neg fun both => noSign both.1]
      exact inductionHypothesis fun d member => bare d (List.mem_cons_of_mem _ member)

theorem Bare.append {s t : String} (first : Bare s) (second : Bare t) : Bare (s ++ t) := by
  intro c member
  rw [String.toList_append] at member
  exact (List.mem_append.1 member).elim (first c) (second c)

theorem Bare.intercalate {between : String} (bare : Bare between) :
    ∀ {parts : List String}, (∀ part ∈ parts, Bare part) → Bare (String.intercalate between parts)
  | [], _ => fun c member => absurd member (by simp)
  | [part], all => by
      rw [String.intercalate_singleton]
      exact all part List.mem_cons_self
  | part :: next :: more, all => by
      rw [String.intercalate_cons_of_ne_nil (List.cons_ne_nil _ _)]
      exact ((all part List.mem_cons_self).append bare).append
        (bare.intercalate fun other member => all other (List.mem_cons_of_mem _ member))

theorem bare_of_nat (n : Nat) : Bare (toString n) := by
  intro c member
  have digit : c.isDigit := Nat.isDigit_of_mem_toDigits (by decide) (Nat.le_refl 10) (by
    simpa [Nat.toString_eq_repr] using member)
  refine ⟨?_, ?_, ?_⟩ <;> rintro rfl <;> exact absurd digit (by decide)

/-! ### Identifiers -/

theorem isNameChar_of_isName {name : List Char} (valid : isName name) :
    ∀ c ∈ name, isNameChar c := by
  intro c member
  cases name with
  | nil => cases member
  | cons first rest =>
      obtain ⟨start, others⟩ := (Bool.and_eq_true _ _).mp valid
      rcases List.mem_cons.1 member with rfl | later
      · simp only [isNameStart, Bool.or_eq_true] at start
        simp only [isNameChar, Char.isAlphanum, Bool.or_eq_true]
        exact start.imp_left .inl
      · exact List.all_eq_true.1 others c later

/-- A quoted identifier holds neither quotes nor signs of placeholders. -/
theorem bare_of_quoted {dialect : Dialect} {ident s : String}
    (quoted : quoteIdentifier dialect ident = .ok s) : Bare s := by
  unfold quoteIdentifier at quoted
  split at quoted
  next parts read =>
    obtain rfl := Except.ok.inj quoted
    refine Bare.intercalate (by decide) fun part member => ?_
    obtain ⟨name, listed, rfl⟩ := List.mem_map.1 member
    have named : isName name := by
      unfold nameParts? at read
      dsimp only at read
      split at read
      next valid =>
        obtain rfl := Option.some.inj read
        exact List.all_eq_true.1 valid.2 name listed
      next => cases read
    intro c inside
    rw [String.toList_ofList] at inside
    rcases List.mem_append.1 inside with front | mark
    · rcases List.mem_append.1 front with mark | letter
      · obtain rfl := List.mem_singleton.1 mark
        cases dialect <;> decide
      · have clean := isNameChar_of_isName named c letter
        refine ⟨?_, ?_, ?_⟩ <;> rintro rfl <;> exact absurd clean (by decide)
    · obtain rfl := List.mem_singleton.1 mark
      cases dialect <;> decide
  next => cases quoted

/-! ### Placeholders in a text -/

section Places

variable {dialect : Dialect} {write : Value → String}

/-- The number of a placeholder as it is written. -/
def numeral : Dialect → Nat → List Char
  | .postgres, position => (toString position).toList
  | .mysql, _ | .sqlite, _ => []

theorem toList_placeholder (dialect : Dialect) (position : Nat) :
    (placeholder dialect position).toList
      = placeholderSign dialect :: numeral dialect position := by
  cases dialect with
  | postgres => exact String.toList_append
  | mysql => simp [placeholder, placeholderSign, numeral]
  | sqlite => simp [placeholder, placeholderSign, numeral]

theorem numeral_digits (dialect : Dialect) (position : Nat) :
    ∀ c ∈ numeral dialect position, c.isDigit := by
  intro c member
  cases dialect with
  | postgres =>
      refine Nat.isDigit_of_mem_toDigits (by decide) (Nat.le_refl 10) (n := position) ?_
      simpa [numeral, Nat.toString_eq_repr] using member
  | mysql => cases member
  | sqlite => cases member

theorem numberAfter_numeral (position : Nat) (more : List Char) :
    numberAfter dialect (numeral dialect position ++ more)
      = numeral dialect position ++ numberAfter dialect more := by
  cases dialect with
  | postgres => exact List.takeWhile_append_of_pos (numeral_digits .postgres position)
  | mysql => rfl
  | sqlite => rfl

theorem sign_ne_mark (dialect : Dialect) : placeholderSign dialect ≠ '\'' := by
  cases dialect <;> decide

/-- A placeholder is read with all the digits behind it. -/
theorem placeholders_place (position : Nat) (more : List Char) :
    placeholders dialect false ((placeholder dialect position).toList ++ more)
      = ((placeholder dialect position).toList ++ numberAfter dialect more)
        :: placeholders dialect false more := by
  rw [toList_placeholder, List.cons_append, placeholders, if_neg (sign_ne_mark dialect),
    if_pos ⟨rfl, rfl⟩, numberAfter_numeral,
    placeholders_digits _ _ (numeral_digits dialect position), List.cons_append]

theorem fill_place (position : Nat) (more : List Char) (v : Value) (values : List Value) :
    fill dialect write 0 false ((placeholder dialect position).toList ++ more) (v :: values)
      = (write v).toList
        ++ fill dialect write (numberAfter dialect more).length false more values := by
  rw [toList_placeholder, List.cons_append, fill_cons, if_neg (sign_ne_mark dialect),
    if_pos ⟨rfl, rfl⟩, numberAfter_numeral, List.length_append]
  exact congrArg _ (fill_left _ _ _ _ _)

end Places

/-! ### Fragments -/

/-- The text of fragments with the values in their places. -/
def inline (write : Value → String) : List Fragment → String
  | [] => ""
  | .text s :: rest => s ++ inline write rest
  | .bound v :: rest => write v ++ inline write rest

/-- Whether the text of fragments begins with a digit. -/
def opensWithDigit : List Fragment → Bool
  | [] => false
  | .text s :: rest =>
    match s.toList with
    | [] => opensWithDigit rest
    | c :: _ => c.isDigit
  | .bound _ :: _ => false

/-- No digit stands directly behind a place. -/
def Parted : List Fragment → Prop
  | [] => True
  | .text _ :: rest => Parted rest
  | .bound _ :: rest => opensWithDigit rest = false ∧ Parted rest

def AllQuiet (dialect : Dialect) (fs : List Fragment) : Prop :=
  ∀ s, Fragment.text s ∈ fs → Quiet dialect s

/-- The placeholders of `n` values, the first of them at a position. -/
def numbered (dialect : Dialect) (first n : Nat) : List (List Char) :=
  (List.range' first n).map fun position => (placeholder dialect position).toList

section Rendering

variable {dialect : Dialect} {write : Value → String}

theorem inline_append (write : Value → String) (fs gs : List Fragment) :
    inline write (fs ++ gs) = inline write fs ++ inline write gs := by
  induction fs with
  | nil => exact (String.empty_append).symm
  | cons f rest inductionHypothesis =>
      cases f <;> simp only [List.cons_append, inline, inductionHypothesis, String.append_assoc]

theorem opensWithDigit_append (fs : List Fragment) {gs : List Fragment}
    (noDigit : opensWithDigit gs = false) : opensWithDigit (fs ++ gs) = opensWithDigit fs := by
  induction fs with
  | nil => exact noDigit
  | cons f rest inductionHypothesis =>
      cases f with
      | text s =>
          rw [List.cons_append, opensWithDigit, opensWithDigit]
          split
          · exact inductionHypothesis
          · rfl
      | bound v => rfl

theorem parted_append (fs : List Fragment) {gs : List Fragment}
    (noDigit : opensWithDigit gs = false) : Parted (fs ++ gs) ↔ Parted fs ∧ Parted gs := by
  induction fs with
  | nil => exact (iff_of_eq (true_and _)).symm
  | cons f rest inductionHypothesis =>
      cases f with
      | text s => exact inductionHypothesis
      | bound v =>
          rw [List.cons_append, Parted, Parted, opensWithDigit_append rest noDigit,
            inductionHypothesis, and_assoc]

theorem AllQuiet.tail {f : Fragment} {rest : List Fragment} (quiet : AllQuiet dialect (f :: rest)) :
    AllQuiet dialect rest :=
  fun s member => quiet s (List.mem_cons_of_mem _ member)

/-- The number of a placeholder is not read on into what follows it. -/
theorem numberAfter_rendered (fs : List Fragment) (before : Nat) :
    numberAfter dialect (renderFrom dialect before fs).toList = []
      ↔ (dialect = .postgres → opensWithDigit fs = false) := by
  cases dialect with
  | mysql => exact iff_of_true rfl fun other => nomatch other
  | sqlite => exact iff_of_true rfl fun other => nomatch other
  | postgres =>
      refine Iff.trans ?_ ⟨fun same _ => same, fun same => same rfl⟩
      induction fs with
      | nil => exact ⟨fun _ => rfl, fun _ => rfl⟩
      | cons f rest inductionHypothesis =>
          cases f with
          | text s =>
              rw [renderFrom, opensWithDigit, String.toList_append]
              cases s.toList with
              | nil => exact inductionHypothesis
              | cons c more => simp [numberAfter, List.takeWhile_cons]
          | bound v =>
              rw [renderFrom, String.toList_append, toList_placeholder]
              simp [numberAfter, opensWithDigit, placeholderSign]

theorem length_placeholders {fs : List Fragment} (quiet : AllQuiet dialect fs) (before : Nat) :
    (placeholders dialect false (renderFrom dialect before fs).toList).length
      = (boundValues fs).length := by
  induction fs generalizing before with
  | nil => rfl
  | cons f rest inductionHypothesis =>
      cases f with
      | text s =>
          rw [renderFrom, String.toList_append, placeholders_append (quiet s List.mem_cons_self)]
          exact inductionHypothesis quiet.tail before
      | bound v =>
          rw [renderFrom, String.toList_append, placeholders_place, List.length_cons,
            inductionHypothesis quiet.tail]
          rfl

/-- The placeholders of a rendered text are the numbered ones, unless a number runs into a digit
behind it. -/
theorem placeholders_rendered {fs : List Fragment} (quiet : AllQuiet dialect fs) (before : Nat) :
    placeholders dialect false (renderFrom dialect before fs).toList
        = numbered dialect (before + 1) (boundValues fs).length
      ↔ (dialect = .postgres → Parted fs) := by
  induction fs generalizing before with
  | nil => exact ⟨fun _ _ => trivial, fun _ => rfl⟩
  | cons f rest inductionHypothesis =>
      cases f with
      | text s =>
          rw [renderFrom, String.toList_append, placeholders_append (quiet s List.mem_cons_self)]
          exact inductionHypothesis quiet.tail before
      | bound v =>
          have first : numbered dialect (before + 1) (boundValues (.bound v :: rest)).length
              = (placeholder dialect (before + 1)).toList
                :: numbered dialect (before + 1 + 1) (boundValues rest).length := rfl
          rw [renderFrom, String.toList_append, placeholders_place, first, List.cons_eq_cons,
            List.append_right_eq_self, numberAfter_rendered, inductionHypothesis quiet.tail,
            Parted, forall_and]

/-- With the values in the places of the placeholders, a rendered text is that of its fragments. -/
theorem fill_rendered {fs : List Fragment} (quiet : AllQuiet dialect fs)
    (parted : dialect = .postgres → Parted fs) (before : Nat) :
    fill dialect write 0 false (renderFrom dialect before fs).toList (boundValues fs)
      = (inline write fs).toList := by
  induction fs generalizing before with
  | nil => rfl
  | cons f rest inductionHypothesis =>
      cases f with
      | text s =>
          rw [renderFrom, String.toList_append, fill_append (quiet s List.mem_cons_self), inline,
            String.toList_append]
          exact congrArg _ (inductionHypothesis quiet.tail parted before)
      | bound v =>
          have alone := (numberAfter_rendered rest (before + 1)).2 fun postgres =>
            (parted postgres).1
          rw [renderFrom, boundValues, String.toList_append, fill_place, alone, inline,
            String.toList_append]
          exact congrArg _ (inductionHypothesis quiet.tail (fun postgres => (parted postgres).2) _)

end Rendering

/-! ### Foreign texts -/

/-- Whether a question mark outside of quotes stands directly before a digit. -/
def fuses : Bool → List Char → Bool
  | _, [] => false
  | quoted, c :: rest =>
    if c = '\'' then fuses (!quoted) rest
    else if c = '?' ∧ !quoted then rest.head?.any Char.isDigit || fuses quoted rest
    else fuses quoted rest

/-- A foreign text with an argument for each of its placeholders, cut at them.  The flag tells whether
the text starts inside of quotes, and the characters since the last cut are in reverse. -/
inductive Cut : Bool → List Char → List Value → List Char → List Fragment → Prop where
  | nil {quoted : Bool} {acc : List Char} :
    Cut quoted [] [] acc [.text (String.ofList acc.reverse)]
  | mark {quoted : Bool} {rest acc : List Char} {args : List Value} {fs : List Fragment} :
    Cut (!quoted) rest args ('\'' :: acc) fs → Cut quoted ('\'' :: rest) args acc fs
  | place {rest acc : List Char} {v : Value} {args : List Value} {fs : List Fragment} :
    Cut false rest args [] fs →
    Cut false ('?' :: rest) (v :: args) acc (.text (String.ofList acc.reverse) :: .bound v :: fs)
  | other {quoted : Bool} {c : Char} {rest acc : List Char} {args : List Value}
      {fs : List Fragment} :
    c ≠ '\'' → ¬(c = '?' ∧ !quoted) → Cut quoted rest args (c :: acc) fs →
    Cut quoted (c :: rest) args acc fs

section Foreign

variable {dialect : Dialect} {quoted : Bool} {text acc : List Char} {args : List Value}
  {fs : List Fragment}

theorem cut_bindPlaceholders (all : countPlaceholders quoted text = args.length) :
    Cut quoted text args acc (bindPlaceholders quoted text args acc) := by
  fun_induction bindPlaceholders quoted text args acc with
  | case1 quoted args acc =>
      obtain rfl := List.length_eq_zero_iff.1 all.symm
      exact .nil
  | case2 quoted rest args acc inductionHypothesis =>
      rw [countPlaceholders, if_pos rfl] at all
      exact .mark (inductionHypothesis all)
  | case3 quoted c rest acc noMark sign v more inductionHypothesis =>
      rw [countPlaceholders, if_neg noMark, if_pos sign, List.length_cons] at all
      obtain ⟨rfl, outside⟩ := sign
      obtain rfl : quoted = false := by simpa using outside
      exact .place (inductionHypothesis (Nat.succ.inj all))
  | case4 quoted c rest acc noMark sign inductionHypothesis =>
      rw [countPlaceholders, if_neg noMark, if_pos sign] at all
      cases all
  | case5 quoted c rest args acc noMark noSign inductionHypothesis =>
      rw [countPlaceholders, if_neg noMark, if_neg noSign] at all
      exact .other noMark noSign (inductionHypothesis all)

theorem Cut.boundValues (cut : Cut quoted text args acc fs) : Relational.boundValues fs = args := by
  induction cut with
  | nil => rfl
  | mark _ inductionHypothesis => exact inductionHypothesis
  | place _ inductionHypothesis => exact congrArg (_ :: ·) inductionHypothesis
  | other _ _ _ inductionHypothesis => exact inductionHypothesis

/-- The arguments stand in the places of the question marks. -/
theorem Cut.inline (cut : Cut quoted text args acc fs) (write : Value → String) :
    (Relational.inline write fs).toList
      = acc.reverse ++ fill .sqlite write 0 quoted text args := by
  induction cut with
  | nil => simp [Relational.inline, fill]
  | mark _ inductionHypothesis =>
      rw [inductionHypothesis, fill_cons, if_pos rfl, List.reverse_cons, List.append_assoc]
      rfl
  | place _ inductionHypothesis =>
      rw [Relational.inline, Relational.inline, String.toList_append, String.toList_append,
        inductionHypothesis, String.toList_ofList]
      rfl
  | other noMark noSign _ inductionHypothesis =>
      rw [inductionHypothesis, fill_cons, if_neg noMark, List.reverse_cons, List.append_assoc]
      exact congrArg _ (if_neg noSign).symm

theorem Cut.opensWithDigit (cut : Cut quoted text args acc fs) :
    Relational.opensWithDigit fs = (acc.reverse ++ text).head?.any Char.isDigit := by
  induction cut with
  | @nil quoted acc =>
      rw [Relational.opensWithDigit, String.toList_ofList, List.append_nil]
      cases acc.reverse <;> rfl
  | mark _ inductionHypothesis =>
      rw [inductionHypothesis, List.reverse_cons, List.append_assoc]
      rfl
  | @place rest acc _ _ _ _ _ =>
      rw [Relational.opensWithDigit, String.toList_ofList]
      cases acc.reverse <;> rfl
  | other _ _ _ inductionHypothesis =>
      rw [inductionHypothesis, List.reverse_cons, List.append_assoc]
      rfl

/-- A place has a digit behind it exactly where a question mark has. -/
theorem Cut.parted (cut : Cut quoted text args acc fs) :
    Parted fs ↔ fuses quoted text = false := by
  induction cut with
  | nil => exact iff_of_true trivial rfl
  | mark _ inductionHypothesis => exact inductionHypothesis
  | place inner inductionHypothesis =>
      rw [Parted, Parted, inner.opensWithDigit, inductionHypothesis, ← Bool.or_eq_false_iff]
      rfl
  | other noMark noSign _ inductionHypothesis =>
      rw [fuses, if_neg noMark, if_neg noSign]
      exact inductionHypothesis

theorem ends_snoc {front : List Char} (still : ends dialect false front = some quoted)
    (c : Char) :
    ends dialect false (front ++ [c])
      = if c = '\'' then some (!quoted)
        else if c = placeholderSign dialect ∧ !quoted then none else some quoted := by
  rw [ends_append, still]
  rfl

/-- The pieces between the places of a text with an even number of quotes close theirs: places are
only outside of them. -/
theorem Cut.allQuiet (cut : Cut quoted text args acc fs) (noDollar : '$' ∉ text)
    (even : (text.count '\'' + quoted.toNat) % 2 = 0)
    (still : ends dialect false acc.reverse = some quoted) : AllQuiet dialect fs := by
  induction cut with
  | @nil quoted acc =>
      rintro s member
      obtain rfl := Fragment.text.inj (List.mem_singleton.1 member)
      have closed : quoted = false := by
        cases quoted
        · rfl
        · cases even
      rw [Quiet, String.toList_ofList, still, closed]
  | @mark quoted rest acc args fs _ inductionHypothesis =>
      refine inductionHypothesis (fun member => noDollar (List.mem_cons_of_mem _ member)) ?_ ?_
      · rw [List.count_cons_self] at even
        cases quoted <;> simp only [Bool.not_true, Bool.not_false, Bool.toNat_true,
          Bool.toNat_false] at even ⊢ <;> omega
      · rw [List.reverse_cons, ends_snoc still, if_pos rfl]
  | place _ inductionHypothesis =>
      rw [List.count_cons_of_ne (by decide)] at even
      intro s member
      rcases List.mem_cons.1 member with same | later
      · obtain rfl := Fragment.text.inj same
        rw [Quiet, String.toList_ofList, still]
      · rcases List.mem_cons.1 later with place | later
        · cases place
        · exact inductionHypothesis (fun member => noDollar (List.mem_cons_of_mem _ member)) even
            rfl s later
  | @other quoted c rest acc args fs noMark noSign _ inductionHypothesis =>
      rw [List.count_cons_of_ne noMark] at even
      refine inductionHypothesis (fun member => noDollar (List.mem_cons_of_mem _ member)) even ?_
      have noPlace : ¬(c = placeholderSign dialect ∧ !quoted) := by
        rintro ⟨rfl, outside⟩
        cases dialect with
        | postgres => exact noDollar List.mem_cons_self
        | mysql => exact noSign ⟨rfl, outside⟩
        | sqlite => exact noSign ⟨rfl, outside⟩
      rw [List.reverse_cons, ends_snoc still, if_neg noMark, if_neg noPlace]

end Foreign

end Recordkeeper.Relational
