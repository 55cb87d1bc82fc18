import Recordkeeper.Proofs.Json
import Recordkeeper.Proofs.Json.Printer

/-!
Contract: what the text of a document is read as.

Owns:
- texts of numbers, which end where the next sign of a document begins;
- whole numbers of 64 bits, which are read back;
- `value_render`: a document is read back but for its numbers, unless it is nested too deep.

Does not own: which numbers with a fraction are read back.

The text of a number with a fraction is read as some number, with more than one rounding, and the
reading may fail.  So the outcome for a document is put together from those for its numbers.
-/

set_option autoImplicit false

namespace Recordkeeper.Json

namespace Parser

/-! ### Numbers -/

/-- What follows does not go on with a number. -/
def Stops (rest : List Char) : Prop :=
  ∀ c ∈ rest.head?, c.isDigit = false ∧ c ≠ '.' ∧ c ≠ 'e' ∧ c ≠ 'E'

theorem Stops.nil : Stops [] := nofun

/-- Some characters are read in the same way, whatever follows them. -/
def Local (read : List Char → Except Failure (Number × List Char)) (cs : List Char) : Prop :=
  ∀ rest, Stops rest → read (cs ++ rest) = ((read cs).map Prod.fst).map (·, rest)

/-- What is read in the same way with two texts behind it. -/
theorem local_of_outcome {read : List Char → Except Failure (Number × List Char)} {cs : List Char}
    (outcome : Except Failure Number)
    (same : ∀ rest, Stops rest → read (cs ++ rest) = outcome.map (·, rest)) : Local read cs := by
  intro rest stops
  have alone := same [] Stops.nil
  rw [List.append_nil] at alone
  rw [same rest stops, alone]
  cases outcome <;> rfl

theorem takeDigits_local {digits : List Char} (numeral : IsNumeral digits)
    (acc taken skipped : Nat) :
    ∃ value more less, taken + skipped + digits.length = more + less ∧
      ∀ rest, (∀ c ∈ rest.head?, c.isDigit = false) →
        takeDigits (digits ++ rest) acc taken skipped = (value, more, less, rest) := by
  induction digits generalizing acc taken skipped with
  | nil =>
      refine ⟨acc, taken, skipped, rfl, fun rest stops => ?_⟩
      cases rest with
      | nil => rfl
      | cons c rest =>
          rw [List.nil_append, takeDigits, stops c rfl]
          rfl
  | cons c digits inductionHypothesis =>
      obtain ⟨isDigit, others⟩ := List.forall_mem_cons.1 numeral
      simp only [List.cons_append, takeDigits, isDigit, if_true, List.length_cons]
      split
      next whole =>
        obtain ⟨value, more, less, count, same⟩ := inductionHypothesis others
          (acc * 10 + (c.toNat - '0'.toNat)) (taken + 1) 0
        exact ⟨value, more, less, by omega, same⟩
      next =>
        obtain ⟨value, more, less, count, same⟩ := inductionHypothesis others acc taken (skipped + 1)
        exact ⟨value, more, less, by omega, same⟩

/-- The number with a significand and the exponent that was read. -/
def withExponent (negative : Bool) (significand : Nat) (start : Int) (down : Bool) (value : Nat) :
    Except Failure Number :=
  if 1 <<< 31 ≤ value then
    if significand ≠ 0 ∧ !down then .error .malformed else .ok (.float (Binary64.ofParts negative 0))
  else scaled negative significand (if down then start - value else start + value)

theorem exponentPart_local (negative : Bool) (significand : Nat) (start e : Int) :
    Local (exponentPart negative significand start) (Decimal.markChars e).tail := by
  refine local_of_outcome
    (withExponent negative significand start (decide (e < 0)) e.natAbs) fun rest stops => ?_
  have read := Binary64.readDigits_append (isNumeral_toDigits e.natAbs) rest
    (fun c member => (stops c member).1) 0 0
  have some : (Nat.toDigits 10 e.natAbs).length ≠ 0 := Nat.length_toDigits_pos.ne'
  rw [Nat.ofDigitChars_ten_toDigits, Nat.zero_add] at read
  have signed (down : Bool) : exponentPart negative significand start
      ((if down then '-' else '+') :: (Nat.toDigits 10 e.natAbs ++ rest))
        = (withExponent negative significand start down e.natAbs).map (·, rest) := by
    unfold exponentPart withExponent
    cases down <;> simp only [if_true, Bool.false_eq_true, if_false, read] <;> rw [if_neg some]
    all_goals
      split_ifs
      · rfl
      · rfl
      · cases scaled negative significand _ <;> rfl
  by_cases below : e < 0
  · rw [decide_eq_true below]
    unfold Decimal.markChars
    rw [if_pos below]
    exact signed true
  · rw [decide_eq_false below]
    unfold Decimal.markChars
    rw [if_neg below]
    exact signed false

/-- Digits are followed by an exponent or by what ends the number. -/
theorem noDigit_mark (e : Int) (rest : List Char) :
    ∀ c ∈ (Decimal.markChars e ++ rest).head?, c.isDigit = false := by
  rintro c ⟨⟩
  rfl

theorem fractionPart_local (negative : Bool) (significand : Nat) (start : Int) {fraction : List Char}
    (numeral : IsNumeral fraction) : Local (fractionPart negative significand start) fraction := by
  obtain ⟨value, more, less, -, same⟩ := takeDigits_local numeral significand 0 0
  refine local_of_outcome (if more + less = 0 then .error .malformed
    else scaled negative value (start - more)) fun rest stops => ?_
  rw [fractionPart, same rest fun c member => (stops c member).1]
  dsimp only
  split_ifs
  · rfl
  · split
    next r => exact absurd rfl (stops 'e' rfl).2.2.1
    next r => exact absurd rfl (stops 'E' rfl).2.2.2
    next => cases scaled negative value (start - more) <;> rfl

theorem fractionPart_mark (negative : Bool) (significand : Nat) (start : Int) {fraction : List Char}
    (numeral : IsNumeral fraction) (e : Int) :
    Local (fractionPart negative significand start) (fraction ++ Decimal.markChars e) := by
  obtain ⟨value, more, less, -, same⟩ := takeDigits_local numeral significand 0 0
  refine local_of_outcome (if more + less = 0 then .error .malformed
    else (exponentPart negative value (start - more) (Decimal.markChars e).tail).map Prod.fst)
    fun rest stops => ?_
  rw [List.append_assoc, fractionPart, same _ (noDigit_mark e rest)]
  dsimp only
  split_ifs
  · rfl
  · exact exponentPart_local negative value (start - more) e rest stops

/-- What is read behind the whole part of a number. -/
def afterWhole (negative : Bool) (value skipped : Nat) (rest : List Char) :
    Except Failure (Number × List Char) :=
  match rest with
  | '.' :: r => fractionPart negative value skipped r
  | 'e' :: r | 'E' :: r => exponentPart negative value skipped r
  | r =>
    if skipped ≠ 0 then do
      let number ← scaled negative value skipped
      return (number, r)
    else if !negative then .ok (.int value, r)
    else if value = 0 ∨ 1 <<< 63 < value then .ok (.float (Binary64.ofNat value).neg, r)
    else .ok (.int (-(value : Int)), r)

theorem number_eq (negative : Bool) (cs : List Char) :
    number negative cs =
      let (value, taken, skipped, rest) := takeDigits cs 0 0 0
      if taken = 0 then .error .malformed
      else if cs.head? == some '0' ∧ 1 < taken + skipped then .error .malformed
      else afterWhole negative value skipped rest := rfl

/-- Behind the whole part stand a fraction, an exponent, both or nothing. -/
inductive Tail : List Char → Prop where
  | nothing : Tail []
  | fraction {digits : List Char} (numeral : IsNumeral digits) : Tail ('.' :: digits)
  | exponent (e : Int) : Tail (Decimal.markChars e)
  | both {digits : List Char} (numeral : IsNumeral digits) (e : Int) :
      Tail ('.' :: digits ++ Decimal.markChars e)

namespace Tail

variable {tail : List Char} (isTail : Tail tail)

include isTail

theorem noDigit {rest : List Char} (stops : Stops rest) :
    ∀ c ∈ (tail ++ rest).head?, c.isDigit = false := by
  cases isTail with
  | nothing => exact fun c member => (stops c member).1
  | fraction | exponent | both =>
      rintro c ⟨⟩
      rfl

theorem afterWhole_local (negative : Bool) (value skipped : Nat) :
    Local (afterWhole negative value skipped) tail := by
  intro rest stops
  cases isTail with
  | nothing =>
      rw [List.nil_append]
      unfold afterWhole
      split
      next => exact absurd rfl (stops '.' rfl).2.1
      next => exact absurd rfl (stops 'e' rfl).2.2.1
      next => exact absurd rfl (stops 'E' rfl).2.2.2
      next =>
        split_ifs
        · cases scaled negative value skipped <;> rfl
        · rfl
        · rfl
        · rfl
  | fraction numeral => exact fractionPart_local negative value skipped numeral rest stops
  | exponent e => exact exponentPart_local negative value skipped e rest stops
  | both numeral e => exact fractionPart_mark negative value skipped numeral e rest stops

theorem number_local {digits : List Char} (numeral : IsNumeral digits) (notEmpty : digits ≠ [])
    (negative : Bool) : Local (number negative) (digits ++ tail) := by
  obtain ⟨value, more, less, -, same⟩ := takeDigits_local numeral 0 0 0
  have first (rest : List Char) : (digits ++ rest).head? = digits.head? := by
    cases digits with
    | nil => exact absurd rfl notEmpty
    | cons c digits => rfl
  refine local_of_outcome (if more = 0 then .error .malformed
    else if digits.head? == some '0' ∧ 1 < more + less then .error .malformed
    else (afterWhole negative value less tail).map Prod.fst) fun rest stops => ?_
  rw [List.append_assoc, number_eq, same _ (isTail.noDigit stops), first]
  dsimp only
  split_ifs
  · rfl
  · rfl
  · exact isTail.afterWhole_local negative value less rest stops

end Tail

/-- The number that a text is read as. -/
def numberOf (text : List Char) : Except Failure Number :=
  match text with
  | '-' :: rest => (number true rest).map Prod.fst
  | cs => (number false cs).map Prod.fst

theorem skipBlanks_cons {c : Char} (visible : ¬ (c = ' ' ∨ c = '\n' ∨ c = '\t' ∨ c = '\r'))
    (rest : List Char) : skipBlanks (c :: rest) = c :: rest := by
  unfold skipBlanks
  rw [List.dropWhile_cons, if_neg]
  simpa [or_assoc] using visible

/-- A number is read as the same in every document, if it is followed by what ends it. -/
theorem value_number {digits tail : List Char} (numeral : IsNumeral digits) (notEmpty : digits ≠ [])
    (isTail : Tail tail) (negative : Bool) (fuel depth : Nat) {rest : List Char}
    (stops : Stops rest) :
    value (fuel + 1) depth ((if negative then ['-'] else []) ++ (digits ++ tail) ++ rest)
      = (numberOf ((if negative then ['-'] else []) ++ (digits ++ tail))).map
          fun n => (.number n, rest) := by
  have read (negative : Bool) := isTail.number_local numeral notEmpty negative rest stops
  cases negative with
  | true =>
      show (number true (digits ++ tail ++ rest) >>= fun r => Except.ok (Json.number r.1, r.2))
        = Except.map _ ((number true (digits ++ tail)).map Prod.fst)
      rw [read]
      cases number true (digits ++ tail) <;> rfl
  | false =>
      obtain ⟨c, more, rfl⟩ := List.exists_cons_of_ne_nil notEmpty
      have digit : c.isDigit := numeral c List.mem_cons_self
      have visible : ¬ (c = ' ' ∨ c = '\n' ∨ c = '\t' ∨ c = '\r') := by
        rintro (rfl | rfl | rfl | rfl) <;> cases digit
      have quote : c ≠ '"' := by
        rintro rfl
        cases digit
      have bracket : c ≠ '[' := by
        rintro rfl
        cases digit
      have brace : c ≠ Char.ofNat 0x7B := by
        rintro rfl
        cases digit
      have minus : c ≠ '-' := by
        rintro rfl
        cases digit
      have unsigned : numberOf (c :: more ++ tail)
          = (number false (c :: more ++ tail)).map Prod.fst := by
        unfold numberOf
        split
        next same => exact absurd (List.cons.inj same).1 minus
        next => rfl
      rw [if_neg Bool.false_ne_true, List.nil_append, unsigned, List.cons_append, List.cons_append,
        value, skipBlanks_cons visible]
      dsimp only
      rw [if_neg quote, if_neg bracket, if_neg brace, if_neg minus, if_pos digit]
      show (number false ((c :: more) ++ tail ++ rest) >>= fun r => Except.ok (Json.number r.1, r.2))
        = Except.map _ ((number false ((c :: more) ++ tail)).map Prod.fst)
      rw [read]
      cases number false (c :: more ++ tail) <;> rfl

/-! ### Whole numbers -/

theorem takeDigits_whole {digits : List Char} (numeral : IsNumeral digits) (acc taken : Nat)
    (fits : Nat.ofDigitChars 10 digits acc ≤ significandLimit) :
    takeDigits digits acc taken 0
      = (Nat.ofDigitChars 10 digits acc, taken + digits.length, 0, []) := by
  induction digits generalizing acc taken with
  | nil => rfl
  | cons c digits inductionHypothesis =>
      obtain ⟨isDigit, others⟩ := List.forall_mem_cons.1 numeral
      rw [Nat.ofDigitChars_cons, Nat.mul_comm] at fits ⊢
      have small : acc * 10 + (c.toNat - '0'.toNat) ≤ significandLimit := by
        rw [Nat.ofDigitChars_eq_ofDigitChars_zero] at fits
        have positive : 0 < 10 ^ digits.length := Nat.pow_pos (by decide)
        have least := Nat.le_mul_of_pos_left (acc * 10 + (c.toNat - '0'.toNat)) positive
        omega
      rw [takeDigits, if_pos isDigit]
      dsimp only
      rw [if_pos ⟨rfl, small⟩, inductionHypothesis others _ _ fits, List.length_cons, Nat.add_assoc,
        Nat.add_comm 1]

/-- Only the digits of zero begin with a zero. -/
theorem head?_toDigits (n : Nat) : (Nat.toDigits 10 (n + 1)).head? ≠ some '0' := by
  induction n using Nat.strongRecOn with
  | ind n inductionHypothesis =>
      by_cases small : n + 1 < 10
      · have digit : ∀ m < 9, [Nat.digitChar (m + 1)].head? ≠ some '0' := by decide
        rw [Nat.toDigits_of_lt_base small]
        exact digit n (by omega)
      · obtain ⟨m, quotient⟩ := Nat.exists_eq_succ_of_ne_zero (show (n + 1) / 10 ≠ 0 by omega)
        have front := inductionHypothesis m (by omega)
        obtain ⟨c, more, digits⟩ := List.exists_cons_of_ne_nil
          (Nat.toDigits_ne_nil (n := m + 1) (b := 10))
        rw [digits] at front
        rw [Nat.toDigits_of_base_le (by decide) (by omega), quotient, digits]
        exact front

theorem number_toDigits {m : Nat} (fits : m ≤ significandLimit) (negative : Bool) :
    number negative (Nat.toDigits 10 m) = afterWhole negative m 0 [] := by
  have read := takeDigits_whole (isNumeral_toDigits m) 0 0 (by rwa [Nat.ofDigitChars_ten_toDigits])
  have some : (Nat.toDigits 10 m).length ≠ 0 := Nat.length_toDigits_pos.ne'
  have noZero :
      ¬ ((Nat.toDigits 10 m).head? == Option.some '0' ∧ 1 < (Nat.toDigits 10 m).length) := by
    rintro ⟨zero, long⟩
    cases m with
    | zero => exact absurd long (by decide)
    | succ m => exact head?_toDigits m (beq_iff_eq.1 zero)
  rw [Nat.ofDigitChars_ten_toDigits, Nat.zero_add] at read
  rw [number_eq, read]
  dsimp only
  rw [if_neg some, Nat.add_zero, if_neg noZero]

/-- Whole numbers that 64 bits hold are read back. -/
theorem numberOf_int {n : Int} (least : Number.leastInt ≤ n) (greatest : n ≤ significandLimit) :
    numberOf (toString n).toList = .ok (.int n) := by
  rw [toString_int_toList]
  by_cases negative : n < 0
  · have fits : n.natAbs ≤ significandLimit := by
      unfold Number.leastInt at least
      unfold significandLimit
      omega
    have nonzero : ¬ (n.natAbs = 0 ∨ 1 <<< 63 < n.natAbs) := by
      unfold Number.leastInt at least
      rw [show (1 <<< 63 : Nat) = 0x8000000000000000 from rfl]
      omega
    rw [if_pos negative]
    show (number true (Nat.toDigits 10 n.natAbs)).map Prod.fst = _
    rw [number_toDigits fits]
    show (if n.natAbs = 0 ∨ 1 <<< 63 < n.natAbs then _ else _ : Except _ _).map Prod.fst = _
    rw [if_neg nonzero]
    show Except.ok (Number.int (-(n.natAbs : Int))) = _
    rw [show -(n.natAbs : Int) = n by omega]
  · have fits : n.natAbs ≤ significandLimit := by omega
    obtain ⟨c, more, digits⟩ := List.exists_cons_of_ne_nil
      (Nat.toDigits_ne_nil (n := n.natAbs) (b := 10))
    have unsigned : numberOf (Nat.toDigits 10 n.natAbs)
        = (number false (Nat.toDigits 10 n.natAbs)).map Prod.fst := by
      have digit := isNumeral_toDigits n.natAbs
      rw [digits] at digit ⊢
      unfold numberOf
      split
      next same =>
        obtain rfl := (List.cons.inj same).1
        exact absurd (digit '-' List.mem_cons_self) (by decide)
      next => rfl
    rw [if_neg negative, unsigned, number_toDigits fits]
    show Except.ok (Number.int (n.natAbs : Int)) = _
    rw [show (n.natAbs : Int) = n by omega]

/-! ### Texts of numbers -/

theorem jsonBody_parts (x : Binary64) : ∃ digits tail, x.jsonBody.toList = digits ++ tail ∧
    IsNumeral digits ∧ digits ≠ [] ∧ Tail tail := by
  unfold Binary64.jsonBody
  dsimp only
  split
  next =>
    exact ⟨['0'], '.' :: ['0'], rfl, isNumeral_zeros 1, by decide, .fraction (isNumeral_zeros 1)⟩
  next =>
    split
    next =>
      obtain ⟨whole, fraction, chars, notEmpty, wholeDigits, fractionDigits, -⟩ :=
        Decimal.positional_chars (x.shortest .even)
      exact ⟨whole, '.' :: fraction, chars, wholeDigits, notEmpty, .fraction fractionDigits⟩
    next =>
      obtain ⟨whole, fraction, notEmpty, wholeDigits, fractionDigits, chars, -⟩ :=
        Decimal.scientific_chars (x.shortest .even)
      rw [chars]
      split
      next => exact ⟨whole, _, rfl, wholeDigits, notEmpty, .exponent _⟩
      next =>
        exact ⟨whole, _, List.append_assoc _ _ _, wholeDigits, notEmpty,
          .both fractionDigits (x.shortest .even).leading⟩

theorem renderNumber_parts {n : Number} (finite : (Json.number n).isScalar) :
    ∃ (negative : Bool) (digits tail : List Char), (renderNumber n).toList
        = (if negative then ['-'] else []) ++ (digits ++ tail) ∧
      IsNumeral digits ∧ digits ≠ [] ∧ Tail tail := by
  cases n with
  | int n =>
      refine ⟨decide (n < 0), Nat.toDigits 10 n.natAbs, [], ?_, isNumeral_toDigits _,
        Nat.toDigits_ne_nil, .nothing⟩
      rw [List.append_nil]
      refine (toString_int_toList n).trans ?_
      by_cases negative : n < 0
      · rw [if_pos negative, decide_eq_true negative]
        rfl
      · rw [if_neg negative, decide_eq_false negative]
        rfl
  | float x =>
      obtain ⟨digits, tail, body, numeral, notEmpty, isTail⟩ := jsonBody_parts x
      refine ⟨x.negative, digits, tail, ?_, numeral, notEmpty, isTail⟩
      rw [show renderNumber (.float x) = x.toJsonText from if_pos finite, Binary64.toJsonText_toList,
        body]
      cases x.negative <;> rfl

/-- What the text of a number is read as. -/
def rereadNumber (n : Number) : Except Failure Json :=
  if (Json.number n).isScalar then (numberOf (renderNumber n).toList).map .number else .ok .null

theorem rereadNumber_int {n : Int} (least : Number.leastInt ≤ n) (greatest : n ≤ significandLimit) :
    rereadNumber (.int n) = .ok (.number (.int n)) := by
  show (numberOf (toString n).toList).map Json.number = _
  rw [numberOf_int least greatest]
  rfl

theorem value_word (fuel depth : Nat) (rest : List Char) :
    value (fuel + 1) depth ("null".toList ++ rest) = .ok (.null, rest) ∧
      value (fuel + 1) depth ("true".toList ++ rest) = .ok (.bool true, rest) ∧
      value (fuel + 1) depth ("false".toList ++ rest) = .ok (.bool false, rest) :=
  ⟨rfl, rfl, rfl⟩

theorem value_renderNumber (n : Number) (fuel depth : Nat) {rest : List Char} (stops : Stops rest) :
    value (fuel + 1) depth ((renderNumber n).toList ++ rest)
      = (rereadNumber n).map (·, rest) := by
  unfold rereadNumber
  split
  next finite =>
    obtain ⟨negative, digits, tail, parts, numeral, notEmpty, isTail⟩ := renderNumber_parts finite
    rw [parts, value_number numeral notEmpty isTail negative fuel depth stops]
    cases numberOf _ <;> rfl
  next infinite =>
    cases n with
    | int n => exact absurd rfl infinite
    | float x =>
        rw [show renderNumber (.float x) = "null" from if_neg infinite]
        exact (value_word fuel depth rest).1

/-! ### Documents -/

mutual

/-- What the text of a document is read as, if `depth` levels may be opened. -/
def reread : Json → Nat → Except Failure Json
  | .number n, _ => rereadNumber n
  | .array _, 0 | .object _, 0 => .error .malformed
  | .array items, depth + 1 => (rereadItems items depth).map .array
  | .object fields, depth + 1 => (rereadFields fields depth).map .object
  | doc, _ => .ok doc
termination_by structural doc => doc

def rereadItems : List Json → Nat → Except Failure (List Json)
  | [], _ => .ok []
  | x :: xs, depth => do
    let x ← reread x depth
    let xs ← rereadItems xs depth
    return x :: xs
termination_by structural items => items

def rereadFields : List (String × Json) → Nat → Except Failure Fields
  | [], _ => .ok []
  | (name, v) :: rest, depth => do
    let v ← reread v depth
    let rest ← rereadFields rest depth
    return (name, v) :: rest
termination_by structural fields => fields

end

/-- What follows ends a part of a document. -/
def Closes (rest : List Char) : Prop :=
  ∀ c ∈ rest.head?, c = ',' ∨ c = ']' ∨ c = Char.ofNat 0x7D

namespace Closes

theorem nil : Closes [] := nofun

theorem comma (rest : List Char) : Closes (',' :: rest) := by
  rintro c ⟨⟩
  exact Or.inl rfl

theorem bracket (rest : List Char) : Closes (']' :: rest) := by
  rintro c ⟨⟩
  exact Or.inr (Or.inl rfl)

theorem brace (rest : List Char) : Closes (Char.ofNat 0x7D :: rest) := by
  rintro c ⟨⟩
  exact Or.inr (Or.inr rfl)

theorem stops {rest : List Char} (closes : Closes rest) : Stops rest := by
  intro c member
  rcases closes c member with rfl | rfl | rfl <;> decide

end Closes

theorem render_array_toList (items : List Json) :
    (Json.array items).render.toList = '[' :: ((renderItems items).toList ++ [']']) := by
  rw [render]
  simp only [String.toList_append, List.append_assoc]
  rfl

theorem render_object_toList (fields : Fields) : (Json.object fields).render.toList
    = Char.ofNat 0x7B :: ((renderFields fields).toList ++ [Char.ofNat 0x7D]) := by
  rw [render]
  simp only [String.toList_append, List.append_assoc]
  rfl

/-- The text of the items after the first one. -/
def moreItems (rest : List Json) : List Char :=
  if rest.isEmpty then [] else ',' :: (renderItems rest).toList

theorem renderItems_cons (x : Json) (rest : List Json) :
    (renderItems (x :: rest)).toList = x.render.toList ++ moreItems rest := by
  cases rest with
  | nil => exact (List.append_nil _).symm
  | cons y rest =>
      rw [renderItems]
      simp only [String.toList_append, List.append_assoc]
      rfl

def IsBlank (c : Char) : Prop := c = ' ' ∨ c = '\n' ∨ c = '\t' ∨ c = '\r'

instance : DecidablePred IsBlank := fun _ => inferInstanceAs (Decidable (_ ∨ _))

/-- A document begins with a sign that is neither a blank nor the end of an array. -/
theorem render_leads (doc : Json) :
    ∃ c more, doc.render.toList = c :: more ∧ ¬ IsBlank c ∧ c ≠ ']' := by
  have opened {text : String} (c : Char) {more : List Char} (own : text.toList = c :: more)
      (sign : ¬ IsBlank c ∧ c ≠ ']') :
      ∃ c more, text.toList = c :: more ∧ ¬ IsBlank c ∧ c ≠ ']' := ⟨c, more, own, sign⟩
  cases doc with
  | null => exact opened 'n' rfl (by decide)
  | bool b => cases b <;> exact ⟨_, _, rfl, by decide⟩
  | text s => exact opened '"' (renderText_toList s) (by decide)
  | array items => exact opened '[' (render_array_toList items) (by decide)
  | object fields => exact opened (Char.ofNat 0x7B) (render_object_toList fields) (by decide)
  | number n =>
      by_cases finite : (Json.number n).isScalar
      · obtain ⟨c, more, own, digit | rfl⟩ := (isNumberText_renderNumber finite).leads
        · refine opened c own ⟨?_, ?_⟩
          · rintro (rfl | rfl | rfl | rfl) <;> cases digit
          · rintro rfl
            cases digit
        · exact opened '-' own (by decide)
      · cases n with
        | int n => exact absurd rfl finite
        | float x =>
            have shown : (Json.number (.float x)).render = "null" := if_neg finite
            rw [shown]
            exact ⟨_, _, rfl, by decide⟩

theorem length_escaped (chars : List Char) : chars.length ≤ (chars.flatMap escapeChar).length := by
  have some (c : Char) : 1 ≤ (escapeChar c).length := by
    unfold escapeChar
    split_ifs <;> exact Nat.succ_le_succ (Nat.zero_le _)
  rw [List.length_flatMap]
  refine le_of_eq_of_le (List.length_map _).symm (List.length_le_sum_of_one_le _ fun n member => ?_)
  obtain ⟨c, -, rfl⟩ := List.mem_map.1 member
  exact some c

theorem quotedText_renderText (name : String) (rest : List Char) :
    quotedText ((renderText name).toList ++ rest) = .ok (name, rest) := by
  have long := length_escaped name.toList
  rw [renderText_toList, List.cons_append, List.append_assoc, List.singleton_append]
  show string (name.toList.flatMap escapeChar ++ '"' :: rest).length.succ _ [] = _
  rw [string_escaped name.toList rest [] _ (by rw [List.length_append]; omega), List.reverse_nil,
    List.nil_append, String.ofList_toList]

theorem value_text (s : String) (fuel depth : Nat) (rest : List Char) :
    value (fuel + 1) depth ((renderText s).toList ++ rest) = .ok (.text s, rest) := by
  have read := quotedText_renderText s rest
  rw [renderText_toList, List.cons_append] at read ⊢
  show (quotedText _ >>= fun r => Except.ok (Json.text r.1, r.2)) = _
  rw [read]
  rfl

/-- An array that is not empty is opened and its items are read. -/
theorem value_array (fuel depth : Nat) {front : List Char} {c : Char}
    (leads : front.head? = some c) (visible : ¬ IsBlank c) (unended : c ≠ ']') :
    value (fuel + 1) (depth + 1) ('[' :: front)
      = (items fuel depth front).map fun r => (.array r.1, r.2) := by
  obtain ⟨more, rfl⟩ := List.head?_eq_some_iff.1 leads
  rw [value, skipBlanks_cons (by decide)]
  dsimp only
  rw [if_neg (by decide), if_pos rfl, skipBlanks_cons visible]
  split
  next same => exact absurd (List.cons.inj same).1 unended
  next => cases items fuel depth (c :: more) <;> rfl

/-- An object that is not empty is opened and its fields are read. -/
theorem value_object (fuel depth : Nat) {front : List Char} {c : Char}
    (leads : front.head? = some c) (visible : ¬ IsBlank c) (unended : c ≠ Char.ofNat 0x7D) :
    value (fuel + 1) (depth + 1) (Char.ofNat 0x7B :: front)
      = (fields fuel depth [] front).map fun r => (.object r.1, r.2) := by
  obtain ⟨more, rfl⟩ := List.head?_eq_some_iff.1 leads
  rw [value, skipBlanks_cons (by decide)]
  dsimp only
  rw [if_neg (by decide), if_neg (by decide), if_pos rfl, skipBlanks_cons visible]
  dsimp only
  rw [if_neg unended]
  cases fields fuel depth [] (c :: more) <;> rfl

theorem fields_named (fuel depth : Nat) (acc : Fields) (name : String) (front : List Char) :
    fields (fuel + 1) depth acc ((renderText name).toList ++ ':' :: front)
      = value fuel depth front >>= fun r =>
          match skipBlanks r.2 with
          | [] => .error .malformed
          | d :: rest =>
            if d = ',' then fields fuel depth (acc.insert name r.1) rest
            else if d = Char.ofNat 0x7D then .ok (acc.insert name r.1, rest)
            else .error .malformed := by
  have read := quotedText_renderText name (':' :: front)
  rw [fields, renderText_toList, List.cons_append, skipBlanks_cons (by decide),
    ← List.cons_append, ← renderText_toList, read]
  rfl

theorem fuel_of_render {doc : Json} {fuel : Nat} (enough : 2 * doc.render.toList.length ≤ fuel) :
    ∃ n, fuel = n + 1 := by
  obtain ⟨c, more, own, -⟩ := render_leads doc
  rw [own, List.length_cons] at enough
  exact ⟨fuel - 1, by omega⟩

/-- A document is read up to its end, whatever follows. -/
def IsReread (depth : Nat) (doc : Json) : Prop :=
  ∀ fuel, 2 * doc.render.toList.length ≤ fuel → ∀ rest, Closes rest →
    value fuel depth (doc.render.toList ++ rest) = (reread doc depth).map (·, rest)

theorem items_render {depth : Nat} {x : Json} {xs : List Json}
    (parts : ∀ y ∈ x :: xs, IsReread depth y) (fuel : Nat)
    (enough : 2 * (renderItems (x :: xs)).toList.length + 1 ≤ fuel) (rest : List Char) :
    items fuel depth ((renderItems (x :: xs)).toList ++ ']' :: rest)
      = (rereadItems (x :: xs) depth).map (·, rest) := by
  induction xs generalizing x fuel with
  | nil =>
      obtain ⟨fuel, rfl⟩ : ∃ n, fuel = n + 1 := ⟨fuel - 1, by omega⟩
      have first := parts x List.mem_cons_self fuel (by rw [renderItems] at enough; omega) _
        (Closes.bracket rest)
      rw [renderItems, items, first, rereadItems]
      cases reread x depth <;> rfl
  | cons y ys inductionHypothesis =>
      obtain ⟨fuel, rfl⟩ : ∃ n, fuel = n + 1 := ⟨fuel - 1, by omega⟩
      have shown : (renderItems (x :: y :: ys)).toList ++ ']' :: rest
          = x.render.toList ++ ',' :: ((renderItems (y :: ys)).toList ++ ']' :: rest) := by
        rw [renderItems_cons, List.append_assoc]
        rfl
      have long : (renderItems (x :: y :: ys)).toList.length
          = x.render.toList.length + ((renderItems (y :: ys)).toList.length + 1) := by
        rw [renderItems_cons, List.length_append]
        rfl
      have others := inductionHypothesis (List.forall_mem_cons.1 parts).2 fuel (by omega)
      rw [shown, items, parts x List.mem_cons_self fuel (by omega) _ (Closes.comma _), rereadItems]
      cases reread x depth with
      | error failure => rfl
      | ok v =>
          show (items fuel depth ((renderItems (y :: ys)).toList ++ ']' :: rest)
            >>= fun r => Except.ok (v :: r.1, r.2)) = _
          rw [others]
          show _ = Except.map _ (rereadItems (y :: ys) depth >>= fun xs => Except.ok (v :: xs))
          cases rereadItems (y :: ys) depth <;> rfl

theorem notMem_of_nodup {acc : Fields} {name : String} {v : Json} {fs : Fields}
    (once : ((acc ++ (name, v) :: fs).map Prod.fst).Nodup) : name ∉ acc.map Prod.fst := by
  intro member
  rw [List.map_append, List.map_cons, List.nodup_append] at once
  exact once.2.2 _ member _ List.mem_cons_self rfl

/-- The fields that are read are added to those read before.  As no name is repeated, each of them
goes to the end. -/
theorem fields_render {depth : Nat} {f : String × Json} {fs acc : Fields}
    (parts : ∀ g ∈ f :: fs, IsReread depth g.2) (once : ((acc ++ f :: fs).map Prod.fst).Nodup)
    (fuel : Nat) (enough : 2 * (renderFields (f :: fs)).toList.length + 1 ≤ fuel)
    (rest : List Char) :
    fields fuel depth acc ((renderFields (f :: fs)).toList ++ Char.ofNat 0x7D :: rest)
      = (rereadFields (f :: fs) depth).map (acc ++ ·, rest) := by
  induction fs generalizing f acc fuel with
  | nil =>
      obtain ⟨name, v⟩ := f
      obtain ⟨fuel, rfl⟩ : ∃ n, fuel = n + 1 := ⟨fuel - 1, by omega⟩
      have new := notMem_of_nodup once
      have own : IsReread depth v := parts (name, v) List.mem_cons_self
      have shown : (renderFields [(name, v)]).toList ++ Char.ofNat 0x7D :: rest
          = (renderText name).toList ++ ':' :: (v.render.toList ++ Char.ofNat 0x7D :: rest) := by
        rw [renderFields_cons, List.append_assoc, List.cons_append, List.append_assoc]
        rfl
      rw [renderFields_cons, List.length_append, List.length_cons, List.length_append] at enough
      rw [shown, fields_named, own fuel (by omega) _ (Closes.brace rest), rereadFields]
      cases reread v depth with
      | error failure => rfl
      | ok w =>
          show Except.ok (acc.insert name w, rest) = Except.ok (acc ++ [(name, w)], rest)
          rw [Fields.insert_new new]
  | cons g fs inductionHypothesis =>
      obtain ⟨name, v⟩ := f
      obtain ⟨fuel, rfl⟩ : ∃ n, fuel = n + 1 := ⟨fuel - 1, by omega⟩
      have new := notMem_of_nodup once
      have own : IsReread depth v := parts (name, v) List.mem_cons_self
      have shown : (renderFields ((name, v) :: g :: fs)).toList ++ Char.ofNat 0x7D :: rest
          = (renderText name).toList ++ ':' :: (v.render.toList
            ++ ',' :: ((renderFields (g :: fs)).toList ++ Char.ofNat 0x7D :: rest)) := by
        rw [renderFields_cons, List.append_assoc, List.cons_append, List.append_assoc]
        rfl
      have long : (renderFields ((name, v) :: g :: fs)).toList.length
          = (renderText name).toList.length
            + (v.render.toList.length + ((renderFields (g :: fs)).toList.length + 1) + 1) := by
        rw [renderFields_cons, List.length_append, List.length_cons, List.length_append]
        rfl
      rw [shown, fields_named, own fuel (by omega) _ (Closes.comma _), rereadFields]
      cases reread v depth with
      | error failure => rfl
      | ok w =>
          have shifted : ((acc ++ [(name, w)] ++ g :: fs).map Prod.fst).Nodup := by
            simpa using once
          have others := inductionHypothesis (List.forall_mem_cons.1 parts).2 shifted fuel (by omega)
          show fields fuel depth (acc.insert name w)
            ((renderFields (g :: fs)).toList ++ Char.ofNat 0x7D :: rest) = _
          rw [Fields.insert_new new, others]
          show _ = Except.map _ (rereadFields (g :: fs) depth
            >>= fun fs => Except.ok ((name, w) :: fs))
          cases rereadFields (g :: fs) depth with
          | error failure => rfl
          | ok read =>
              show Except.ok (acc ++ [(name, w)] ++ read, rest)
                = Except.ok (acc ++ (name, w) :: read, rest)
              rw [List.append_assoc, List.singleton_append]

theorem isReread_array {depth : Nat} {items : List Json}
    (parts : ∀ x ∈ items, ∀ depth, IsReread depth x) : IsReread depth (.array items) := by
  intro fuel enough rest closes
  obtain ⟨fuel, rfl⟩ := fuel_of_render enough
  rw [render_array_toList, List.length_cons, List.length_append, List.length_singleton] at enough
  rw [render_array_toList, List.cons_append, List.append_assoc, List.singleton_append]
  match depth, items with
  | 0, _ => rfl
  | depth + 1, [] => rfl
  | depth + 1, x :: xs =>
      obtain ⟨c, more, front, visible, unended⟩ := render_leads x
      have leads : ((renderItems (x :: xs)).toList ++ ']' :: rest).head? = some c := by
        rw [renderItems_cons, front]
        rfl
      rw [value_array fuel depth leads visible unended,
        items_render (fun y member => parts y member depth) fuel (by omega) rest]
      show _ = ((rereadItems (x :: xs) depth).map Json.array).map _
      cases rereadItems (x :: xs) depth <;> rfl

theorem isReread_object {depth : Nat} {fs : Fields} (once : (fs.map Prod.fst).Nodup)
    (parts : ∀ f ∈ fs, ∀ depth, IsReread depth f.2) : IsReread depth (.object fs) := by
  intro fuel enough rest closes
  obtain ⟨fuel, rfl⟩ := fuel_of_render enough
  rw [render_object_toList, List.length_cons, List.length_append, List.length_singleton] at enough
  rw [render_object_toList, List.cons_append, List.append_assoc, List.singleton_append]
  match depth, fs with
  | 0, _ => rfl
  | depth + 1, [] => rfl
  | depth + 1, (name, v) :: fs =>
      have leads : ((renderFields ((name, v) :: fs)).toList ++ Char.ofNat 0x7D :: rest).head?
          = some '"' := by
        rw [renderFields_cons, renderText_toList]
        rfl
      rw [value_object fuel depth leads (by decide) (by decide),
        fields_render (fun g member => parts g member depth) once fuel (by omega) rest]
      show _ = ((rereadFields ((name, v) :: fs) depth).map Json.object).map _
      cases rereadFields ((name, v) :: fs) depth <;> rfl

theorem value_render (doc : Json) (once : doc.fieldsOnce) (depth : Nat) : IsReread depth doc := by
  match doc with
  | .null =>
      intro fuel enough rest closes
      obtain ⟨fuel, rfl⟩ := fuel_of_render enough
      exact (value_word fuel depth rest).1
  | .bool true =>
      intro fuel enough rest closes
      obtain ⟨fuel, rfl⟩ := fuel_of_render enough
      exact (value_word fuel depth rest).2.1
  | .bool false =>
      intro fuel enough rest closes
      obtain ⟨fuel, rfl⟩ := fuel_of_render enough
      exact (value_word fuel depth rest).2.2
  | .number n =>
      intro fuel enough rest closes
      obtain ⟨fuel, rfl⟩ := fuel_of_render enough
      exact value_renderNumber n fuel depth closes.stops
  | .text s =>
      intro fuel enough rest closes
      obtain ⟨fuel, rfl⟩ := fuel_of_render enough
      exact value_text s fuel depth rest
  | .array items =>
      exact isReread_array fun x member depth =>
        value_render x (itemsFieldsOnce_mem once member) depth
  | .object fs =>
      rw [fieldsOnce, Bool.and_eq_true, decide_eq_true_eq] at once
      exact isReread_object once.1 fun f member depth =>
        value_render f.2 (valuesFieldsOnce_mem once.2 member) depth
termination_by sizeOf doc
decreasing_by
  · have smaller := List.sizeOf_lt_of_mem member
    simp
    omega
  · have smaller := List.sizeOf_lt_of_mem member
    obtain ⟨name, value⟩ := f
    simp at smaller ⊢
    omega

/-- A document is read as what its parts are read as, if it is not nested too deep. -/
theorem document_render (doc : Json) (once : doc.fieldsOnce) (depth : Nat) :
    document depth doc.render.toList = reread doc depth := by
  have read := value_render doc once depth (2 * doc.render.toList.length + 2) (by omega) []
    Closes.nil
  rw [List.append_nil] at read
  unfold document
  rw [read]
  cases reread doc depth <;> rfl

end Parser

end Recordkeeper.Json
