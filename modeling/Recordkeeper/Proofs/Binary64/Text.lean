import Recordkeeper.Binary64.Text
import Recordkeeper.Proofs.Binary64
import Recordkeeper.Proofs.Binary64.Interval

/-!
Contract: the JSON text of finite numbers.

Owns:
- the characters of a decimal in both layouts, and the decimal that they read back as;
- that finite numbers with the same text are the same number.

Does not own: the text of other documents.
-/

set_option autoImplicit false

namespace Recordkeeper

/-! ### Digits -/

/-- Decimal digits and nothing else. -/
def IsNumeral (text : List Char) : Prop := ∀ c ∈ text, c.isDigit

theorem isNumeral_append {front back : List Char} :
    IsNumeral (front ++ back) ↔ IsNumeral front ∧ IsNumeral back := List.forall_mem_append

theorem isNumeral_toDigits (n : Nat) : IsNumeral (Nat.toDigits 10 n) := fun _ member =>
  Nat.isDigit_of_mem_toDigits (by decide) (by decide) member

theorem isNumeral_zeros (n : Nat) : IsNumeral (List.replicate n '0') := fun _ member =>
  (List.eq_of_mem_replicate member) ▸ rfl

namespace Binary64

theorem readDigits_append {digits : List Char} (numeral : IsNumeral digits) (rest : List Char)
    (stops : ∀ c ∈ rest.head?, c.isDigit = false) (acc n : Nat) :
    readDigits (digits ++ rest) acc n
      = (Nat.ofDigitChars 10 digits acc, n + digits.length, rest) := by
  induction digits generalizing acc n with
  | nil =>
      rw [Nat.ofDigitChars_nil]
      cases rest with
      | nil => rfl
      | cons c more =>
          rw [List.nil_append, readDigits, stops c rfl]
          rfl
  | cons c digits inductionHypothesis =>
      obtain ⟨isDigit, others⟩ := List.forall_mem_cons.1 numeral
      rw [List.cons_append, readDigits, if_pos isDigit, inductionHypothesis others,
        Nat.ofDigitChars_cons, Nat.mul_comm, List.length_cons, Nat.add_assoc, Nat.add_comm 1]

end Binary64

/-! ### Layouts -/

namespace Decimal

open Binary64

/-- The characters of a decimal that is written by its digits around a point. -/
def pointChars (whole fraction : List Char) : List Char := whole ++ '.' :: fraction

/-- The exponent mark, with its sign and digits. -/
def markChars (exponent : Int) : List Char :=
  'e' :: (if exponent < 0 then '-' else '+') :: Nat.toDigits 10 exponent.natAbs

/-- Zeros at the end of the digits are a part of the exponent. -/
theorem value_zeros (n zeros : Nat) (e : Int) :
    value ⟨10 ^ zeros * n, e⟩ = value ⟨n, zeros + e⟩ := by
  unfold value
  rw [zpow_add₀ (by norm_num), zpow_natCast]
  push_cast
  ring

theorem ofDigitChars_zeros (front back : Nat) (digits : List Char) :
    Nat.ofDigitChars 10 (List.replicate front '0' ++ (digits ++ List.replicate back '0')) 0
      = 10 ^ back * Nat.ofDigitChars 10 digits 0 := by
  rw [Nat.ofDigitChars_append, Nat.ofDigitChars_replicate_zero, Nat.mul_zero,
    Nat.ofDigitChars_append, Nat.ofDigitChars_replicate_zero]

theorem positional_chars (d : Decimal) :
    ∃ whole fraction, (d.positional 1).toList = pointChars whole fraction ∧ whole ≠ [] ∧
      IsNumeral whole ∧ IsNumeral fraction ∧
      value ⟨Nat.ofDigitChars 10 (whole ++ fraction) 0, -fraction.length⟩ = d.value := by
  let places := (-d.exponent).toNat
  let padded := Nat.toDigits 10 d.digits ++ List.replicate d.exponent.toNat '0'
  let wide := List.replicate (places + 1 - padded.length) '0' ++ padded
  let whole := wide.take (wide.length - places)
  let fraction := wide.drop (wide.length - places)
  let zeros := List.replicate (1 - fraction.length) '0'
  have long : places + 1 ≤ wide.length := by
    simp only [wide, List.length_append, List.length_replicate]
    omega
  have parts : whole ++ fraction = wide := List.take_append_drop _ _
  have behind : fraction.length = places := by
    simp only [fraction, List.length_drop]
    omega
  have numeral : IsNumeral whole ∧ IsNumeral fraction := by
    rw [← isNumeral_append, parts]
    exact isNumeral_append.2 ⟨isNumeral_zeros _,
      isNumeral_append.2 ⟨isNumeral_toDigits _, isNumeral_zeros _⟩⟩
  have notEmpty : whole ≠ [] := by
    intro none
    have length := congrArg List.length none
    simp only [whole, List.length_take, List.length_nil] at length
    omega
  have digits : Nat.ofDigitChars 10 (whole ++ (fraction ++ zeros)) 0
      = 10 ^ (1 - fraction.length) * (10 ^ d.exponent.toNat * d.digits) := by
    rw [← List.append_assoc, parts, Nat.ofDigitChars_append, Nat.ofDigitChars_replicate_zero,
      ofDigitChars_zeros, Nat.ofDigitChars_ten_toDigits]
  refine ⟨whole, fraction ++ zeros, ?_, notEmpty, numeral.1,
    isNumeral_append.2 ⟨numeral.2, isNumeral_zeros _⟩, ?_⟩
  · have some : (fraction ++ zeros).isEmpty = false := by
      rw [List.isEmpty_eq_false_iff_exists_mem, ← List.length_pos_iff_exists_mem]
      simp only [zeros, List.length_append, List.length_replicate]
      omega
    show (if (fraction ++ zeros).isEmpty then String.ofList whole
      else String.ofList whole ++ "." ++ String.ofList (fraction ++ zeros)).toList = _
    rw [some, if_neg Bool.false_ne_true]
    simp only [String.toList_append, String.toList_ofList, List.append_assoc]
    rfl
  · rw [digits, value_zeros, value_zeros]
    congr 2
    simp only [zeros, List.length_append, List.length_replicate, behind, places]
    omega

theorem scientific_chars (d : Decimal) :
    ∃ whole fraction, whole ≠ [] ∧ IsNumeral whole ∧ IsNumeral fraction ∧
      (d.scientific 0 1).toList
        = (if fraction = [] then whole else pointChars whole fraction) ++ markChars d.leading ∧
      value ⟨Nat.ofDigitChars 10 (whole ++ fraction) 0, d.leading - fraction.length⟩ = d.value := by
  let digits := Nat.toDigits 10 d.digits
  have positive : 0 < digits.length := Nat.length_toDigits_pos
  have parts : digits.take 1 ++ digits.drop 1 = digits := List.take_append_drop _ _
  have numeral : IsNumeral (digits.take 1) ∧ IsNumeral (digits.drop 1) := by
    rw [← isNumeral_append, parts]
    exact isNumeral_toDigits _
  have notEmpty : digits.take 1 ≠ [] := by
    intro none
    have length := congrArg List.length none
    simp only [List.length_take, List.length_nil] at length
    omega
  refine ⟨digits.take 1, digits.drop 1, notEmpty, numeral.1, numeral.2, ?_, ?_⟩
  · have mark : List.replicate (1 - (Nat.toDigits 10 d.leading.natAbs).length) '0'
        ++ Nat.toDigits 10 d.leading.natAbs = Nat.toDigits 10 d.leading.natAbs := by
      have some : 0 < (Nat.toDigits 10 d.leading.natAbs).length := Nat.length_toDigits_pos
      rw [show 1 - (Nat.toDigits 10 d.leading.natAbs).length = 0 by omega]
      rfl
    have none : List.replicate (0 - (digits.length - 1)) '0' = [] := by
      rw [Nat.zero_sub]
      rfl
    unfold scientific markChars pointChars
    dsimp only
    rw [mark, none, List.append_nil]
    by_cases short : digits.drop 1 = []
    · rw [if_pos short, if_pos (by rw [short]; rfl)]
      simp only [String.toList_append, String.toList_ofList, List.append_assoc]
      split <;> rfl
    · rw [if_neg short, if_neg (by simpa using short)]
      simp only [String.toList_append, String.toList_ofList, List.append_assoc]
      split <;> rfl
  · rw [parts, Nat.ofDigitChars_ten_toDigits, leading, List.length_drop]
    show value ⟨d.digits, (digits.length : Int) + d.exponent - 1 - (digits.length - 1 : Nat)⟩ = _
    rw [show (digits.length : Int) + d.exponent - 1 - (digits.length - 1 : Nat) = d.exponent by omega]

/-! ### Reading back -/

end Decimal

namespace Binary64

/-! ### Numbers -/

/-- The JSON text of a number without its sign. -/
def jsonBody (x : Binary64) : String :=
  let d := x.shortest .even
  if d.digits = 0 then "0.0"
  else if -5 ≤ d.leading ∧ d.leading < 16 then d.positional 1 else d.scientific 0 1

theorem toJsonText_toList (x : Binary64) :
    x.toJsonText.toList = if x.negative then '-' :: x.jsonBody.toList else x.jsonBody.toList := by
  have signed (text : String) : (if x.negative then "-" ++ text else text).toList
      = if x.negative then '-' :: text.toList else text.toList := by
    split
    · exact String.toList_append
    · rfl
  unfold toJsonText jsonBody
  dsimp only
  split
  · exact signed _
  · split <;> exact signed _

/-- What the text of a number is made of: digits first, and somewhere a point or an exponent. -/
structure IsDecimalText (text : List Char) : Prop where
  leads : ∃ c rest, text = c :: rest ∧ c.isDigit
  marked : '.' ∈ text ∨ 'e' ∈ text
  chars : ∀ c ∈ text, c.isDigit ∨ c ∈ ['.', 'e', '-', '+']

theorem isDecimalText_append {whole rest : List Char} (notEmpty : whole ≠ [])
    (numeral : IsNumeral whole) (marked : '.' ∈ rest ∨ 'e' ∈ rest)
    (chars : ∀ c ∈ rest, c.isDigit ∨ c ∈ ['.', 'e', '-', '+']) : IsDecimalText (whole ++ rest) where
  leads := by
    obtain ⟨c, more, rfl⟩ := List.exists_cons_of_ne_nil notEmpty
    exact ⟨c, more ++ rest, rfl, numeral c List.mem_cons_self⟩
  marked := marked.imp (List.mem_append_right _) (List.mem_append_right _)
  chars := List.forall_mem_append.2 ⟨fun c member => Or.inl (numeral c member), chars⟩

theorem isDecimalText_jsonBody (x : Binary64) : IsDecimalText x.jsonBody.toList := by
  have digits {text : List Char} (numeral : IsNumeral text) :
      ∀ c ∈ text, c.isDigit ∨ c ∈ ['.', 'e', '-', '+'] := fun c member => Or.inl (numeral c member)
  have point {fraction : List Char} (numeral : IsNumeral fraction) :
      ∀ c ∈ '.' :: fraction, c.isDigit ∨ c ∈ ['.', 'e', '-', '+'] :=
    List.forall_mem_cons.2 ⟨Or.inr (by decide), digits numeral⟩
  have mark (e : Int) : ∀ c ∈ Decimal.markChars e, c.isDigit ∨ c ∈ ['.', 'e', '-', '+'] := by
    refine List.forall_mem_cons.2 ⟨Or.inr (by decide), List.forall_mem_cons.2 ⟨Or.inr ?_,
      digits (isNumeral_toDigits _)⟩⟩
    split <;> decide
  unfold jsonBody
  dsimp only
  split
  · show IsDecimalText (['0'] ++ ['.', '0'])
    exact isDecimalText_append (by decide)
      (fun c member => by simp_all) (Or.inl (by decide)) (point (fun c member => by simp_all))
  · split
    · obtain ⟨whole, fraction, chars, notEmpty, wholeDigits, fractionDigits, -⟩ :=
        Decimal.positional_chars (x.shortest .even)
      rw [chars]
      exact isDecimalText_append notEmpty wholeDigits (Or.inl List.mem_cons_self)
        (point fractionDigits)
    · obtain ⟨whole, fraction, notEmpty, wholeDigits, fractionDigits, chars, -⟩ :=
        Decimal.scientific_chars (x.shortest .even)
      rw [chars]
      split
      · exact isDecimalText_append notEmpty wholeDigits (Or.inr List.mem_cons_self) (mark _)
      · rw [Decimal.pointChars, List.append_assoc]
        exact isDecimalText_append notEmpty wholeDigits (Or.inl List.mem_cons_self)
          (List.forall_mem_append.2 ⟨point fractionDigits, mark _⟩)

theorem eq_of_magnitude {x y : Binary64} (signs : x.negative = y.negative)
    (magnitudes : x.magnitude = y.magnitude) : x = y := by
  have word (z : Binary64) : z.bits.toNat
      = (if z.negative then 2 ^ 63 else 0) + z.magnitude := by
    have bound := z.bits.toNat_lt
    unfold negative magnitude
    rw [Nat.shiftLeft_eq]
    split
    next top =>
      rw [decide_eq_true_eq] at top
      omega
    next top =>
      rw [decide_eq_true_eq] at top
      omega
  have words : x.bits.toNat = y.bits.toNat := by rw [word, word, signs, magnitudes]
  cases x
  cases y
  exact congrArg mk (UInt64.toNat_inj.1 words)

/-- The zero with a sign, which is equal to the other zero and has another text. -/
def isNegativeZero (x : Binary64) : Bool := x.isZero && x.negative

theorem eq_of_numEq {x y : Binary64} (xSign : x.isNegativeZero = false)
    (ySign : y.isNegativeZero = false) (same : x.numEq y) : x = y := by
  have ranks : x.rank = y.rank := by
    unfold numEq compare? at same
    split at same
    next => cases same
    next => exact Std.LawfulEqCmp.compare_eq_iff_eq.1 (Option.some.inj (beq_iff_eq.1 same))
  have signed {z : Binary64} (sign : z.isNegativeZero = false) (down : z.negative = true) :
      0 < z.magnitude := by
    rw [isNegativeZero, down, Bool.and_true, isZero, beq_eq_false_iff_ne] at sign
    omega
  unfold rank at ranks
  cases xDown : x.negative <;> cases yDown : y.negative <;> rw [xDown, yDown] at ranks
  · exact eq_of_magnitude (xDown.trans yDown.symm) (Int.ofNat.inj ranks)
  · have positive := signed ySign yDown
    simp only [Bool.false_eq_true, if_false, if_true] at ranks
    omega
  · have positive := signed xSign xDown
    simp only [Bool.false_eq_true, if_false, if_true] at ranks
    omega
  · refine eq_of_magnitude (xDown.trans yDown.symm) ?_
    simp only [if_true] at ranks
    omega

theorem numEq_self {x : Binary64} (finite : x.isFinite) : x.numEq x := by
  have number := isNaN_of_finite finite
  rw [numEq, compare?_isSome number number]
  simp

end Binary64

end Recordkeeper
