import Recordkeeper.Json.Parser
import Recordkeeper.Json.Printer
import Recordkeeper.Proofs.Binary64.Text

/-!
Contract: JSON texts of objects of scalars.

Owns:
- that an escaped string reads back;
- that scalars with the same text are the same, also with more text behind them;
- the same of the values of two objects with the same names.

Does not own: reading whole documents back.

A number with a fraction does not always read back, since the parser rounds more than once.  So the
text of a number is shown to be its own by what it says, and not by the parser.
-/

set_option autoImplicit false

namespace Recordkeeper

/-! ### Strings -/

theorem Text.hexValue?_hexDigit {n : Nat} (small : n < 16) : hexValue? (hexDigit n) = some n := by
  revert n
  decide

namespace Json

/-- The escape of a control character is read by its code. -/
theorem Parser.codePoint?_control {c : Char} (control : c.toNat < 32) (rest : List Char) :
    codePoint? ('0' :: '0' :: Text.hexDigit (c.toNat / 16) :: Text.hexDigit (c.toNat % 16) :: rest)
      = some (c, rest) := by
  have zero : Text.hexValue? '0' = some 0 := by decide
  have high := Text.hexValue?_hexDigit (n := c.toNat / 16) (by omega)
  have low := Text.hexValue?_hexDigit (n := c.toNat % 16) (by omega)
  have read : hex4? ('0' :: '0' :: Text.hexDigit (c.toNat / 16)
      :: Text.hexDigit (c.toNat % 16) :: rest) = some (c.toNat, rest) := by
    show (Text.hexValue? '0' >>= fun a => Text.hexValue? '0' >>= fun b =>
      Text.hexValue? (Text.hexDigit (c.toNat / 16)) >>= fun g =>
      Text.hexValue? (Text.hexDigit (c.toNat % 16)) >>= fun h =>
      some (((a * 16 + b) * 16 + g) * 16 + h, rest)) = _
    rw [zero, high, low]
    show some (((0 * 16 + 0) * 16 + c.toNat / 16) * 16 + c.toNat % 16, rest) = _
    congr 2
    omega
  unfold codePoint?
  rw [read]
  show (if 0xDC00 ≤ c.toNat ∧ c.toNat ≤ 0xDFFF then none
    else if 0xD800 ≤ c.toNat ∧ c.toNat ≤ 0xDBFF then _ else some (Char.ofNat c.toNat, rest)) = _
  rw [if_neg (by omega), if_neg (by omega), Char.ofNat_toNat]

/-- An escaped character is one step of the parser. -/
theorem Parser.string_escapeChar (c : Char) (fuel : Nat) (rest acc : List Char) :
    string (fuel + 1) (escapeChar c ++ rest) acc = string fuel rest (c :: acc) := by
  have named {n : Nat} (own : c.toNat = n) : Char.ofNat n = c := own ▸ Char.ofNat_toNat c
  unfold escapeChar
  split_ifs with quote backslash backspace tab lineFeed formFeed carriageReturn control
  · rw [quote]
    rfl
  · rw [backslash]
    rfl
  · rw [← named backspace]
    rfl
  · rw [← named tab]
    rfl
  · rw [← named lineFeed]
    rfl
  · rw [← named formFeed]
    rfl
  · rw [← named carriageReturn]
    rfl
  · have read := codePoint?_control control rest
    simp [string, read]
  · rw [List.singleton_append]
    conv_lhs => unfold string
    rw [if_neg quote, if_neg backslash, if_neg control]

theorem Parser.string_escaped (chars rest acc : List Char) (fuel : Nat)
    (enough : chars.length < fuel) :
    string fuel (chars.flatMap escapeChar ++ '"' :: rest) acc
      = .ok (String.ofList (acc.reverse ++ chars), rest) := by
  induction chars generalizing fuel acc with
  | nil =>
      obtain ⟨more, rfl⟩ := Nat.exists_eq_succ_of_ne_zero (Nat.ne_of_gt enough)
      rw [List.append_nil]
      rfl
  | cons c others inductionHypothesis =>
      obtain ⟨more, rfl⟩ := Nat.exists_eq_succ_of_ne_zero (Nat.ne_of_gt (Nat.zero_lt_of_lt enough))
      rw [List.flatMap_cons, List.append_assoc, string_escapeChar, inductionHypothesis _ _
        (Nat.lt_of_succ_lt_succ enough), List.reverse_cons, List.append_assoc,
        List.singleton_append]

theorem renderText_toList (s : String) :
    (renderText s).toList = '"' :: (s.toList.flatMap escapeChar ++ ['"']) := by
  unfold renderText
  simp only [String.toList_append, String.toList_ofList, List.append_assoc]
  rfl

/-- A document without parts, of which every number is finite. -/
def isScalar : Json → Bool
  | .null | .bool _ | .text _ | .number (.int _) => true
  | .number (.float x) => x.isFinite
  | .array _ | .object _ => false

/-- What no text of a scalar holds outside of a string. -/
def IsBare (text : List Char) : Prop := ',' ∉ text ∧ '"' ∉ text

/-- Where a value ends: at the end of the values or before the next one. -/
def Ends (rest : List Char) : Prop := rest = [] ∨ rest.head? = some ','

theorem toString_int_toList (n : Int) : (toString n).toList
    = if n < 0 then '-' :: Nat.toDigits 10 n.natAbs else Nat.toDigits 10 n.natAbs := by
  cases n with
  | ofNat m =>
      have natural : ¬ Int.ofNat m < 0 := Int.not_lt.2 (Int.natCast_nonneg m)
      rw [if_neg natural]
      exact Nat.toList_repr
  | negSucc m =>
      rw [if_pos (Int.negSucc_lt_zero m)]
      show ("-" ++ Nat.repr (m + 1)).toList = _
      rw [String.toList_append, Nat.toList_repr]
      rfl

theorem toString_int_chars (n : Int) : ∃ c rest, (toString n).toList = c :: rest ∧
    (c.isDigit ∨ c = '-') ∧ IsNumeral rest := by
  have numeral := isNumeral_toDigits n.natAbs
  rw [toString_int_toList]
  split
  · exact ⟨'-', _, rfl, Or.inr rfl, numeral⟩
  · obtain ⟨c, rest, digits⟩ :=
      List.exists_cons_of_ne_nil (Nat.toDigits_ne_nil (n := n.natAbs) (b := 10))
    rw [digits] at numeral ⊢
    exact ⟨c, rest, rfl, Or.inl (numeral c List.mem_cons_self),
      fun d member => numeral d (List.mem_cons_of_mem _ member)⟩

/-- The characters of a number: its digits, perhaps behind a minus sign. -/
structure IsNumberText (text : List Char) : Prop where
  chars : ∀ c ∈ text, c.isDigit ∨ c ∈ ['.', 'e', '-', '+']
  leads : ∃ c rest, text = c :: rest ∧ (c.isDigit ∨ c = '-')

theorem isNumberText_renderNumber {n : Number} (finite : (Json.number n).isScalar) :
    IsNumberText (renderNumber n).toList := by
  cases n with
  | int n =>
      obtain ⟨c, rest, digits, first, numeral⟩ := toString_int_chars n
      show IsNumberText (toString n).toList
      rw [digits]
      refine ⟨List.forall_mem_cons.2 ⟨first.imp_right ?_, fun d member => Or.inl (numeral d member)⟩,
        c, rest, rfl, first⟩
      rintro rfl
      decide
  | float x =>
      have body := x.isDecimalText_jsonBody
      have shown : renderNumber (.float x) = x.toJsonText := if_pos finite
      rw [shown, Binary64.toJsonText_toList]
      split
      · exact ⟨List.forall_mem_cons.2 ⟨Or.inr (by decide), body.chars⟩, '-', _, rfl, Or.inr rfl⟩
      · obtain ⟨c, rest, own, digit⟩ := body.leads
        exact ⟨body.chars, c, rest, own, Or.inl digit⟩

/-- The text of the fields after the first one. -/
def moreFields (rest : Fields) : List Char :=
  if rest.isEmpty then [] else ',' :: (renderFields rest).toList

theorem renderFields_cons (name : String) (v : Json) (rest : Fields) :
    (renderFields ((name, v) :: rest)).toList
      = (renderText name).toList ++ ':' :: (v.render.toList ++ moreFields rest) := by
  cases rest with
  | nil =>
      rw [renderFields]
      simp only [String.toList_append, List.append_assoc]
      show _ = (renderText name).toList ++ ':' :: (v.render.toList ++ [])
      rw [List.append_nil]
      rfl
  | cons f rest =>
      rw [renderFields]
      simp only [String.toList_append, List.append_assoc]
      rfl

end Json

end Recordkeeper
