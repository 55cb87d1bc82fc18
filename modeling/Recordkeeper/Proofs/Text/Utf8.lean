import Mathlib.Tactic.SplitIfs
import Recordkeeper.Text.Utf8

/-!
Contract: text that was encoded is decoded again.

Owns:
- the bytes of a text, character by character, and how many they are;
- that the bytes of one character are one unit, whatever follows;
- `decode?_encode`.

Does not own: bytes that are no text.
-/

set_option autoImplicit false

namespace Recordkeeper.Text.Utf8

/-! ### Bytes of a text -/

theorem toList_loop (b : ByteArray) (i : Nat) (front : List UInt8) :
    ByteArray.toList.loop b i front = front.reverse ++ b.data.toList.drop i := by
  fun_induction ByteArray.toList.loop b i front with
  | case1 i front inside inductionHypothesis =>
      have within : i < b.data.toList.length := by simpa using inside
      have own : b.get! i = b.data.toList[i] := by
        cases b
        exact getElem!_pos _ i inside
      rw [inductionHypothesis, List.drop_eq_getElem_cons within, own, List.reverse_cons,
        List.append_assoc, List.singleton_append]
  | case2 i front outside =>
      have none : b.data.toList.drop i = [] :=
        List.drop_eq_nil_of_le (by simpa using Nat.le_of_not_lt outside)
      rw [none, List.append_nil]

theorem encode_eq (text : String) : encode text = text.toList.flatMap String.utf8EncodeChar := by
  have bytes : text.toUTF8 = (text.toList.flatMap String.utf8EncodeChar).toByteArray := by
    conv => lhs; rw [← String.ofList_toList (s := text)]
    exact String.toUTF8_eq_toByteArray
  rw [encode, bytes, ByteArray.toList, toList_loop, List.data_toByteArray]
  rfl

/-- A character takes four bytes at most. -/
theorem length_encode_le (text : String) : (encode text).length ≤ 4 * text.toList.length := by
  rw [encode_eq]
  induction text.toList with
  | nil => exact Nat.zero_le _
  | cons c rest inductionHypothesis =>
      have few := Char.utf8Size_le_four c
      rw [List.flatMap_cons, List.length_append, String.length_utf8EncodeChar, List.length_cons]
      omega

/-! ### Units -/

theorem toNat_ofNat {n : Nat} (small : n < 256) : (UInt8.ofNat n).toNat = n :=
  (UInt8.toNat_ofNat' (n := n)).trans (Nat.mod_eq_of_lt small)

/-- A byte that goes on with a character, given the six bits it carries. -/
theorem inRange_continuation {n : Nat} (bits : n < 64) {low high : Nat} (above : low ≤ n + 128)
    (below : n + 128 ≤ high) : inRange (UInt8.ofNat (n + 128)) low high = true := by
  rw [inRange, toNat_ofNat (by omega), Bool.and_eq_true, decide_eq_true_eq, decide_eq_true_eq]
  exact ⟨above, below⟩

theorem low6_continuation {n : Nat} (bits : n < 64) : low6 (UInt8.ofNat (n + 128)) = n := by
  rw [low6, toNat_ofNat (by omega)]
  omega

/-- The second byte of a character is in the range that its lead byte allows: no character is
written longer than it has to be, and none is a surrogate. -/
theorem inRange_second {v lead second : Nat} (bits : second < 64)
    (three : lead = v / 4096 % 16 + 224 ∧ second = v / 64 % 64 ∧ 0x7FF < v ∧ v ≤ 0xFFFF ∧
        (v < 0xD800 ∨ 0xDFFF < v) ∨
      lead = v / 262144 % 8 + 240 ∧ second = v / 4096 % 64 ∧ 0xFFFF < v ∧ v < 0x110000) :
    inRange (UInt8.ofNat (second + 128)) (secondRange lead).1 (secondRange lead).2 = true := by
  unfold secondRange
  split_ifs with e0 ed f0 f4 <;> exact inRange_continuation bits (by omega) (by omega)

theorem next_encodeChar (c : Char) (rest : Bytes) :
    ∃ b more, String.utf8EncodeChar c = b :: more ∧ next b (more ++ rest) = ⟨some c, rest⟩ := by
  have valid : c.toNat < 0xD800 ∨ (0xDFFF < c.toNat ∧ c.toNat < 0x110000) := c.valid
  have named {n : Nat} (own : n = c.toNat) : Char.ofNat n = c := own ▸ Char.ofNat_toNat c
  unfold String.utf8EncodeChar
  rw [show c.val.toNat = c.toNat from rfl]
  generalize size : c.toNat = v at valid named ⊢
  have bits (n : Nat) : n % 64 < 64 := Nat.mod_lt n (by decide)
  have goesOn (n : Nat) : inRange (UInt8.ofNat (n % 64 + 128)) 0x80 0xBF = true := by
    have small := bits n
    exact inRange_continuation small (by omega) (by omega)
  have carried (n : Nat) : low6 (UInt8.ofNat (n % 64 + 128)) = n % 64 := low6_continuation (bits n)
  dsimp only
  split_ifs with one two three
  · refine ⟨_, _, rfl, ?_⟩
    unfold next
    rw [toNat_ofNat (by omega), if_pos (by omega), named rfl]
    rfl
  · refine ⟨_, _, rfl, ?_⟩
    unfold next
    rw [toNat_ofNat (by omega), if_neg (by omega), if_neg (by omega), if_pos (by omega)]
    dsimp only [List.cons_append, List.nil_append]
    rw [if_pos (goesOn v), carried, named (by omega)]
  · refine ⟨_, _, rfl, ?_⟩
    have second := inRange_second (bits (v / 64))
      (.inl ⟨rfl, rfl, Nat.lt_of_not_le two, three, by omega⟩)
    unfold next
    rw [toNat_ofNat (by omega), if_neg (by omega), if_neg (by omega), if_neg (by omega)]
    dsimp only [List.cons_append, List.nil_append]
    simp only [second, goesOn, carried, Bool.not_true, Bool.false_eq_true, if_false]
    rw [if_pos (by omega), named (by omega)]
  · refine ⟨_, _, rfl, ?_⟩
    have second := inRange_second (bits (v / 4096))
      (.inr ⟨rfl, rfl, Nat.lt_of_not_le three, by omega⟩)
    unfold next
    rw [toNat_ofNat (by omega), if_neg (by omega), if_neg (by omega), if_neg (by omega)]
    dsimp only [List.cons_append, List.nil_append]
    simp only [second, goesOn, carried, Bool.not_true, Bool.false_eq_true, if_false]
    rw [if_neg (by omega), named (by omega)]

theorem units_encode (chars : List Char) :
    ∀ fuel, (chars.flatMap String.utf8EncodeChar).length ≤ fuel →
      units fuel (chars.flatMap String.utf8EncodeChar) = chars.map some := by
  induction chars with
  | nil =>
      intro fuel _
      cases fuel <;> rfl
  | cons c rest inductionHypothesis =>
      intro fuel enough
      obtain ⟨b, more, bytes, unit⟩ := next_encodeChar c (rest.flatMap String.utf8EncodeChar)
      rw [List.flatMap_cons, bytes, List.cons_append] at enough ⊢
      rw [List.length_cons, List.length_append] at enough
      obtain ⟨left, rfl⟩ := Nat.exists_eq_succ_of_ne_zero (Nat.ne_of_gt (Nat.lt_of_lt_of_le
        (Nat.succ_pos _) enough))
      show (next b _).char? :: units left (next b _).rest = _
      rw [unit, inductionHypothesis left (by omega)]
      rfl

theorem decode?_encode (text : String) : decode? (encode text) = some text := by
  have whole : (text.toList.map some).mapM id = some text.toList := by
    rw [List.mapM_map]
    exact List.mapM_pure.trans (congrArg some (List.map_id _))
  rw [decode?, encode_eq, units_encode _ _ (Nat.le_refl _), whole]
  exact congrArg some String.ofList_toList

end Recordkeeper.Text.Utf8
