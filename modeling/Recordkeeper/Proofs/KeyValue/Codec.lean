import Recordkeeper.KeyValue.Codec
import Recordkeeper.Proofs.Json.Values
import Recordkeeper.Proofs.Text.Utf8

/-!
Contract: the bytes of records are read back.

Owns:
- readers of the binary form that give a value for bytes, whatever follows them;
- numbers, texts and values, the latter by induction on the value;
- `readRecord_recordBytes`, and what the bytes of both codecs are read as.

Does not own: JSON text.

Lengths are numbers of 64 bits, so a text or a list that is longer than any memory would be cut.
-/

set_option autoImplicit false

namespace Recordkeeper

theorem NameMap.ofList_entries {α : Type} (m : NameMap α) : ofList m.entries = m :=
  ext_get? fun name => get?_ofList_nodup m.nodup_names name

namespace KeyValue.Codec

/-- The reader takes the bytes off the front of whatever begins with them, and gives the value. -/
def Reads {α : Type} (reader : Reader α) (bytes : Bytes) (a : α) : Prop :=
  ∀ rest, reader (bytes ++ rest) = some (a, rest)

/-- Lengths up to here are written. -/
def lengthLimit : Nat := 256 ^ 8

/-! ### Numbers and texts -/

theorem readNumber_reads (width : Nat) {n : Nat} (fits : n < 256 ^ width) :
    Reads (readNumber width) (littleEndian width n) n := by
  intro rest
  induction width generalizing n with
  | zero =>
      have zero : n = 0 := by simpa using fits
      rw [zero]
      rfl
  | succ width inductionHypothesis =>
      have small : n / 256 < 256 ^ width := by
        rw [Nat.pow_succ] at fits
        exact Nat.div_lt_of_lt_mul (Nat.mul_comm _ _ ▸ fits)
      have low : (UInt8.ofNat (n % 256)).toNat = n % 256 :=
        Text.Utf8.toNat_ofNat (Nat.mod_lt n (by decide))
      rw [littleEndian, List.cons_append, readNumber, inductionHypothesis small]
      show some ((UInt8.ofNat (n % 256)).toNat + 256 * (n / 256), rest) = _
      rw [low, Nat.mod_add_div]

theorem readLengthPrefixed_reads {bytes : Bytes} (fits : bytes.length < lengthLimit) :
    Reads readLengthPrefixed (lengthPrefixed bytes) bytes := by
  intro rest
  have enough : ¬ (bytes ++ rest).length < bytes.length := by
    rw [List.length_append]
    omega
  rw [lengthPrefixed, length64, List.append_assoc, readLengthPrefixed, readNumber_reads 8 fits]
  show (if (bytes ++ rest).length < bytes.length then none else _) = _
  rw [if_neg enough, List.take_left, List.drop_left]

theorem readText_reads {s : String} (fits : (Text.Utf8.encode s).length < lengthLimit) :
    Reads readText (textBytes s) s := by
  intro rest
  rw [textBytes, readText, readLengthPrefixed_reads fits]
  show (Text.Utf8.decode? (Text.Utf8.encode s) >>= fun s => some (s, rest)) = _
  rw [Text.Utf8.decode?_encode]
  rfl

/-! ### Values -/

mutual

/-- All lengths in a value can be written. -/
def Addressable : Value → Prop
  | .text s => (Text.Utf8.encode s).length < lengthLimit
  | .bytes b => b.length < lengthLimit
  | .list items => items.length < lengthLimit ∧ AllAddressable items
  | _ => True
termination_by structural v => v

def AllAddressable : List Value → Prop
  | [] => True
  | v :: rest => Addressable v ∧ AllAddressable rest
termination_by structural vs => vs

end

theorem length_littleEndian (width n : Nat) : (littleEndian width n).length = width := by
  induction width generalizing n with
  | zero => rfl
  | succ width inductionHypothesis => rw [littleEndian, List.length_cons, inductionHypothesis]

theorem readNumber_tag (type : ValueType) :
    Reads (readNumber 4) (littleEndian 4 (tag type)) (tag type) :=
  readNumber_reads 4 (by cases type <;> decide)

/-- A value takes its tag at least. -/
theorem length_valueBytes (v : Value) : 4 ≤ (valueBytes v).length := by
  cases v <;> rw [valueBytes] <;> simp only [List.length_append, length_littleEndian] <;> omega

mutual

/-- A value is read back with as much fuel as it has bytes. -/
theorem readValue_reads (v : Value) (addressable : Addressable v) (fuel : Nat)
    (enough : (valueBytes v).length ≤ fuel) : Reads (readValue fuel) (valueBytes v) v := by
  have some := length_valueBytes v
  obtain ⟨fuel, rfl⟩ := Nat.exists_eq_succ_of_ne_zero (show fuel ≠ 0 by omega)
  intro rest
  match v with
  | .bool b =>
      rw [valueBytes, List.append_assoc, readValue, readNumber_tag]
      cases b <;> rfl
  | .int n =>
      rw [valueBytes, List.append_assoc, readValue, readNumber_tag]
      dsimp only [tag, Option.bind_eq_bind, Option.bind_some]
      rw [readNumber_reads 8 n.toUInt64.toNat_lt]
      show Option.some (Value.int (UInt64.ofNat n.toUInt64.toNat).toInt64, rest) = _
      rw [UInt64.ofNat_toNat, Int64.toInt64_toUInt64]
  | .float x =>
      rw [valueBytes, List.append_assoc, readValue, readNumber_tag]
      dsimp only [tag, Option.bind_eq_bind, Option.bind_some]
      rw [readNumber_reads 8 x.bits.toNat_lt]
      show Option.some (Value.float ⟨UInt64.ofNat x.bits.toNat⟩, rest) = _
      rw [UInt64.ofNat_toNat]
  | .text s =>
      rw [valueBytes, List.append_assoc, readValue, readNumber_tag]
      dsimp only [tag, Option.bind_eq_bind, Option.bind_some]
      rw [readText_reads addressable]
      rfl
  | .bytes b =>
      rw [valueBytes, List.append_assoc, readValue, readNumber_tag]
      dsimp only [tag, Option.bind_eq_bind, Option.bind_some]
      rw [readLengthPrefixed_reads addressable]
      rfl
  | .list items =>
      rw [valueBytes] at enough
      simp only [List.length_append, length_littleEndian, length64] at enough
      rw [valueBytes, List.append_assoc, List.append_assoc, readValue, readNumber_tag]
      dsimp only [tag, Option.bind_eq_bind, Option.bind_some]
      rw [length64, readNumber_reads 8 addressable.1]
      show ((readItems fuel items.length (itemsBytes items ++ rest)).bind fun read =>
        Option.some (Value.list read.1, read.2)) = _
      rw [readItems_reads items addressable.2 fuel (by omega)]
      rfl
  | .null =>
      rw [valueBytes, readValue, readNumber_tag]
      rfl
termination_by structural v

theorem readItems_reads (items : List Value) (addressable : AllAddressable items) (fuel : Nat)
    (enough : (itemsBytes items).length < fuel) :
    Reads (readItems fuel items.length) (itemsBytes items) items := by
  intro rest
  match items with
  | [] =>
      cases fuel <;> rfl
  | v :: others =>
      obtain ⟨fuel, rfl⟩ := Nat.exists_eq_succ_of_ne_zero (show fuel ≠ 0 by omega)
      have some := length_valueBytes v
      rw [itemsBytes, List.length_append] at enough
      rw [itemsBytes, List.append_assoc, List.length_cons, readItems,
        readValue_reads v addressable.1 fuel (by omega)]
      dsimp only [Option.bind_eq_bind, Option.bind_some]
      rw [readItems_reads others addressable.2 fuel (by omega)]
      rfl
termination_by structural items

end

/-! ### Records -/

/-- All lengths in a record can be written. -/
structure RecordAddressable (r : Record) : Prop where
  size : r.size < lengthLimit
  names : ∀ entry ∈ r.entries, (Text.Utf8.encode entry.1).length < lengthLimit
  values : ∀ entry ∈ r.entries, Addressable entry.2

def fieldBytes (entry : String × Value) : Bytes := textBytes entry.1 ++ valueBytes entry.2

theorem readFields_reads {fuel : Nat} (entries : List (String × Value))
    (names : ∀ entry ∈ entries, (Text.Utf8.encode entry.1).length < lengthLimit)
    (values : ∀ entry ∈ entries, Addressable entry.2) (left : Nat)
    (enough : (entries.flatMap fieldBytes).length ≤ fuel) (few : entries.length ≤ left) :
    Reads (readFields fuel left entries.length) (entries.flatMap fieldBytes) entries := by
  intro rest
  induction entries generalizing left with
  | nil => cases left <;> rfl
  | cons entry others inductionHypothesis =>
      obtain ⟨nameFits, othersNames⟩ := List.forall_mem_cons.1 names
      obtain ⟨valueFits, othersValues⟩ := List.forall_mem_cons.1 values
      obtain ⟨left, rfl⟩ := Nat.exists_eq_succ_of_ne_zero (Nat.ne_of_gt (Nat.lt_of_lt_of_le
        (Nat.succ_pos _) few))
      rw [List.flatMap_cons, fieldBytes, List.length_append, List.length_append] at enough
      rw [List.flatMap_cons, fieldBytes, List.append_assoc, List.append_assoc, List.length_cons,
        readFields, readText_reads nameFits]
      dsimp only [Option.bind_eq_bind, Option.bind_some]
      rw [readValue_reads entry.2 valueFits fuel (by omega), Option.bind_some,
        inductionHypothesis othersNames othersValues left (by omega) (Nat.le_of_succ_le_succ few)]
      rfl

theorem length_le_flatMap (entries : List (String × Value)) :
    entries.length ≤ (entries.flatMap fieldBytes).length := by
  induction entries with
  | nil => exact Nat.le_refl 0
  | cons entry others inductionHypothesis =>
      have some := length_valueBytes entry.2
      rw [List.flatMap_cons, fieldBytes, List.length_append, List.length_append, List.length_cons]
      omega

/-- The bytes of a record are read as the record. -/
theorem readRecord_recordBytes {r : Record} (addressable : RecordAddressable r) :
    readRecord (recordBytes r) = some r := by
  have bytes : recordBytes r = length64 r.entries.length ++ r.entries.flatMap fieldBytes := rfl
  have few := length_le_flatMap r.entries
  have within : (r.entries.flatMap fieldBytes).length ≤ (recordBytes r).length + 1 := by
    rw [bytes, List.length_append]
    omega
  have fields := readFields_reads r.entries addressable.names addressable.values _ within
    (Nat.le_trans few within) []
  rw [List.append_nil] at fields
  unfold readRecord
  rw [show readNumber 8 (recordBytes r) = some (r.entries.length, r.entries.flatMap fieldBytes) from
    readNumber_reads 8 addressable.size _]
  show (readFields _ _ r.entries.length (r.entries.flatMap fieldBytes) >>= fun read =>
    some (NameMap.ofList read.1)) = _
  rw [fields]
  exact congrArg some (NameMap.ofList_entries r)

/-! ### Both forms -/

theorem decode_json_encode (r : Record) : decode .json (encode .json r)
    = match Json.Parser.reread r.toJson Json.Parser.depthLimit with
      | .ok doc => .ok (Record.ofJson doc)
      | .error _ => .error .json := by
  have parsed : parseJson? (encode .json r)
      = (Json.Parser.reread r.toJson Json.Parser.depthLimit).toOption := by
    show (Text.Utf8.decode? (Text.Utf8.encode r.toJson.render) >>= fun text =>
      match Json.parse text with
      | .ok doc => some doc
      | .error _ => none) = _
    rw [Text.Utf8.decode?_encode]
    show (match Json.parse r.toJson.render with
      | .ok doc => some doc
      | .error _ => none) = _
    rw [Json.parse, Json.Parser.document_render _ r.fieldsOnce_toJson]
    cases Json.Parser.reread r.toJson Json.Parser.depthLimit <;> rfl
  rw [decode, parsed]
  cases Json.Parser.reread r.toJson Json.Parser.depthLimit <;> rfl

theorem decode_binary_encode {r : Record} (addressable : RecordAddressable r) :
    decode .binary (encode .binary r) = .ok r := by
  rw [decode, encode, readRecord_recordBytes addressable]

/-- What a value inside a record is read as, by the codec.  JSON text may be nested one level less
inside of a record. -/
def IsReadAs (codec : RecordCodec) (v w : Value) : Prop :=
  match codec with
  | .json => (Json.Parser.reread v.toJson 126).map Value.ofJson = .ok w
  | .binary => w = v

/-- A record is read with the names it has and with what its values are read as. -/
theorem decode_encode_fields {codec : RecordCodec} {r read : Record}
    (addressable : codec = .binary → RecordAddressable r)
    (decoded : decode codec (encode codec r) = .ok read) :
    (∀ name, name ∈ read.names ↔ name ∈ r.names) ∧
      ∀ name v, r.get? name = some v → ∃ w, IsReadAs codec v w ∧ read.get? name = some w := by
  cases codec with
  | json =>
      rw [decode_json_encode] at decoded
      cases parsed : Json.Parser.reread r.toJson Json.Parser.depthLimit with
      | error failure =>
          rw [parsed] at decoded
          cases decoded
      | ok doc =>
          rw [parsed] at decoded
          cases decoded
          exact Record.ofJson_reread 126 parsed
  | binary =>
      rw [decode_binary_encode (addressable rfl)] at decoded
      cases decoded
      exact ⟨fun _ => Iff.rfl, fun name v held => ⟨v, rfl, held⟩⟩

/-- The bytes of a record are read as the record, as long as JSON gives back its values. -/
theorem decode_encode {codec : RecordCodec} {r : Record}
    (addressable : codec = .binary → RecordAddressable r)
    (carried : ∀ name v, r.get? name = some v → v.isCarried)
    (readBack : codec = .json → ∀ name v, r.get? name = some v → v.ReadsBack 126) :
    decode codec (encode codec r) = .ok r := by
  cases codec with
  | json =>
      have read := (Record.reread_toJson_iff 126 carried).2 (readBack rfl)
      rw [decode_json_encode, Json.Parser.depthLimit]
      cases parsed : Json.Parser.reread r.toJson 127 with
      | error failure =>
          rw [parsed] at read
          cases read
      | ok doc =>
          rw [parsed] at read
          exact congrArg Except.ok (Except.ok.inj read)
  | binary => exact decode_binary_encode (addressable rfl)

end KeyValue.Codec

end Recordkeeper
