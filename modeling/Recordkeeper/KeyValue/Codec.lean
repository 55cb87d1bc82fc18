import Recordkeeper.Config
import Recordkeeper.Json.Parser
import Recordkeeper.Record

/-!
Contract: records as bytes.

Owns:
- the JSON form, in which byte values become base 64 text;
- the binary form: little-endian numbers, lengths of 64 bits, and a tag of 32 bits in front of
  every value.

Does not own: names of columns.

Whatever follows a record in binary form is ignored.
-/

set_option autoImplicit false

namespace Recordkeeper.KeyValue.Codec

inductive Fault where
  | json
  | binary
  deriving DecidableEq, Repr

/-! ### Binary form: writing -/

def littleEndian : Nat → Nat → Bytes
  | 0, _ => []
  | width + 1, n => UInt8.ofNat (n % 256) :: littleEndian width (n / 256)

def length64 (n : Nat) : Bytes := littleEndian 8 n

def lengthPrefixed (b : Bytes) : Bytes := length64 b.length ++ b

def textBytes (s : String) : Bytes := lengthPrefixed (Text.Utf8.encode s)

def tag : ValueType → Nat
  | .bool => 0
  | .int => 1
  | .float => 2
  | .string => 3
  | .bytes => 4
  | .list => 5
  | .null => 6

mutual

def valueBytes : Value → Bytes
  | .bool b => littleEndian 4 (tag .bool) ++ [if b then 1 else 0]
  | .int n => littleEndian 4 (tag .int) ++ littleEndian 8 n.toUInt64.toNat
  | .float x => littleEndian 4 (tag .float) ++ littleEndian 8 x.bits.toNat
  | .text s => littleEndian 4 (tag .string) ++ textBytes s
  | .bytes b => littleEndian 4 (tag .bytes) ++ lengthPrefixed b
  | .list items => littleEndian 4 (tag .list) ++ length64 items.length ++ itemsBytes items
  | .null => littleEndian 4 (tag .null)
termination_by structural v => v

def itemsBytes : List Value → Bytes
  | [] => []
  | v :: rest => valueBytes v ++ itemsBytes rest
termination_by structural vs => vs

end

def recordBytes (r : Record) : Bytes :=
  length64 r.size ++ r.entries.flatMap fun f => textBytes f.1 ++ valueBytes f.2

/-! ### Binary form: reading -/

abbrev Reader (α : Type) := Bytes → Option (α × Bytes)

def readNumber : Nat → Reader Nat
  | 0, b => some (0, b)
  | _ + 1, [] => none
  | width + 1, x :: rest => do
    let (n, rest) ← readNumber width rest
    return (x.toNat + 256 * n, rest)

def readBytes (n : Nat) : Reader Bytes := fun b =>
  if b.length < n then none else some (b.take n, b.drop n)

def readLengthPrefixed : Reader Bytes := fun b => do
  let (n, rest) ← readNumber 8 b
  readBytes n rest

def readText : Reader String := fun b => do
  let (content, rest) ← readLengthPrefixed b
  let s ← Text.Utf8.decode? content
  return (s, rest)

mutual

/-- A value.  Every value takes at least one byte, so the number of bytes is fuel enough. -/
def readValue : Nat → Reader Value
  | 0, _ => none
  | fuel + 1, b => do
    let (kind, rest) ← readNumber 4 b
    match kind with
    | 0 =>
      match rest with
      | 0 :: rest => return (.bool false, rest)
      | 1 :: rest => return (.bool true, rest)
      | _ => none
    | 1 => do
      let (n, rest) ← readNumber 8 rest
      return (.int (UInt64.ofNat n).toInt64, rest)
    | 2 => do
      let (n, rest) ← readNumber 8 rest
      return (.float ⟨UInt64.ofNat n⟩, rest)
    | 3 => do
      let (s, rest) ← readText rest
      return (.text s, rest)
    | 4 => do
      let (content, rest) ← readLengthPrefixed rest
      return (.bytes content, rest)
    | 5 => do
      let (n, rest) ← readNumber 8 rest
      let (items, rest) ← readItems fuel n rest
      return (.list items, rest)
    | 6 => return (.null, rest)
    | _ => none

def readItems : Nat → Nat → Reader (List Value)
  | _, 0, b => some ([], b)
  | 0, _ + 1, _ => none
  | fuel + 1, n + 1, b => do
    let (v, rest) ← readValue fuel b
    let (vs, rest) ← readItems fuel n rest
    return (v :: vs, rest)

end

def readFields (fuel : Nat) : Nat → Nat → Reader (List (String × Value))
  | _, 0, b => some ([], b)
  | 0, _ + 1, _ => none
  | left + 1, n + 1, b => do
    let (name, rest) ← readText b
    let (v, rest) ← readValue fuel rest
    let (fields, rest) ← readFields fuel left n rest
    return ((name, v) :: fields, rest)

def readRecord (b : Bytes) : Option Record := do
  let (n, rest) ← readNumber 8 b
  let (fields, _) ← readFields (b.length + 1) (b.length + 1) n rest
  return .ofList fields

/-! ### Both forms -/

def encode (codec : RecordCodec) (r : Record) : Bytes :=
  match codec with
  | .json => Text.Utf8.encode r.toJson.render
  | .binary => recordBytes r

def parseJson? (b : Bytes) : Option Json := do
  let text ← Text.Utf8.decode? b
  match Json.parse text with
  | .ok doc => some doc
  | .error _ => none

/-- The record of bytes; a JSON document that is no object is the empty record. -/
def decode (codec : RecordCodec) (b : Bytes) : Except Fault Record :=
  match codec with
  | .json =>
    match parseJson? b with
    | some doc => .ok (Record.ofJson doc)
    | none => .error .json
  | .binary =>
    match readRecord b with
    | some r => .ok r
    | none => .error .binary

end Recordkeeper.KeyValue.Codec
