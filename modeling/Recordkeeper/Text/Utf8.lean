/-!
Contract: UTF-8 bytes and text.

Owns:
- the bytes of a text;
- the longest valid or ill-formed unit at the front of a byte sequence;
- strict decoding, and decoding that puts U+FFFD for every ill-formed unit.

Does not own: byte text forms such as hexadecimal and base64.
-/

set_option autoImplicit false

namespace Recordkeeper

abbrev Bytes := List UInt8

namespace Text.Utf8

def encode (text : String) : Bytes := text.toUTF8.toList

/-- One unit taken from the front of a byte sequence: a character, or nothing for an ill-formed
unit, with the bytes after it. -/
structure Piece where
  char? : Option Char
  rest : Bytes

def inRange (b : UInt8) (low high : Nat) : Bool :=
  low ≤ b.toNat && b.toNat ≤ high

/-- The bytes that may follow a lead byte of a sequence of three or four. -/
def secondRange (lead : Nat) : Nat × Nat :=
  if lead = 0xE0 then (0xA0, 0xBF)
  else if lead = 0xED then (0x80, 0x9F)
  else if lead = 0xF0 then (0x90, 0xBF)
  else if lead = 0xF4 then (0x80, 0x8F)
  else (0x80, 0xBF)

def low6 (b : UInt8) : Nat := b.toNat % 64

/-- Splits one unit off a sequence, given as its first byte and the rest.  An ill-formed unit
is the longest prefix that could still have been completed, and at least one byte. -/
def next (b₀ : UInt8) (rest : Bytes) : Piece :=
  let lead := b₀.toNat
  if lead < 0x80 then ⟨some (Char.ofNat lead), rest⟩
  else if lead < 0xC2 ∨ 0xF4 < lead then ⟨none, rest⟩
  else if lead < 0xE0 then
    match rest with
    | b₁ :: r₁ =>
      if inRange b₁ 0x80 0xBF then ⟨some (Char.ofNat ((lead - 0xC0) * 64 + low6 b₁)), r₁⟩
      else ⟨none, rest⟩
    | [] => ⟨none, []⟩
  else
    let (low, high) := secondRange lead
    match rest with
    | [] => ⟨none, []⟩
    | b₁ :: r₁ =>
      if !inRange b₁ low high then ⟨none, rest⟩
      else
        match r₁ with
        | [] => ⟨none, []⟩
        | b₂ :: r₂ =>
          if !inRange b₂ 0x80 0xBF then ⟨none, r₁⟩
          else if lead < 0xF0 then
            ⟨some (Char.ofNat ((lead - 0xE0) * 4096 + low6 b₁ * 64 + low6 b₂)), r₂⟩
          else
            match r₂ with
            | [] => ⟨none, []⟩
            | b₃ :: r₃ =>
              if !inRange b₃ 0x80 0xBF then ⟨none, r₂⟩
              else
                ⟨some (Char.ofNat
                  ((lead - 0xF0) * 262144 + low6 b₁ * 4096 + low6 b₂ * 64 + low6 b₃)), r₃⟩

/-- The units of a byte sequence; every unit takes at least one byte, so the length of the
sequence bounds their number. -/
def units : Nat → Bytes → List (Option Char)
  | 0, _ => []
  | _ + 1, [] => []
  | fuel + 1, b :: rest =>
    let unit := next b rest
    unit.char? :: units fuel unit.rest

/-- The text of a byte sequence, with U+FFFD for every ill-formed unit. -/
def decodeLossy (bytes : Bytes) : String :=
  String.ofList ((units bytes.length bytes).map (·.getD (Char.ofNat 0xFFFD)))

def decode? (bytes : Bytes) : Option String :=
  ((units bytes.length bytes).mapM id).map String.ofList

end Text.Utf8

end Recordkeeper
