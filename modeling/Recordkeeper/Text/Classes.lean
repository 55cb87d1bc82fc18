/-!
Contract: classes of characters, as tables of code point ranges.

Owns:
- white space, decimal digits, word characters and letters;
- characters that quoted text shows by their code point.

Does not own: any syntax that uses the classes.
-/

set_option autoImplicit false

namespace Recordkeeper.Text

/-- A list of closed ranges of code points. -/
abbrev Ranges := List (Nat × Nat)

def Ranges.contains (ranges : Ranges) (n : Nat) : Bool :=
  ranges.any fun r => r.1 ≤ n && n ≤ r.2

/-- The property White_Space. -/
def blankRanges : Ranges :=
  [(0x09, 0x0D), (0x20, 0x20), (0x85, 0x85), (0xA0, 0xA0), (0x1680, 0x1680), (0x2000, 0x200A),
   (0x2028, 0x2029), (0x202F, 0x202F), (0x205F, 0x205F), (0x3000, 0x3000)]

def isBlank (c : Char) : Bool := blankRanges.contains c.toNat

/-- Text with neither leading nor trailing white space. -/
def trim (text : List Char) : List Char :=
  ((text.dropWhile isBlank).reverse.dropWhile isBlank).reverse

def digitZeros : List Nat :=
  [0x30, 0x660, 0x6F0, 0x7C0, 0x966, 0x9E6, 0xA66, 0xAE6, 0xB66, 0xBE6, 0xC66, 0xCE6, 0xD66,
   0xDE6, 0xE50, 0xED0, 0xF20, 0x1040, 0x1090, 0x17E0, 0x1810, 0x1946, 0x19D0, 0x1A80, 0x1A90,
   0x1B50, 0x1BB0, 0x1C40, 0x1C50, 0xA620, 0xA8D0, 0xA900, 0xA9D0, 0xA9F0, 0xAA50, 0xABF0,
   0xFF10, 0x104A0, 0x10D30, 0x11066, 0x110F0, 0x11136, 0x111D0, 0x112F0, 0x11450, 0x114D0,
   0x11650, 0x116C0, 0x11730, 0x118E0, 0x11950, 0x11C50, 0x11D50, 0x11DA0, 0x11F50, 0x16A60,
   0x16AC0, 0x16B50, 0x1D7CE, 0x1D7D8, 0x1D7E2, 0x1D7EC, 0x1D7F6, 0x1E140, 0x1E2F0, 0x1E4F0,
   0x1E950, 0x1FBF0]

/-- Decimal digits of every script, general category Nd. -/
def digitRanges : Ranges := digitZeros.map fun n => (n, n + 9)

def isDecimalDigit (c : Char) : Bool := digitRanges.contains c.toNat

/-- Blocks beyond ASCII that hold no letters: Latin-1 signs, punctuation, symbols, surrogates
and private use, pictographs. -/
def signRanges : Ranges :=
  [(0x80, 0xA9), (0xAB, 0xB4), (0xB6, 0xB9), (0xBB, 0xBF), (0xD7, 0xD7), (0xF7, 0xF7),
   (0x2C2, 0x2C5), (0x2D2, 0x2DF), (0x37E, 0x37E), (0x387, 0x387), (0x482, 0x482),
   (0x55A, 0x55F), (0x589, 0x58F), (0x5BE, 0x5BE), (0x5F3, 0x5F4), (0x600, 0x60F),
   (0x61B, 0x61F), (0x66A, 0x66D), (0x6D4, 0x6D4), (0x964, 0x965), (0xE3F, 0xE3F),
   (0x2000, 0x200B), (0x200E, 0x203E), (0x2041, 0x2053), (0x2055, 0x2070), (0x2072, 0x207E),
   (0x2080, 0x208F), (0x20A0, 0x20CF), (0x2100, 0x2101), (0x2103, 0x2106), (0x2108, 0x2109),
   (0x2114, 0x2114), (0x2116, 0x2118), (0x211E, 0x2123), (0x2190, 0x24B5), (0x24EA, 0x2BFF),
   (0x2E00, 0x2E2E), (0x2E30, 0x3004), (0x3008, 0x3020), (0x3030, 0x3030), (0x303D, 0x3040),
   (0x30FB, 0x30FB), (0x3200, 0x33FF), (0x4DC0, 0x4DFF), (0xD800, 0xF8FF), (0xFD3E, 0xFD4F),
   (0xFE10, 0xFE1F), (0xFE30, 0xFE32), (0xFE35, 0xFE4C), (0xFE50, 0xFE6F), (0xFEFF, 0xFF0F),
   (0xFF1A, 0xFF20), (0xFF3B, 0xFF3E), (0xFF40, 0xFF40), (0xFF5B, 0xFF65), (0xFFE0, 0xFFFF),
   (0x10100, 0x1013F), (0x1D000, 0x1D164), (0x1F000, 0x1F12F), (0x1F18A, 0x1FBEF),
   (0xE0000, 0xE00FF), (0xE01F0, 0x10FFFF)]

def isWord (c : Char) : Bool :=
  c.isAlphanum || c == '_' || (0x7F < c.toNat && !signRanges.contains c.toNat)

def isLetter (c : Char) : Bool :=
  c.isAlpha || (0x7F < c.toNat && isWord c && !isDecimalDigit c)

/-- Characters that a reader cannot see or that join the character before them: controls,
formats, separators, private use, unassigned ends of planes, and combining marks. -/
def hiddenRanges : Ranges :=
  [(0x00, 0x1F), (0x7F, 0xA0), (0xAD, 0xAD), (0x300, 0x36F), (0x378, 0x379), (0x483, 0x489),
   (0x591, 0x5BD), (0x5BF, 0x5BF), (0x5C1, 0x5C2), (0x5C4, 0x5C5), (0x5C7, 0x5C7),
   (0x600, 0x605), (0x610, 0x61A), (0x61C, 0x61C), (0x64B, 0x65F), (0x670, 0x670),
   (0x6D6, 0x6DD), (0x6DF, 0x6E4), (0x6E7, 0x6E8), (0x6EA, 0x6ED), (0x70F, 0x70F),
   (0x711, 0x711), (0x730, 0x74A), (0x900, 0x902), (0x93A, 0x93A), (0x93C, 0x93C),
   (0x941, 0x948), (0x94D, 0x94D), (0xE31, 0xE31), (0xE34, 0xE3A), (0xE47, 0xE4E),
   (0x1680, 0x1680), (0x1AB0, 0x1ACE), (0x1DC0, 0x1DFF), (0x2000, 0x200F), (0x2028, 0x202F),
   (0x205F, 0x206F), (0x20D0, 0x20F0), (0x3000, 0x3000), (0x302A, 0x302F), (0x3099, 0x309A),
   (0xD800, 0xF8FF), (0xFE00, 0xFE0F), (0xFE20, 0xFE2F), (0xFEFF, 0xFEFF), (0xFF9E, 0xFF9F),
   (0xFFF0, 0xFFFB), (0xFFFE, 0xFFFF), (0x1D167, 0x1D169), (0x1D173, 0x1D182),
   (0xE0000, 0x10FFFF)]

def isHidden (c : Char) : Bool := hiddenRanges.contains c.toNat

/-! ### Quoted text -/

/-- A character inside double quotes: the usual short escapes, hidden characters by their
code point in braces. -/
def quoteChar (c : Char) : List Char :=
  if c = '"' then ['\\', '"']
  else if c = '\\' then ['\\', '\\']
  else if c = '\t' then ['\\', 't']
  else if c = '\n' then ['\\', 'n']
  else if c = '\r' then ['\\', 'r']
  else if c.toNat = 0 then ['\\', '0']
  else if isHidden c then
    ['\\', 'u', Char.ofNat 0x7B] ++ Nat.toDigits 16 c.toNat ++ [Char.ofNat 0x7D]
  else [c]

def quoted (text : String) : String :=
  String.ofList (['"'] ++ text.toList.flatMap quoteChar ++ ['"'])

/-! ### Parts of texts -/

/-- True when `part` occurs in `text` as consecutive characters. -/
def hasInfix (part : List Char) : List Char → Bool
  | [] => part.isEmpty
  | c :: rest => part.isPrefixOf (c :: rest) || hasInfix part rest

end Recordkeeper.Text
