import Recordkeeper.Text.Classes

/-!
Contract: sets of characters as sorted lists of code point ranges.

Owns: normal form, union, complement, intersection, difference, closure under case.

Does not own: the syntax of character classes.
-/

set_option autoImplicit false

namespace Recordkeeper.Text.Ranges

/-- The greatest code point. -/
def top : Nat := 0x10FFFF

/-- Every character; surrogates are no characters. -/
def everything : Ranges := [(0, 0xD7FF), (0xE000, top)]

/-- Joins ranges that touch, given in the order of their first points. -/
def joinTouching : Ranges → Ranges
  | [] => []
  | r :: rest =>
    match joinTouching rest with
    | [] => [r]
    | s :: more => if s.1 ≤ r.2 + 1 then (r.1, max r.2 s.2) :: more else r :: s :: more

def normal (set : Ranges) : Ranges :=
  joinTouching (set.mergeSort fun a b => a.1 ≤ b.1)

/-- The points from `start` on that are in no range of a normal list. -/
def gaps (start : Nat) : Ranges → Ranges
  | [] => if start ≤ top then [(start, top)] else []
  | r :: rest =>
    if start < r.1 then (start, r.1 - 1) :: gaps (r.2 + 1) rest else gaps (max start (r.2 + 1)) rest

def inter (a b : Ranges) : Ranges :=
  normal (a.flatMap fun r => b.filterMap fun s =>
    let low := max r.1 s.1
    let high := min r.2 s.2
    if low ≤ high then some (low, high) else none)

def complement (set : Ranges) : Ranges := inter everything (gaps 0 set.normal)

def union (a b : Ranges) : Ranges := normal (a ++ b)

def diff (a b : Ranges) : Ranges := inter a (complement b)

def symmDiff (a b : Ranges) : Ranges := diff (union a b) (inter a b)

/-- Letters that differ by case only, in pairs: runs of letters at a fixed distance, runs of
neighbours, and letters of their own. -/
def casePairs : List (Nat × Nat) :=
  let shifted (first last distance : Nat) : List (Nat × Nat) :=
    (List.range (last + 1 - first)).map fun i => (first + i, first + i + distance)
  let neighbours (first last : Nat) : List (Nat × Nat) :=
    (List.range ((last + 1 - first) / 2)).map fun i => (first + 2 * i, first + 2 * i + 1)
  shifted 0x41 0x5A 32 ++ shifted 0xC0 0xD6 32 ++ shifted 0xD8 0xDE 32
    ++ neighbours 0x100 0x12F ++ neighbours 0x132 0x137 ++ neighbours 0x139 0x148
    ++ neighbours 0x14A 0x177 ++ neighbours 0x179 0x17E ++ shifted 0x391 0x3A1 32
    ++ shifted 0x3A3 0x3AB 32 ++ shifted 0x410 0x42F 32 ++ shifted 0x400 0x40F 80
    ++ neighbours 0x460 0x481 ++ neighbours 0x48A 0x4BF ++ neighbours 0x4D0 0x52F
    ++ shifted 0x531 0x556 48 ++ neighbours 0x1E00 0x1E95 ++ neighbours 0x1EA0 0x1EFF
    ++ shifted 0x2160 0x216F 16 ++ shifted 0x24B6 0x24CF 26 ++ shifted 0xFF21 0xFF3A 32
    ++ shifted 0x10400 0x10427 40
    ++ [(0x178, 0xFF), (0x4B, 0x212A), (0x53, 0x17F), (0xC5, 0x212B), (0xDF, 0x1E9E),
        (0x3A3, 0x3C2), (0x39C, 0xB5), (0x398, 0x3D1), (0x386, 0x3AC), (0x388, 0x3AD),
        (0x389, 0x3AE), (0x38A, 0x3AF), (0x38C, 0x3CC), (0x38E, 0x3CD), (0x38F, 0x3CE),
        (0x4C0, 0x4CF), (0x4C1, 0x4C2), (0x2126, 0x3C9), (0x392, 0x3D0), (0x395, 0x3F5),
        (0x39A, 0x3F0), (0x3A0, 0x3D6), (0x3A1, 0x3F1), (0x3A6, 0x3D5), (0x398, 0x3F4)]

/-- Adds the other case of every member, once. -/
def addCases (set : Ranges) : Ranges :=
  normal (set ++ casePairs.flatMap fun p =>
    (if set.contains p.1 then [(p.2, p.2)] else [])
      ++ (if set.contains p.2 then [(p.1, p.1)] else []))

/-- Closure under case.  No letter has more than four forms, two steps apart at most. -/
def foldCase (set : Ranges) : Ranges := set.addCases.addCases

/-- Letters, marks, digits and connecting signs, as in `isWord`. -/
def word : Ranges :=
  union [(0x30, 0x39), (0x41, 0x5A), (0x5F, 0x5F), (0x61, 0x7A)]
    (diff [(0x80, top)] signRanges)

end Recordkeeper.Text.Ranges
