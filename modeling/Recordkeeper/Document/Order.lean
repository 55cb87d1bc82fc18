import Recordkeeper.Json.Basic

/-!
Contract: documents compared and reached into.

Owns:
- the value at a dotted path;
- the order of documents across types, and sorting by paths;
- which documents count as true.

Does not own: filters and expressions.
-/

set_option autoImplicit false

namespace Recordkeeper.Document

def segments : List Char → List (List Char)
  | [] => [[]]
  | c :: rest =>
    if c = '.' then [] :: segments rest
    else
      match segments rest with
      | [] => [[c]]
      | s :: more => (c :: s) :: more

/-- A segment as a position in an array: decimal digits, after an optional plus sign, of at
most 64 bits. -/
def position? (segment : List Char) : Option Nat :=
  let digits :=
    match segment with
    | '+' :: r => r
    | r => r
  if digits.isEmpty || !digits.all Char.isDigit then none
  else
    let n := digits.foldl (fun acc c => acc * 10 + (c.toNat - '0'.toNat)) 0
    if n < 1 <<< 64 then some n else none

def child? (doc : Json) (segment : List Char) : Option Json :=
  match doc with
  | .object fields => Fields.get? fields (String.ofList segment)
  | .array items => (position? segment).bind fun i => items[i]?
  | _ => none

/-- The value at a dotted path, none if a segment is missing. -/
def lookup (doc : Json) (path : String) : Option Json :=
  (segments path.toList).foldlM child? doc

def typeRank : Json → Nat
  | .null => 0
  | .number _ => 1
  | .text _ => 2
  | .object _ => 3
  | .array _ => 4
  | .bool _ => 5

mutual

/-- Order of documents: null, numbers, texts, objects, arrays, booleans; objects by their
fields in order, arrays by their items, shorter ones first. -/
def order : Json → Json → Ordering
  | .number m, .number n => (m.toBinary64.compare? n.toBinary64).getD .eq
  | .text s, .text t => compare s t
  | .bool a, .bool b => compare a b
  | .array xs, .array ys => orderItems xs ys
  | .object fs, .object gs => orderFields fs gs
  | a, b => compare (typeRank a) (typeRank b)
termination_by structural x => x

def orderItems : List Json → List Json → Ordering
  | [], [] => .eq
  | [], _ :: _ => .lt
  | _ :: _, [] => .gt
  | x :: xs, y :: ys => (order x y).then (orderItems xs ys)
termination_by structural x => x

def orderFields : List (String × Json) → List (String × Json) → Ordering
  | [], [] => .eq
  | [], _ :: _ => .lt
  | _ :: _, [] => .gt
  | (m, v) :: fs, (n, w) :: gs => ((compare m n).then (order v w)).then (orderFields fs gs)
termination_by structural x => x

end

/-- Of documents of two types the types decide. -/
theorem order_of_typeRank_ne {a b : Json} (differ : typeRank a ≠ typeRank b) :
    order a b = compare (typeRank a) (typeRank b) := by
  rw [order.eq_def]
  split
  case h_6 => rfl
  all_goals exact absurd rfl differ

def truthy : Json → Bool
  | .null => false
  | .bool b => b
  | .number n => !(n.toBinary64.numEq .zero)
  | _ => true

/-- Order of two documents by one path, a missing value counting as null. -/
def orderByPath (key : String × Bool) (a b : Json) : Ordering :=
  let o := order ((lookup a key.1).getD .null) ((lookup b key.1).getD .null)
  if key.2 then o.swap else o

def orderByPaths (keys : List (String × Bool)) (a b : Json) : Ordering :=
  keys.foldr (fun key rest => (orderByPath key a b).then rest) .eq

def sortDocs (keys : List (String × Bool)) (docs : List Json) : List Json :=
  docs.mergeSort fun a b => orderByPaths keys a b != .gt

end Recordkeeper.Document
