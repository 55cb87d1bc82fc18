import Recordkeeper.Json.Parser

/-!
Contract: reading typed data out of JSON documents.

Owns: readers for the simple types, for lists, and for required and optional fields.

Does not own: what the documents describe.
-/

set_option autoImplicit false

namespace Recordkeeper.Description

abbrev Reader (α : Type) := Json → Option α

variable {α : Type}

/-- A field of an object; a null counts as missing. -/
def field? (doc : Json) (name : String) : Option Json :=
  match doc.field? name with
  | some .null => none
  | other => other

def text : Reader String := Json.text?

def nat : Reader Nat := fun doc => doc.number?.bind Number.toNat?

def int : Reader Int
  | .number (.int n) => some n
  | _ => none

def bool : Reader Bool
  | .bool b => some b
  | _ => none

/-- A decimal in a text, the words for values that are not finite included. -/
def float : Reader Binary64 := fun doc => doc.text?.bind Binary64.ofText?

def list (item : Reader α) : Reader (List α) := fun doc =>
  doc.items?.bind fun items => items.mapM item

def named (table : List (String × α)) : Reader α := fun doc =>
  doc.text?.bind fun name => table.lookup name

def nameIn [BEq α] (table : List (String × α)) (x : α) : String :=
  ((table.find? fun e => e.2 == x).map (·.1)).getD ""

def inner : Reader Json := fun doc =>
  doc.text?.bind fun s =>
    match Json.parse s with
    | .ok doc => some doc
    | .error _ => none

def required (doc : Json) (name : String) (item : Reader α) : Option α :=
  (doc.field? name).bind item

/-- A field that may be missing. -/
def optional (doc : Json) (name : String) (item : Reader α) : Option (Option α) :=
  match field? doc name with
  | none => some none
  | some v => (item v).map some

/-- A field with a value for when it is missing. -/
def defaulted (doc : Json) (name : String) (item : Reader α) (default : α) : Option α :=
  (optional doc name item).map fun o => o.getD default

end Recordkeeper.Description
