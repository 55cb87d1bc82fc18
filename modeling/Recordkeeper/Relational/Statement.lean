import Recordkeeper.Error

/-!
Contract: statements as text with places for values.

Owns:
- fragments, which are text or a bound value, and their rendering in a dialect;
- the placeholders in a foreign text, which stand outside single quotes;
- identifiers and their quoting.

Does not own: which statement a query needs.

Values never enter the text: rendering writes a placeholder for each of them.
-/

set_option autoImplicit false

namespace Recordkeeper.Relational

inductive Fragment where
  | text (s : String)
  | bound (v : Value)

structure Statement where
  sql : String
  params : List Value
  /-- Names of relations the caller loads by itself. -/
  preloads : List String := []

/-- The placeholder for the parameter at a position counted from one. -/
def placeholder (dialect : Dialect) (position : Nat) : String :=
  match dialect with
  | .postgres => "$" ++ toString position
  | .mysql | .sqlite => "?"

def boundValues : List Fragment → List Value
  | [] => []
  | .text _ :: rest => boundValues rest
  | .bound v :: rest => v :: boundValues rest

/-- The text of a list of fragments when `before` values are bound already. -/
def renderFrom (dialect : Dialect) (before : Nat) : List Fragment → String
  | [] => ""
  | .text s :: rest => s ++ renderFrom dialect before rest
  | .bound _ :: rest => placeholder dialect (before + 1) ++ renderFrom dialect (before + 1) rest

def Statement.ofFragments (dialect : Dialect) (fragments : List Fragment)
    (preloads : List String) : Statement :=
  ⟨renderFrom dialect 0 fragments, boundValues fragments, preloads⟩

/-! ### Foreign text -/

/-- The question marks of a text outside single quotes; `quoted` tells whether the text starts
inside quotes. -/
def countPlaceholders : Bool → List Char → Nat
  | _, [] => 0
  | quoted, c :: rest =>
    if c = '\'' then countPlaceholders (!quoted) rest
    else if c = '?' ∧ !quoted then countPlaceholders quoted rest + 1
    else countPlaceholders quoted rest

/-- Cuts a text at its placeholders and binds the arguments in order; `acc` is the text since
the last cut, in reverse.  A placeholder without argument stays text. -/
def bindPlaceholders : Bool → List Char → List Value → List Char → List Fragment
  | _, [], _, acc => [.text (String.ofList acc.reverse)]
  | quoted, c :: rest, args, acc =>
    if c = '\'' then bindPlaceholders (!quoted) rest args (c :: acc)
    else if c = '?' ∧ !quoted then
      match args with
      | v :: more => .text (String.ofList acc.reverse) :: .bound v :: bindPlaceholders quoted rest more []
      | [] => bindPlaceholders quoted rest [] (c :: acc)
    else bindPlaceholders quoted rest args (c :: acc)

/-- A foreign text with its arguments, one for each placeholder. -/
def foreign (raw : String) (args : List Value) : Except Error (List Fragment) :=
  let count := countPlaceholders false raw.toList
  if count = args.length then .ok (bindPlaceholders false raw.toList args [])
  else refuse (.placeholderCount count args.length)

/-! ### Identifiers -/

def isNameStart (c : Char) : Bool := c.isAlpha || c == '_'

def isNameChar (c : Char) : Bool := c.isAlphanum || c == '_'

/-- A letter or underscore, then letters, digits and underscores. -/
def isName : List Char → Bool
  | [] => false
  | c :: rest => isNameStart c && rest.all isNameChar

def splitPoints : List Char → List (List Char)
  | [] => [[]]
  | c :: rest =>
    if c = '.' then [] :: splitPoints rest
    else
      match splitPoints rest with
      | [] => [[c]]
      | part :: more => (c :: part) :: more

/-- The names of an identifier, which is a name or two names with a point between. -/
def nameParts? (ident : String) : Option (List (List Char)) :=
  let parts := splitPoints ident.toList
  if parts.length ≤ 2 ∧ parts.all isName then some parts else none

def quoteMark : Dialect → Char
  | .mysql => Char.ofNat 0x60
  | .postgres | .sqlite => '"'

/-- A quoted identifier; anything else than an identifier is refused. -/
def quoteIdentifier (dialect : Dialect) (ident : String) : Except Error String :=
  match nameParts? ident with
  | some parts =>
    let q := quoteMark dialect
    .ok (String.intercalate "." (parts.map fun p => String.ofList ([q] ++ p ++ [q])))
  | none => refuse (.invalidIdentifier ident)

end Recordkeeper.Relational
