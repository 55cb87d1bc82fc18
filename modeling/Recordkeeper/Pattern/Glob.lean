import Recordkeeper.Pattern.Regex.Parser

/-!
Contract: key patterns of a key-value store.

Owns: writing a glob as a regular expression, and the patterns that are refused.

Does not own: scanning keys.
-/

set_option autoImplicit false

namespace Recordkeeper.Glob

/-- The inside of a class up to its closing bracket, with the signs escaped that have a
meaning in a class of an expression but none in a glob. -/
def classBody : List Char → Option (List Char × List Char)
  | [] => none
  | c :: rest =>
    if c = ']' then some ([], rest)
    else
      (classBody rest).map fun r =>
        ((if c = '\\' ∨ c = '[' ∨ c = '&' ∨ c = '~' then ['\\', c] else [c]) ++ r.1, r.2)

/-- A class after its opening bracket: an optional negation and the members. -/
def characterClass (cs : List Char) : Option (List Char × List Char) :=
  let (sign, cs) :=
    match cs with
    | '!' :: r | '^' :: r => (['^'], r)
    | r => ([], r)
  (classBody cs).map fun r => (['['] ++ sign ++ r.1 ++ [']'], r.2)

/-- The body of a glob as a regular expression, none for a class without end.  Every step
takes a character. -/
def regexBody : Nat → List Char → Option (List Char)
  | _, [] => some []
  | 0, _ :: _ => none
  | fuel + 1, c :: rest =>
    if c = '*' then (regexBody fuel rest).map (['.', '*'] ++ ·)
    else if c = '?' then (regexBody fuel rest).map (['.'] ++ ·)
    else if c = '[' then
      match characterClass rest with
      | some (text, r) => (regexBody fuel r).map (text ++ ·)
      | none => none
    else if c = '\\' then
      match rest with
      | d :: r => (regexBody fuel r).map (Regex.Parser.escape [d] ++ ·)
      | [] => some ['\\', '\\']
    else (regexBody fuel rest).map (Regex.Parser.escape [c] ++ ·)

/-- A glob as the text of a regular expression for whole keys, line feeds included. -/
def toRegexText? (pattern : String) : Option String :=
  (regexBody pattern.length pattern.toList).map fun body =>
    String.ofList (['(', '?', 's', ')', '^'] ++ body ++ ['$'])

/-- Why a pattern is refused. -/
inductive Fault where
  | unterminatedClass
  | badPattern
  deriving DecidableEq, Repr

def toRegex (pattern : String) : Except Fault Regex :=
  match toRegexText? pattern with
  | none => .error .unterminatedClass
  | some text =>
    match Regex.parse? text with
    | some r => .ok r
    | none => .error .badPattern

end Recordkeeper.Glob
