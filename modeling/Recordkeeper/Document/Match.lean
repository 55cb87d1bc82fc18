import Recordkeeper.Document.Expression
import Recordkeeper.Pattern.Regex.Parser

/-!
Contract: which documents satisfy a filter.

Owns: the operators of filters, their order of evaluation and their faults.

Does not own: collections of documents.

An array satisfies a test when it does so as a whole or one of its items does.  Clauses are
tested in order and the first that fails decides, so later faults are not reported.
-/

set_option autoImplicit false

namespace Recordkeeper.Document

/-- Whether a test holds of a value or of an item of an array. -/
def anyCandidate (value : Json) (test : Json → Bool) : Bool :=
  test value ||
    match value with
    | .array items => items.any test
    | _ => false

/-- Equality with a target; a missing value equals null. -/
def equals (value : Option Json) (target : Json) : Bool :=
  match value with
  | none => target.isNull
  | some v => anyCandidate v fun c => order c target == .eq

def ordered (value : Option Json) (target : Json) (test : Ordering → Bool) : Bool :=
  match value with
  | none => false
  | some v => anyCandidate v fun c => typeRank c == typeRank target && test (order c target)

def inList (value : Option Json) (arg : Json) : Outcome Bool :=
  match arg with
  | .array items => .ok (items.any (equals value))
  | _ => badValue "$in needs an array"

def filterRegex (pattern : Json) (options : Option Json) : Outcome Regex :=
  match pattern with
  | .text p =>
    let flags := (options.bind Json.text?).getD ""
    let text := if flags = "" then p else "(?" ++ flags ++ ")" ++ p
    match Regex.parse? text with
    | some r => .ok r
    | none => badValue "invalid $regex: <regex error>"
  | _ => badValue "$regex has to be a string"

/-- An object of operators: not empty, and every name with a dollar sign. -/
def isOperatorDoc : Json → Bool
  | .object fields => !fields.isEmpty && fields.all fun f => isOperator f.1
  | _ => false

def simpleOperator (value : Option Json) (op : String) (arg : Json) (siblings : Fields) :
    Outcome Bool :=
  match op with
  | "$eq" => .ok (equals value arg)
  | "$ne" => .ok !(equals value arg)
  | "$gt" => .ok (ordered value arg (· == .gt))
  | "$gte" => .ok (ordered value arg (· != .lt) || (arg.isNull && equals value arg))
  | "$lt" => .ok (ordered value arg (· == .lt))
  | "$lte" => .ok (ordered value arg (· != .gt) || (arg.isNull && equals value arg))
  | "$in" => inList value arg
  | "$nin" => do
    let found ← inList value arg
    return !found
  | "$exists" => .ok (truthy arg == value.isSome)
  | "$regex" => do
    let r ← filterRegex arg (siblings.get? "$options")
    return match value with
      | none => false
      | some v => anyCandidate v fun c => (c.text?.map r.isMatch).getD false
  | "$options" => .ok true
  | "$size" =>
    match arg.number?.bind Number.toNat? with
    | some n => .ok ((value.bind Json.items?).any fun items => items.length == n)
    | none => badValue "$size needs a non-negative integer"
  | other => badValue ("unknown operator: " ++ other)

mutual

/-- Whether the value of a field satisfies a condition: operators all hold, anything else is
compared for equality. -/
def fieldMatches (value : Option Json) : Json → Outcome Bool
  | .object fields =>
    if isOperatorDoc (.object fields) then operatorsMatch value fields fields
    else .ok (equals value (.object fields))
  | other => .ok (equals value other)
termination_by structural x => x

/-- Whether all operators hold; `siblings` are all operators of the same object. -/
def operatorsMatch (value : Option Json) (siblings : Fields) :
    List (String × Json) → Outcome Bool
  | [] => .ok true
  | (op, arg) :: rest => do
    let holds ←
      if op = "$not" then
        if isOperatorDoc arg then do
          let inner ← fieldMatches value arg
          pure !inner
        else badValue "$not needs an operator document"
      else simpleOperator value op arg siblings
    if holds then operatorsMatch value siblings rest else return false
termination_by structural x => x

end

mutual

def matchesFilter (doc : Json) : Json → Outcome Bool
  | .object clauses => clausesMatch doc clauses
  | _ => badValue "filter must be an object"
termination_by structural x => x

def clausesMatch (doc : Json) : List (String × Json) → Outcome Bool
  | [] => .ok true
  | (key, cond) :: rest => do
    let holds ←
      if key = "$and" then
        match cond with
        | .array (f :: more) => allMatch doc (f :: more)
        | _ => badValue "$and must be a nonempty array"
      else if key = "$or" then
        match cond with
        | .array (f :: more) => anyMatch doc (f :: more)
        | _ => badValue "$or must be a nonempty array"
      else if key = "$nor" then
        match cond with
        | .array (f :: more) => do
          let found ← anyMatch doc (f :: more)
          pure !found
        | _ => badValue "$nor must be a nonempty array"
      else if key = "$expr" then do
        let v ← evaluate doc cond
        pure (truthy v)
      else if isOperator key then badValue ("unknown top level operator: " ++ key)
      else fieldMatches (lookup doc key) cond
    if holds then clausesMatch doc rest else return false
termination_by structural x => x

/-- Whether all filters hold, up to the first that does not. -/
def allMatch (doc : Json) : List Json → Outcome Bool
  | [] => .ok true
  | f :: rest => do
    let holds ← matchesFilter doc f
    if holds then allMatch doc rest else return false
termination_by structural x => x

def anyMatch (doc : Json) : List Json → Outcome Bool
  | [] => .ok false
  | f :: rest => do
    let holds ← matchesFilter doc f
    if holds then return true else anyMatch doc rest
termination_by structural x => x

end

def select (filter : Json) : List Json → Outcome (List Json)
  | [] => .ok []
  | doc :: rest => do
    let holds ← matchesFilter doc filter
    let others ← select filter rest
    return if holds then doc :: others else others

end Recordkeeper.Document
