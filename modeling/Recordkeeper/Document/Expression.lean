import Recordkeeper.Document.Order
import Recordkeeper.Failure

/-!
Contract: expressions over one document.

Owns: paths, literals and the operators of expressions, and their faults.

Does not own: filters, which use expressions for one of their operators.
-/

set_option autoImplicit false

namespace Recordkeeper.Document

/-- A result of the store or its failure. -/
abbrev Outcome (α : Type) := Except DocumentFailure α

def badValue {α : Type} (message : String) : Outcome α := .error (.badValue message)

def isOperator (name : String) : Bool := "$".toList.isPrefixOf name.toList

def afterSign (name : String) : String := String.ofList (name.toList.drop 1)

def pair (op : String) : List Json → Outcome (Json × Json)
  | [a, b] => .ok (a, b)
  | _ => badValue (op ++ " takes exactly 2 arguments")

def applyOperator (op : String) (args : List Json) : Outcome Json :=
  let compared (test : Ordering → Bool) : Outcome Json := do
    let (a, b) ← pair op args
    return .bool (test (order a b))
  match op with
  | "$eq" => compared (· == .eq)
  | "$ne" => compared (· != .eq)
  | "$gt" => compared (· == .gt)
  | "$gte" => compared (· != .lt)
  | "$lt" => compared (· == .lt)
  | "$lte" => compared (· != .gt)
  | "$in" => do
    let (needle, haystack) ← pair op args
    match haystack with
    | .array items => return .bool (items.any fun i => order i needle == .eq)
    | _ => badValue "$in requires an array as a second argument"
  | "$not" => .ok (.bool !(args.head?.any truthy))
  | "$and" => .ok (.bool (args.all truthy))
  | "$or" => .ok (.bool (args.any truthy))
  | "$size" =>
    match args with
    | [.array items] => .ok (.int items.length)
    | _ => badValue "the argument to $size must be an array"
  | "$ifNull" =>
    .ok ((args.find? fun v => !v.isNull).getD (args.getLast?.getD .null))
  | "$arrayElemAt" => do
    let (list, index) ← pair op args
    match list with
    | .array items =>
      match index.number?.bind Number.toInt64? with
      | some i =>
        let i := i.toInt
        let i := if i < 0 then items.length + i else i
        if i < 0 then return .null else return (items[i.toNat]?).getD .null
      | none => badValue "$arrayElemAt's second argument must be an integer"
    | _ => badValue "$arrayElemAt's first argument must be an array"
  | other => .error (.coded 168 ("unsupported expression '" ++ other ++ "'"))

mutual

/-- The value of an expression.  A text with a dollar sign is a path, an object with one field
whose name has a dollar sign is an operator; a missing value is null. -/
def evaluate (doc : Json) : Json → Outcome Json
  | .text s => if isOperator s then .ok ((lookup doc (afterSign s)).getD .null) else .ok (.text s)
  | .array items => do
    let values ← evaluateItems doc items
    return .array values
  | .object [(op, arg)] =>
    if isOperator op then do
      let args ←
        match arg with
        | .array items => evaluateItems doc items
        | single => do
          let v ← evaluate doc single
          pure [v]
      applyOperator op args
    else do
      let v ← evaluate doc arg
      return .object [(op, v)]
  | .object fields => do
    let values ← evaluateFields doc fields
    return .object values
  | other => .ok other
termination_by structural x => x

def evaluateItems (doc : Json) : List Json → Outcome (List Json)
  | [] => .ok []
  | x :: rest => do
    let v ← evaluate doc x
    let vs ← evaluateItems doc rest
    return v :: vs
termination_by structural x => x

def evaluateFields (doc : Json) : List (String × Json) → Outcome (List (String × Json))
  | [] => .ok []
  | (name, x) :: rest => do
    let v ← evaluate doc x
    let vs ← evaluateFields doc rest
    return (name, v) :: vs
termination_by structural x => x

end

end Recordkeeper.Document
