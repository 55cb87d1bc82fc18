import Recordkeeper.Document.Match
import Recordkeeper.Json.Printer

/-!
Contract: projections and aggregation pipelines.

Owns: the stages, the accumulators of groups and their faults.

Does not own: the collection a pipeline starts from.
-/

set_option autoImplicit false

namespace Recordkeeper.Document

/-! ### Projection -/

/-- A boolean or number in a projection, as inclusion or exclusion. -/
def flag? : Json → Option Bool
  | .bool b => some b
  | .number n => some (truthy (.number n))
  | _ => none

/-- The fields an including projection adds to those before. -/
def includedFields (doc : Json) : List (String × Json) → Fields → Outcome Fields
  | [], acc => .ok acc
  | (key, v) :: rest, acc =>
    match flag? v with
    | some true =>
      if key = "_id" then includedFields doc rest acc
      else
        match lookup doc key with
        | some found => includedFields doc rest (acc.insert key found)
        | none => includedFields doc rest acc
    | some false => includedFields doc rest acc
    | none => do
      let value ← evaluate doc v
      includedFields doc rest (acc.insert key value)

/-- Applies a projection.  If some field besides the id is included or computed, only such
fields stay, with the id unless it is excluded; otherwise the named fields are removed. -/
def project (doc : Json) (spec : Json) : Outcome Json :=
  match spec with
  | .object fields =>
    let including := fields.any fun f => f.1 != "_id" && (flag? f.2).getD true
    if including then do
      let keepId := (Fields.get? fields "_id").all fun v => flag? v == some true
      let start : Fields :=
        if keepId then
          match lookup doc "_id" with
          | some id => [("_id", id)]
          | none => []
        else []
      let kept ← includedFields doc fields start
      return .object kept
    else
      match doc with
      | .object own => .ok (.object (fields.foldl (fun acc f => Fields.remove acc f.1) own))
      | other => .ok other
  | _ => badValue "projection must be an object"

/-! ### Groups -/

inductive Accumulator where
  | sum (whole : Int64) (real : Binary64) (allWhole : Bool)
  | average (total : Binary64) (count : Nat)
  | first (value : Option Json)
  | last (value : Json)
  | least (value : Option Json)
  | greatest (value : Option Json)
  | collected (items : List Json)

namespace Accumulator

def start (op : String) : Outcome Accumulator :=
  match op with
  | "$sum" => .ok (.sum 0 .zero true)
  | "$avg" => .ok (.average .zero 0)
  | "$first" => .ok (.first none)
  | "$last" => .ok (.last .null)
  | "$min" => .ok (.least none)
  | "$max" => .ok (.greatest none)
  | "$push" => .ok (.collected [])
  | other => .error (.coded 168 ("unsupported accumulator '" ++ other ++ "'"))

/-- Takes in one more value.  A sum keeps a whole number of 64 bits, which wraps, and a binary64
number; values that are no numbers do not count. -/
def add (acc : Accumulator) (value : Json) : Accumulator :=
  match acc with
  | .sum whole real allWhole =>
    match value.number? with
    | some n =>
      match n.toInt64? with
      | some i => .sum (whole + i) (real.add n.toBinary64) allWhole
      | none => .sum whole (real.add n.toBinary64) false
    | none => acc
  | .average total count =>
    match value.number? with
    | some n => .average (total.add n.toBinary64) (count + 1)
    | none => acc
  | .first none => .first (some value)
  | .first (some v) => .first (some v)
  | .last _ => .last value
  | .least known =>
    if !value.isNull && known.all fun m => order value m == .lt then .least (some value) else acc
  | .greatest known =>
    if !value.isNull && known.all fun m => order value m == .gt then .greatest (some value)
    else acc
  | .collected items => .collected (items ++ [value])

/-- A number as a document; a number that is not finite is null. -/
def real (x : Binary64) : Json := if x.isFinite then .number (.float x) else .null

def finish : Accumulator → Json
  | .sum whole x allWhole => if allWhole then .int whole.toInt else real x
  | .average total count => if count = 0 then .null else real (total.div (.ofNat count))
  | .first v | .least v | .greatest v => v.getD .null
  | .last v => v
  | .collected items => .array items

end Accumulator

structure GroupField where
  name : String
  op : String
  arg : Json

def groupFields : List (String × Json) → Outcome (List GroupField)
  | [] => .ok []
  | (name, spec) :: rest =>
    if name = "_id" then groupFields rest
    else
      match spec with
      | .object [(op, arg)] => do
        let _ ← Accumulator.start op
        let others ← groupFields rest
        return ⟨name, op, arg⟩ :: others
      | _ => badValue ("the field '" ++ name ++ "' must be an accumulator object")

/-- A group: its key, the text of the key, and its accumulators. -/
structure Group where
  key : Json
  keyText : String
  accumulators : List Accumulator

/-- Adds one evaluated document to its group; a new group goes to the end. -/
def Group.place (key : Json) (start : List Accumulator) (values : List Json) :
    List Group → List Group
  | [] => [⟨key, key.render, List.zipWith Accumulator.add start values⟩]
  | g :: rest =>
    if g.keyText = key.render then
      { g with accumulators := List.zipWith Accumulator.add g.accumulators values } :: rest
    else g :: Group.place key start values rest

def groupDocs (idExpr : Json) (fields : List GroupField) (start : List Accumulator) :
    List Json → List Group → Outcome (List Group)
  | [], groups => .ok groups
  | doc :: rest, groups => do
    let key ← evaluate doc idExpr
    let values ← fields.mapM fun f => evaluate doc f.arg
    groupDocs idExpr fields start rest (Group.place key start values groups)

def Group.toDoc (fields : List GroupField) (g : Group) : Json :=
  .object ((List.zip fields g.accumulators).foldl
    (fun (acc : Fields) f => acc.insert f.1.name f.2.finish) [("_id", g.key)])

/-- The grouping stage; groups keep the order of their first documents. -/
def groupStage (docs : List Json) (spec : Json) : Outcome (List Json) :=
  match spec with
  | .object parts =>
    match Fields.get? parts "_id" with
    | none => badValue "a group specification must include an _id"
    | some idExpr => do
      let fields ← groupFields parts
      let start ← fields.mapM fun f => Accumulator.start f.op
      let groups ← groupDocs idExpr fields start docs []
      return groups.map (Group.toDoc fields)
  | _ => badValue "$group needs an object"

/-! ### Stages -/

def sortKeys (spec : Json) : Outcome (List (String × Bool)) :=
  match spec with
  | .object fields =>
    fields.mapM fun f =>
      match f.2.number?.bind Number.toInt64? with
      | some n =>
        if n = 1 then .ok (f.1, false)
        else if n = -1 then .ok (f.1, true)
        else badValue "$sort key ordering must be 1 or -1"
      | none => badValue "$sort key ordering must be 1 or -1"
  | _ => badValue "$sort needs an object"

def stageCount (name : String) (spec : Json) : Outcome Nat :=
  match spec.number?.bind Number.toNat? with
  | some n => .ok n
  | none => badValue (name ++ " needs a non-negative integer")

def runStage (docs : List Json) (stage : Json) : Outcome (List Json) :=
  match stage with
  | .object [(name, spec)] =>
    match name with
    | "$match" => select spec docs
    | "$group" => groupStage docs spec
    | "$project" => docs.mapM fun d => project d spec
    | "$sort" => do
      let keys ← sortKeys spec
      return sortDocs keys docs
    | "$skip" => do
      let n ← stageCount "$skip" spec
      return docs.drop n
    | "$limit" => do
      let n ← stageCount "$limit" spec
      return docs.take n
    | "$count" =>
      match spec with
      | .text field =>
        if field = "" || isOperator field then badValue "$count needs a field name"
        else if docs.isEmpty then .ok []
        else .ok [.single field (.int docs.length)]
      | _ => badValue "$count needs a field name"
    | other => .error (.coded 40324 ("unsupported pipeline stage '" ++ other ++ "'"))
  | _ => badValue "a pipeline stage must be an object with exactly one field"

def runPipeline (docs : List Json) (pipeline : List Json) : Outcome (List Json) :=
  pipeline.foldlM runStage docs

end Recordkeeper.Document
