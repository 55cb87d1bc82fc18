import Recordkeeper.Engine.Scalar

/-!
Contract: the values of terms and the rows of plans.

Owns:
- terms over the rows of the selections around them;
- joins, filters, groups, order and pages of selections.

Does not own: how rows are stored.

Rows are taken in the order of their numbers, and an operator that does not sort keeps the order.
Groups are put out in the order of their keys.  What is asked for in one row at most is not
computed for the others.
-/

set_option autoImplicit false

namespace Recordkeeper.Engine

open Sql

structure Env where
  /-- The rows of a table, each with its number behind the columns. -/
  table : String → List Row
  params : List Cell
  settings : Settings
  /-- The current rows of the selections around, innermost one first. -/
  rows : List Row := []
  /-- The rows of the current group. -/
  group : List Row := []

def Env.enter (env : Env) (row : Row) (group : List Row) : Env :=
  { env with rows := row :: env.rows, group }

def Env.member (env : Env) (row : Row) : Env :=
  { env with rows := row :: env.rows.drop 1, group := [] }

/-- The rows without repetitions, first ones kept; `key` gives the cells that count. -/
def distinctRows {α : Type} (key : α → Row) (rows : List α) : List α :=
  (rows.foldl (fun (kept : List α) r =>
    if kept.any fun k => Cell.sameRow (key k) (key r) then kept else r :: kept) []).reverse

/-- The order of rows by several keys with directions of their own. -/
def orderKeys : List Bool → Row → Row → Ordering
  | descending :: more, a :: as, b :: bs =>
    let o := a.order b
    (if descending then o.swap else o).then (orderKeys more as bs)
  | _, _, _ => .eq

/-- Rows in the order of their keys; rows with the same keys keep their order. -/
def sortRows {α : Type} (descending : List Bool) (key : α → Row) (rows : List α) : List α :=
  rows.mergeSort fun a b => orderKeys descending (key a) (key b) != .gt

def gather : List (Row × Row) → List (Row × List Row)
  | [] => []
  | (key, row) :: rest =>
    match gather rest with
    | (k, rows) :: more =>
      if Cell.sameRow key k then (key, row :: rows) :: more else (key, [row]) :: (k, rows) :: more
    | [] => [(key, [row])]

def groupRows (keyed : List (Row × Row)) : List (List Row) :=
  (gather (keyed.mergeSort fun a b => Cell.orderRow a.1 b.1 != .gt)).map (·.2)

/-- The row that shows a group, from the rows with their values of a term: the first one at which
the term is least, or greatest.  Up to the first value every row takes the place of the one
before. -/
def shownRow (better : Ordering) (best : Cell) (row : Row) : List (Cell × Row) → Row
  | [] => row
  | (c, r) :: rest =>
    if best.isNull || (!c.isNull && c.order best == better) then shownRow better c r rest
    else shownRow better best row rest

/-- The first results that are there, as many as asked for; nothing is computed beyond them. -/
def collect {α β : Type} (f : α → Result (Option β)) : Option Nat → List α → Result (List β)
  | some 0, _ => .ok []
  | _, [] => .ok []
  | most, a :: rest => do
    match ← f a with
    | none => collect f most rest
    | some b => return b :: (← collect f (most.map (· - 1)) rest)

def pageNumber (c : Cell) : Result Int :=
  match Affinity.apply .integer c with
  | .integer n => .ok n.toInt
  | _ => .error .typeMismatch

/-- The rows on both sides of a join that belong together, and those alone where the kind of join
keeps them; `test` tells whether two rows belong together. -/
def joinRows (kind : JoinKind) (leftWidth rightWidth : Nat) (test : Row → Row → Result Bool)
    (lefts rights : List Row) : Result (List Row) := do
  let keepLeft := kind == .left || kind == .full
  let keepRight := kind == .right || kind == .full
  let matched ← lefts.mapM fun l => do
    let partners ← rights.filterM (test l)
    return if partners.isEmpty && keepLeft then [l ++ List.replicate rightWidth .null]
      else partners.map (l ++ ·)
  let alone ←
    if keepRight then rights.filterM fun r => do
      let partners ← lefts.filterM (test · r)
      return partners.isEmpty
    else pure []
  return matched.flatten ++ alone.map (List.replicate leftWidth .null ++ ·)

mutual

def eval (env : Env) : Term → Result Cell
  | .constant c => .ok c
  | .parameter i => .ok (env.params[i]?.getD .null)
  | .cell depth i => .ok (((env.rows[depth]?.getD [])[i]?).getD .null)
  | .not t => return notCell (← eval env t)
  | .and a b => do
    let x ← eval env a
    if x.truth? == some false then return .ofBool false else return andCell x (← eval env b)
  | .or a b => do
    let x ← eval env a
    if x.truth? == some true then return .ofBool true else return orCell x (← eval env b)
  | .compare op affinity a b => return compareCells op affinity (← eval env a) (← eval env b)
  | .same affinity a b => return sameCells affinity (← eval env a) (← eval env b)
  | .isNull t => return .ofBool (← eval env t).isNull
  | .inList affinity t items =>
    return memberCell affinity (← eval env t) (← evalAll env items)
  | .inQuery affinity t q => do
    let c ← eval env t
    let rows ← run env none q
    return memberCell affinity c (rows.map fun row => row.headD .null)
  | .like text pattern escape => do
    let text ← eval env text
    let pattern ← eval env pattern
    likeCells env.settings text pattern (← evalOption env escape)
  | .arith op a b => return arithCells op (← eval env a) (← eval env b)
  | .negate t => return arithCells .sub (.integer 0) (← eval env t)
  | .bitNot t => do
    let c ← eval env t
    return if c.isNull then .null else .integer (c.toInteger.complement)
  | .call f args => do
    applyFunction f (← evalAll env args)
  | .cast affinity t => return affinity.cast (← eval env t)
  | .choose branches otherwise => do
    match ← evalBranches env branches with
    | some c => return c
    | none => return (← evalOption env otherwise).getD .null
  | .scalar q => do
    let rows ← run env (some 1) q
    return (rows.headD []).headD .null
  | .existsRow q => do
    let rows ← run env (some 1) q
    return .ofBool !rows.isEmpty
  | .countAll => .ok (.integer (Int64.ofNat env.group.length))
  | .aggregate f distinct arg => do
    let cells ← env.group.mapM fun row => eval (env.member row) arg
    applyAggregate f distinct cells
termination_by structural t => t

def evalAll (env : Env) : List Term → Result (List Cell)
  | [] => .ok []
  | t :: rest => return (← eval env t) :: (← evalAll env rest)
termination_by structural ts => ts

def evalOption (env : Env) : Option Term → Result (Option Cell)
  | none => .ok none
  | some t => return some (← eval env t)
termination_by structural t => t

def evalBranches (env : Env) : List Term → Result (Option Cell)
  | [] => .ok none
  | [_] => .ok none
  | test :: result :: rest => do
    let c ← eval env test
    if c.truth? == some true then return some (← eval env result) else evalBranches env rest
termination_by structural ts => ts

/-- Whether all conditions are true, tried in turn up to the first one that is not. -/
def holds (env : Env) : List Term → Result Bool
  | [] => .ok true
  | t :: rest => do
    let c ← eval env t
    if c.truth? == some true then holds env rest else return false
termination_by structural ts => ts

def evalKeys (env : Env) : Option (List Term) → Result Row
  | none => .ok []
  | some ts => evalAll env ts
termination_by structural ts => ts

def rowsOf (env : Env) : Rows → Result (List Row)
  | .one => .ok [[]]
  | .table name => .ok (env.table name)
  | .query q => run env none q
  | .join kind left right leftWidth rightWidth on => do
    let lefts ← rowsOf env left
    let rights ← rowsOf env right
    joinRows kind leftWidth rightWidth (fun l r => holds (env.enter (l ++ r) []) on) lefts rights
termination_by structural r => r

def run (env : Env) (most : Option Nat) : Plan → Result (List Row)
  | .mk distinct results rows filter grouping extreme greatest having sort descending presorted
      limit offset => do
    let limit ← (← evalOption env limit).mapM pageNumber
    let offset ← (← evalOption env offset).mapM pageNumber
    let skipped := (offset.getD 0).toNat
    let limit := limit.bind fun n => if n < 0 then none else some n.toNat
    let wanted := match limit, most with
      | some a, some b => some (min a b)
      | some a, none | none, some a => some a
      | none, none => none
    if wanted = some 0 then return []
    let read ← rowsOf env rows
    let results (env : Env) : Result (Row × Row) := do
      return (← evalAll env results, ← evalAll env sort)
    let ready := match grouping with
      | some _ => false
      | none => !distinct && descending.isEmpty
    let chosen ← match grouping with
      | none =>
        collect (fun row => do
          let env := env.enter row []
          if ← holds env filter then return some (← results env) else return none)
          (if ready then wanted.map (· + skipped) else none) read
      | some keys => do
        let keyed ← collect (fun row => do
          let env := env.enter row []
          if ← holds env filter then return some (← evalKeys env grouping, row)
          else return none) none read
        let groups := if keys.isEmpty then [keyed.map (·.2)] else groupRows keyed
        collect (fun group => do
          let values ← group.mapM fun row => evalOption (env.enter row []) extreme
          let better := if greatest then .gt else .lt
          let row := match values.mapM id with
            | some cells => shownRow better .null [] (cells.zip group)
            | none => group.headD []
          let env := env.enter row group
          if ← holds env having then return some (← results env) else return none)
          none groups
    let sorted (chosen : List (Row × Row)) : List (Row × Row) :=
      if descending.isEmpty then chosen else sortRows descending (·.2) chosen
    let chosen := if presorted then sorted chosen else chosen
    let chosen := if distinct then distinctRows (·.1) chosen else chosen
    let chosen := if presorted then chosen else sorted chosen
    let page := (chosen.map (·.1)).drop skipped
    return match wanted with
      | some n => page.take n
      | none => page
termination_by structural p => p

end

end Recordkeeper.Engine
