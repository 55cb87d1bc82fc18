import Recordkeeper.Engine.Scalar

/-!
Contract: looking up the names of expressions and selections.

Owns:
- scopes: the columns a selection reads, the aliases of its results, and the scopes around it;
- affinities of expressions;
- the names of result columns;
- the faults of names, functions and aggregates.

Does not own: the values of terms.
-/

set_option autoImplicit false

namespace Recordkeeper.Engine

open Sql

structure Catalog where
  /-- The columns of a table, unless there is no such table. -/
  columns? : String → Option (List (String × Affinity))
  /-- Whether the rows of a table can be read in the order of the column at a place. -/
  indexed : String → Nat → Bool
  /-- Whether regular expressions are known. -/
  patterns : Bool

structure ScopeColumn where
  source : String
  name : String
  affinity : Option Affinity
  /-- The number of a row is no column, but can be asked for. -/
  hidden : Bool := false

structure Typed where
  term : Term
  affinity : Option Affinity := none
  /-- The functions of groups in it, under the names they are written with. -/
  aggregates : List (String × Term) := []
  /-- The declared name, for a column. -/
  column : Option String := none

def Typed.isAggregate (t : Typed) : Bool := !t.aggregates.isEmpty

structure Level where
  columns : List ScopeColumn
  aliases : List (String × Typed) := []
  /-- Whether functions of groups can stand here. -/
  aggregates : Bool := false

structure Output where
  name : String
  label : Option String := none
  typed : Typed

abbrev Scope := List Level

/-! ### Columns -/

def rowNumberNames : List String := ["rowid", "oid", "_rowid_"]

def placesOf (test : ScopeColumn → Bool) : Nat → List ScopeColumn → List (Nat × ScopeColumn)
  | _, [] => []
  | i, c :: rest => if test c then (i, c) :: placesOf test (i + 1) rest else placesOf test (i + 1) rest

def writtenName (table : Option String) (name : String) : String :=
  match table with
  | some t => t ++ "." ++ name
  | none => name

/-- What a name means in a scope: a column of the innermost selection that has it, then a result
with this alias in the innermost selection of all. -/
def findName (table : Option String) (name : String) : Nat → Scope → Result (Option Typed)
  | _, [] => .ok none
  | depth, level :: outer =>
    let ofTable (c : ScopeColumn) : Bool := table.all fun t => sameName c.source t
    let hits := placesOf (fun c => !c.hidden && ofTable c && sameName c.name name) 0 level.columns
    let numbers :=
      if rowNumberNames.any (sameName · name) then
        placesOf (fun c => c.hidden && ofTable c) 0 level.columns
      else []
    let found (hit : Nat × ScopeColumn) : Result (Option Typed) :=
      .ok (some { term := .cell depth hit.1, affinity := hit.2.affinity, column := some hit.2.name })
    match hits, numbers with
    | [hit], _ => found hit
    | _ :: _ :: _, _ => .error (.ambiguousColumn (writtenName table name))
    | [], [hit] => found hit
    | [], _ :: _ :: _ => .error (.ambiguousColumn (writtenName table name))
    | [], [] =>
      match if depth = 0 ∧ table.isNone then level.aliases.find? fun a => sameName a.1 name else none with
      | some (_, t) =>
        if t.isAggregate && !level.aggregates then .error (.misplacedAlias name)
        else .ok (some { t with column := none })
      | none => findName table name (depth + 1) outer

/-- A name as a term.  A name in double quotes that means nothing is a text. -/
def resolveColumn (scope : Scope) (table : Option String) (name : String) (quoted : Bool) :
    Result Typed := do
  match ← findName table name 0 scope with
  | some t => return t
  | none =>
    if table.isNone && quoted then return { term := .constant (.text name) }
    else if table.isNone && sameName name "true" then return { term := .constant (.integer 1) }
    else if table.isNone && sameName name "false" then return { term := .constant (.integer 0) }
    else throw (.noColumn (writtenName table name))

/-! ### Functions -/

def aggregate? (name : String) (arity : Nat) : Option Aggregate :=
  let table : List (String × Aggregate) :=
    [("count", .count), ("sum", .sum), ("total", .total), ("avg", .average), ("min", .least),
     ("max", .greatest)]
  if arity = 1 then table.lookup name.toLower else none

/-- The functions of one row, with the least and the greatest number of their arguments. -/
def functions : List (String × Function × Nat × Option Nat) :=
  [("abs", .absolute, 1, some 1), ("coalesce", .coalesce, 2, none), ("ifnull", .coalesce, 2, some 2),
   ("nullif", .nullIf, 2, some 2), ("length", .length, 1, some 1), ("lower", .lower, 1, some 1),
   ("upper", .upper, 1, some 1), ("typeof", .typeName, 1, some 1), ("min", .least, 2, none),
   ("max", .greatest, 2, none), ("regexp", .regexp, 2, some 2)]

/-- Functions of groups, which exist with other numbers of arguments only. -/
def aggregateNames : List String := ["count", "sum", "total", "avg"]

/-- A function of one row by its name and the number of its arguments. -/
def function (cat : Catalog) (name : String) (arity : Nat) : Result Function :=
  match functions.lookup name.toLower with
  | some (f, least, most) =>
    if f = .regexp ∧ !cat.patterns then .error (.noFunction name)
    else if arity < least ∨ most.any (· < arity) then .error (.wrongArity name)
    else .ok f
  | none =>
    if aggregateNames.contains name.toLower then .error (.wrongArity name)
    else .error (.noFunction name)

/-- Whether functions of groups can stand in the innermost selection. -/
def allowsAggregates (scope : Scope) : Bool := scope.head?.any (·.aggregates)

def withoutAggregates : Scope → Scope
  | [] => []
  | level :: outer => { level with aggregates := false } :: outer

def aggregateTerm (scope : Scope) (name : String) (term : Term) : Result Typed :=
  if allowsAggregates scope then .ok { term, aggregates := [(name, term)] }
  else .error (.misplacedAggregate name)

/-! ### Expressions -/

def Typed.of (parts : List Typed) (term : Term) : Typed :=
  { term, aggregates := parts.flatMap (·.aggregates) }

def negated (negate : Bool) (t : Typed) : Typed :=
  if negate then { t with term := .not t.term } else t

def comparison (op : Comparison) (a b : Typed) : Term :=
  .compare op (Affinity.ofComparison a.affinity b.affinity) a.term b.term

def memberAffinity (a : Option Affinity) : Option Affinity :=
  match a with
  | some .real => some .numeric
  | a => a

/-- The tests of a choice, which compare with a subject if there is one. -/
def branchTerms (subject : Option Typed) : List Typed → List Term
  | test :: result :: rest =>
    let test := match subject with
      | some s => comparison .eq s test
      | none => test.term
    test :: result.term :: branchTerms subject rest
  | _ => []

def starOutputs (of : ScopeColumn → Bool) (columns : List ScopeColumn) : List Output :=
  (placesOf (fun c => !c.hidden && of c) 0 columns).map fun (i, c) =>
    { name := c.name, label := some c.name,
      typed := { term := .cell 0 i, affinity := c.affinity, column := some c.name } }

/-- The results of a star.  Two tables of one name cannot be told apart. -/
def expand (of : ScopeColumn → Bool) (columns : List ScopeColumn) : Result (List Output) :=
  let twice (c : ScopeColumn) : Bool :=
    1 < (columns.filter fun d => d.hidden && sameName c.source d.source).length
  match columns.find? fun c => of c && twice c with
  | some c => .error (.ambiguousColumn ("main." ++ c.source ++ "." ++ c.name))
  | none => .ok (starOutputs of columns)

def resultAt (clause : PositionClause) (position : Nat) (outputs : List Output) (n : Int64) : Result Typed :=
  let index := n.toInt - 1
  match if 0 ≤ index then outputs[index.toNat]? else none with
  | some o => .ok o.typed
  | none => .error (.positionRange clause position outputs.length)

def singleOutput (outputs : List Output) : Result Typed :=
  match outputs with
  | [o] => .ok o.typed
  | _ => .error (.manyColumns outputs.length)

/-- Functions of groups have no value where there is no group. -/
def rejectAggregates (terms : List Typed) : Result Unit :=
  match terms.flatMap (·.aggregates) with
  | (name, _) :: _ => .error (.aggregateWithoutGroup name)
  | [] => .ok ()

/-- What the last least or greatest value of a group is taken of, with whether it is the
greatest. -/
def lastExtreme? (terms : List Typed) : Option (Bool × Term) :=
  ((terms.flatMap (·.aggregates)).filterMap fun (_, t) =>
    match t with
    | .aggregate .least _ arg => some (false, arg)
    | .aggregate .greatest _ arg => some (true, arg)
    | _ => none).getLast?

/-- Whether an index gives the rows in the order of the sort keys. -/
def isPresorted (cat : Catalog) (rows : Rows) (sort : List Typed) : Bool :=
  match rows, sort.map Typed.term with
  | .table name, .cell 0 i :: _ => cat.indexed name i
  | _, _ => false

mutual

def selectWidth (cat : Catalog) : Select → Nat
  | .mk _ results source _ _ _ _ _ _ _ =>
    let width := sourceWidth cat source
    results.foldl
      (fun n r =>
        match r with
        | .expr _ _ _ => n + 1
        | _ => n + width)
      0
termination_by structural q => q

def sourceWidth (cat : Catalog) : RowSource → Nat
  | .nothing => 0
  | .table name _ => ((cat.columns? name).map (·.length)).getD 0
  | .query q _ => selectWidth cat q
  | .join _ left right _ => sourceWidth cat left + sourceWidth cat right
termination_by structural s => s

end

/-- Only expressions of the same number of columns can be compared. -/
def checkWidths (cat : Catalog) (es : List Expr) : Result Unit :=
  let widths := es.map fun e =>
    match e with
    | .scalar q => selectWidth cat q
    | _ => 1
  if widths.all (· == widths.headD 1) then .ok () else .error .misusedRow

mutual

def resolve (cat : Catalog) (scope : Scope) : Expr → Result Typed
  | .literal c => .ok { term := .constant c }
  | .parameter i => .ok { term := .parameter i }
  | .column table name quoted => resolveColumn scope table name quoted
  | .not e => do
    let t ← resolve cat scope e
    return .of [t] (.not t.term)
  | .and a b => do
    let a ← resolve cat scope a
    let b ← resolve cat scope b
    return .of [a, b] (.and a.term b.term)
  | .or a b => do
    let a ← resolve cat scope a
    let b ← resolve cat scope b
    return .of [a, b] (.or a.term b.term)
  | .compare op a b => do
    checkWidths cat [a, b]
    let a ← resolve cat scope a
    let b ← resolve cat scope b
    return .of [a, b] (comparison op a b)
  | .same negate a b => do
    checkWidths cat [a, b]
    let a ← resolve cat scope a
    let b ← resolve cat scope b
    return negated negate
      (.of [a, b] (.same (Affinity.ofComparison a.affinity b.affinity) a.term b.term))
  | .isNull negate e => do
    let t ← resolve cat scope e
    return negated negate (.of [t] (.isNull t.term))
  | .between negate e low high => do
    checkWidths cat [e, low, high]
    let t ← resolve cat scope e
    let low ← resolve cat scope low
    let high ← resolve cat scope high
    return negated negate
      (.of [t, low, high] (.and (comparison .ge t low) (comparison .le t high)))
  | .inList negate e items => do
    let t ← resolve cat scope e
    let items ← resolveAll cat scope items
    return negated negate
      (.of (t :: items) (.inList (memberAffinity t.affinity) t.term (items.map (·.term))))
  | .inQuery negate e q => do
    let t ← resolve cat scope e
    let (plan, outputs) ← resolveSelect cat scope q
    let o ← singleOutput outputs
    let affinity := memberAffinity (Affinity.ofComparison t.affinity o.affinity)
    return negated negate (.of [t] (.inQuery affinity t.term plan))
  | .like negate e pattern escape => do
    let t ← resolve cat scope e
    let pattern ← resolve cat scope pattern
    let escape ← resolveOption cat scope escape
    return negated negate
      (.of ([t, pattern] ++ escape.toList) (.like t.term pattern.term (escape.map (·.term))))
  | .regexp negate e pattern => do
    let t ← resolve cat scope e
    let pattern ← resolve cat scope pattern
    let f ← function cat "REGEXP" 2
    return negated negate (.of [t, pattern] (.call f [pattern.term, t.term]))
  | .arith op a b => do
    let a ← resolve cat scope a
    let b ← resolve cat scope b
    return .of [a, b] (.arith op a.term b.term)
  | .negate e => do
    let t ← resolve cat scope e
    return .of [t] (.negate t.term)
  | .identity e => do
    let t ← resolve cat scope e
    return .of [t] t.term
  | .bitNot e => do
    let t ← resolve cat scope e
    return .of [t] (.bitNot t.term)
  | .call name distinct args =>
    match aggregate? name args.length with
    | some f => do
      match ← resolveAll cat (withoutAggregates scope) args with
      | [t] => aggregateTerm scope name (.aggregate f distinct t.term)
      | _ => throw (.wrongArity name)
    | none => do
      let terms ← resolveAll cat scope args
      if terms.isEmpty && sameName name "count" then aggregateTerm scope name .countAll
      else
        let f ← function cat name terms.length
        return .of terms (.call f (terms.map (·.term)))
  | .callAll name =>
    if sameName name "count" then aggregateTerm scope name .countAll
    else do
      let _ ← function cat name 0
      throw (.wrongArity name)
  | .cast e type => do
    let t ← resolve cat scope e
    let affinity := if type = "" then .numeric else Affinity.ofType type
    return { Typed.of [t] (.cast affinity t.term) with affinity := some affinity }
  | .choose subject branches otherwise => do
    let subject ← resolveOption cat scope subject
    let branches ← resolveAll cat scope branches
    let otherwise ← resolveOption cat scope otherwise
    return .of (subject.toList ++ branches ++ otherwise.toList)
      (.choose (branchTerms subject branches) (otherwise.map (·.term)))
  | .scalar q => do
    let (plan, outputs) ← resolveSelect cat scope q
    let o ← singleOutput outputs
    return { term := .scalar plan, affinity := o.affinity }
  | .existsRow q => do
    let (plan, _) ← resolveSelect cat scope q
    return { term := .existsRow plan }
termination_by structural e => e

def resolveAll (cat : Catalog) (scope : Scope) : List Expr → Result (List Typed)
  | [] => .ok []
  | e :: rest => do
    let t ← resolve cat scope e
    let ts ← resolveAll cat scope rest
    return t :: ts
termination_by structural es => es

def resolveOption (cat : Catalog) (scope : Scope) : Option Expr → Result (Option Typed)
  | none => .ok none
  | some e => do
    let t ← resolve cat scope e
    return some t
termination_by structural e => e

/-- Sort keys: an alias or a position of a result comes before the columns. -/
def resolveKeys (cat : Catalog) (scope : Scope) (outputs : List Output) :
    Nat → List Expr → Result (List Typed)
  | _, [] => .ok []
  | position, e :: rest => do
    let t ←
      match e with
      | .literal (.integer n) => resultAt .orderBy position outputs n
      | .column none name _ =>
        match outputs.find? fun o => o.label.any (sameName · name) with
        | some o => pure o.typed
        | none => resolve cat scope e
      | _ => resolve cat scope e
    let ts ← resolveKeys cat scope outputs (position + 1) rest
    return t :: ts
termination_by structural _ es => es

/-- The keys of groups, which cannot depend on groups. -/
def resolveGroups (cat : Catalog) (scope : Scope) (outputs : List Output) :
    Nat → List Expr → Result (List Typed)
  | _, [] => .ok []
  | position, e :: rest => do
    let t ←
      match e with
      | .literal (.integer n) => resultAt .groupBy position outputs n
      | _ => resolve cat scope e
    if t.isAggregate then throw .aggregateKey
    let ts ← resolveGroups cat scope outputs (position + 1) rest
    return t :: ts
termination_by structural _ es => es

/-- The rows of a source with their columns, without the conditions of its joins, which may use all
columns and count as later than the results of the selection. -/
def resolveSource (cat : Catalog) (scope : Scope) : RowSource → Result (Rows × List ScopeColumn)
  | .nothing => .ok (.one, [])
  | .table name label =>
    match cat.columns? name with
    | none => .error (.noTable name)
    | some columns =>
      let source := label.getD name
      let number : ScopeColumn :=
        { source, name := "rowid", affinity := some .integer, hidden := true }
      let columns := columns.map fun (name, affinity) =>
        ({ source, name, affinity := some affinity } : ScopeColumn)
      .ok (.table name, columns ++ [number])
  | .query q label => do
    let (plan, outputs) ← resolveSelect cat scope q
    let columns := outputs.map fun o =>
      ({ source := label.getD "", name := o.name, affinity := o.typed.affinity } : ScopeColumn)
    return (.query plan, columns)
  | .join kind left right _ => do
    let (l, lefts) ← resolveSource cat scope left
    let (r, rights) ← resolveSource cat scope right
    let r ← resolveJoins cat ({ columns := rights } :: scope) right r
    return (.join kind l r lefts.length rights.length [], lefts ++ rights)
termination_by structural s => s

def resolveJoins (cat : Catalog) (scope : Scope) : RowSource → Rows → Result Rows
  | .join _ left _ on, .join kind l r leftWidth rightWidth _ => do
    let l ← resolveJoins cat scope left l
    let on ← resolveOption cat scope on
    rejectAggregates on.toList
    return .join kind l r leftWidth rightWidth (conditionsOf (on.map (·.term)))
  | _, rows => .ok rows
termination_by structural s => s

def resolveResult (cat : Catalog) (scope : Scope) (columns : List ScopeColumn) :
    ResultColumn → Result (List Output)
  | .all =>
    if columns.isEmpty then .error .noTables
    else expand (fun _ => true) columns
  | .allOf table => do
    match ← expand (fun c => sameName c.source table) columns with
    | [] => throw (.noTable table)
    | outputs => return outputs
  | .expr e label text => do
    let typed ← resolve cat scope e
    return [{ name := label.getD (typed.column.getD text), label, typed }]
termination_by structural r => r

def resolveResults (cat : Catalog) (scope : Scope) (columns : List ScopeColumn) :
    List ResultColumn → Result (List Output)
  | [] => .ok []
  | r :: rest => do
    let first ← resolveResult cat scope columns r
    let others ← resolveResults cat scope columns rest
    return first ++ others
termination_by structural rs => rs

def resolveSelect (cat : Catalog) (scope : Scope) : Select → Result (Plan × List Output)
  | .mk distinct results source filter groupBy having sort descending limit offset => do
    let (rows, columns) ← resolveSource cat scope source
    let outputs ← resolveResults cat ({ columns, aggregates := true } :: scope) columns results
    let aliases := outputs.filterMap fun o => o.label.map fun a => (a, o.typed)
    let onGroups := { columns, aliases, aggregates := true } :: scope
    let onRows := { columns, aliases } :: scope
    let grouped := !groupBy.isEmpty || outputs.any (·.typed.isAggregate)
    if having.isSome && !grouped then throw .havingWithoutGroups
    let having ← resolveOption cat onGroups having
    let tested := if grouped then onGroups else onRows
    let filter ← resolveOption cat tested filter
    let rows ← resolveJoins cat tested source rows
    let sort ← resolveKeys cat onGroups outputs 1 sort
    let groups ← resolveGroups cat onGroups outputs 1 groupBy
    let limit ← resolveOption cat [] limit
    let offset ← resolveOption cat [] offset
    rejectAggregates filter.toList
    if !grouped then rejectAggregates sort
    let extreme := lastExtreme? (outputs.map (·.typed) ++ sort ++ having.toList)
    return (.mk distinct (outputs.map (·.typed.term)) rows
      (conditionsOf (filter.map (·.term))) (if grouped then some (groups.map (·.term)) else none)
      (extreme.map (·.2)) (extreme.any (·.1)) (conditionsOf (having.map (·.term)))
      (sort.map (·.term)) descending (!grouped && isPresorted cat rows sort)
      (limit.map (·.term)) (offset.map (·.term)), outputs)
termination_by structural s => s

end

end Recordkeeper.Engine
