import Recordkeeper.Sql.Fault
import Recordkeeper.Sql.Syntax
import Recordkeeper.Sql.Token

/-!
Contract: statements from text, as the engine reads them.

Owns:
- expressions with their precedences, selections, definitions of tables and changes of rows;
- places for values and their numbering;
- the faults of a text, which name the first token that cannot stand where it stands.

Does not own: what a name means.

Every reader takes fuel, which bounds the nesting and the length of lists.  A text has fuel in
proportion to its tokens, which is enough.
-/

set_option autoImplicit false

namespace Recordkeeper.Sql.Parser

structure Reading where
  text : List Char
  rest : List Lexeme
  /-- Where the last token taken ends. -/
  stop : Nat := 0
  /-- The places for values so far, with their names if they have any. -/
  places : List (Option String) := []

abbrev Parse (α : Type) := StateT Reading (Except Fault) α

variable {α : Type}

def Reading.fault (r : Reading) : Fault :=
  match r.rest with
  | [] => .incomplete
  | l :: _ =>
    let token := String.ofList l.chars
    if l.token = .illegal then .unrecognized token else .unexpected token

def refuseNext : Parse α := fun r => .error r.fault

def next? : Parse (Option Lexeme) := return (← get).rest.head?

def skip : Parse Unit := modify fun r =>
  match r.rest with
  | l :: rest => { r with rest, stop := l.stop }
  | [] => r

def accept (test : Token → Bool) : Parse Bool := do
  match ← next? with
  | some l =>
    if test l.token then
      skip
      return true
    else return false
  | none => return false

def word (keyword : String) : Parse Bool := accept (·.isKeyword keyword)

def symbol (s : String) : Parse Bool := accept (· == .symbol s)

def expect (taken : Parse Bool) : Parse Unit := do
  if !(← taken) then refuseNext

def follows (tests : List (Token → Bool)) : Parse Bool := do
  let front := (← get).rest.take tests.length
  return front.length == tests.length
    && (List.zipWith (fun (test : Token → Bool) (l : Lexeme) => test l.token) tests front).all id

def isWord (keyword : String) (t : Token) : Bool := t.isKeyword keyword

def isSymbol (s : String) (t : Token) : Bool := t == .symbol s

/-! ### Names -/

/-- Keywords that are never names. -/
def reserved : List String :=
  ["ADD", "ALL", "ALTER", "AND", "AS", "AUTOINCREMENT", "BETWEEN", "CASE", "CHECK", "COLLATE",
   "COMMIT", "CONSTRAINT", "CREATE", "DEFAULT", "DEFERRABLE", "DELETE", "DISTINCT", "DROP", "ELSE",
   "ESCAPE", "EXCEPT", "EXISTS", "FOREIGN", "FROM", "GROUP", "HAVING", "IN", "INDEX", "INSERT",
   "INTERSECT", "INTO", "IS", "ISNULL", "JOIN", "LIMIT", "NOT", "NOTHING", "NOTNULL", "NULL", "ON",
   "OR", "ORDER", "PRIMARY", "REFERENCES", "RETURNING", "SELECT", "SET", "TABLE", "THEN", "TO",
   "TRANSACTION", "UNION", "UNIQUE", "UPDATE", "USING", "VALUES", "WHEN", "WHERE"]

/-- Keywords of joins, which are names but no aliases. -/
def joinWords : List String := ["CROSS", "FULL", "INNER", "LEFT", "NATURAL", "OUTER", "RIGHT"]

def nameOf? : Token → Option String
  | .word s => if reserved.contains s.toUpper then none else some s
  | .name s | .text s => some s
  | _ => none

/-- The text of a token that can stand for an alias without introduction. -/
def aliasOf? (t : Token) : Option String :=
  match t with
  | .word s => if joinWords.contains s.toUpper then none else nameOf? t
  | t => nameOf? t

def name : Parse String := do
  match (← next?).bind fun l => nameOf? l.token with
  | some s =>
    skip
    return s
  | none => refuseNext

def label? : Parse (Option String) := do
  if ← word "AS" then return some (← name)
  else
    match (← next?).bind fun l => aliasOf? l.token with
    | some s =>
      skip
      return some s
    | none => return none

def names : Nat → Parse (List String)
  | 0 => refuseNext
  | fuel + 1 => do
    let first ← name
    if ← symbol "," then return first :: (← names fuel)
    else
      expect (symbol ")")
      return [first]

/-! ### Places and literals -/

/-- The number of a place for a value.  A place without name is a new one; a number counts from
one; a name stands for the same place wherever it occurs. -/
def place (written : String) : Parse Nat := do
  let r ← get
  let count := r.places.length
  match written.toList with
  | ['?'] =>
    set { r with places := r.places ++ [none] }
    return count
  | '?' :: digits =>
    let (n, _, _) := Binary64.readDigits digits 0 0
    let index := n - 1
    set { r with places := r.places ++ List.replicate (index + 1 - count) none }
    return index
  | _ =>
    match r.places.findIdx? (· == some written) with
    | some index => return index
    | none =>
      set { r with places := r.places ++ [some written] }
      return count

def numberCell (s : String) : Cell :=
  match s.toList with
  | '0' :: x :: digits =>
    if x = 'x' ∨ x = 'X' then
      let n := digits.foldl (fun n c => n * 16 + (Text.hexValue? c).getD 0) 0
      .integer (Int64.ofNat n)
    else (Cell.numberFront s).value
  | _ => (Cell.numberFront s).value

/-! ### Expressions -/

inductive Level where
  | or
  | and
  | not
  | equality
  | comparison
  | bits
  | sums
  | products
  | texts
  | signs
  deriving DecidableEq, Repr

def Level.rank : Level → Nat
  | .or => 0
  | .and => 1
  | .not => 2
  | .equality => 3
  | .comparison => 4
  | .bits => 5
  | .sums => 6
  | .products => 7
  | .texts => 8
  | .signs => 9

def Level.next : Level → Level
  | .or => .and
  | .and => .not
  | .not => .equality
  | .equality => .comparison
  | .comparison => .bits
  | .bits => .sums
  | .sums => .products
  | .products => .texts
  | .texts | .signs => .signs

def binary? (t : Token) : Option (Level × (Expr → Expr → Expr)) :=
  match t with
  | .symbol s =>
    let comparisons : List (String × Level × Comparison) :=
      [("=", .equality, .eq), ("==", .equality, .eq), ("<>", .equality, .ne), ("!=", .equality, .ne),
       ("<", .comparison, .lt), ("<=", .comparison, .le), (">", .comparison, .gt),
       (">=", .comparison, .ge)]
    let arithmetic : List (String × Level × Arithmetic) :=
      [("&", .bits, .bitAnd), ("|", .bits, .bitOr), ("<<", .bits, .shiftLeft),
       (">>", .bits, .shiftRight), ("+", .sums, .add), ("-", .sums, .sub), ("*", .products, .mul),
       ("/", .products, .div), ("%", .products, .rem), ("||", .texts, .concat)]
    match comparisons.lookup s with
    | some (level, op) => some (level, .compare op)
    | none => (arithmetic.lookup s).map fun (level, op) => (level, .arith op)
  | t =>
    if t.isKeyword "OR" then some (.or, .or)
    else if t.isKeyword "AND" then some (.and, .and)
    else none

inductive Test where
  | isNull (negated : Bool)
  | same
  | between
  | member
  | like
  | regexp

/-- The test that follows an operand, with its negation; takes its words. -/
def test? : Parse (Option (Bool × Test)) := do
  let positive : List (String × Test) :=
    [("BETWEEN", .between), ("IN", .member), ("LIKE", .like), ("REGEXP", .regexp)]
  let plain : List (String × Test) :=
    [("ISNULL", .isNull false), ("NOTNULL", .isNull true), ("IS", .same)]
  let negatable : List (String × Test) := ("NULL", .isNull true) :: positive
  match ← next? with
  | none => return none
  | some l =>
    match (positive ++ plain).find? fun (w, _) => l.token.isKeyword w with
    | some (_, t) =>
      skip
      return some (false, t)
    | none =>
      if l.token.isKeyword "NOT" then
        skip
        match ← next? with
        | some l =>
          match negatable.find? fun (w, _) => l.token.isKeyword w with
          | some (_, t) =>
            skip
            return some (true, t)
          | none => refuseNext
        | none => refuseNext
      else return none

def written (start : Nat) : Parse String := do
  let r ← get
  return String.ofList ((r.text.drop start).take (r.stop - start))

def startOfNext : Parse Nat := return ((← next?).map (·.start)).getD 0

/-- The words that lead to the right side of a join, with its kind. -/
def joinKind? : Parse (Option JoinKind) := do
  if ← symbol "," then return some .inner
  else if ← word "JOIN" then return some .inner
  else
    let kinds : List (String × JoinKind) :=
      [("INNER", .inner), ("CROSS", .inner), ("LEFT", .left), ("RIGHT", .right), ("FULL", .full)]
    match ← next? with
    | none => return none
    | some l =>
      match kinds.find? fun (w, _) => l.token.isKeyword w with
      | none => return none
      | some (_, kind) =>
        skip
        if kind != .inner then
          let _ ← word "OUTER"
        expect (word "JOIN")
        return some kind

mutual

/-- An expression whose operators bind at least as tightly as a level. -/
def expr : Nat → Level → Parse Expr
  | 0, _ => refuseNext
  | fuel + 1, level => do
    let left ← operand fuel
    operators fuel level left

def operators : Nat → Level → Expr → Parse Expr
  | 0, _, _ => refuseNext
  | fuel + 1, level, left => do
    match ← next? with
    | none => return left
    | some l =>
      match binary? l.token with
      | some (its, make) =>
        if its.rank < level.rank then return left
        else
          skip
          let right ← expr fuel its.next
          operators fuel level (make left right)
      | none =>
        if Level.equality.rank < level.rank then return left
        else
          match ← test? with
          | none => return left
          | some (negated, t) => do
            let tested ← tail fuel negated t left
            operators fuel level tested

def tail : Nat → Bool → Test → Expr → Parse Expr
  | 0, _, _, _ => refuseNext
  | fuel + 1, negated, t, left => do
    match t with
    | .isNull n => return .isNull n left
    | .same => do
      let negated ← word "NOT"
      match ← expr fuel .comparison with
      | .literal .null => return .isNull negated left
      | right => return .same negated left right
    | .between => do
      let low ← expr fuel .comparison
      expect (word "AND")
      let high ← expr fuel .comparison
      return .between negated left low high
    | .member => do
      expect (symbol "(")
      if ← follows [isWord "SELECT"] then
        let q ← select fuel
        expect (symbol ")")
        return .inQuery negated left q
      else if ← symbol ")" then return .inList negated left []
      else
        let items ← exprs fuel
        expect (symbol ")")
        return .inList negated left items
    | .like => do
      let pattern ← expr fuel .comparison
      if ← word "ESCAPE" then
        let escape ← expr fuel .bits
        return .like negated left pattern (some escape)
      else return .like negated left pattern none
    | .regexp => do
      let pattern ← expr fuel .comparison
      return .regexp negated left pattern

def exprs : Nat → Parse (List Expr)
  | 0 => refuseNext
  | fuel + 1 => do
    let first ← expr fuel .or
    if ← symbol "," then return first :: (← exprs fuel) else return [first]

def operand : Nat → Parse Expr
  | 0 => refuseNext
  | fuel + 1 => do
    match ← next? with
    | none => refuseNext
    | some l =>
      match l.token with
      | .number s =>
        skip
        return .literal (numberCell s)
      | .blob b =>
        skip
        return .literal (.blob b)
      | .text s =>
        skip
        return .literal (.text s)
      | .parameter s =>
        skip
        return .parameter (← place s)
      | .symbol "(" =>
        skip
        if ← follows [isWord "SELECT"] then
          let q ← select fuel
          expect (symbol ")")
          return .scalar q
        else
          let e ← expr fuel .or
          expect (symbol ")")
          return e
      | .symbol "-" =>
        skip
        match ← next? with
        | some ⟨.number "9223372036854775808", _, _⟩ =>
          skip
          return .literal (.integer Int64.minValue)
        | _ => return .negate (← operand fuel)
      | .symbol "+" =>
        skip
        return .identity (← operand fuel)
      | .symbol "~" =>
        skip
        return .bitNot (← operand fuel)
      | .word _ => keywordOrName fuel
      | .name s => named fuel s (l.chars.head? == some '"')
      | _ => refuseNext

def keywordOrName : Nat → Parse Expr
  | 0 => refuseNext
  | fuel + 1 => do
    if ← word "NULL" then return .literal .null
    else if ← word "NOT" then return .not (← expr fuel .not)
    else if ← word "EXISTS" then
      expect (symbol "(")
      if !(← follows [isWord "SELECT"]) then refuseNext
      let q ← select fuel
      expect (symbol ")")
      return .existsRow q
    else if ← follows [isWord "CAST", isSymbol "("] then
      skip
      skip
      let e ← expr fuel .or
      expect (word "AS")
      let type ← typeName fuel
      expect (symbol ")")
      return .cast e type
    else if ← word "CASE" then
      let subject ← if ← follows [isWord "WHEN"] then pure none else some <$> expr fuel .or
      let branches ← whens fuel
      let otherwise ← if ← word "ELSE" then some <$> expr fuel .or else pure none
      expect (word "END")
      return .choose subject branches otherwise
    else
      match (← next?).bind fun l => nameOf? l.token with
      | some s => named fuel s false
      | none => refuseNext

def whens : Nat → Parse (List Expr)
  | 0 => refuseNext
  | fuel + 1 => do
    expect (word "WHEN")
    let test ← expr fuel .or
    expect (word "THEN")
    let result ← expr fuel .or
    if ← follows [isWord "WHEN"] then return test :: result :: (← whens fuel)
    else return [test, result]

/-- A function or a column; the name comes next. -/
def named : Nat → String → Bool → Parse Expr
  | 0, _, _ => refuseNext
  | fuel + 1, s, quoted => do
    skip
    if ← symbol "(" then
      if ← symbol "*" then
        expect (symbol ")")
        return .callAll s
      else if ← symbol ")" then return .call s false []
      else
        let distinct ← word "DISTINCT"
        let args ← exprs fuel
        expect (symbol ")")
        return .call s distinct args
    else if ← symbol "." then
      let column ← name
      return .column (some s) column false
    else return .column none s quoted

def typeName : Nat → Parse String
  | 0 => refuseNext
  | fuel + 1 => do
    match (← next?).bind fun l => nameOf? l.token with
    | some s =>
      skip
      if ← symbol "(" then
        let _ ← exprs fuel
        expect (symbol ")")
        return s
      else
        let rest ← typeName fuel
        return if rest.isEmpty then s else s ++ " " ++ rest
    | none => return ""

def select : Nat → Parse Select
  | 0 => refuseNext
  | fuel + 1 => do
    expect (word "SELECT")
    let distinct ← word "DISTINCT"
    if !distinct then
      let _ ← word "ALL"
    let results ← resultColumns fuel
    let source ← if ← word "FROM" then source fuel else pure .nothing
    let filter ← if ← word "WHERE" then some <$> expr fuel .or else pure none
    let groupBy ← if ← word "GROUP" then do
        expect (word "BY")
        exprs fuel
      else pure []
    let having ← if ← word "HAVING" then some <$> expr fuel .or else pure none
    let keys ← if ← word "ORDER" then do
        expect (word "BY")
        sortKeys fuel
      else pure []
    let (limit, offset) ← if ← word "LIMIT" then page fuel else pure (none, none)
    return .mk distinct results source filter groupBy having (keys.map (·.1)) (keys.map (·.2))
      limit offset

def sortKeys : Nat → Parse (List (Expr × Bool))
  | 0 => refuseNext
  | fuel + 1 => do
    let e ← expr fuel .or
    let descending ← word "DESC"
    if !descending then
      let _ ← word "ASC"
    if ← symbol "," then return (e, descending) :: (← sortKeys fuel) else return [(e, descending)]

def page : Nat → Parse (Option Expr × Option Expr)
  | 0 => refuseNext
  | fuel + 1 => do
    let first ← expr fuel .or
    if ← word "OFFSET" then return (some first, some (← expr fuel .or))
    else if ← symbol "," then return (some (← expr fuel .or), some first)
    else return (some first, none)

def resultColumns : Nat → Parse (List ResultColumn)
  | 0 => refuseNext
  | fuel + 1 => do
    let first ← resultColumn fuel
    if ← symbol "," then return first :: (← resultColumns fuel) else return [first]

def resultColumn : Nat → Parse ResultColumn
  | 0 => refuseNext
  | fuel + 1 => do
    if ← symbol "*" then return .all
    else if ← follows [fun t => (nameOf? t).isSome, isSymbol ".", isSymbol "*"] then
      let table ← name
      skip
      skip
      return .allOf table
    else
      let start ← startOfNext
      let e ← expr fuel .or
      let text ← written start
      return .expr e (← label?) text

def source : Nat → Parse RowSource
  | 0 => refuseNext
  | fuel + 1 => do
    let first ← sourceItem fuel
    joins fuel first

def joins : Nat → RowSource → Parse RowSource
  | 0, _ => refuseNext
  | fuel + 1, left => do
    match ← joinKind? with
    | none => return left
    | some kind => do
      let right ← sourceItem fuel
      let on ← if ← word "ON" then some <$> expr fuel .or else pure none
      joins fuel (.join kind left right on)

def sourceItem : Nat → Parse RowSource
  | 0 => refuseNext
  | fuel + 1 => do
    if ← symbol "(" then
      if ← follows [isWord "SELECT"] then
        let q ← select fuel
        expect (symbol ")")
        return .query q (← label?)
      else
        let inner ← source fuel
        expect (symbol ")")
        return inner
    else
      let table ← name
      return .table table (← label?)

end

/-! ### Definitions of tables -/

def targets (fuel : Nat) : Parse (List String) := do
  if ← symbol "(" then names fuel else return []

/-- A rule in parentheses; without a name of its own it is shown as written. -/
def check (fuel : Nat) (named : Option String) : Parse Check := do
  expect (symbol "(")
  let start ← startOfNext
  let test ← expr fuel .or
  let text ← written start
  expect (symbol ")")
  return ⟨named.getD text, test⟩

def default (fuel : Nat) : Parse Expr := do
  if ← symbol "(" then
    let e ← expr fuel .or
    expect (symbol ")")
    return e
  else operand fuel

def columnRules : Nat → Option String → ColumnDef → Parse ColumnDef
  | 0, _, _ => refuseNext
  | fuel + 1, named, c => do
    if ← word "CONSTRAINT" then
      let s ← name
      columnRules fuel (some s) c
    else if ← word "PRIMARY" then
      expect (word "KEY")
      let _ ← accept fun t => t.isKeyword "ASC" || t.isKeyword "DESC"
      let autoIncrement ← word "AUTOINCREMENT"
      columnRules fuel none { c with
        primaryKey := true, autoIncrement
        constraints := c.constraints ++ [.primaryKey [c.name]] }
    else if ← word "NOT" then
      expect (word "NULL")
      columnRules fuel none { c with notNull := true }
    else if ← word "NULL" then columnRules fuel none c
    else if ← word "UNIQUE" then
      columnRules fuel none { c with constraints := c.constraints ++ [.unique [c.name]] }
    else if ← word "CHECK" then
      let rule ← check fuel named
      columnRules fuel none { c with constraints := c.constraints ++ [.check rule] }
    else if ← word "DEFAULT" then
      let e ← default fuel
      columnRules fuel none { c with default := some e }
    else if ← word "REFERENCES" then
      let table ← name
      let targets ← targets fuel
      columnRules fuel none
        { c with constraints := c.constraints ++ [.reference ⟨[c.name], table, targets⟩] }
    else return c

def tableRule? (fuel : Nat) : Parse (Option Constraint) := do
  let named ← if ← word "CONSTRAINT" then some <$> name else pure none
  if ← word "PRIMARY" then
    expect (word "KEY")
    expect (symbol "(")
    return some (.primaryKey (← names fuel))
  else if ← word "UNIQUE" then
    expect (symbol "(")
    return some (.unique (← names fuel))
  else if ← word "CHECK" then return some (.check (← check fuel named))
  else if ← word "FOREIGN" then
    expect (word "KEY")
    expect (symbol "(")
    let columns ← names fuel
    expect (word "REFERENCES")
    let table ← name
    return some (.reference ⟨columns, table, ← targets fuel⟩)
  else if named.isSome then refuseNext
  else return none

/-- The columns of a new table and then its rules, up to the closing parenthesis. -/
def tableBody : Nat → List ColumnDef → List Constraint → Parse (List ColumnDef × List Constraint)
  | 0, _, _ => refuseNext
  | fuel + 1, columns, rules => do
    let rule ← if columns.isEmpty then pure none else tableRule? fuel
    let (columns, rules) ← match rule with
      | some rule => pure (columns, rules ++ [rule])
      | none =>
        if !rules.isEmpty then refuseNext
        else do
          let column ← name
          let type ← typeName fuel
          let c ← columnRules fuel none { name := column, type }
          pure (columns ++ [c], rules)
    if ← symbol "," then tableBody fuel columns rules
    else
      expect (symbol ")")
      return (columns, rules)

/-! ### Statements -/

def valueRows : Nat → Parse (List (List Expr))
  | 0 => refuseNext
  | fuel + 1 => do
    expect (symbol "(")
    let row ← exprs fuel
    expect (symbol ")")
    if ← symbol "," then return row :: (← valueRows fuel) else return [row]

def newRows (fuel : Nat) : Parse NewRows := do
  if ← word "VALUES" then return .values (← valueRows fuel)
  else if ← follows [isWord "SELECT"] then return .selected (← select fuel)
  else
    expect (word "DEFAULT")
    expect (word "VALUES")
    return .defaults

def assignments : Nat → Parse (List (String × Expr))
  | 0 => refuseNext
  | fuel + 1 => do
    let column ← name
    expect (symbol "=")
    let e ← expr fuel .or
    if ← symbol "," then return (column, e) :: (← assignments fuel) else return [(column, e)]

def filter? (fuel : Nat) : Parse (Option Expr) := do
  if ← word "WHERE" then some <$> expr fuel .or else return none

/-- The words after CREATE, DROP and the like that tell whether a table may be there. -/
def unlessThere (negated : Bool) : Parse Bool := do
  if ← word "IF" then
    if negated then expect (word "NOT")
    expect (word "EXISTS")
    return true
  else return false

def statement (fuel : Nat) : Parse Statement := do
  let transaction : Parse Unit := do
    let _ ← word "TRANSACTION"
  if ← follows [isWord "SELECT"] then return .select (← select fuel)
  else if ← word "INSERT" then
    expect (word "INTO")
    let table ← name
    let columns ← if ← symbol "(" then names fuel else pure []
    return .insert table columns (← newRows fuel)
  else if ← word "UPDATE" then
    let table ← name
    expect (word "SET")
    let sets ← assignments fuel
    return .update table sets (← filter? fuel)
  else if ← word "DELETE" then
    expect (word "FROM")
    let table ← name
    return .delete table (← filter? fuel)
  else if ← word "CREATE" then
    expect (word "TABLE")
    let ifMissing ← unlessThere true
    let table ← name
    expect (symbol "(")
    let (columns, rules) ← tableBody fuel [] []
    return .createTable ifMissing table columns rules
  else if ← word "DROP" then
    expect (word "TABLE")
    let ifPresent ← unlessThere false
    return .dropTable ifPresent (← name)
  else if ← word "BEGIN" then
    let _ ← accept fun t => ["DEFERRED", "IMMEDIATE", "EXCLUSIVE"].any t.isKeyword
    transaction
    return .begin
  else if ← accept fun t => t.isKeyword "COMMIT" || t.isKeyword "END" then
    transaction
    return .commit
  else if ← word "ROLLBACK" then
    transaction
    if ← word "TO" then
      let _ ← word "SAVEPOINT"
      return .rollbackTo (← name)
    else return .rollback
  else if ← word "SAVEPOINT" then return .savepoint (← name)
  else if ← word "RELEASE" then
    let _ ← word "SAVEPOINT"
    return .release (← name)
  else refuseNext

structure Parsed where
  statement : Statement
  places : Nat

/-- The first statement of a text, none if there is nothing but semicolons, and the text after
it. -/
def first (text : List Char) : Except Fault (Option Parsed × List Char) :=
  let tokens := (Token.split .engine text).dropWhile fun l => l.token == .symbol ";"
  match tokens with
  | [] => .ok (none, [])
  | _ =>
    let start : Reading := { text, rest := tokens }
    match (statement (16 * tokens.length + 16)).run start with
    | .error e => .error e
    | .ok (s, r) =>
      let parsed : Parsed := ⟨s, r.places.length⟩
      match r.rest with
      | [] => .ok (some parsed, [])
      | l :: _ =>
        if l.token = .symbol ";" then .ok (some parsed, text.drop l.stop) else .error r.fault

end Recordkeeper.Sql.Parser
