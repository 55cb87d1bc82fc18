import Recordkeeper.Sql.Token

/-!
Contract: the table a query reads from first, by its text alone.

Owns:
- recognising queries of a general SQL, without building them;
- the first table of a recognised query, and the first name after the word FROM in any other
  text.

Does not own: running the query.

Nesting is limited: a text that nests deeper counts as not recognised.
-/

set_option autoImplicit false

namespace Recordkeeper.Sql.Source

inductive Stop where
  | mismatch
  | tooDeep
  deriving DecidableEq, Repr

abbrev Scan (α : Type) := StateT (List Token) (Except Stop) α

variable {α : Type}

def mismatch : Scan α := throw .mismatch

def accept (test : Token → Bool) : Scan Bool := do
  match ← get with
  | t :: rest =>
    if test t then
      set rest
      return true
    else return false
  | [] => return false

def expect (test : Token → Bool) : Scan Unit := do
  if !(← accept test) then mismatch

def peek (test : Token → Bool) : Scan Bool := do
  match ← get with
  | t :: _ => return test t
  | [] => return false

def isSymbol (s : String) (t : Token) : Bool := t == .symbol s

def isWord (keyword : String) (t : Token) : Bool := t.isKeyword keyword

def isOneOf (keywords : List String) (t : Token) : Bool := keywords.any t.isKeyword

def word (keyword : String) : Scan Bool := accept (isWord keyword)

def symbol (s : String) : Scan Bool := accept (isSymbol s)

def words (keywords : List String) : Scan Bool := do
  let tokens ← get
  let front := tokens.take keywords.length
  if front.length = keywords.length && (List.zipWith isWord keywords front).all id then
    set (tokens.drop keywords.length)
    return true
  else return false

/-- A first way, or a second one from the same place where the first is not possible. -/
def either (first second : Scan α) : Scan α := fun tokens =>
  match first tokens with
  | .error .mismatch => second tokens
  | other => other

def descend (depth : Nat) : Scan Nat :=
  match depth with
  | 0 => throw .tooDeep
  | left + 1 => return left

/-! ### Names -/

/-- The text of a name; a string may stand for one. -/
def nameOf? : Token → Option String
  | .word s | .name s | .text s => some s
  | _ => none

def name : Scan String := do
  match ← get with
  | t :: rest =>
    match nameOf? t with
    | some s =>
      set rest
      return s
    | none => mismatch
  | [] => mismatch

/-- What follows a name after points; gives the last part. -/
def nameParts : Nat → String → Scan String
  | 0, _ => mismatch
  | fuel + 1, last => do
    if ← symbol "." then nameParts fuel (← name) else return last

/-- Words that end a selected expression and are no alias of it. -/
def columnStops : List String :=
  ["WITH", "EXPLAIN", "ANALYZE", "SELECT", "WHERE", "GROUP", "SORT", "HAVING", "ORDER", "TOP",
   "LATERAL", "VIEW", "LIMIT", "OFFSET", "FETCH", "UNION", "EXCEPT", "INTERSECT", "CLUSTER",
   "DISTRIBUTE", "RETURNING", "FROM", "INTO", "END"]

def tableStops : List String :=
  ["WITH", "EXPLAIN", "ANALYZE", "SELECT", "WHERE", "GROUP", "SORT", "HAVING", "ORDER", "PIVOT",
   "UNPIVOT", "TOP", "LATERAL", "VIEW", "LIMIT", "OFFSET", "FETCH", "UNION", "EXCEPT",
   "INTERSECT", "ON", "JOIN", "INNER", "CROSS", "FULL", "LEFT", "RIGHT", "NATURAL", "USING",
   "CLUSTER", "DISTRIBUTE", "GLOBAL", "ANTI", "SEMI", "RETURNING", "ASOF", "OUTER", "SET",
   "QUALIFY", "WINDOW", "END", "FOR", "PARTITION", "PREWHERE", "SETTINGS", "FORMAT", "START",
   "CONNECT", "MATCH_RECOGNIZE"]

/-- An alias, which needs no introduction unless it is one of the stopping words. -/
def alias? (stops : List String) : Scan Unit := do
  if ← word "AS" then
    let _ ← name
  else
    let _ ← accept fun t => (nameOf? t).isSome && !isOneOf stops t

def nameList : Nat → Scan Unit
  | 0 => mismatch
  | fuel + 1 => do
    let _ ← name
    if ← symbol "," then nameList fuel else expect (isSymbol ")")

/-! ### Types -/

/-- Whatever stands up to the closing parenthesis of an open one. -/
def untilClosed : Nat → Nat → Scan Unit
  | 0, _ => mismatch
  | fuel + 1, open_ => do
    if ← symbol "(" then untilClosed fuel (open_ + 1)
    else if ← symbol ")" then
      if open_ = 0 then return () else untilClosed fuel (open_ - 1)
    else
      expect fun t => t != .illegal
      untilClosed fuel open_

/-- A type: a name of one or two words, sizes, a time zone, brackets of an array. -/
def typeName (fuel : Nat) : Scan Unit := do
  let first ← name
  let _ ← nameParts fuel first
  let _ ← accept (isOneOf ["PRECISION", "VARYING", "UNSIGNED"])
  if ← symbol "(" then untilClosed fuel 0
  if (← words ["WITH", "TIME", "ZONE"]) || (← words ["WITHOUT", "TIME", "ZONE"]) then pure ()
  if ← symbol "[" then
    let _ ← accept fun t => t matches .number _
    expect (isSymbol "]")

/-! ### Expressions and queries -/

def binarySymbols : List String :=
  ["+", "-", "*", "/", "%", "=", "==", "<", ">", "<=", ">=", "<>", "!=", "||", "|", "&", "^",
   "<<", ">>", "->", "->>", "~"]

/-- Words that in front of a string make a constant: names of types, and the mark of national
characters. -/
def constantTypes : List String :=
  ["DATE", "TIME", "TIMESTAMP", "DATETIME", "TIMESTAMPTZ", "JSON", "BIGNUMERIC", "N"]

def isParameter : Token → Bool
  | .parameter _ => true
  | _ => false

def isConstant : Token → Bool
  | .text _ | .blob _ | .number _ | .parameter _ => true
  | _ => false

def isText : Token → Bool
  | .text _ => true
  | _ => false

def commas (item : Scan Unit) : Nat → Scan Unit
  | 0 => mismatch
  | fuel + 1 => do
    item
    if ← symbol "," then commas item fuel

def many (item : Scan Bool) : Nat → Scan Unit
  | 0 => mismatch
  | fuel + 1 => do
    if ← item then many item fuel

def closed (item : Scan α) : Scan α := do
  let a ← item
  expect (isSymbol ")")
  return a

def joinKind : Scan Bool := do
  if ← word "INNER" then return true
  else if ← accept (isOneOf ["LEFT", "RIGHT"]) then
    let _ ← accept (isOneOf ["OUTER", "SEMI", "ANTI"])
    return true
  else if ← word "FULL" then
    let _ ← word "OUTER"
    return true
  else return false

def atQuery : Scan Bool := peek (isOneOf ["SELECT", "WITH", "VALUES"])

mutual

def expression : Nat → Nat → Scan Unit
  | 0, _ => throw .tooDeep
  | fuel + 1, depth => do
    let depth ← descend depth
    operand fuel depth
    operators fuel depth

def operators : Nat → Nat → Scan Unit
  | 0, _ => throw .tooDeep
  | fuel + 1, depth => do
    if ← accept fun t => binarySymbols.any fun s => isSymbol s t then
      if ← accept (isOneOf ["ANY", "ALL", "SOME"]) then
        expect (isSymbol "(")
        closed (either (discardQuery fuel depth) (expression fuel depth))
      else operand fuel depth
      operators fuel depth
    else if ← accept (isOneOf ["AND", "OR", "XOR", "DIV", "OVERLAPS"]) then
      operand fuel depth
      operators fuel depth
    else if ← word "IS" then
      let _ ← word "NOT"
      if ← words ["DISTINCT", "FROM"] then operand fuel depth
      else expect (isOneOf ["NULL", "TRUE", "FALSE", "UNKNOWN"])
      operators fuel depth
    else if ← accept (isOneOf ["ISNULL", "NOTNULL"]) then operators fuel depth
    else if ← word "COLLATE" then
      let _ ← nameParts fuel (← name)
      operators fuel depth
    else if ← words ["AT", "TIME", "ZONE"] then
      operand fuel depth
      operators fuel depth
    else if ← symbol "::" then
      typeName fuel
      operators fuel depth
    else if ← symbol "[" then
      expression fuel depth
      expect (isSymbol "]")
      operators fuel depth
    else
      let negated ← word "NOT"
      if ← word "IN" then
        expect (isSymbol "(")
        if ← symbol ")" then pure ()
        else closed (either (discardQuery fuel depth) (commas (expression fuel depth) fuel))
        operators fuel depth
      else if ← word "BETWEEN" then
        operand fuel depth
        many (arithmetic fuel depth) fuel
        expect (isWord "AND")
        operand fuel depth
        operators fuel depth
      else if (← accept (isOneOf ["LIKE", "ILIKE", "RLIKE", "REGEXP"]))
          || (← words ["SIMILAR", "TO"]) then
        let _ ← word "ANY"
        operand fuel depth
        many (arithmetic fuel depth) fuel
        if ← word "ESCAPE" then expect isText
        operators fuel depth
      else if negated then mismatch

def arithmetic : Nat → Nat → Scan Bool
  | 0, _ => throw .tooDeep
  | fuel + 1, depth => do
    if ← accept fun t => ["+", "-", "*", "/", "%", "||"].any fun s => isSymbol s t then
      operand fuel depth
      return true
    else return false

def operand : Nat → Nat → Scan Unit
  | 0, _ => throw .tooDeep
  | fuel + 1, depth => do
    if (← word "NOT") || (← accept fun t => ["-", "+", "~"].any fun s => isSymbol s t) then
      let depth ← descend depth
      operand fuel depth
    else if ← symbol "(" then
      closed (either (discardQuery fuel depth) (commas (expression fuel depth) fuel))
    else if ← accept isConstant then pure ()
    else if ← word "CASE" then
      if !(← peek (isWord "WHEN")) then expression fuel depth
      expect (isWord "WHEN")
      whenBranch fuel depth
      many (do
        if ← word "WHEN" then
          whenBranch fuel depth
          return true
        else return false) fuel
      if ← word "ELSE" then expression fuel depth
      expect (isWord "END")
    else if ← word "INTERVAL" then
      operand fuel depth
      let _ ← accept (isOneOf ["YEAR", "MONTH", "WEEK", "DAY", "HOUR", "MINUTE", "SECOND"])
    else if (← word "EXISTS") then
      expect (isSymbol "(")
      closed (discardQuery fuel depth)
    else if ← word "TRIM" then
      expect (isSymbol "(")
      let _ ← accept (isOneOf ["BOTH", "LEADING", "TRAILING"])
      closed (do
        expression fuel depth
        if (← word "FROM") || (← symbol ",") then expression fuel depth)
    else
      match ← get with
      | t :: .text _ :: rest =>
        if isOneOf constantTypes t then set rest else namedOperand fuel depth
      | _ => namedOperand fuel depth

def whenBranch : Nat → Nat → Scan Unit
  | 0, _ => throw .tooDeep
  | fuel + 1, depth => do
    expression fuel depth
    expect (isWord "THEN")
    expression fuel depth

/-- A column, a call, or one of the calls with words inside their parentheses. -/
def namedOperand : Nat → Nat → Scan Unit
  | 0, _ => throw .tooDeep
  | fuel + 1, depth => do
    match ← get with
    | t :: .symbol "(" :: rest =>
      if isOneOf ["CAST", "TRY_CAST", "SAFE_CAST"] t then
        set rest
        expression fuel depth
        expect (isWord "AS")
        closed (typeName fuel)
      else if isWord "EXTRACT" t then
        set rest
        let _ ← name
        expect (isWord "FROM")
        closed (expression fuel depth)
      else if isWord "POSITION" t then
        set rest
        operand fuel depth
        many (arithmetic fuel depth) fuel
        expect (isWord "IN")
        closed (expression fuel depth)
      else if isOneOf ["CEIL", "FLOOR"] t then
        set rest
        expression fuel depth
        if ← word "TO" then
          let _ ← name
        else if ← symbol "," then expression fuel depth
        expect (isSymbol ")")
      else if isOneOf ["SUBSTRING", "OVERLAY"] t then
        set rest
        expression fuel depth
        many (do
          if (← accept (isOneOf ["FROM", "FOR", "PLACING"])) || (← symbol ",") then
            expression fuel depth
            return true
          else return false) fuel
        expect (isSymbol ")")
      else plainOperand fuel depth
    | t :: .symbol "[" :: rest =>
      if isWord "ARRAY" t then
        set rest
        if ← symbol "]" then pure ()
        else
          commas (expression fuel depth) fuel
          expect (isSymbol "]")
      else plainOperand fuel depth
    | _ => plainOperand fuel depth

def plainOperand : Nat → Nat → Scan Unit
  | 0, _ => throw .tooDeep
  | fuel + 1, depth => do
    match ← get with
    | .word s :: rest =>
      set rest
      let _ ← nameParts fuel s
      if ← symbol "(" then
        arguments fuel depth
        if ← words ["FILTER"] then
          expect (isSymbol "(")
          expect (isWord "WHERE")
          closed (expression fuel depth)
        if ← word "OVER" then
          if ← symbol "(" then untilClosed fuel 0
          else
            let _ ← name
    | .name s :: rest =>
      set rest
      let _ ← nameParts fuel s
    | _ => mismatch

def arguments : Nat → Nat → Scan Unit
  | 0, _ => throw .tooDeep
  | fuel + 1, depth => do
    if ← symbol ")" then pure ()
    else
      let _ ← accept (isOneOf ["DISTINCT", "ALL"])
      commas (argument fuel depth) fuel
      if ← words ["ORDER", "BY"] then commas (sortTerm fuel depth) fuel
      expect (isSymbol ")")

def argument : Nat → Nat → Scan Unit
  | 0, _ => throw .tooDeep
  | fuel + 1, depth => do
    if ← symbol "*" then pure ()
    else either (qualifiedStar fuel) (do
      expression fuel depth
      if ← symbol "=>" then expression fuel depth)

def qualifiedStar : Nat → Scan Unit
  | 0 => throw .tooDeep
  | fuel + 1 => do
    let _ ← name
    expect (isSymbol ".")
    if ← symbol "*" then pure () else qualifiedStar fuel

def sortTerm : Nat → Nat → Scan Unit
  | 0, _ => throw .tooDeep
  | fuel + 1, depth => do
    expression fuel depth
    let _ ← accept (isOneOf ["ASC", "DESC"])
    if ← word "NULLS" then expect (isOneOf ["FIRST", "LAST"])

def selectItem : Nat → Nat → Scan Unit
  | 0, _ => throw .tooDeep
  | fuel + 1, depth => do
    if ← symbol "*" then pure ()
    else either (qualifiedStar fuel) (do
      match ← get with
      | t :: next :: _ =>
        if isWord "FROM" t && !(isSymbol "." next || isSymbol "(" next) then mismatch
      | [t] => if isWord "FROM" t then mismatch
      | [] => mismatch
      expression fuel depth
      alias? columnStops)

def discardQuery : Nat → Nat → Scan Unit
  | 0, _ => throw .tooDeep
  | fuel + 1, depth => do
    if (← atQuery) || (← peek (isSymbol "(")) then
      let _ ← query fuel depth
    else mismatch

/-- A query; gives its first table if it is a plain selection from a plain table. -/
def query : Nat → Nat → Scan (Option String)
  | 0, _ => throw .tooDeep
  | fuel + 1, depth => do
    let depth ← descend depth
    if ← word "WITH" then
      let _ ← word "RECURSIVE"
      commas (commonTable fuel depth) fuel
    let first ← queryBody fuel depth
    if ← words ["ORDER", "BY"] then commas (sortTerm fuel depth) fuel
    many (pagePart fuel depth) fuel
    if ← word "FETCH" then
      expect (isOneOf ["FIRST", "NEXT"])
      let _ ← accept isConstant
      let _ ← word "PERCENT"
      expect (isOneOf ["ROW", "ROWS"])
      if !(← word "ONLY") then
        if !(← words ["WITH", "TIES"]) then mismatch
    many (do
      if ← word "FOR" then
        expect (isOneOf ["UPDATE", "SHARE"])
        if ← word "OF" then
          let _ ← nameParts fuel (← name)
        if !(← word "NOWAIT") then
          let _ ← words ["SKIP", "LOCKED"]
        return true
      else return false) fuel
    return first

def pagePart : Nat → Nat → Scan Bool
  | 0, _ => throw .tooDeep
  | fuel + 1, depth => do
    if ← word "LIMIT" then
      if !(← word "ALL") then expression fuel depth
      if ← symbol "," then expression fuel depth
      return true
    else if ← word "OFFSET" then
      expression fuel depth
      let _ ← accept (isOneOf ["ROW", "ROWS"])
      return true
    else return false

def commonTable : Nat → Nat → Scan Unit
  | 0, _ => throw .tooDeep
  | fuel + 1, depth => do
    let _ ← name
    if ← symbol "(" then nameList fuel
    expect (isWord "AS")
    let _ ← word "NOT"
    let _ ← word "MATERIALIZED"
    expect (isSymbol "(")
    closed (discardQuery fuel depth)

/-- A selection, a query in parentheses or rows.  Only a selection has a first table. -/
def queryTerm : Nat → Nat → Scan (Option String)
  | 0, _ => throw .tooDeep
  | fuel + 1, depth => do
    if ← word "SELECT" then selection fuel depth
    else if ← symbol "(" then
      let _ ← closed (query fuel depth)
      return none
    else
      expect (isWord "VALUES")
      commas (do
        let _ ← word "ROW"
        expect (isSymbol "(")
        if !(← symbol ")") then closed (commas (expression fuel depth) fuel)) fuel
      return none

/-- Terms of a query and what they are combined by.  Only a lone selection has a first table. -/
def queryBody : Nat → Nat → Scan (Option String)
  | 0, _ => throw .tooDeep
  | fuel + 1, depth => do
    let first ← queryTerm fuel depth
    if ← accept (isOneOf ["UNION", "EXCEPT", "INTERSECT"]) then
      if !(← accept (isOneOf ["ALL", "DISTINCT"])) then pure ()
      if ← words ["BY", "NAME"] then pure ()
      let _ ← queryBody fuel depth
      return none
    else return first

def selection : Nat → Nat → Scan (Option String)
  | 0, _ => throw .tooDeep
  | fuel + 1, depth => do
    if ← word "DISTINCT" then
      if ← word "ON" then
        expect (isSymbol "(")
        closed (commas (expression fuel depth) fuel)
    else
      let _ ← word "ALL"
    if ← word "TOP" then
      if ← symbol "(" then closed (expression fuel depth)
      else expect isConstant
    commas (selectItem fuel depth) fuel
    if ← word "INTO" then
      let _ ← nameParts fuel (← name)
    let first ←
      if ← word "FROM" then do
        let first ← joinedTables fuel depth
        many (do
          if ← symbol "," then
            let _ ← joinedTables fuel depth
            return true
          else return false) fuel
        pure first
      else pure none
    if ← word "PREWHERE" then expression fuel depth
    if ← word "WHERE" then expression fuel depth
    if ← words ["GROUP", "BY"] then
      if !(← word "ALL") then commas (expression fuel depth) fuel
      if ← word "WITH" then expect (isOneOf ["ROLLUP", "CUBE", "TOTALS"])
    if ← word "HAVING" then expression fuel depth
    if ← word "WINDOW" then
      commas (do
        let _ ← name
        expect (isWord "AS")
        if ← symbol "(" then untilClosed fuel 0
        else
          let _ ← name) fuel
    if ← word "QUALIFY" then expression fuel depth
    return first

/-- A table with the tables joined to it; gives the name of the first. -/
def joinedTables : Nat → Nat → Scan (Option String)
  | 0, _ => throw .tooDeep
  | fuel + 1, depth => do
    let first ← table fuel depth
    many (join fuel depth) fuel
    return first

def join : Nat → Nat → Scan Bool
  | 0, _ => throw .tooDeep
  | fuel + 1, depth => do
    let _ ← word "GLOBAL"
    if (← words ["CROSS", "JOIN"]) || (← words ["CROSS", "APPLY"])
        || (← words ["OUTER", "APPLY"]) then
      let _ ← table fuel depth
      return true
    else
      let natural ← word "NATURAL"
      let kind ← joinKind
      if ← word "JOIN" then
        let _ ← table fuel depth
        if natural then pure ()
        else if ← word "ON" then expression fuel depth
        else if ← word "USING" then
          expect (isSymbol "(")
          nameList fuel
        return true
      else if kind || natural then mismatch
      else return false

/-- A table: a name, a query with an alias, or tables in parentheses.  Parentheses around a lone
table change nothing. -/
def table : Nat → Nat → Scan (Option String)
  | 0, _ => throw .tooDeep
  | fuel + 1, depth => do
    if ← word "LATERAL" then
      expect (isSymbol "(")
      closed (discardQuery fuel depth)
      alias? tableStops
      return none
    else if ← symbol "(" then
      let derived : Scan (Option String) := do
        closed (discardQuery fuel depth)
        alias? tableStops
        if ← symbol "(" then nameList fuel
        return none
      let nested : Scan (Option String) := do
        let before ← get
        let first ← table fuel depth
        let afterTable ← get
        many (join fuel depth) fuel
        let afterJoins ← get
        expect (isSymbol ")")
        alias? tableStops
        return if afterTable.length = afterJoins.length && before.length ≠ afterJoins.length
          then first else none
      either derived nested
    else
      match ← get with
      | t :: .symbol "(" :: _ =>
        if isOneOf ["UNNEST", "TABLE", "JSON_TABLE"] t then
          let _ ← name
          expect (isSymbol "(")
          untilClosed fuel 0
          alias? tableStops
          return none
      | _ => pure ()
      let last ← nameParts fuel (← name)
      if ← word "PARTITION" then
        expect (isSymbol "(")
        nameList fuel
      if ← symbol "(" then arguments fuel depth
      alias? tableStops
      if ← symbol "(" then nameList fuel
      if ← words ["WITH"] then
        expect (isSymbol "(")
        untilClosed fuel 0
      return some last

end

/-! ### Texts -/

def statementWords : List String :=
  ["INSERT", "UPDATE", "DELETE", "CREATE", "DROP", "ALTER", "TRUNCATE", "SET", "BEGIN", "COMMIT",
   "ROLLBACK", "EXPLAIN", "SHOW", "USE", "GRANT", "REVOKE", "MERGE", "START", "SAVEPOINT",
   "RELEASE"]

def otherStatements (depth : Nat) : Nat → Scan Unit
  | 0 => mismatch
  | fuel + 1 => do
    match ← get with
    | [] => return ()
    | _ => do
      expect (isSymbol ";")
      many (symbol ";") fuel
      match ← get with
      | [] => return ()
      | t :: rest =>
        if isOneOf statementWords t then
          set (rest.dropWhile fun t => !isSymbol ";" t)
        else discardQuery fuel depth
        otherStatements depth fuel

def depthLimit : Nat := 50

/-- The first table of a text of statements that starts with a query. -/
def statements (fuel : Nat) : Scan (Option String) := do
  many (symbol ";") fuel
  if (← atQuery) || (← peek (isSymbol "(")) then
    let first ← query fuel (depthLimit - 1)
    otherStatements (depthLimit - 1) fuel
    return first
  else mismatch

/-- The first table of a recognised text.  Every step takes a token or goes down one of a fixed
number of rules, so a multiple of the number of tokens is fuel enough. -/
def recognised? (text : List Char) : Option String :=
  let tokens := (Token.split .general text).map (·.token)
  if tokens.contains .illegal then none
  else
    match statements (30 * tokens.length + 100) tokens with
    | .ok (first, _) => first
    | .error _ => none

/-! ### Any other text -/

/-- Letters that count as one of ASCII when case is ignored. -/
def isPlainLetter (c : Char) : Bool := c.isAlpha || c.toNat = 0x17F || c.toNat = 0x212A

def isPlainNameChar (c : Char) : Bool := isPlainLetter c || c.isDigit || c = '_'

def nameAfterFrom? (cs : List Char) : Option String :=
  match cs with
  | f :: r :: o :: m :: b :: rest =>
    if f.toUpper = 'F' ∧ r.toUpper = 'R' ∧ o.toUpper = 'O' ∧ m.toUpper = 'M' ∧ Text.isBlank b then
      match rest.dropWhile Text.isBlank with
      | c :: more =>
        if isPlainLetter c ∨ c = '_' then
          some (String.ofList (c :: more.takeWhile isPlainNameChar))
        else none
      | [] => none
    else none
  | _ => none

/-- The first name after the word FROM; `inside` tells whether a word goes on here. -/
def firstNamed? (inside : Bool) : List Char → Option String
  | [] => none
  | c :: rest =>
    match if inside then none else nameAfterFrom? (c :: rest) with
    | some name => some name
    | none => firstNamed? (Text.isWord c) rest

def sourceTable? (raw : String) : Option String :=
  match recognised? raw.toList with
  | some name => some name
  | none => firstNamed? false raw.toList

end Recordkeeper.Sql.Source
