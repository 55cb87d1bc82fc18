import Recordkeeper.Text.Classes

/-!
Contract: what a native failure of a backend means.

Owns:
- the canonical kinds, their codes, labels and whether a caller may try again;
- the failures a document store, a key-value store, a relational engine or a server reports;
- the one kind every failure is given.

Does not own: the library's own refusals, which are `Error`.

Structured codes decide first; the words of a message are the last resort, and what nothing
recognises counts as a lost connection.
-/

set_option autoImplicit false

namespace Recordkeeper

/-- Canonical kinds of errors.  Callers branch on these only. -/
inductive ErrorKind where
  | notFound
  | duplicate
  | validation
  | connection
  | transaction
  | timeout
  | unsupported
  | constraint
  | serialization
  | invalidArgument
  deriving DecidableEq, Repr

namespace ErrorKind

/-- Every kind, once. -/
def all : List ErrorKind :=
  [.notFound, .duplicate, .validation, .connection, .transaction, .timeout, .unsupported,
   .constraint, .serialization, .invalidArgument]

def code : ErrorKind → String
  | .notFound => "NOT_FOUND"
  | .duplicate => "DUPLICATE"
  | .validation => "VALIDATION"
  | .connection => "CONNECTION"
  | .transaction => "TRANSACTION"
  | .timeout => "TIMEOUT"
  | .unsupported => "UNSUPPORTED"
  | .constraint => "CONSTRAINT"
  | .serialization => "SERIALIZATION"
  | .invalidArgument => "INVALID_ARGUMENT"

def label : ErrorKind → String
  | .notFound => "Not found"
  | .duplicate => "Duplicate"
  | .validation => "Validation failed"
  | .connection => "Connection error"
  | .transaction => "Transaction error"
  | .timeout => "Timeout"
  | .unsupported => "Unsupported"
  | .constraint => "Constraint violation"
  | .serialization => "Serialization error"
  | .invalidArgument => "Invalid argument"

/-- Kinds whose cause may pass, so that the same call can succeed later. -/
def isRetryable : ErrorKind → Bool
  | .connection | .timeout | .transaction => true
  | _ => false

end ErrorKind

/-! ### Messages without a code -/

/-- The kind a message suggests by its words, in any case of ASCII letters. -/
def kindOfWords? (message : String) : Option ErrorKind :=
  let lower := message.toList.map Char.toLower
  let has (words : List String) : Bool := words.any fun w => Text.hasInfix w.toList lower
  if has ["not found"] || lower == "nil".toList || has ["redis: nil"] then some .notFound
  else if has ["busykey", "already exists", "duplicate"] then some .duplicate
  else if has ["timeout", "timed out", "deadline"] then some .timeout
  else if has ["execabort", "multi calls can not be nested", "exec without multi",
      "discard without multi", "watch inside multi"] then some .transaction
  else if has ["unknown command", "unsupported", "not supported"] then some .unsupported
  else if has ["wrongtype", "decode", "serializ"] then some .serialization
  else if has ["noauth", "wrongpass", "refused", "broken pipe", "connection"] then
    some .connection
  else none

/-! ### Document stores -/

/-- A failure a document store reports. -/
structure DocumentFailure where
  code : Option Int := none
  labels : List String := []
  message : String
  notFound : Bool := false
  deriving DecidableEq, Repr, Inhabited

namespace DocumentFailure

/-- A failure with a server code. -/
def coded (code : Int) (message : String) : DocumentFailure := { code := some code, message }

def badValue (message : String) : DocumentFailure := coded 2 message

/-- Label of a failure after which the whole transaction may be tried again. -/
def transientLabel : String := "TransientTransactionError"

def kindOfCode? (code : Int) : Option ErrorKind :=
  if code ∈ [11000, 11001, 12582] then some .duplicate
  else if code ∈ [121, 2, 9, 14] then some .validation
  else if code ∈ [50, 262] then some .timeout
  else if code ∈ [20, 112, 225, 251, 256, 263] then some .transaction
  else if code ∈ [6, 7, 13, 18, 89, 91, 189, 9001] then some .connection
  else if code ∈ [115, 168, 303, 40324] then some .unsupported
  else none

/-- The mark for missing documents decides first, then the transient label, the code, and the
words of the message. -/
def kind (f : DocumentFailure) : ErrorKind :=
  if f.notFound then .notFound
  else if f.labels.contains transientLabel then .transaction
  else
    match f.code.bind kindOfCode? with
    | some k => k
    | none => (kindOfWords? f.message).getD .connection

/-- Text of the failure as a cause. -/
def display (f : DocumentFailure) : String :=
  let code :=
    match f.code with
    | some c => " " ++ toString c
    | none => ""
  "document store error" ++ code ++ ": " ++ f.message

end DocumentFailure

/-! ### Key-value stores -/

/-- A failure a key-value store reports: text only. -/
structure KeyValueFailure where
  message : String
  deriving DecidableEq, Repr, Inhabited

namespace KeyValueFailure

def kind (f : KeyValueFailure) : ErrorKind := (kindOfWords? f.message).getD .connection

/-- Text of the failure as a cause. -/
def display (f : KeyValueFailure) : String := "key-value store error: " ++ f.message

end KeyValueFailure

/-! ### Relational engines -/

inductive EngineCode where
  | internal
  | permissionDenied
  | aborted
  | busy
  | locked
  | outOfMemory
  | readOnly
  | interrupted
  | ioFailure
  | corrupt
  | notFound
  | diskFull
  | cannotOpen
  | lockProtocol
  | schemaChanged
  | tooBig
  | constraint
  | typeMismatch
  | misuse
  | noLargeFiles
  | notAuthorized
  | parameterRange
  | notADatabase
  | unknown
  deriving DecidableEq, Repr

def uniqueViolation : Int := 2067

def primaryKeyViolation : Int := 1555

/-- A failure of the relational engine or of its client. -/
inductive SqlFailure where
  /-- The engine refused or stopped a statement. -/
  | engine (code : EngineCode) (extended : Int) (message : String)
  /-- The statement's text could not be prepared. -/
  | rejected (message : String)
  | noRows
  | fromSqlConversion
  | integerRange
  | columnType
  | badText
  | toSqlConversion
  | parameterName
  | parameterCount (got needed : Nat)
  | columnIndex
  | columnName
  | nulByte
  | multipleStatements
  | returnedRows
  | invalidQuery
  | other
  deriving DecidableEq, Repr

namespace SqlFailure

/-- The kind an engine code stands for; of the broken constraints only repeated values count
as duplicates. -/
def kindOfCode (code : EngineCode) (extended : Int) : ErrorKind :=
  match code with
  | .constraint =>
    if extended = uniqueViolation ∨ extended = primaryKeyViolation then .duplicate
    else .constraint
  | .busy | .locked | .interrupted => .timeout
  | .tooBig | .parameterRange | .typeMismatch => .validation
  | _ => .connection

def kind : SqlFailure → ErrorKind
  | .noRows => .notFound
  | .engine code extended _ => kindOfCode code extended
  | .fromSqlConversion | .integerRange | .columnType | .badText | .toSqlConversion =>
    .serialization
  | .parameterName | .parameterCount _ _ | .columnIndex | .columnName | .nulByte
  | .multipleStatements | .returnedRows | .invalidQuery => .invalidArgument
  | .rejected _ | .other => .connection

/-- Text of the failure. -/
def message : SqlFailure → String
  | .engine _ _ message => message
  | .rejected message => message
  | .noRows => "Query returned no rows"
  | .fromSqlConversion => "Conversion error"
  | .integerRange => "Integer out of range"
  | .columnType => "Invalid column type"
  | .badText => "invalid utf-8 sequence"
  | .toSqlConversion => "Conversion error"
  | .parameterName => "Invalid parameter name"
  | .parameterCount got needed =>
    "Wrong number of parameters passed to query. Got " ++ toString got ++ ", needed "
      ++ toString needed
  | .columnIndex => "Invalid column index"
  | .columnName => "Invalid column name"
  | .nulByte => "nul byte found in provided data"
  | .multipleStatements => "Multiple statements provided"
  | .returnedRows => "Execute returned results - did you mean to call query?"
  | .invalidQuery => "Query is not read-only"
  | .other => "relational engine failure"

end SqlFailure

/-! ### Servers reached over a wire protocol -/

/-- The kind of a five-character state code: a few whole codes, then the class in the first
two bytes. -/
def kindOfState (state : String) : ErrorKind :=
  if state = "23505" then .duplicate
  else if state = "40001" ∨ state = "40P01" then .transaction
  else if state = "57014" then .timeout
  else if state = "0A000" then .unsupported
  else
    match state.toList with
    | '2' :: '3' :: _ => .constraint
    | '2' :: '5' :: _ => .transaction
    | '0' :: '8' :: _ | '2' :: '8' :: _ => .connection
    | '2' :: '2' :: _ => .validation
    | '4' :: '2' :: _ => .invalidArgument
    | _ => .connection

def kindOfNumber (number : Nat) : ErrorKind :=
  if number = 1062 then .duplicate
  else if number ∈ [1451, 1452, 1048, 3819] then .constraint
  else if number ∈ [1205, 3024] then .timeout
  else if number = 1213 then .transaction
  else if number = 1235 then .unsupported
  else .connection

end Recordkeeper
