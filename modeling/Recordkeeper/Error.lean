import Recordkeeper.Failure
import Recordkeeper.Operator
import Recordkeeper.Value

/-!
Contract: the errors of the library as causes, with one wording each.

Owns:
- `Refusal`, everything the library itself refuses;
- `Error`, a refusal, a native failure, a stated error or one of these with a context;
- the kind, message, cause and display of an error.

Does not own: when an error arises.
-/

set_option autoImplicit false

namespace Recordkeeper

inductive Shape where
  | scalar
  | nonNull
  | list
  | scalarList
  | pattern
  | bounds
  deriving DecidableEq, Repr

def Shape.words : Shape → String
  | .scalar => "a scalar value"
  | .nonNull => "a non-null value"
  | .list => "a list of values"
  | .scalarList => "a list of non-null scalar values"
  | .pattern => "a string pattern"
  | .bounds => "an ordered pair [low, high]"

/-- Parts of a query that only the relational backend serves. -/
inductive RelationalPart where
  | joins
  | preloads
  | rowLocks
  | subqueries
  deriving DecidableEq, Repr

def RelationalPart.words : RelationalPart → String
  | .joins => "joins"
  | .preloads => "preloads"
  | .rowLocks => "row locks"
  | .subqueries => "subquery conditions"

inductive Backend where
  | relational
  | document
  | keyValue
  deriving DecidableEq, Repr

def Backend.words : Backend → String
  | .relational => "relational"
  | .document => "document"
  | .keyValue => "key-value"

/-- What the library refuses on its own account. -/
inductive Refusal where
  -- conditions
  | emptyField
  | shape (op : Operator) (field : String) (expected : Shape) (got : ValueType)
  | invalidRegex (field : String)
  | needsSubquery (op : Operator)
  | emptySubquery
  | existsOperator (op : Operator)
  | inOperator (op : Operator)
  | scalarOperator (op : Operator)
  | correlatedOperator (op : Operator)
  | correlatedWithoutField
  | subqueryWithoutField
  -- queries and statements
  | invalidIdentifier (name : String)
  | placeholderCount (placeholders args : Nat)
  | havingWithoutGroup
  | notGrouped (field : String)
  | noFullJoin
  | noRowLock (mode : LockMode)
  | deleteTakesConditionsOnly
  | insertWithoutColumn
  | updateWithoutField
  | subqueryOperator (op : Operator)
  | unsupportedPart (part : RelationalPart) (backend : Backend)
  | untranslatable (reason : String)
  | deleteBySubquery
  -- schemas and configurations
  | emptySchemaName
  | undeclaredKey (key schema : String)
  | duplicateField (field : String)
  | autoIncrementKind
  | invalidId (schema : String) (got : ValueType)
  | zeroBatchSize
  | zeroScanBound
  | globPrefix
  | zeroDefaultTimeout
  -- contexts and transactions
  | cancelled
  | deadlineExceeded
  | connectionBusy
  | invalidTransition (source target : TxState)
  | handleUsed (state : TxState)
  | noTransactions
  | nestedTransaction
  | keyValueTransaction
  -- entities and repositories
  | notAnObject (schema : String)
  | jsonSyntax
  | jsonData (problem : String)
  | malformedRecord
  | idRequired (schema key : String)
  | emptyPartial
  | partialKey (field : String)
  | unknownField (field schema : String)
  | updateWithoutId
  | recordsNeedId (backend : Backend)
  | noRecordWithId (schema id : String)
  | noMatch (schema : String)
  | noRecordAt (key : String)
  | keyExists (key : String)
  | emptyId
  | scanBound (schema : String) (bound : Nat)
  | zeroTtl
  | autoIncrementUnsupported
  | noDriver (dialect : Dialect)
  deriving DecidableEq, Repr

namespace Refusal

def kind : Refusal → ErrorKind
  | .emptyField | .shape .. | .invalidRegex _ | .needsSubquery _ | .emptySubquery
  | .existsOperator _ | .inOperator _ | .scalarOperator _ | .correlatedOperator _
  | .correlatedWithoutField | .subqueryWithoutField | .invalidIdentifier _
  | .placeholderCount .. | .havingWithoutGroup | .notGrouped _ | .subqueryOperator _
  | .untranslatable _ | .deleteBySubquery | .partialKey _ | .unknownField .. => .validation
  | .noFullJoin | .noRowLock _ | .unsupportedPart .. | .nestedTransaction
  | .keyValueTransaction | .autoIncrementUnsupported | .noDriver _ => .unsupported
  | .deleteTakesConditionsOnly | .insertWithoutColumn | .updateWithoutField | .emptySchemaName
  | .undeclaredKey .. | .duplicateField _ | .autoIncrementKind | .invalidId ..
  | .zeroBatchSize | .zeroScanBound | .globPrefix | .zeroDefaultTimeout | .idRequired ..
  | .emptyPartial | .updateWithoutId | .recordsNeedId _ | .emptyId | .scanBound .. | .zeroTtl =>
    .invalidArgument
  | .cancelled | .deadlineExceeded | .connectionBusy => .timeout
  | .invalidTransition .. | .handleUsed _ | .noTransactions => .transaction
  | .notAnObject _ | .jsonSyntax | .jsonData _ | .malformedRecord => .serialization
  | .noRecordWithId .. | .noMatch _ | .noRecordAt _ => .notFound
  | .keyExists _ => .duplicate

def message : Refusal → String
  | .emptyField => "condition field must not be empty"
  | .shape op field expected got =>
    op.display ++ " on '" ++ field ++ "' expects " ++ expected.words ++ ", got " ++ got.name
  | .invalidRegex field => "invalid regex for '" ++ field ++ "': <regex error>"
  | .needsSubquery op => "operator " ++ op.display ++ " requires a subquery condition"
  | .emptySubquery => "subquery text must not be empty"
  | .existsOperator op => "EXISTS subquery cannot use operator " ++ op.display
  | .inOperator op => "IN subquery cannot use operator " ++ op.display
  | .scalarOperator op => "scalar subquery needs a comparison operator, got " ++ op.display
  | .correlatedOperator op =>
    "correlated subquery on a field cannot use operator " ++ op.display
  | .correlatedWithoutField =>
    "correlated subquery without a field must be EXISTS or NOT EXISTS"
  | .subqueryWithoutField => "subquery comparison requires a field"
  | .invalidIdentifier name => "invalid identifier: " ++ Text.quoted name
  | .placeholderCount placeholders args =>
    "subquery has " ++ toString placeholders ++ " placeholders but " ++ toString args ++ " args"
  | .havingWithoutGroup => "HAVING requires GROUP BY"
  | .notGrouped field => "selected field '" ++ field ++ "' is not in GROUP BY"
  | .noFullJoin => "MySQL has no FULL JOIN"
  | .noRowLock mode => "SQLite does not support row lock mode " ++ mode.name
  | .deleteTakesConditionsOnly => "delete by condition accepts conditions only"
  | .insertWithoutColumn => "insert needs at least one column"
  | .updateWithoutField => "update needs at least one field"
  | .subqueryOperator op => "subquery cannot be rendered with operator " ++ op.display
  | .unsupportedPart part backend =>
    part.words ++ " are not supported by the " ++ backend.words ++ " backend"
  | .untranslatable reason =>
    "subquery cannot be translated for the document backend: " ++ reason
  | .deleteBySubquery => "document stores cannot delete by a subquery condition"
  | .emptySchemaName => "schema name must not be empty"
  | .undeclaredKey key schema =>
    "primary key '" ++ key ++ "' is not a declared field of '" ++ schema ++ "'"
  | .duplicateField field => "duplicate field '" ++ field ++ "'"
  | .autoIncrementKind => "auto-increment primary keys must be Int fields"
  | .invalidId schema got => "invalid id for '" ++ schema ++ "': " ++ got.name
  | .zeroBatchSize => "scan_batch_size must be greater than 0"
  | .zeroScanBound => "max_scan_keys must be greater than 0"
  | .globPrefix => "key_prefix must not contain glob characters"
  | .zeroDefaultTimeout => "default_timeout must be greater than 0 when set"
  | .cancelled => "operation cancelled"
  | .deadlineExceeded => "deadline exceeded"
  | .connectionBusy => "timed out waiting for the connection"
  | .invalidTransition source target =>
    "invalid transaction transition from " ++ source.name ++ " to " ++ target.name
  | .handleUsed state => "transaction handle used while " ++ state.name
  | .noTransactions => "the document store does not support transactions"
  | .nestedTransaction => "nested transactions are not supported"
  | .keyValueTransaction => "the key-value backend does not support transactions"
  | .notAnObject schema => "entity for '" ++ schema ++ "' must serialize to an object"
  | .jsonSyntax => "JSON: <syntax error>"
  | .jsonData problem => "JSON: " ++ problem
  | .malformedRecord => "bincode: <error>"
  | .idRequired schema key => "'" ++ schema ++ "' requires a caller-provided '" ++ key ++ "'"
  | .emptyPartial => "partial update needs at least one field"
  | .partialKey field => "primary key '" ++ field ++ "' cannot be updated"
  | .unknownField field schema => "'" ++ field ++ "' is not a field of '" ++ schema ++ "'"
  | .updateWithoutId => "update needs an entity with an id"
  | .recordsNeedId backend => backend.words ++ " records need an id"
  | .noRecordWithId schema id => schema ++ "/" ++ id
  | .noMatch schema => "no " ++ schema ++ " record matches"
  | .noRecordAt key => "no record at '" ++ key ++ "'"
  | .keyExists key => "'" ++ key ++ "' already exists"
  | .emptyId => "record id must not be empty"
  | .scanBound schema bound =>
    "scan of '" ++ schema ++ "' exceeded max_scan_keys (" ++ toString bound ++ ")"
  | .zeroTtl => "ttl must be greater than 0"
  | .autoIncrementUnsupported =>
    "auto-increment ids need the relational backend; use Uuid or Provided"
  | .noDriver dialect =>
    "no " ++ dialect.name ++ " driver is bundled; only SQLite connections are supported"

end Refusal

inductive Error where
  /-- An error a caller states, with the text of its cause if it has one. -/
  | stated (kind : ErrorKind) (message : String) (cause : Option String)
  | refused (reason : Refusal)
  | document (failure : DocumentFailure)
  | keyValue (failure : KeyValueFailure)
  | sql (failure : SqlFailure)
  /-- An error with words in front of its message. -/
  | within (context : String) (error : Error)
  deriving DecidableEq, Repr

namespace Error

def kind : Error → ErrorKind
  | .stated kind _ _ => kind
  | .refused reason => reason.kind
  | .document failure => failure.kind
  | .keyValue failure => failure.kind
  | .sql failure => failure.kind
  | .within _ error => error.kind

def message : Error → String
  | .stated _ message _ => message
  | .refused reason => reason.message
  | .document failure => failure.message
  | .keyValue failure => failure.message
  | .sql failure => failure.message
  | .within context error => context ++ ": " ++ error.message

/-- Text of the native failure behind an error, for diagnostics only. -/
def cause? : Error → Option String
  | .stated _ _ cause => cause
  | .refused _ => none
  | .document failure => some failure.display
  | .keyValue failure => some failure.display
  | .sql failure => some failure.message
  | .within _ error => error.cause?

def display (e : Error) : String := e.kind.label ++ ": " ++ e.message

def isRetryable (e : Error) : Bool := e.kind.isRetryable

def ofState (state message : String) : Error :=
  .stated (kindOfState state) ("[" ++ state ++ "] " ++ message) none

def ofNumber (number : Nat) (message : String) : Error :=
  .stated (kindOfNumber number) ("MySQL error " ++ toString number ++ ": " ++ message) none

/-- A context changes the message of an error and nothing else. -/
@[simp] theorem kind_within (context : String) (e : Error) :
    (Error.within context e).kind = e.kind := rfl

end Error

def refuse {α : Type} (reason : Refusal) : Except Error α := .error (.refused reason)

end Recordkeeper
