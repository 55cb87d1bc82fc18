import Recordkeeper.Description.Query
import Recordkeeper.Error

/-!
Contract: errors and native failures as documents.

Owns: the names of engine codes and client failures, and the documents of errors and failures.

Does not own: which kind a failure is given.
-/

set_option autoImplicit false

namespace Recordkeeper.Description

def errorKinds : List (String × ErrorKind) := ErrorKind.all.map fun k => (k.code, k)

def engineCodes : List (String × EngineCode) :=
  [("InternalMalfunction", .internal), ("PermissionDenied", .permissionDenied),
   ("OperationAborted", .aborted), ("DatabaseBusy", .busy), ("DatabaseLocked", .locked),
   ("OutOfMemory", .outOfMemory), ("ReadOnly", .readOnly),
   ("OperationInterrupted", .interrupted), ("SystemIoFailure", .ioFailure),
   ("DatabaseCorrupt", .corrupt), ("NotFound", .notFound), ("DiskFull", .diskFull),
   ("CannotOpen", .cannotOpen), ("FileLockingProtocolFailed", .lockProtocol),
   ("SchemaChanged", .schemaChanged), ("TooBig", .tooBig),
   ("ConstraintViolation", .constraint), ("TypeMismatch", .typeMismatch),
   ("ApiMisuse", .misuse), ("NoLargeFileSupport", .noLargeFiles),
   ("AuthorizationForStatementDenied", .notAuthorized), ("ParameterOutOfRange", .parameterRange),
   ("NotADatabase", .notADatabase), ("Unknown", .unknown)]

def clientFailures : List (String × SqlFailure) :=
  [("QueryReturnedNoRows", .noRows), ("FromSqlConversionFailure", .fromSqlConversion),
   ("IntegralValueOutOfRange", .integerRange), ("InvalidColumnType", .columnType),
   ("Utf8Error", .badText), ("ToSqlConversionFailure", .toSqlConversion),
   ("InvalidParameterName", .parameterName), ("InvalidParameterCount", .parameterCount 0 0),
   ("InvalidColumnIndex", .columnIndex), ("InvalidColumnName", .columnName),
   ("NulError", .nulByte), ("MultipleStatement", .multipleStatements),
   ("ExecuteReturnedResults", .returnedRows), ("InvalidQuery", .invalidQuery)]

def error : Reader Error := fun doc => do
  let kind ← required doc "error" (named errorKinds)
  let message ← required doc "message" text
  return .stated kind message none

def documentFailure : Reader DocumentFailure := fun doc => do
  let code ← optional doc "code" int
  let labels ← defaulted doc "labels" (list text) []
  let message ← required doc "message" text
  let notFound ← defaulted doc "not_found" bool false
  return { code, labels, message, notFound }

def keyValueFailure : Reader KeyValueFailure := fun doc =>
  (required doc "message" text).map fun m => ⟨m⟩

def ofError (e : Error) : Json :=
  .object [("error", .text e.kind.code), ("message", .text e.message)]

def ofDocumentFailure (f : DocumentFailure) : Json :=
  .object [("error", .text "DocumentFailure"), ("code", orNull .int f.code),
    ("labels", ofTexts f.labels), ("message", .text f.message)]

def ofKeyValueFailure (f : KeyValueFailure) : Json :=
  .object [("error", .text "KvFailure"), ("message", .text f.message)]

/-- A success as an object with one field, or the document of the failure. -/
def ofOutcome {ε α : Type} (failure : ε → Json) (success : α → Json) (r : Except ε α) : Json :=
  match r with
  | .ok a => .single "ok" (success a)
  | .error e => failure e

end Recordkeeper.Description
