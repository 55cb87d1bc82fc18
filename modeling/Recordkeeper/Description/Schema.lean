import Recordkeeper.Config
import Recordkeeper.Description.Reader
import Recordkeeper.Schema

/-!
Contract: schemas and settings as documents.

Owns: the names of kinds, strategies, dialects, policies and codecs, and the values of settings
that are left out.

Does not own: which schemas and settings are accepted.
-/

set_option autoImplicit false

namespace Recordkeeper.Description

def fieldKinds : List (String × FieldKind) :=
  [("Bool", .bool), ("Int", .int), ("Float", .float), ("Text", .text), ("Bytes", .bytes),
   ("Json", .json)]

def idStrategies : List (String × IdStrategy) :=
  [("Provided", .provided), ("AutoIncrement", .autoIncrement), ("Uuid", .uuid)]

def dialects : List (String × Dialect) :=
  [("Postgres", .postgres), ("MySql", .mysql), ("Sqlite", .sqlite)]

def policies : List (String × SubqueryPolicy) :=
  [("Permissive", .permissive), ("Strict", .strict)]

def codecs : List (String × RecordCodec) := [("Json", .json), ("Bincode", .binary)]

def fieldDef : Reader FieldDef := fun doc => do
  let name ← required doc "name" text
  let kind ← required doc "kind" (named fieldKinds)
  let column ← defaulted doc "column" text name
  let mandatory ← defaulted doc "required" bool false
  let unique ← defaulted doc "unique" bool false
  return { name, column, kind, nullable := !mandatory, unique }

def schema : Reader Schema := fun doc => do
  let name ← required doc "name" text
  let primaryKey ← required doc "primary_key" text
  let idStrategy ← defaulted doc "id_strategy" (named idStrategies) .provided
  let fields ← defaulted doc "fields" (list fieldDef) []
  return { name, primaryKey, idStrategy, fields }

/-- Settings; a timeout is given in milliseconds. -/
def config : Reader Config := fun doc => do
  let base : Config := {}
  let dialect ← defaulted doc "dialect" (named dialects) base.dialect
  let subqueryPolicy ← defaulted doc "subquery_policy" (named policies) base.subqueryPolicy
  let keyPrefix ← defaulted doc "key_prefix" text base.keyPrefix
  let scanBatchSize ← defaulted doc "scan_batch_size" nat base.scanBatchSize
  let maxScanKeys ← defaulted doc "max_scan_keys" nat base.maxScanKeys
  let codec ← defaulted doc "record_codec" (named codecs) base.codec
  let timeout ← optional doc "default_timeout_ms" nat
  return { dialect, subqueryPolicy, keyPrefix, scanBatchSize, maxScanKeys, codec,
           defaultTimeout := timeout.map (· * 1000) }

end Recordkeeper.Description
