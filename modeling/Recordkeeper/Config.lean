import Recordkeeper.Error

/-!
Contract: the settings of a repository.

Owns: the settings, their defaults and the values that are refused.

Does not own: what a backend does with a setting.
-/

set_option autoImplicit false

namespace Recordkeeper

/-- What becomes of a subquery the document compiler cannot translate. -/
inductive SubqueryPolicy where
  /-- It selects everything, and the degradation is recorded. -/
  | permissive
  /-- Compilation fails. -/
  | strict
  deriving DecidableEq, Repr

inductive RecordCodec where
  | json
  | binary
  deriving DecidableEq, Repr

/-- A span of time in microseconds. -/
abbrev Micros := Nat

structure Config where
  dialect : Dialect := .sqlite
  subqueryPolicy : SubqueryPolicy := .permissive
  /-- Put in front of every key of a key-value store. -/
  keyPrefix : String := ""
  /-- Keys asked for in one step of a scan. -/
  scanBatchSize : Nat := 100
  /-- Keys one scan may visit. -/
  maxScanKeys : Nat := 100000
  codec : RecordCodec := .json
  /-- Applies when a caller's context has no deadline. -/
  defaultTimeout : Option Micros := none
  deriving DecidableEq, Repr

namespace Config

def globCharacters : List Char := ['*', '?', '[']

def validate (c : Config) : Except Error Unit :=
  if c.scanBatchSize = 0 then refuse .zeroBatchSize
  else if c.maxScanKeys = 0 then refuse .zeroScanBound
  else if c.keyPrefix.toList.any globCharacters.contains then refuse .globPrefix
  else if c.defaultTimeout = some 0 then refuse .zeroDefaultTimeout
  else .ok ()

end Config

end Recordkeeper
