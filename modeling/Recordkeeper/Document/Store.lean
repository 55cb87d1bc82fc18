import Recordkeeper.Document.Compiler
import Recordkeeper.Document.Pipeline
import Recordkeeper.NameMap

/-!
Contract: a document store in memory.

Owns:
- collections, their unique indexes and the requests on them;
- sessions and transactions, which work on a copy and commit only if nobody else committed a
  write since.

Does not own: which documents a repository stores.

A request is a function from the store to its outcome and the store after it.
-/

set_option autoImplicit false

namespace Recordkeeper.Document

structure Collection where
  docs : List Json := []
  /-- Paths with a unique index besides the id. -/
  unique : List String := []

abbrev Collections := NameMap Collection

structure Snapshot where
  baseVersion : Nat
  collections : Collections
  dirty : Bool

abbrev SessionId := Nat

/-- Sessions with their open transactions, each session once. -/
abbrev Sessions := List (SessionId × Option Snapshot)

structure Store where
  collections : Collections := .empty
  /-- Raised by every committed write. -/
  version : Nat := 0
  sessions : Sessions := []
  nextSession : SessionId := 1
  /-- A standalone server refuses transactions. -/
  transactions : Bool := true

abbrev Request (α : Type) := Store → Outcome α × Store

/-! ### Uniqueness -/

def duplicateKey (collection path : String) (value : Json) : DocumentFailure :=
  .coded 11000
    ("E11000 duplicate key error collection: " ++ collection ++ " index: " ++ path
      ++ "_1 dup key: \x7b " ++ path ++ ": " ++ value.render ++ " \x7d")

def hasValueAt (path : String) (value doc : Json) : Bool :=
  match lookup doc path with
  | some v => v.equal value
  | none => false

/-- The first unique path whose value in `doc` some other document has.  Null and missing
values repeat freely. -/
def repeatedPath? (paths : List String) (others : List Json) (doc : Json) :
    Option (String × Json) :=
  paths.findSome? fun path =>
    match lookup doc path with
    | none => none
    | some value =>
      if !value.isNull && others.any (hasValueAt path value) then some (path, value) else none

/-- Checks the id and the unique indexes of a document against other documents. -/
def checkUnique (name : String) (coll : Collection) (others : List Json) (doc : Json) :
    Outcome Unit :=
  match repeatedPath? (idField :: coll.unique) others doc with
  | some (path, value) => .error (duplicateKey name path value)
  | none => .ok ()

/-! ### Changes of collections -/

/-- The documents before the first match, the match, and those after it. -/
def splitFirst (filter : Json) : List Json → Outcome (Option (List Json × Json × List Json))
  | [] => .ok none
  | doc :: rest => do
    let holds ← matchesFilter doc filter
    if holds then return some ([], doc, rest)
    else
      let found ← splitFirst filter rest
      return found.map fun r => (doc :: r.1, r.2)

/-- The documents that satisfy a filter and those that do not, both in order. -/
def splitAll (filter : Json) : List Json → Outcome (List Json × List Json)
  | [] => .ok ([], [])
  | doc :: rest => do
    let holds ← matchesFilter doc filter
    let (hits, others) ← splitAll filter rest
    return if holds then (doc :: hits, others) else (hits, doc :: others)

abbrev Change (α : Type) := Collections → Outcome (α × Collections)

def collectionOf (cols : Collections) (name : String) : Collection := (cols.get? name).getD {}

def insertDoc (name : String) (doc : Json) : Change Unit := fun cols => do
  let coll := collectionOf cols name
  checkUnique name coll coll.docs doc
  return ((), cols.insert name { coll with docs := coll.docs ++ [doc] })

/-- Changes the first document that satisfies a filter; answers how many were changed. -/
def changeFirst (name : String) (filter : Json) (change : Json → Json) : Change Nat :=
  fun cols =>
    match cols.get? name with
    | none => .ok (0, cols)
    | some coll => do
      match ← splitFirst filter coll.docs with
      | none => return (0, cols)
      | some (before, doc, after) =>
        let changed := change doc
        checkUnique name coll (before ++ after) changed
        return (1, cols.insert name { coll with docs := before ++ changed :: after })

def setFields (fields : Fields) : Json → Json
  | .object own => .object (fields.foldl (fun acc f => Fields.insert acc f.1 f.2) own)
  | other => other

/-- Puts a document in the place of another one, which keeps its id. -/
def replaceKeepingId (replacement : Fields) (old : Json) : Json :=
  .object (replacement.insert idField ((old.field? idField).getD .null))

def deleteDocs (name : String) (filter : Json) : Change Nat := fun cols =>
  match cols.get? name with
  | none => .ok (0, cols)
  | some coll => do
    let (hits, others) ← splitAll filter coll.docs
    return (hits.length, cols.insert name { coll with docs := others })

/-! ### Sessions -/

def endedSession (id : SessionId) : DocumentFailure :=
  .coded 251 ("session " ++ toString id ++ " has ended")

def Sessions.set (sessions : Sessions) (id : SessionId) (snapshot : Option Snapshot) : Sessions :=
  sessions.map fun s => if s.1 = id then (id, snapshot) else s

namespace Store

def new : Store := {}

/-- A store that refuses transactions. -/
def standalone : Store := { transactions := false }

def createUniqueIndex (name path : String) (s : Store) : Store :=
  let coll := collectionOf s.collections name
  if coll.unique.contains path then s
  else
    { s with
      collections := s.collections.insert name { coll with unique := coll.unique ++ [path] } }

/-- The collections a caller sees: the copy of its open transaction, or the committed ones. -/
def visible (session : Option SessionId) (s : Store) : Outcome Collections :=
  match session with
  | none => .ok s.collections
  | some id =>
    match s.sessions.lookup id with
    | none => .error (endedSession id)
    | some (some snapshot) => .ok snapshot.collections
    | some none => .ok s.collections

def read {α : Type} (session : Option SessionId) (answer : Collections → Outcome α) : Request α :=
  fun s => (s.visible session >>= answer, s)

/-- Changes committed collections; a change that succeeds raises the version. -/
def commitChange {α : Type} (change : Change α) : Request α := fun s =>
  match change s.collections with
  | .ok (a, cols) => (.ok a, { s with collections := cols, version := s.version + 1 })
  | .error e => (.error e, s)

/-- Changes what the caller sees.  Any write of a transaction marks its copy. -/
def write {α : Type} (session : Option SessionId) (change : Change α) : Request α := fun s =>
  match session with
  | none => commitChange change s
  | some id =>
    match s.sessions.lookup id with
    | none => (.error (endedSession id), s)
    | some none => commitChange change s
    | some (some snapshot) =>
      let (outcome, cols) :=
        match change snapshot.collections with
        | .ok (a, cols) => (.ok a, cols)
        | .error e => (.error e, snapshot.collections)
      (outcome,
        { s with
          sessions := s.sessions.set id (some { snapshot with collections := cols, dirty := true }) })

def docsOf (cols : Collections) (name : String) : List Json := (collectionOf cols name).docs

/-! ### Requests -/

def insertOne (session : Option SessionId) (name : String) (doc : Json) : Request Unit :=
  fun s =>
    let hasId := doc.fields?.isSome && !((lookup doc idField).getD .null).isNull
    if hasId then write session (insertDoc name doc) s
    else (badValue "document must be an object with an _id", s)

/-- The documents that satisfy a filter, ordered, cut and projected. -/
def find (session : Option SessionId) (name : String) (filter : Json) (options : FindOptions) :
    Request (List Json) :=
  read session fun cols => do
    let found ← select filter (docsOf cols name)
    let rest := (sortDocs options.sort found).drop (options.skip.getD 0)
    let page := match options.limit with
      | some n => rest.take n
      | none => rest
    match options.projection with
    | some spec => page.mapM fun doc => project doc spec
    | none => return page

def count (session : Option SessionId) (name : String) (filter : Json) : Request Nat :=
  read session fun cols => do
    let found ← select filter (docsOf cols name)
    return found.length

/-- Sets fields of the first match; the id cannot be set. -/
def updateOne (session : Option SessionId) (name : String) (filter set : Json) : Request Nat :=
  fun s =>
    match set with
    | .object fields =>
      if Fields.has fields idField then (badValue "the _id field is immutable", s)
      else write session (changeFirst name filter (setFields fields)) s
    | _ => (badValue "$set needs an object", s)

def replaceOne (session : Option SessionId) (name : String) (filter doc : Json) : Request Nat :=
  fun s =>
    match doc with
    | .object fields => write session (changeFirst name filter (replaceKeepingId fields)) s
    | _ => (badValue "replacement must be an object", s)

def deleteMany (session : Option SessionId) (name : String) (filter : Json) : Request Nat :=
  write session (deleteDocs name filter)

def aggregate (session : Option SessionId) (name : String) (pipeline : List Json) :
    Request (List Json) :=
  read session fun cols => runPipeline (docsOf cols name) pipeline

def startSession : Request SessionId := fun s =>
  (.ok s.nextSession,
    { s with
      sessions := s.sessions ++ [(s.nextSession, none)]
      nextSession := s.nextSession + 1 })

/-- Opens a transaction on a copy of the committed collections. -/
def startTransaction (id : SessionId) : Request Unit := fun s =>
  if !s.transactions then
    (.error (.coded 20
      "Transaction numbers are only allowed on a replica set member or mongos"), s)
  else
    match s.sessions.lookup id with
    | none => (.error (endedSession id), s)
    | some (some _) => (.error (.coded 251 "a transaction is already in progress"), s)
    | some none =>
      (.ok (), { s with sessions := s.sessions.set id (some ⟨s.version, s.collections, false⟩) })

/-- Ends a transaction.  A copy that was written to becomes the committed data, unless another
write was committed since the transaction started. -/
def commitTransaction (id : SessionId) : Request Unit := fun s =>
  match s.sessions.lookup id with
  | none => (.error (endedSession id), s)
  | some none => (.error (.coded 251 "no transaction in progress"), s)
  | some (some snapshot) =>
    let s := { s with sessions := s.sessions.set id none }
    if !snapshot.dirty then (.ok (), s)
    else if s.version ≠ snapshot.baseVersion then
      (.error { code := some 112, labels := [DocumentFailure.transientLabel],
                message := "WriteConflict" }, s)
    else (.ok (), { s with collections := snapshot.collections, version := s.version + 1 })

def abortTransaction (id : SessionId) : Request Unit := fun s =>
  match s.sessions.lookup id with
  | none => (.error (endedSession id), s)
  | some none => (.error (.coded 251 "no transaction in progress"), s)
  | some (some _) => (.ok (), { s with sessions := s.sessions.set id none })

def endSession (id : SessionId) (s : Store) : Store :=
  { s with sessions := s.sessions.filter fun x => x.1 != id }

end Store

end Recordkeeper.Document
