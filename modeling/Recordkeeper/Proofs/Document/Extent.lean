import Recordkeeper.Proofs.Deletion
import Recordkeeper.Proofs.Document.Overlay

/-!
Contract: how far a call of a document store reaches.

Owns:
- the ways in which a call fails: it changes nothing, marks the copy of its caller, or is a commit
  that meets a conflict;
- what every failed call leaves as it was;
- what a change of one document and a deletion leave as it was;
- `requests_spare`: all of it, for any store.

Does not own: which calls fail, and what a call does in a history (`Proofs.Document.Serial`).
-/

set_option autoImplicit false

namespace Recordkeeper.Document

open Store (docsOf)

/-! ### Failed calls -/

def writeConflict : DocumentFailure where
  code := some 112
  labels := [DocumentFailure.transientLabel]
  message := "WriteConflict"

/-- How a call fails, and the store after it. -/
inductive Call.Fails (s : Store) : Call → DocumentFailure → Store → Prop
  | unchanged (call : Call) (failure : DocumentFailure) : Fails s call failure s
  | marks {id : SessionId} {copy : Snapshot} (op : Operation) (failure : DocumentFailure)
      (inside : s.sessions.lookup id = some (some copy)) :
      Fails s (.operation (some id) op) failure
        (s.withCopy id (some { copy with dirty := true }))
  | conflicts {id : SessionId} {copy : Snapshot}
      (inside : s.sessions.lookup id = some (some copy)) (written : copy.dirty = true)
      (overtaken : s.version ≠ copy.baseVersion) :
      Fails s (.commitTransaction id) writeConflict (s.withCopy id none)

theorem replied_failed {α : Type} {wrap : α → Reply} {request : Request α} {s : Store}
    {failure : DocumentFailure} (failed : (replied wrap request s).1 = .error failure) :
    (request s).1 = .error failure := by
  unfold replied at failed
  cases answered : (request s).1 with
  | ok a =>
      rw [answered] at failed
      cases failed
  | error other =>
      rw [answered] at failed
      cases failed
      rfl

theorem Operation.fails {op : Operation} {session : Option SessionId} {s : Store}
    {failure : DocumentFailure} (failed : (op.request session s).1 = .error failure) :
    Call.Fails s (.operation session op) failure (op.request session s).2 := by
  cases inside : s.copyOf? session with
  | none =>
      rcases op.request_outside inside with ⟨other, refused⟩ | alone
      · rw [refused]
        exact .unchanged _ _
      · rw [alone, op.request_alone] at failed ⊢
        have unanswered : (op.apply s.collections).1 = .error failure := failed
        rw [unanswered, Except.toOption, Option.isSome_none, Bool.and_false,
          if_neg Bool.false_ne_true]
        exact .unchanged _ _
  | some copy =>
      cases session with
      | none => cases inside
      | some id =>
          rw [op.request_inside inside] at failed ⊢
          have unanswered : (op.apply copy.collections).1 = .error failure := failed
          have kept : (op.apply copy.collections).2 = copy.collections :=
            Operation.apply_error (by rw [unanswered]; rfl)
          rw [kept]
          split
          · exact .marks op failure (Store.lookup_of_copyOf? inside)
          · exact .unchanged _ _

theorem Store.commitTransaction_fails {id : SessionId} {s : Store} {failure : DocumentFailure}
    (failed : (commitTransaction id s).1 = .error failure) :
    Call.Fails s (.commitTransaction id) failure (commitTransaction id s).2 := by
  rcases inside : s.sessions.lookup id with _ | _ | copy
  · simp only [commitTransaction, inside]
    exact .unchanged _ _
  · simp only [commitTransaction, inside]
    exact .unchanged _ _
  · rw [commitTransaction_copy inside] at failed ⊢
    by_cases written : copy.dirty
    · by_cases current : s.version = copy.baseVersion
      · rw [if_pos written, if_pos current] at failed
        cases failed
      · rw [if_pos written, if_neg current] at failed ⊢
        cases failed
        exact .conflicts inside written current
    · rw [if_neg written] at failed
      cases failed

theorem Call.fails {call : Call} {s : Store} {failure : DocumentFailure}
    (failed : (call.request s).1 = .error failure) :
    call.Fails s failure (call.request s).2 := by
  cases call with
  | operation session op => exact op.fails failed
  | supportsTransactions => cases failed
  | startSession => cases failed
  | endSession id => cases failed
  | startTransaction id =>
      have refused := replied_failed failed
      show Call.Fails s _ failure (Store.startTransaction id s).2
      unfold Store.startTransaction at refused ⊢
      split
      · exact .unchanged _ _
      next supported =>
        rw [if_neg supported] at refused
        rcases slot : s.sessions.lookup id with _ | _ | copy
        · exact .unchanged _ _
        · rw [slot] at refused
          cases refused
        · exact .unchanged _ _
  | commitTransaction id => exact Store.commitTransaction_fails (replied_failed failed)
  | abortTransaction id =>
      have refused := replied_failed failed
      show Call.Fails s _ failure (Store.abortTransaction id s).2
      unfold Store.abortTransaction at refused ⊢
      rcases slot : s.sessions.lookup id with _ | _ | copy
      · exact .unchanged _ _
      · exact .unchanged _ _
      · rw [slot] at refused
        cases refused

/-- What a failed call leaves of the session it was made in, by the slot of the session.  An open
copy keeps its documents and its version, unless the call was a commit that met a conflict. -/
def Call.SlotSpared (s : Store) (call : Call) (failure : DocumentFailure) (id : SessionId)
    (slot after : Option (Option Snapshot)) : Prop :=
  match slot with
  | some (some copy) =>
    (∃ kept : Snapshot, after = some (some kept) ∧ kept.collections = copy.collections ∧
        kept.baseVersion = copy.baseVersion) ∨
      (call = .commitTransaction id ∧ failure = writeConflict ∧ copy.dirty = true ∧
        s.version ≠ copy.baseVersion ∧ after = some none)
  | other => after = other

/-- What a failed call leaves as it was. -/
structure Call.Spares (s : Store) (call : Call) (failure : DocumentFailure) (after : Store) :
    Prop where
  collections : after.collections = s.collections
  version : after.version = s.version
  known : after.sessions.map Prod.fst = s.sessions.map Prod.fst
  others : ∀ id, call.session? ≠ some id → after.sessions.lookup id = s.sessions.lookup id
  own : ∀ id, call.session? = some id →
    call.SlotSpared s failure id (s.sessions.lookup id) (after.sessions.lookup id)

theorem Call.SlotSpared.refl (s : Store) (call : Call) (failure : DocumentFailure)
    (id : SessionId) (slot : Option (Option Snapshot)) :
    call.SlotSpared s failure id slot slot := by
  rcases slot with _ | _ | copy
  · rfl
  · rfl
  · exact .inl ⟨copy, rfl, rfl, rfl⟩

theorem Sessions.set_ids (sessions : Sessions) (id : SessionId) (slot : Option Snapshot) :
    (sessions.set id slot).map Prod.fst = sessions.map Prod.fst := by
  unfold set
  rw [List.map_map]
  refine List.map_congr_left fun entry _ => ?_
  by_cases own : entry.1 = id
  · simp [own]
  · simp [own]

theorem Store.lookup_withCopy_own {s : Store} {id : SessionId} {copy : Snapshot}
    (inside : s.sessions.lookup id = some (some copy)) (slot : Option Snapshot) :
    (s.withCopy id slot).sessions.lookup id = some slot := by
  show (s.sessions.set id slot).lookup id = _
  rw [Sessions.lookup_set, if_pos rfl, inside]
  rfl

theorem Call.Fails.spares {s after : Store} {call : Call} {failure : DocumentFailure}
    (fails : call.Fails s failure after) : call.Spares s failure after := by
  have differs {id other : SessionId} (foreign : some id ≠ some other) : id ≠ other :=
    fun same => foreign (congrArg some same)
  cases fails with
  | unchanged => exact ⟨rfl, rfl, rfl, fun _ _ => rfl, fun id _ => .refl s call failure id _⟩
  | @marks id copy op _ inside =>
      refine ⟨rfl, rfl, Sessions.set_ids _ _ _, fun other foreign => ?_, fun other own => ?_⟩
      · exact Store.lookup_withCopy (differs foreign) _
      · obtain rfl := Option.some.inj own
        rw [Store.lookup_withCopy_own inside, inside]
        exact .inl ⟨_, rfl, rfl, rfl⟩
  | @conflicts id copy inside written overtaken =>
      refine ⟨rfl, rfl, Sessions.set_ids _ _ _, fun other foreign => ?_, fun other own => ?_⟩
      · exact Store.lookup_withCopy (differs foreign) _
      · obtain rfl := Option.some.inj own
        rw [Store.lookup_withCopy_own inside, inside]
        exact .inr ⟨rfl, rfl, written, overtaken, rfl⟩

/-! ### Changes that succeed -/

theorem splitFirst_none {filter : Json} {docs : List Json}
    (unmatched : splitFirst filter docs = .ok none) :
    ∀ doc ∈ docs, matchesFilter doc filter = .ok false := by
  induction docs with
  | nil => exact List.forall_mem_nil _
  | cons doc rest inductionHypothesis =>
      unfold splitFirst at unmatched
      obtain ⟨holds, tested, unmatched⟩ := exists_of_bind unmatched
      cases holds with
      | true => cases unmatched
      | false =>
          obtain ⟨later, split, unmatched⟩ := exists_of_bind unmatched
          cases later with
          | none => exact List.forall_mem_cons.2 ⟨tested, inductionHypothesis split⟩
          | some parts => cases unmatched

theorem changeFirst_zero {name : String} {filter : Json} {change : Json → Json}
    {cols after : Collections} (done : changeFirst name filter change cols = .ok (0, after)) :
    ∀ doc ∈ docsOf cols name, matchesFilter doc filter = .ok false := by
  unfold changeFirst at done
  unfold docsOf collectionOf
  cases found : cols.get? name with
  | none => exact List.forall_mem_nil _
  | some coll =>
      rw [found] at done
      obtain ⟨parts, split, changes⟩ := exists_of_bind done
      cases parts with
      | none => exact splitFirst_none split
      | some parts =>
          obtain ⟨_, -, changed⟩ := exists_of_bind changes
          cases changed

/-- Of the documents of a collection the first that satisfies a filter was changed, or none does and
nothing was. -/
def AtMostFirst (filter : Json) (change : Json → Json) (name : String)
    (cols after : Collections) (n : Nat) : Prop :=
  (n = 0 ∧ after = cols ∧ ∀ doc ∈ docsOf cols name, matchesFilter doc filter = .ok false) ∨
    (n = 1 ∧ ∃ before doc rest, ChangedFirst filter change name cols after before doc rest)

/-- From a collection the documents that satisfy a filter were removed, and the others are there in
their order. -/
structure Kept (filter : Json) (name : String) (cols after : Collections) (n : Nat) : Prop where
  decided : ∀ doc ∈ docsOf cols name, matchesFilter doc filter = .ok (passes filter doc)
  docs : docsOf after name = (docsOf cols name).filter fun doc => !passes filter doc
  removed : n = (docsOf cols name).countP (passes filter)
  unique : (collectionOf after name).unique = (collectionOf cols name).unique
  others : ∀ other, other ≠ name → collectionOf after other = collectionOf cols other

theorem deleteDocs_kept {name : String} {filter : Json} {n : Nat} {cols after : Collections}
    (done : deleteDocs name filter cols = .ok (n, after)) : Kept filter name cols after n := by
  rw [deleteDocs_eq] at done
  cases selected : select filter (docsOf cols name) with
  | error failure =>
      rw [selected] at done
      cases done
  | ok found =>
      rw [selected] at done
      cases done
      obtain ⟨found_eq, decided⟩ := select_eq_passing selected
      refine ⟨decided, docsOf_dropDocs name (passes filter) cols, ?_, ?_, fun other different => ?_⟩
      · rw [found_eq, List.countP_eq_length_filter]
      all_goals unfold dropDocs
      · cases stored : cols.get? name with
        | none => rfl
        | some coll =>
            dsimp only
            rw [collectionOf_insert, if_pos rfl, collectionOf, stored]
            rfl
      · cases stored : cols.get? name with
        | none => rfl
        | some coll =>
            dsimp only
            rw [collectionOf_insert, if_neg different]

namespace Store

variable {session : Option SessionId} {name : String} {s : Store} {n : Nat}

theorem write_succeeds {change : Change Nat} (answered : (write session change s).1 = .ok n) :
    ∃ cols after, change cols = .ok (n, after) ∧
      Turned session cols after s (write session change s).2 := by
  rcases write_turns session change s with
    ⟨failure, -, failed, -⟩ | ⟨cols, m, after, changed, done, turned⟩
  · rw [failed] at answered
    cases answered
  · obtain rfl := Except.ok.inj (done.symm.trans answered)
    exact ⟨cols, after, changed, turned⟩

theorem changeFirst_reaches {filter : Json} {change : Json → Json}
    (answered : (write session (changeFirst name filter change) s).1 = .ok n) :
    ∃ cols after, Turned session cols after s (write session (changeFirst name filter change) s).2 ∧
      AtMostFirst filter change name cols after n := by
  obtain ⟨cols, after, changed, turned⟩ := write_succeeds answered
  refine ⟨cols, after, turned, ?_⟩
  rcases changeFirst_cases changed with ⟨rfl, same⟩ | first
  · exact .inl ⟨rfl, same, changeFirst_zero changed⟩
  · exact .inr first

theorem updateOne_reaches {filter set : Json}
    (answered : (updateOne session name filter set s).1 = .ok n) :
    ∃ fields, set = .object fields ∧ ∃ cols after,
      Turned session cols after s (updateOne session name filter set s).2 ∧
      AtMostFirst filter (setFields fields) name cols after n := by
  cases set with
  | object fields =>
      by_cases hasId : Fields.has fields idField
      · rw [updateOne, if_pos hasId] at answered
        cases answered
      · rw [updateOne, if_neg hasId] at answered ⊢
        exact ⟨fields, rfl, changeFirst_reaches answered⟩
  | _ => cases answered

theorem replaceOne_reaches {filter doc : Json}
    (answered : (replaceOne session name filter doc s).1 = .ok n) :
    ∃ fields, doc = .object fields ∧ ∃ cols after,
      Turned session cols after s (replaceOne session name filter doc s).2 ∧
      AtMostFirst filter (replaceKeepingId fields) name cols after n := by
  cases doc with
  | object fields => exact ⟨fields, rfl, changeFirst_reaches answered⟩
  | _ => cases answered

theorem deleteMany_reaches {filter : Json}
    (answered : (deleteMany session name filter s).1 = .ok n) :
    ∃ cols after, Turned session cols after s (deleteMany session name filter s).2 ∧
      Kept filter name cols after n := by
  obtain ⟨cols, after, deleted, turned⟩ := write_succeeds answered
  exact ⟨cols, after, turned, deleteDocs_kept deleted⟩

end Store

/-- A call that fails changes no data: the committed collections with their indexes, the version, the
sessions and the copies of all other sessions stay as they were, and so do the documents of an open
copy of its caller, unless the call is the commit of a copy that was written to and has been
overtaken; then the transaction ends.

A call that succeeds is no wider than it says, in what its caller sees and in what those see who saw
the same; nobody else sees a difference.  An update or a replacement changes the first document that
satisfies the filter, if there is one, and a deletion keeps all documents that do not, in their
order. -/
theorem requests_spare (s : Store) :
    (∀ call failure, (Call.request call s).1 = .error failure →
      call.Spares s failure (call.request s).2) ∧
    (∀ session name filter set n, (Store.updateOne session name filter set s).1 = .ok n →
      ∃ fields, set = .object fields ∧ ∃ cols after,
        Store.Turned session cols after s (Store.updateOne session name filter set s).2 ∧
        AtMostFirst filter (setFields fields) name cols after n) ∧
    (∀ session name filter doc n, (Store.replaceOne session name filter doc s).1 = .ok n →
      ∃ fields, doc = .object fields ∧ ∃ cols after,
        Store.Turned session cols after s (Store.replaceOne session name filter doc s).2 ∧
        AtMostFirst filter (replaceKeepingId fields) name cols after n) ∧
    (∀ session name filter n, (Store.deleteMany session name filter s).1 = .ok n →
      ∃ cols after, Store.Turned session cols after s (Store.deleteMany session name filter s).2 ∧
        Kept filter name cols after n) :=
  ⟨fun _ _ failed => (Call.fails failed).spares,
    fun _ _ _ _ _ answered => Store.updateOne_reaches answered,
    fun _ _ _ _ _ answered => Store.replaceOne_reaches answered,
    fun _ _ _ _ answered => Store.deleteMany_reaches answered⟩

def twoNotes : Collections :=
  NameMap.empty.insert "notes"
    { docs := [.object [(idField, .text "a")], .object [(idField, .text "b")]] }

/-- A transaction in session 1 has written, and somebody else has committed since it began. -/
def overtakenNotes : Store where
  collections := twoNotes
  version := 1
  sessions := [(1, some ⟨0, twoNotes, true⟩)]
  nextSession := 2

theorem overtakenNotes_spared :
    let titled : Fields := [("title", .text "t")]
    let updated := Store.updateOne none "notes" (.object []) (.object titled) overtakenNotes
    let replaced := Store.replaceOne (some 1) "notes" (.single idField (.text "b"))
      (.object titled) overtakenNotes
    let deleted := Store.deleteMany none "notes" (.single idField (.text "a")) overtakenNotes
    (((Call.commitTransaction 1).request overtakenNotes).1 = .error writeConflict ∧
      Call.Spares overtakenNotes (.commitTransaction 1) writeConflict
        ((Call.commitTransaction 1).request overtakenNotes).2) ∧
    (updated.1 = .ok 1 ∧ ∃ cols after, Store.Turned none cols after overtakenNotes updated.2 ∧
      AtMostFirst (.object []) (setFields titled) "notes" cols after 1) ∧
    (replaced.1 = .ok 1 ∧ ∃ cols after,
      Store.Turned (some 1) cols after overtakenNotes replaced.2 ∧
      AtMostFirst (.single idField (.text "b")) (replaceKeepingId titled) "notes" cols after 1) ∧
    (deleted.1 = .ok 1 ∧ ∃ cols after, Store.Turned none cols after overtakenNotes deleted.2 ∧
      Kept (.single idField (.text "a")) "notes" cols after 1) := by
  intro titled updated replaced deleted
  have conflict : ((Call.commitTransaction 1).request overtakenNotes).1 = .error writeConflict := rfl
  have oneUpdated : updated.1 = .ok 1 := by decide +kernel
  have oneReplaced : replaced.1 = .ok 1 := by decide +kernel
  have oneDeleted : deleted.1 = .ok 1 := by decide +kernel
  obtain ⟨failures, updates, replacements, deletions⟩ := requests_spare overtakenNotes
  refine ⟨⟨conflict, failures _ _ conflict⟩, ⟨oneUpdated, ?_⟩, ⟨oneReplaced, ?_⟩,
    ⟨oneDeleted, deletions _ _ _ _ oneDeleted⟩⟩
  · obtain ⟨fields, same, reaches⟩ := updates _ _ _ _ _ oneUpdated
    cases same
    exact reaches
  · obtain ⟨fields, same, reaches⟩ := replacements _ _ _ _ _ oneReplaced
    cases same
    exact reaches

end Recordkeeper.Document
