import Recordkeeper.Proofs.Document.Serial

/-!
Contract: what a single call can do to a document store, and what it leaves alone.

Owns:
- the session a call is made in;
- the list of changes that a call can make, from which the invariants of sessions follow;
- the ways of a write, and what it makes of the collections that each caller sees;
- operations that fail, which change nothing that anybody sees;
- the independence of a session: the calls of everybody else are answered, and change the rest of
  the store, as if the session did not exist;
- the version as a count of committed units.

Does not own: the history of a run (`Proofs.Document.Serial`).
-/

set_option autoImplicit false

namespace Recordkeeper.Document

open List (lookup)

/-- The session a call is made in, or that it is about. -/
def Call.session? : Call → Option SessionId
  | .operation session _ => session
  | .supportsTransactions => none
  | .startSession => none
  | .startTransaction id => some id
  | .commitTransaction id => some id
  | .abortTransaction id => some id
  | .endSession id => some id

/-! ### Changes -/

/-- What a call can do to a store. -/
inductive Call.Does (s : Store) : Call → Store → Prop
  | nothing (call : Call) : Does s call s
  | commits {session : Option SessionId} {op : Operation} (outside : s.copyOf? session = none) :
      Does s (.operation session op)
        { s with collections := (op.apply s.collections).2, version := s.version + 1 }
  | works {id : SessionId} {op : Operation} {copy : Snapshot}
      (inside : s.sessions.lookup id = some (some copy)) :
      Does s (.operation (some id) op)
        (s.withCopy id (some { copy with
          collections := (op.apply copy.collections).2, dirty := true }))
  | opens : Does s .startSession (Store.startSession s).2
  | starts {id : SessionId} (idle : s.sessions.lookup id = some none) :
      Does s (.startTransaction id)
        (s.withCopy id (some ⟨s.version, s.collections, false⟩))
  | drops {call : Call} {id : SessionId} (own : call.session? = some id) :
      Does s call (s.withCopy id none)
  | publishes {id : SessionId} {copy : Snapshot}
      (inside : s.sessions.lookup id = some (some copy)) (written : copy.dirty = true)
      (current : copy.baseVersion = s.version) :
      Does s (.commitTransaction id)
        { s.withCopy id none with collections := copy.collections, version := s.version + 1 }
  | ends {id : SessionId} : Does s (.endSession id) (s.endSession id)

theorem Store.lookup_of_copyOf? {s : Store} {id : SessionId} {copy : Snapshot}
    (inside : s.copyOf? (some id) = some copy) : s.sessions.lookup id = some (some copy) :=
  Option.join_eq_some_iff.1 inside

theorem Operation.does (op : Operation) (session : Option SessionId) (s : Store) :
    Call.Does s (.operation session op) (op.request session s).2 := by
  cases inside : s.copyOf? session with
  | none =>
      rcases op.request_outside inside with ⟨failure, failed⟩ | alone
      · rw [failed]
        exact .nothing _
      · rw [alone, op.request_alone]
        split
        · exact .commits inside
        · exact .nothing _
  | some copy =>
      cases session with
      | none => cases inside
      | some id =>
          rw [op.request_inside inside]
          split
          · exact .works (Store.lookup_of_copyOf? inside)
          · exact .nothing _

theorem Call.does (call : Call) (s : Store) : call.Does s (call.request s).2 := by
  cases call with
  | operation session op => exact op.does session s
  | supportsTransactions => exact .nothing _
  | startSession => exact .opens
  | startTransaction id =>
      show Call.Does s _ (Store.startTransaction id s).2
      unfold Store.startTransaction
      split
      · exact .nothing _
      · rcases idle : s.sessions.lookup id with _ | _ | copy
        · exact .nothing _
        · exact .starts idle
        · exact .nothing _
  | commitTransaction id =>
      show Call.Does s _ (Store.commitTransaction id s).2
      rcases inside : s.sessions.lookup id with _ | _ | copy
      · simp only [Store.commitTransaction, inside]
        exact .nothing _
      · simp only [Store.commitTransaction, inside]
        exact .nothing _
      · rw [Store.commitTransaction_copy inside]
        split
        next written =>
          split
          next current => exact .publishes inside written current.symm
          next => exact .drops rfl
        next => exact .drops rfl
  | abortTransaction id =>
      show Call.Does s _ (Store.abortTransaction id s).2
      unfold Store.abortTransaction
      rcases s.sessions.lookup id with _ | _ | copy
      · exact .nothing _
      · exact .nothing _
      · exact .drops rfl
  | endSession id => exact .ends

namespace Call.Does

variable {s after : Store} {call : Call}

theorem version_le (does : call.Does s after) : s.version ≤ after.version := by
  cases does with
  | nothing => exact Nat.le_refl _
  | commits => exact Nat.le_succ _
  | works => exact Nat.le_refl _
  | opens => exact Nat.le_refl _
  | starts => exact Nat.le_refl _
  | drops => exact Nat.le_refl _
  | publishes => exact Nat.le_succ _
  | ends => exact Nat.le_refl _

theorem transactions_eq (does : call.Does s after) : after.transactions = s.transactions := by
  cases does <;> rfl

end Call.Does

/-! ### Sessions -/

namespace Store

variable {s : Store} {id other : SessionId}

theorem lookup_end (different : other ≠ id) :
    (s.endSession id).sessions.lookup other = s.sessions.lookup other := by
  show (s.sessions.filter fun entry => entry.1 != id).lookup other = _
  rw [lookup_filter (· != id), if_pos (bne_iff_ne.2 different)]

theorem lookup_withCopy (different : other ≠ id) (copy : Option Snapshot) :
    (s.withCopy other copy).sessions.lookup id = s.sessions.lookup id := by
  show (s.sessions.set other copy).lookup id = _
  rw [Sessions.lookup_set, if_neg different.symm]

theorem withCopy_end_own (copy : Option Snapshot) :
    (s.withCopy id copy).endSession id = s.endSession id := by
  have same : (s.sessions.set id copy).filter (fun entry => entry.1 != id)
      = s.sessions.filter fun entry => entry.1 != id := by
    induction s.sessions with
    | nil => rfl
    | cons entry rest inductionHypothesis =>
        simp only [Sessions.set, List.map_cons, List.filter_cons] at inductionHypothesis ⊢
        by_cases own : entry.1 = id
        · simp [own, inductionHypothesis]
        · simp [own, inductionHypothesis]
  exact congrArg (fun sessions => { s with sessions }) same

theorem withCopy_end (different : other ≠ id) (copy : Option Snapshot) :
    (s.withCopy other copy).endSession id = (s.endSession id).withCopy other copy := by
  have same : (s.sessions.set other copy).filter (fun entry => entry.1 != id)
      = Sessions.set (s.sessions.filter fun entry => entry.1 != id) other copy := by
    induction s.sessions with
    | nil => rfl
    | cons entry rest inductionHypothesis =>
        simp only [Sessions.set, List.map_cons, List.filter_cons] at inductionHypothesis ⊢
        by_cases own : entry.1 = other
        · simp [own, different, inductionHypothesis]
        · by_cases ended : entry.1 = id
          · simp [ended, different.symm, inductionHypothesis]
          · simp [own, ended, inductionHypothesis]
  exact congrArg (fun sessions => { s with sessions }) same

theorem end_end (s : Store) (id other : SessionId) :
    (s.endSession other).endSession id = (s.endSession id).endSession other := by
  have same : (s.sessions.filter fun entry => entry.1 != other).filter
        (fun entry => entry.1 != id)
      = (s.sessions.filter fun entry => entry.1 != id).filter fun entry => entry.1 != other := by
    rw [List.filter_filter, List.filter_filter]
    simp only [Bool.and_comm]
  exact congrArg (fun sessions => { s with sessions }) same

theorem end_end_own (s : Store) (id : SessionId) :
    (s.endSession id).endSession id = s.endSession id := by
  have same : (s.sessions.filter fun entry => entry.1 != id).filter (fun entry => entry.1 != id)
      = s.sessions.filter fun entry => entry.1 != id := by
    rw [List.filter_filter]
    simp only [Bool.and_self]
  exact congrArg (fun sessions => { s with sessions }) same

theorem startSession_end (known : id < s.nextSession) :
    (startSession s).2.endSession id = (startSession (s.endSession id)).2 := by
  have kept : (s.nextSession != id) = true := bne_iff_ne.2 (Nat.ne_of_gt known)
  have same : (s.sessions ++ [(s.nextSession, none)]).filter (fun entry => entry.1 != id)
      = (s.sessions.filter fun entry => entry.1 != id) ++ [(s.nextSession, none)] := by
    rw [List.filter_append, List.filter_cons, if_pos kept, List.filter_nil]
  exact congrArg
    (fun sessions => { s with sessions := sessions, nextSession := s.nextSession + 1 }) same

end Store

/-- A call in another session leaves the slot of a session as it is. -/
theorem Call.Does.lookup_eq {s after : Store} {call : Call} {id : SessionId}
    {slot : Option Snapshot} (does : call.Does s after) (foreign : call.session? ≠ some id)
    (open_ : s.sessions.lookup id = some slot) : after.sessions.lookup id = some slot := by
  have differs {other : SessionId} (own : call.session? = some other) : other ≠ id := by
    intro same
    exact foreign (same ▸ own)
  cases does with
  | nothing => exact open_
  | commits => exact open_
  | works => rw [Store.lookup_withCopy (differs rfl), open_]
  | opens =>
      show List.lookup id (s.sessions ++ [(s.nextSession, none)]) = _
      rw [List.lookup_append, open_]
      rfl
  | starts => rw [Store.lookup_withCopy (differs rfl), open_]
  | drops own => rw [Store.lookup_withCopy (differs own), open_]
  | publishes =>
      show (s.withCopy _ none).sessions.lookup id = _
      rw [Store.lookup_withCopy (differs rfl), open_]
  | ends => rw [Store.lookup_end (differs rfl).symm, open_]

theorem Store.copy_of_withCopy {s : Store} {id other : SessionId} {slot : Option Snapshot}
    {copy : Snapshot} (found : (s.withCopy id slot).sessions.lookup other = some (some copy)) :
    (other = id ∧ slot = some copy) ∨ s.sessions.lookup other = some (some copy) := by
  rw [Store.withCopy, Sessions.lookup_set] at found
  by_cases own : other = id
  · rw [if_pos own] at found
    obtain ⟨_, -, same⟩ := Option.map_eq_some_iff.1 found
    exact Or.inl ⟨own, same⟩
  · rw [if_neg own] at found
    exact Or.inr found

/-- A copy that is there after a call was there before, or an operation worked on it, or it was made
by the start of its transaction. -/
theorem Call.Does.copy_cases {s after : Store} {call : Call} {id : SessionId}
    {copyAfter : Snapshot} (does : call.Does s after)
    (still : after.sessions.lookup id = some (some copyAfter)) :
    s.sessions.lookup id = some (some copyAfter) ∨
      (∃ (copy : Snapshot) (op : Operation), s.sessions.lookup id = some (some copy) ∧
        copyAfter = { copy with
          collections := (op.apply copy.collections).2, dirty := true }) ∨
      (s.sessions.lookup id = some none ∧ copyAfter = ⟨s.version, s.collections, false⟩) := by
  cases does with
  | nothing => exact Or.inl still
  | commits => exact Or.inl still
  | @works own op copy inside =>
      rcases Store.copy_of_withCopy still with ⟨rfl, same⟩ | found
      · cases same
        exact Or.inr (Or.inl ⟨copy, op, inside, rfl⟩)
      · exact Or.inl found
  | opens =>
      have known : List.lookup id (s.sessions ++ [(s.nextSession, none)])
          = some (some copyAfter) := still
      rw [List.lookup_append] at known
      rcases Option.or_eq_some_iff.1 known with found | ⟨-, new⟩
      · exact Or.inl found
      · rw [lookup_cons_if] at new
        split at new <;> cases new
  | starts idle =>
      rcases Store.copy_of_withCopy still with ⟨rfl, same⟩ | found
      · cases same
        exact Or.inr (Or.inr ⟨idle, rfl⟩)
      · exact Or.inl found
  | drops | publishes =>
      rcases Store.copy_of_withCopy still with ⟨-, same⟩ | found
      · cases same
      · exact Or.inl found
  | ends =>
      have known : List.lookup id (s.sessions.filter fun entry => entry.1 != _)
          = some (some copyAfter) := still
      rw [lookup_filter (· != _)] at known
      split at known
      · exact Or.inl known
      · cases known

/-- A transaction stays on the version it started from. -/
theorem Call.Does.baseVersion_eq {s after : Store} {call : Call} {id : SessionId}
    {copy copyAfter : Snapshot} (does : call.Does s after)
    (inside : s.sessions.lookup id = some (some copy))
    (still : after.sessions.lookup id = some (some copyAfter)) :
    copyAfter.baseVersion = copy.baseVersion := by
  rcases does.copy_cases still with found | ⟨worked, op, found, rfl⟩ | ⟨idle, -⟩
  · rw [inside] at found
    cases found
    rfl
  · rw [inside] at found
    cases found
    rfl
  · rw [inside] at idle
    cases idle

/-- Sessions are numbered in the order in which they are opened. -/
def Store.Numbered (s : Store) : Prop := ∀ entry ∈ s.sessions, entry.1 < s.nextSession

theorem Sessions.mem_set {sessions : Sessions} {id : SessionId} {copy : Option Snapshot}
    {entry : SessionId × Option Snapshot} (member : entry ∈ sessions.set id copy) :
    ∃ old ∈ sessions, old.1 = entry.1 := by
  obtain ⟨old, oldMember, rfl⟩ := List.mem_map.1 member
  refine ⟨old, oldMember, ?_⟩
  by_cases own : old.1 = id
  · rw [if_pos own, own]
  · rw [if_neg own]

theorem Call.Does.nextSession_le {s after : Store} {call : Call} (does : call.Does s after) :
    s.nextSession ≤ after.nextSession := by
  cases does with
  | opens => exact Nat.le_succ _
  | _ => exact Nat.le_refl _

theorem Call.Does.numbered {s after : Store} {call : Call} (does : call.Does s after)
    (numbered : s.Numbered) : after.Numbered := by
  have set (id : SessionId) (copy : Option Snapshot) :
      ∀ entry ∈ s.sessions.set id copy, entry.1 < s.nextSession := by
    intro entry member
    obtain ⟨old, oldMember, same⟩ := Sessions.mem_set member
    rw [← same]
    exact numbered old oldMember
  cases does with
  | nothing => exact numbered
  | commits => exact numbered
  | works => exact set _ _
  | opens =>
      intro entry member
      show entry.1 < s.nextSession + 1
      rcases List.mem_append.1 member with old | new
      · exact Nat.lt_succ_of_lt (numbered entry old)
      · rw [List.mem_singleton.1 new]
        exact Nat.lt_succ_self _
  | starts => exact set _ _
  | drops => exact set _ _
  | publishes => exact set _ _
  | ends => exact fun entry member => numbered entry (List.mem_filter.1 member).1

/-! ### Writes -/

namespace Store

section Copy

variable {s : Store} {id : SessionId} {copy : Snapshot}
  (inside : s.copyOf? (some id) = some copy)

include inside

theorem visible_copy : s.visible (some id) = .ok copy.collections := by
  simp only [visible, lookup_of_copyOf? inside]

theorem visible_withCopy (next : Snapshot) (caller : Option SessionId) :
    (s.withCopy id (some next)).visible caller
      = if caller = some id then .ok next.collections else s.visible caller := by
  cases caller with
  | none => exact (if_neg (Option.some_ne_none id).symm).symm
  | some caller =>
      unfold visible withCopy
      dsimp only
      rw [Sessions.lookup_set]
      by_cases own : caller = id
      · subst own
        rw [if_pos rfl, if_pos rfl, lookup_of_copyOf? inside]
        rfl
      · rw [if_neg own, if_neg fun same => own (Option.some.inj same)]

theorem visible_marked (caller : Option SessionId) :
    (s.withCopy id (some { copy with dirty := true })).visible caller = s.visible caller := by
  rw [visible_withCopy inside]
  split
  next own => rw [own, visible_copy inside]
  next => rfl

end Copy

/-- The ways of a write.  It fails on what the caller sees, or changes the committed collections or
the copy of a transaction; a failure in a transaction marks the copy. -/
inductive Written {α : Type} (change : Change α) (s : Store) :
    Option SessionId → Outcome α × Store → Prop
  | failed {session : Option SessionId} {failure : DocumentFailure}
      (failed : (s.visible session >>= change) = .error failure) :
      Written change s session (.error failure, s)
  | committed {session : Option SessionId} {a : α} {after : Collections}
      (sees : ∀ t : Store, t.sessions = s.sessions → t.visible session = .ok t.collections)
      (outside : s.copyOf? session = none) (done : change s.collections = .ok (a, after)) :
      Written change s session
        (.ok a, { s with collections := after, version := s.version + 1 })
  | marked {id : SessionId} {copy : Snapshot} {failure : DocumentFailure}
      (inside : s.copyOf? (some id) = some copy)
      (failed : change copy.collections = .error failure) :
      Written change s (some id)
        (.error failure, s.withCopy id (some { copy with dirty := true }))
  | worked {id : SessionId} {copy : Snapshot} {a : α} {after : Collections}
      (inside : s.copyOf? (some id) = some copy) (done : change copy.collections = .ok (a, after)) :
      Written change s (some id)
        (.ok a, s.withCopy id (some { copy with collections := after, dirty := true }))

theorem commitChange_written {α : Type} {session : Option SessionId} {s : Store}
    (sees : ∀ t : Store, t.sessions = s.sessions → t.visible session = .ok t.collections)
    (outside : s.copyOf? session = none) (change : Change α) :
    Written change s session (commitChange change s) := by
  unfold commitChange
  cases done : change s.collections with
  | error failure =>
      refine .failed ?_
      rw [sees s rfl]
      exact done
  | ok result => exact .committed sees outside done

theorem write_written {α : Type} (session : Option SessionId) (change : Change α) (s : Store) :
    Written change s session (write session change s) := by
  cases session with
  | none => exact commitChange_written (fun _ _ => rfl) rfl change
  | some id =>
      rcases found : s.sessions.lookup id with _ | _ | copy
      · have refused : write (some id) change s = (.error (endedSession id), s) := by
          simp only [write, found]
        rw [refused]
        refine .failed ?_
        simp only [visible, found]
        rfl
      · have alone : write (some id) change s = commitChange change s := by
          simp only [write, found]
        rw [alone]
        refine commitChange_written (fun t same => ?_) ?_ change
        · simp only [visible, same, found]
        · rw [copyOf?, Option.bind_some, found, Option.join_some]
      · have inside : s.copyOf? (some id) = some copy := by
          rw [copyOf?, Option.bind_some, found, Option.join_some]
        cases done : change copy.collections with
        | error failure =>
            have written : write (some id) change s
                = (.error failure, s.withCopy id (some { copy with dirty := true })) := by
              simp only [write, found, done]
              rfl
            exact written ▸ .marked inside done
        | ok result =>
            obtain ⟨a, after⟩ := result
            have written : write (some id) change s = (.ok a,
                s.withCopy id (some { copy with collections := after, dirty := true })) := by
              simp only [write, found, done]
              rfl
            exact written ▸ .worked inside done

/-- A caller saw the first collections and sees the second ones, and so does everybody who saw the
same; whoever saw something else sees that still. -/
structure Turned (session : Option SessionId) (cols after : Collections) (s t : Store) : Prop where
  saw : s.visible session = .ok cols
  sees : t.visible session = .ok after
  others : ∀ caller, t.visible caller = s.visible caller ∨
    (s.visible caller = .ok cols ∧ t.visible caller = .ok after)

/-- What a write amounts to: it fails and nobody sees a difference, or it takes place in what the
caller sees. -/
theorem write_turns {α : Type} (session : Option SessionId) (change : Change α) (s : Store) :
    (∃ failure, (s.visible session >>= change) = .error failure ∧
        (write session change s).1 = .error failure ∧
        ∀ caller, (write session change s).2.visible caller = s.visible caller) ∨
      ∃ cols a after, change cols = .ok (a, after) ∧ (write session change s).1 = .ok a ∧
        Turned session cols after s (write session change s).2 := by
  have written := write_written session change s
  generalize write session change s = result at written
  cases written with
  | failed failed => exact .inl ⟨_, failed, rfl, fun _ => rfl⟩
  | committed sees _ done =>
      refine .inr ⟨s.collections, _, _, done, rfl, sees s rfl, sees _ rfl, fun caller => ?_⟩
      cases caller with
      | none => exact .inr ⟨rfl, rfl⟩
      | some id =>
          unfold visible
          dsimp only
          rcases s.sessions.lookup id with _ | _ | copy
          · exact .inl rfl
          · exact .inr ⟨rfl, rfl⟩
          · exact .inl rfl
  | marked inside failed =>
      refine .inl ⟨_, ?_, rfl, visible_marked inside⟩
      rw [visible_copy inside]
      exact failed
  | worked inside done =>
      refine .inr ⟨_, _, _, done, rfl, visible_copy inside, ?_, fun caller => ?_⟩
      · rw [visible_withCopy inside, if_pos rfl]
      · rw [visible_withCopy inside]
        split
        next own =>
          rw [own]
          exact .inr ⟨visible_copy inside, rfl⟩
        next => exact .inl rfl

end Store

/-! ### Failures -/

/-- An operation that fails changes nothing that anybody sees. -/
theorem Operation.failed_visible {op : Operation} {session : Option SessionId} {s : Store}
    (failed : (op.request session s).1.toOption = none) (caller : Option SessionId) :
    (op.request session s).2.visible caller = s.visible caller := by
  cases inside : s.copyOf? session with
  | none =>
      rcases op.request_outside inside with ⟨failure, same⟩ | alone
      · rw [same]
      · rw [alone, op.request_alone] at failed ⊢
        dsimp only at failed ⊢
        rw [failed, Option.isSome_none, Bool.and_false, if_neg Bool.false_ne_true]
  | some copy =>
      cases session with
      | none => cases inside
      | some id =>
          rw [op.request_inside inside] at failed ⊢
          dsimp only at failed ⊢
          rw [Operation.apply_error failed]
          split
          next => exact Store.visible_marked inside caller
          next => rfl

/-! ### Independence of a session -/

/-- An operation outside of a session does not see the session. -/
theorem Effect.request_end {effect : Effect} {session : Option SessionId} {id : SessionId}
    (foreign : session ≠ some id) (s : Store) :
    effect.request session (s.endSession id)
      = ((effect.request session s).1, (effect.request session s).2.endSession id) := by
  cases session with
  | none =>
      rw [effect.request_committed, effect.request_committed, apply_ite (Store.endSession id)]
      rfl
  | some other =>
      have different : other ≠ id := fun same => foreign (congrArg some same)
      have found := Store.lookup_end (s := s) different
      rcases slot : s.sessions.lookup other with _ | _ | copy
      · rw [slot] at found
        cases effect with
        | refuse failure => rfl
        | read answer => simp only [request, Store.read, Store.visible, found, slot]
        | write change => simp only [request, Store.write, found, slot]
      · rw [slot] at found
        rw [effect.request_session found, effect.request_session slot, effect.request_committed,
          effect.request_committed, apply_ite (Store.endSession id)]
        rfl
      · rw [slot] at found
        rw [effect.request_copy found, effect.request_copy slot, apply_ite (Store.endSession id),
          Store.withCopy_end different]

theorem Store.startTransaction_end {s : Store} {id other : SessionId} (different : other ≠ id) :
    startTransaction other (s.endSession id)
      = ((startTransaction other s).1, (startTransaction other s).2.endSession id) := by
  have found := Store.lookup_end (s := s) different
  have transactions : (s.endSession id).transactions = s.transactions := rfl
  unfold startTransaction
  rw [found, transactions]
  by_cases standalone : !s.transactions
  · rw [if_pos standalone, if_pos standalone]
  · rw [if_neg standalone, if_neg standalone]
    rcases s.sessions.lookup other with _ | _ | copy
    · rfl
    · exact Prod.ext rfl (Store.withCopy_end different _).symm
    · rfl

theorem Store.commitTransaction_end {s : Store} {id other : SessionId} (different : other ≠ id) :
    commitTransaction other (s.endSession id)
      = ((commitTransaction other s).1, (commitTransaction other s).2.endSession id) := by
  have found := Store.lookup_end (s := s) different
  rcases slot : s.sessions.lookup other with _ | _ | copy
  · rw [slot] at found
    simp only [commitTransaction, found, slot]
  · rw [slot] at found
    simp only [commitTransaction, found, slot]
  · rw [slot] at found
    rw [commitTransaction_copy found, commitTransaction_copy slot, ← withCopy_end different]
    by_cases written : copy.dirty
    · rw [if_pos written, if_pos written]
      by_cases current : s.version = copy.baseVersion
      · have same : (s.endSession id).version = copy.baseVersion := current
        rw [if_pos current, if_pos same]
        rfl
      · have differs : (s.endSession id).version ≠ copy.baseVersion := current
        rw [if_neg current, if_neg differs]
    · rw [if_neg written, if_neg written]

theorem Store.abortTransaction_end {s : Store} {id other : SessionId} (different : other ≠ id) :
    abortTransaction other (s.endSession id)
      = ((abortTransaction other s).1, (abortTransaction other s).2.endSession id) := by
  have found := Store.lookup_end (s := s) different
  unfold abortTransaction
  rw [found]
  rcases s.sessions.lookup other with _ | _ | copy
  · rfl
  · rfl
  · exact Prod.ext rfl (Store.withCopy_end different _).symm

theorem replied_end {α : Type} {wrap : α → Reply} {request : Request α} {s : Store}
    {id : SessionId}
    (same : request (s.endSession id) = ((request s).1, (request s).2.endSession id)) :
    replied wrap request (s.endSession id)
      = ((replied wrap request s).1, (replied wrap request s).2.endSession id) := by
  simp only [replied, same]

/-- Everybody else is answered, and changes the rest of the store, as if a session did not
exist. -/
theorem Call.request_end {call : Call} {id : SessionId} (foreign : call.session? ≠ some id)
    {s : Store} (known : id < s.nextSession) :
    call.request (s.endSession id) = ((call.request s).1, (call.request s).2.endSession id) := by
  have differs {other : SessionId} (own : call.session? = some other) : other ≠ id := by
    intro same
    exact foreign (same ▸ own)
  cases call with
  | operation session op =>
      obtain ⟨effect, request, -⟩ := op.request_effect
      show op.request session _ = ((op.request session s).1, (op.request session s).2.endSession id)
      rw [request session]
      exact Effect.request_end foreign s
  | supportsTransactions => rfl
  | startSession => exact Prod.ext rfl (Store.startSession_end known).symm
  | startTransaction other => exact replied_end (Store.startTransaction_end (differs rfl))
  | commitTransaction other => exact replied_end (Store.commitTransaction_end (differs rfl))
  | abortTransaction other => exact replied_end (Store.abortTransaction_end (differs rfl))
  | endSession other => exact Prod.ext rfl (Store.end_end s id other).symm

/-- A call in a session that commits nothing changes nothing but the session. -/
theorem Call.Does.end_eq {s after : Store} {call : Call} {id : SessionId}
    (does : call.Does s after) (own : call.session? = some id)
    (kept : after.version = s.version) : after.endSession id = s.endSession id := by
  cases does with
  | nothing => rfl
  | commits => exact absurd kept (Nat.succ_ne_self _)
  | works =>
      obtain rfl := Option.some.inj own
      exact Store.withCopy_end_own _
  | opens => cases own
  | starts =>
      obtain rfl := Option.some.inj own
      exact Store.withCopy_end_own _
  | drops same =>
      obtain rfl := Option.some.inj (own.symm.trans same)
      exact Store.withCopy_end_own _
  | publishes => exact absurd kept (Nat.succ_ne_self _)
  | ends =>
      obtain rfl := Option.some.inj own
      exact s.end_end_own _

/-! ### The version -/

namespace History

theorem committed_recordOperation (h : History) (session : Option SessionId) (done : Performed) :
    h.committed <+: (h.recordOperation session done).committed := by
  unfold recordOperation
  split
  · exact List.prefix_refl _
  · split
    · exact List.prefix_append _ _
    · exact List.prefix_refl _

theorem committed_recordCommit (h : History) (id : SessionId) :
    h.committed <+: (h.recordCommit id).committed := by
  unfold recordCommit
  split
  · split
    · exact List.prefix_append _ _
    · exact List.prefix_refl _
  · exact List.prefix_refl _

/-- What is committed stays committed. -/
theorem committed_record (h : History) (event : Event) :
    h.committed <+: (h.record event).committed := by
  unfold record
  split
  · exact h.committed_recordOperation _ _
  · exact List.prefix_refl _
  · exact h.committed_recordCommit _
  · exact List.prefix_refl _
  · exact List.prefix_refl _
  · exact List.prefix_refl _
  · exact List.prefix_refl _

theorem committed_foldl (events : List Event) :
    ∀ h : History, h.committed <+: (events.foldl record h).committed := by
  induction events with
  | nil => exact fun h => List.prefix_refl _
  | cons event rest inductionHypothesis =>
      intro h
      exact (h.committed_record event).trans (inductionHypothesis (h.record event))

end History

namespace Tied

variable {initial : Collections} {h : History} {s : Store}

theorem version_operation (tied : Tied initial h s) (session : Option SessionId)
    (op : Operation) :
    (op.request session s).2.version + h.committed.length
      = s.version
        + (h.recordOperation session ⟨op, (op.request session s).1⟩).committed.length := by
  cases inside : s.copyOf? session with
  | none =>
      rw [recordOperation_outside _ (tied.workOf_eq_none inside)]
      rcases op.request_outside inside with ⟨failure, failed⟩ | alone
      · rw [failed]
        show s.version + _ = s.version + (if op.isWrite && false then _ else h).committed.length
        rw [Bool.and_false, if_neg Bool.false_ne_true]
      · rw [alone, op.request_alone]
        by_cases commits : op.isWrite && (op.apply s.collections).1.toOption.isSome
        · rw [if_pos commits, if_pos commits, History.commit, List.length_append,
            List.length_singleton]
          show s.version + 1 + _ = _
          omega
        · rw [if_neg commits, if_neg commits]
  | some copy =>
      cases session with
      | none => cases inside
      | some id =>
          obtain ⟨work, pending, -⟩ := tied.exists_work inside
          have kept : (op.request (some id) s).2.version = s.version := by
            rw [op.request_inside inside]
            split <;> rfl
          rw [kept]
          simp only [History.recordOperation, History.workOf, Option.bind_some, pending]
          rfl

theorem version_commitTransaction (tied : Tied initial h s) (id : SessionId) :
    (Store.commitTransaction id s).2.version + h.committed.length
      = s.version + (h.record ⟨.commitTransaction id,
          (Store.commitTransaction id s).1.map fun _ => .done⟩).committed.length := by
  rcases found : s.sessions.lookup id with _ | _ | copy
  · simp only [Store.commitTransaction, found]
    rfl
  · simp only [Store.commitTransaction, found]
    rfl
  · have inside : s.copyOf? (some id) = some copy := Option.join_eq_some_iff.2 found
    obtain ⟨work, pending, tiedCopy⟩ := tied.exists_work inside
    have succeeds : h.record ⟨.commitTransaction id, .ok .done⟩
        = if copy.dirty then (h.setPending id none).commit work else h.setPending id none := by
      simp only [History.record, History.recordCommit, pending, tiedCopy.marked]
    rw [Store.commitTransaction_copy found]
    by_cases written : copy.dirty
    · rw [if_pos written]
      by_cases current : s.version = copy.baseVersion
      · rw [if_pos current]
        show s.version + 1 + _ = s.version + (h.record ⟨_, .ok .done⟩).committed.length
        rw [succeeds, if_pos written]
        show _ = s.version + (h.committed ++ [work]).length
        rw [List.length_append, List.length_singleton]
        omega
      · rw [if_neg current]
        rfl
    · rw [if_neg written]
      show s.version + _ = s.version + (h.record ⟨_, .ok .done⟩).committed.length
      rw [succeeds, if_neg written]
      rfl

end Tied

/-- The version is raised once for every unit that is committed. -/
theorem Call.version_eq {initial : Collections} {h : History} {s : Store}
    (tied : Tied initial h s) (call : Call) :
    (call.request s).2.version + h.committed.length
      = s.version + (h.record ⟨call, (call.request s).1⟩).committed.length := by
  cases call with
  | operation session op => exact tied.version_operation session op
  | supportsTransactions => rfl
  | startSession => rfl
  | startTransaction id =>
      have kept : ((Call.startTransaction id).request s).2.version = s.version := by
        show (Store.startTransaction id s).2.version = _
        unfold Store.startTransaction
        split
        · rfl
        · rcases s.sessions.lookup id with _ | _ | copy <;> rfl
      rw [kept]
      cases ((Call.startTransaction id).request s).1 <;> rfl
  | commitTransaction id => exact tied.version_commitTransaction id
  | abortTransaction id =>
      have kept : (Store.abortTransaction id s).2.version = s.version := by
        unfold Store.abortTransaction
        rcases s.sessions.lookup id with _ | _ | copy <;> rfl
      show (Store.abortTransaction id s).2.version + _ = _
      rw [kept]
      rfl
  | endSession id => rfl

theorem serve_version {initial : Collections} (calls : List Call) :
    ∀ {h : History} {s : Store}, Tied initial h s →
      (serve s calls).2.version + h.committed.length
        = s.version + ((serve s calls).1.foldl History.record h).committed.length := by
  induction calls with
  | nil => exact fun _ => rfl
  | cons call rest inductionHypothesis =>
      intro h s tied
      have first := call.version_eq tied
      have others := inductionHypothesis (call.tied tied)
      show (serve (call.request s).2 rest).2.version + _
        = s.version + ((serve (call.request s).2 rest).1.foldl History.record
            (h.record ⟨call, (call.request s).1⟩)).committed.length
      omega

/-- The same units are committed at two moments of a run exactly when the versions are equal. -/
theorem serve_version_eq_iff {initial : Collections} (calls : List Call) {h : History} {s : Store}
    (tied : Tied initial h s) :
    (serve s calls).2.version = s.version
      ↔ ((serve s calls).1.foldl History.record h).committed = h.committed := by
  have counted := serve_version calls tied
  have grows := History.committed_foldl (serve s calls).1 h
  constructor
  · intro kept
    exact (grows.eq_of_length (by omega)).symm
  · intro same
    rw [same] at counted
    omega

end Recordkeeper.Document
