import Recordkeeper.Proofs.Action
import Recordkeeper.Proofs.Document.Calls
import Recordkeeper.Proofs.Document.Stored

/-!
Contract: values that a collection holds at most once.

Owns:
- when two documents share a value under a path;
- the ways in which an operation can change the documents of a collection;
- the law that a checked path is unique, kept by every operation;
- properties of collections that hold of the committed ones and of every copy throughout a run;
- the enforcement of an index that is created while transactions may be open.

Does not own: which documents a filter selects.
-/

set_option autoImplicit false

namespace Recordkeeper

theorem Json.isNull_of_equal {v w : Json} (same : v.equal w) (held : v.isNull = false) :
    w.isNull = false := by
  cases v with
  | null => cases held
  | bool | number | text | array | object =>
      cases w with
      | null => cases same
      | _ => rfl

namespace Document

open Store (docsOf)

/-! ### Shared values -/

/-- Two documents have equal values under a path, other than null.  The values are compared both
ways, as equality is symmetric only where no object repeats a field. -/
def shares (path : String) (d e : Json) : Bool :=
  match lookup d path, lookup e path with
  | some v, some w => !v.isNull && v.equal w && w.equal v
  | _, _ => false

/-- No two documents share a value. -/
def Apart (path : String) (docs : List Json) : Prop :=
  docs.Pairwise fun d e => shares path d e = false

instance (path : String) (docs : List Json) : Decidable (Apart path docs) := by
  unfold Apart
  infer_instance

theorem shares_comm (path : String) (d e : Json) : shares path d e = shares path e d := by
  unfold shares
  rcases lookup d path with _ | v <;> rcases lookup e path with _ | w
  · rfl
  · rfl
  · rfl
  · show (!v.isNull && v.equal w && w.equal v) = (!w.isNull && w.equal v && v.equal w)
    cases forth : v.equal w with
    | false => simp
    | true =>
        cases back : w.equal v with
        | false => simp
        | true =>
            cases held : v.isNull with
            | false => rw [Json.isNull_of_equal forth held]
            | true =>
                cases other : w.isNull with
                | true => rfl
                | false =>
                    rw [Json.isNull_of_equal back other] at held
                    cases held

/-- A document that passes the check shares no value with the others under a checked path. -/
theorem checkUnique_apart {name path : String} {coll : Collection} {others : List Json}
    {doc : Json} (accepted : checkUnique name coll others doc = .ok ())
    (checked : path ∈ idField :: coll.unique) : ∀ other ∈ others, shares path other doc = false := by
  intro other member
  have free : repeatedPath? (idField :: coll.unique) others doc = none := by
    unfold checkUnique at accepted
    split at accepted
    next => cases accepted
    next free => exact free
  have unrepeated := List.findSome?_eq_none_iff.1 free path checked
  unfold shares
  cases own : lookup doc path with
  | none => cases lookup other path <;> rfl
  | some value =>
      cases theirs : lookup other path with
      | none => rfl
      | some v =>
          show (!v.isNull && v.equal value && value.equal v) = false
          cases same : v.equal value with
          | false => rw [Bool.and_false, Bool.false_and]
          | true =>
              have found : others.any (hasValueAt path value) = true :=
                List.any_eq_true.2 ⟨other, member, by
                  rw [hasValueAt, theirs]
                  exact same⟩
              rw [own] at unrepeated
              simp only [found, Bool.and_true] at unrepeated
              cases held : v.isNull with
              | true => rfl
              | false =>
                  rw [Json.isNull_of_equal same held] at unrepeated
                  cases unrepeated

namespace Apart

variable {path : String} {docs before after : List Json} {old changed : Json}

theorem add (apart : Apart path docs) {doc : Json}
    (free : ∀ other ∈ docs, shares path other doc = false) : Apart path (docs ++ [doc]) := by
  refine List.pairwise_append.2 ⟨apart, List.pairwise_singleton _ _, ?_⟩
  intro other member new newMember
  rw [List.mem_singleton.1 newMember]
  exact free other member

theorem change (apart : Apart path (before ++ old :: after))
    (free : ∀ other ∈ before ++ after, shares path other changed = false) :
    Apart path (before ++ changed :: after) := by
  obtain ⟨front, back, across⟩ := List.pairwise_append.1 apart
  obtain ⟨-, rest⟩ := List.pairwise_cons.1 back
  refine List.pairwise_append.2 ⟨front, List.pairwise_cons.2 ⟨?_, rest⟩, ?_⟩
  · intro other member
    rw [shares_comm]
    exact free other (List.mem_append_right before member)
  · intro other member next nextMember
    rcases List.mem_cons.1 nextMember with rfl | later
    · exact free other (List.mem_append_left after member)
    · exact across other member next (List.mem_cons_of_mem _ later)

end Apart

/-! ### Changes of collections -/

def Collections.withDocs (cols : Collections) (name : String) (docs : List Json) : Collections :=
  cols.insert name { collectionOf cols name with docs }

theorem collectionOf_insert (cols : Collections) (name other : String) (coll : Collection) :
    collectionOf (cols.insert name coll) other
      = if other = name then coll else collectionOf cols other := by
  unfold collectionOf
  rw [NameMap.get?_insert]
  split <;> rfl

/-- What an operation can do to collections: a document that passed the check comes or takes the
place of another one with the same id, or documents go. -/
inductive Rewrites (cols : Collections) : Collections → Prop
  | keeps : Rewrites cols cols
  | adds {name : String} {doc : Json} (hasId : ((lookup doc idField).getD .null).isNull = false)
      (accepted : checkUnique name (collectionOf cols name) (docsOf cols name) doc = .ok ()) :
      Rewrites cols (cols.withDocs name (docsOf cols name ++ [doc]))
  | changes {name : String} {before after : List Json} {old changed : Json}
      (docs : docsOf cols name = before ++ old :: after)
      (sameId : (lookup changed idField).getD .null = (lookup old idField).getD .null)
      (accepted : checkUnique name (collectionOf cols name) (before ++ after) changed = .ok ()) :
      Rewrites cols (cols.withDocs name (before ++ changed :: after))
  | removes {name : String} {kept : List Json} (sub : kept.Sublist (docsOf cols name)) :
      Rewrites cols (cols.withDocs name kept)

theorem splitFirst_docs {filter old : Json} {docs before after : List Json}
    (found : splitFirst filter docs = .ok (some (before, old, after))) :
    docs = before ++ old :: after := by
  induction docs generalizing before with
  | nil => cases found
  | cons doc rest inductionHypothesis =>
      unfold splitFirst at found
      cases holds : matchesFilter doc filter with
      | error failure => rw [holds] at found; cases found
      | ok answer =>
          rw [holds] at found
          cases answer with
          | true =>
              cases found
              rfl
          | false =>
              cases others : splitFirst filter rest with
              | error failure => rw [others] at found; cases found
              | ok later =>
                  rw [others] at found
                  cases later with
                  | none => cases found
                  | some parts =>
                      obtain ⟨front, first, back⟩ := parts
                      cases found
                      rw [inductionHypothesis others]
                      rfl

/-- What a filter splits off is what it selects, and the rest is in order. -/
theorem splitAll_select (filter : Json) (docs : List Json) :
    (splitAll filter docs).map Prod.fst = select filter docs ∧
      ∀ hits others, splitAll filter docs = .ok (hits, others) → others.Sublist docs := by
  induction docs with
  | nil => exact ⟨rfl, fun hits others split => by cases split; exact .slnil⟩
  | cons doc rest inductionHypothesis =>
      obtain ⟨selected, sub⟩ := inductionHypothesis
      unfold splitAll select
      rw [← selected]
      cases matchesFilter doc filter with
      | error failure => exact ⟨rfl, fun hits others split => by cases split⟩
      | ok holds =>
          rcases parts : splitAll filter rest with failure | ⟨hits, others⟩
          · exact ⟨rfl, fun hits others split => by cases split⟩
          · have subRest := sub hits others parts
            cases holds with
            | true =>
                refine ⟨rfl, fun _ _ split => ?_⟩
                cases split
                exact subRest.cons doc
            | false =>
                refine ⟨rfl, fun _ _ split => ?_⟩
                cases split
                exact subRest.cons_cons doc

theorem insertDoc_rewrites {name : String} {doc : Json} {cols after : Collections}
    (hasId : ((lookup doc idField).getD .null).isNull = false)
    (done : insertDoc name doc cols = .ok ((), after)) : Rewrites cols after := by
  obtain ⟨_, accepted, same⟩ := exists_of_bind done
  cases same
  exact .adds hasId accepted

theorem changeFirst_rewrites {name : String} {filter : Json} {change : Json → Json} {n : Nat}
    {cols after : Collections}
    (sameId : ∀ old, (lookup (change old) idField).getD .null = (lookup old idField).getD .null)
    (done : changeFirst name filter change cols = .ok (n, after)) : Rewrites cols after := by
  unfold changeFirst at done
  cases found : cols.get? name with
  | none =>
      rw [found] at done
      cases done
      exact .keeps
  | some coll =>
      have here : collectionOf cols name = coll := by
        rw [collectionOf, found]
        rfl
      subst here
      rw [found] at done
      obtain ⟨parts, split, changes⟩ := exists_of_bind done
      cases parts with
      | none =>
          cases changes
          exact .keeps
      | some parts =>
          obtain ⟨before, old, rest⟩ := parts
          obtain ⟨_, accepted, same⟩ := exists_of_bind changes
          cases same
          exact .changes (splitFirst_docs split) (sameId old) accepted

theorem deleteDocs_rewrites {name : String} {filter : Json} {n : Nat} {cols after : Collections}
    (done : deleteDocs name filter cols = .ok (n, after)) : Rewrites cols after := by
  unfold deleteDocs at done
  cases found : cols.get? name with
  | none =>
      rw [found] at done
      cases done
      exact .keeps
  | some coll =>
      have here : collectionOf cols name = coll := by
        rw [collectionOf, found]
        rfl
      subst here
      rw [found] at done
      obtain ⟨parts, split, same⟩ := exists_of_bind done
      obtain ⟨hits, others⟩ := parts
      cases same
      exact .removes ((splitAll_select filter _).2 hits others split)

theorem lookup_setFields {fields : Fields} (noId : Fields.has fields idField = false)
    (old : Json) : lookup (setFields fields old) idField = lookup old idField := by
  cases old with
  | object own =>
      rw [setFields, lookup_plain (by decide), lookup_plain (by decide)]
      induction fields generalizing own with
      | nil => rfl
      | cons field rest inductionHypothesis =>
          rw [Fields.has, List.any_cons, Bool.or_eq_false_iff] at noId
          rw [List.foldl_cons, inductionHypothesis noId.2, Fields.get?_insert,
            if_neg fun same => by simp [← same] at noId]
  | _ => rfl

theorem lookup_idField (doc : Json) : lookup doc idField = doc.field? idField := by
  cases doc with
  | object fields => exact lookup_plain (by decide) fields
  | array items => rfl
  | _ => rfl

theorem lookup_replaceKeepingId (fields : Fields) (old : Json) :
    (lookup (replaceKeepingId fields old) idField).getD .null
      = (lookup old idField).getD .null := by
  rw [replaceKeepingId, lookup_plain (by decide), Fields.get?_insert, if_pos rfl, lookup_idField]
  rfl

theorem Operation.rewrites (op : Operation) (cols : Collections) :
    Rewrites cols (op.apply cols).2 := by
  have write {α : Type} (change : Change α)
      (rewrites : ∀ a after, change cols = .ok (a, after) → Rewrites cols after) :
      Rewrites cols (Store.commitChange change { collections := cols }).2.collections := by
    unfold Store.commitChange
    cases done : change cols with
    | error failure => exact .keeps
    | ok result => exact rewrites result.1 result.2 done
  cases op with
  | insertOne name doc =>
      show Rewrites cols (Store.insertOne none name doc { collections := cols }).2.collections
      unfold Store.insertOne
      dsimp only
      split
      next hasId =>
        rw [Bool.and_eq_true, Bool.not_eq_true'] at hasId
        exact write _ fun _ after => insertDoc_rewrites hasId.2
      next => exact .keeps
  | find | count | aggregate => exact .keeps
  | updateOne name filter set =>
      cases set with
      | object fields =>
          show Rewrites cols
            (Store.updateOne none name filter (.object fields) { collections := cols }).2.collections
          unfold Store.updateOne
          dsimp only
          split
          next => exact .keeps
          next noId =>
            refine write _ fun n after => changeFirst_rewrites fun old => ?_
            rw [lookup_setFields (Bool.eq_false_iff.2 noId)]
      | _ => exact .keeps
  | replaceOne name filter doc =>
      cases doc with
      | object fields =>
          exact write _ fun n after => changeFirst_rewrites (lookup_replaceKeepingId fields)
      | _ => exact .keeps
  | deleteMany name filter => exact write _ fun n after => deleteDocs_rewrites

/-! ### Laws of collections -/

/-- A path that is checked, and under which no two documents share a value. -/
structure Enforced (name path : String) (cols : Collections) : Prop where
  checked : path ∈ idField :: (collectionOf cols name).unique
  apart : Apart path (docsOf cols name)

theorem Enforced.insert {name path other : String} {cols : Collections} {coll : Collection}
    (enforced : Enforced name path cols)
    (own : other = name → path ∈ idField :: coll.unique ∧ Apart path coll.docs) :
    Enforced name path (cols.insert other coll) := by
  by_cases same : name = other
  · have found : collectionOf (NameMap.insert cols other coll) name = coll := by
      rw [collectionOf_insert, if_pos same]
    obtain ⟨checked, apart⟩ := own same.symm
    constructor
    · rwa [found]
    · rwa [docsOf, found]
  · have found : collectionOf (NameMap.insert cols other coll) name = collectionOf cols name := by
      rw [collectionOf_insert, if_neg same]
    constructor
    · rw [found]
      exact enforced.checked
    · rw [docsOf, found]
      exact enforced.apart

theorem Enforced.withDocs {name path other : String} {cols : Collections} {docs : List Json}
    (enforced : Enforced name path cols) (apart : other = name → Apart path docs) :
    Enforced name path (cols.withDocs other docs) := by
  refine enforced.insert fun same => ⟨?_, apart same⟩
  subst same
  exact enforced.checked

theorem Rewrites.enforced {cols after : Collections} (rewrites : Rewrites cols after)
    {name path : String} (enforced : Enforced name path cols) : Enforced name path after := by
  cases rewrites with
  | keeps => exact enforced
  | adds hasId accepted =>
      refine enforced.withDocs fun same => ?_
      subst same
      exact enforced.apart.add (checkUnique_apart accepted enforced.checked)
  | changes docs sameId accepted =>
      refine enforced.withDocs fun same => ?_
      subst same
      have apart := enforced.apart
      rw [docs] at apart
      exact apart.change (checkUnique_apart accepted enforced.checked)
  | removes sub =>
      refine enforced.withDocs fun same => ?_
      subst same
      exact enforced.apart.sublist sub

/-- Every document has an id, and no two of one collection have the same. -/
structure Identified (cols : Collections) : Prop where
  enforced : ∀ name, Enforced name idField cols
  present : ∀ name, ∀ doc ∈ docsOf cols name, ((lookup doc idField).getD .null).isNull = false

theorem Identified.empty : Identified .empty where
  enforced _ := ⟨List.mem_cons_self, .nil⟩
  present _ doc member := by cases member

theorem Rewrites.identified {cols after : Collections} (rewrites : Rewrites cols after)
    (identified : Identified cols) : Identified after where
  enforced name := rewrites.enforced (identified.enforced name)
  present name doc member := by
    have known := identified.present
    have inside {other : String} {docs : List Json} (held : doc ∈ docsOf (cols.withDocs other docs) name)
        (new : ∀ d ∈ docs, ((lookup d idField).getD .null).isNull = false) :
        ((lookup doc idField).getD .null).isNull = false := by
      rw [docsOf, Collections.withDocs, collectionOf_insert] at held
      by_cases same : name = other
      · rw [if_pos same] at held
        exact new doc held
      · rw [if_neg same] at held
        exact known name doc held
    cases rewrites with
    | keeps => exact known name doc member
    | adds hasId accepted =>
        refine inside member fun d held => ?_
        rcases List.mem_append.1 held with old | new
        · exact known _ d old
        · rw [List.mem_singleton.1 new]
          exact hasId
    | @changes _ before after old changed docs sameId accepted =>
        have old (d : Json) (held : d ∈ before ++ old :: after) :
            ((lookup d idField).getD .null).isNull = false := known _ d (docs ▸ held)
        refine inside member fun d held => ?_
        rcases List.mem_append.1 held with front | back
        · exact old d (List.mem_append_left _ front)
        · rcases List.mem_cons.1 back with rfl | back
          · rw [sameId]
            exact old _ (List.mem_append_right _ List.mem_cons_self)
          · exact old d (List.mem_append_right _ (List.mem_cons_of_mem _ back))
    | removes sub => exact inside member fun d held => known _ d (sub.subset held)

/-! ### Laws throughout a run -/

/-- A law of the committed collections, and of every copy but those of excused sessions. -/
structure Throughout (law : Collections → Prop) (excused : SessionId → Prop) (s : Store) :
    Prop where
  committed : law s.collections
  copies : ∀ {id : SessionId} {copy : Snapshot}, s.sessions.lookup id = some (some copy) →
    law copy.collections ∨ excused id

/-- A call keeps a law that operations keep, unless it publishes an excused copy.  A session has to
be excused again only while its transaction is open. -/
theorem Throughout.step {law : Collections → Prop} {excused later : SessionId → Prop}
    (kept : ∀ (op : Operation) (cols : Collections), law cols → law (op.apply cols).2)
    {s after : Store} {call : Call} (does : call.Does s after)
    (unexcused : ∀ {id copy}, call = .commitTransaction id →
      s.sessions.lookup id = some (some copy) → copy.dirty = true →
      copy.baseVersion = s.version → ¬ excused id)
    (again : ∀ {id copy}, after.sessions.lookup id = some (some copy) → excused id → later id)
    (throughout : Throughout law excused s) : Throughout law later after := by
  have old {id : SessionId} {copy copyAfter : Snapshot}
      (found : s.sessions.lookup id = some (some copy))
      (still : after.sessions.lookup id = some (some copyAfter)) :
      law copy.collections ∨ later id :=
    (throughout.copies found).imp_right (again still)
  constructor
  · cases does with
    | commits => exact kept _ _ throughout.committed
    | publishes inside written current =>
        exact (throughout.copies inside).resolve_right (unexcused rfl inside written current)
    | _ => exact throughout.committed
  · intro id copyAfter still
    rcases does.copy_cases still with found | ⟨copy, op, found, rfl⟩ | ⟨-, rfl⟩
    · exact old found still
    · exact (old found still).imp_left (kept op _)
    · exact Or.inl throughout.committed

/-! ### Indexes -/

/-- What happens to a store: a call, or the creation of a unique index. -/
inductive Deed where
  | call (call : Call)
  | createUniqueIndex (name path : String)

def Deed.perform (s : Store) : Deed → Store
  | .call made => (made.request s).2
  | .createUniqueIndex name path => s.createUniqueIndex name path

theorem createUniqueIndex_sessions (s : Store) (name path : String) :
    (s.createUniqueIndex name path).sessions = s.sessions ∧
      (s.createUniqueIndex name path).version = s.version := by
  unfold Store.createUniqueIndex
  dsimp only
  split
  · exact ⟨rfl, rfl⟩
  · exact ⟨rfl, rfl⟩

theorem createUniqueIndex_checks (s : Store) (name path : String) :
    path ∈ (collectionOf (s.createUniqueIndex name path).collections name).unique := by
  unfold Store.createUniqueIndex
  dsimp only
  split
  next known => exact List.contains_iff_mem.1 known
  next =>
    rw [collectionOf_insert, if_pos rfl]
    exact List.mem_append_right _ (List.mem_singleton_self _)

theorem createUniqueIndex_docs (s : Store) (name path other : String) :
    docsOf (s.createUniqueIndex name path).collections other = docsOf s.collections other := by
  unfold Store.createUniqueIndex
  dsimp only
  split
  · rfl
  · rw [docsOf, collectionOf_insert]
    split
    next same => rw [same, docsOf]
    next => rfl

theorem Enforced.createUniqueIndex {name path : String} {s : Store}
    (enforced : Enforced name path s.collections) (other otherPath : String) :
    Enforced name path (s.createUniqueIndex other otherPath).collections := by
  unfold Store.createUniqueIndex
  dsimp only
  split
  · exact enforced
  · refine enforced.insert fun same => ?_
    subst same
    refine ⟨?_, enforced.apart⟩
    rcases List.mem_cons.1 enforced.checked with isId | indexed
    · rw [isId]
      exact List.mem_cons_self
    · exact List.mem_cons_of_mem _ (List.mem_append_left _ indexed)

/-- The deed commits the transaction of a session, which was written to and is up to date. -/
def Deed.publishes (id : SessionId) (s : Store) : Deed → Bool
  | .call (.commitTransaction other) =>
    other == id &&
      (s.copyOf? (some id)).any fun copy => copy.dirty && copy.baseVersion == s.version
  | _ => false

/-- The transaction that is open in a session is not published by any of the deeds: it stays open,
is given up, or meets a conflict, or nothing was written in it. -/
def Unpublished (id : SessionId) : List Deed → Store → Bool
  | [], _ => true
  | deed :: rest, s =>
    !deed.publishes id s &&
      (((deed.perform s).copyOf? (some id)).isNone || Unpublished id rest (deed.perform s))

theorem Throughout.perform {name path : String} {deed : Deed} {rest : List Deed} {s : Store}
    (throughout : Throughout (Enforced name path) (fun id => Unpublished id (deed :: rest) s) s) :
    Throughout (Enforced name path) (fun id => Unpublished id rest (deed.perform s))
      (deed.perform s) := by
  have again {id : SessionId} {copy : Snapshot}
      (still : (deed.perform s).sessions.lookup id = some (some copy))
      (unpublished : Unpublished id (deed :: rest) s) : Unpublished id rest (deed.perform s) := by
    have isOpen : (deed.perform s).copyOf? (some id) = some copy := Option.join_eq_some_iff.2 still
    rw [Unpublished, isOpen] at unpublished
    exact (Bool.and_eq_true_iff.1 unpublished).2
  cases deed with
  | call made =>
      refine Throughout.step (fun op cols enforced => (op.rewrites cols).enforced enforced)
        (made.does s) ?_ again throughout
      intro id copy same inside written current unpublished
      subst same
      have isOpen : s.copyOf? (some id) = some copy := Option.join_eq_some_iff.2 inside
      simp [Unpublished, Deed.publishes, isOpen, written, current] at unpublished
  | createUniqueIndex other otherPath =>
      have sessions := (createUniqueIndex_sessions s other otherPath).1
      refine ⟨throughout.committed.createUniqueIndex other otherPath, fun {id copy} still => ?_⟩
      have found : s.sessions.lookup id = some (some copy) := sessions ▸ still
      exact (throughout.copies found).imp_right (again still)

theorem Throughout.performAll {name path : String} (deeds : List Deed) {s : Store}
    (throughout : Throughout (Enforced name path) (fun id => Unpublished id deeds s) s) :
    Enforced name path (deeds.foldl Deed.perform s).collections := by
  induction deeds generalizing s with
  | nil => exact throughout.committed
  | cons deed rest inductionHypothesis => exact inductionHypothesis throughout.perform

theorem Deed.behind (deed : Deed) {id : SessionId} {s : Store} {copy copyAfter : Snapshot}
    (inside : s.sessions.lookup id = some (some copy))
    (still : (deed.perform s).sessions.lookup id = some (some copyAfter))
    (behind : copy.baseVersion < s.version) :
    copyAfter.baseVersion < (deed.perform s).version := by
  cases deed with
  | call made =>
      have does := made.does s
      rw [does.baseVersion_eq inside still]
      exact Nat.lt_of_lt_of_le behind does.version_le
  | createUniqueIndex name path =>
      obtain ⟨sessions, version⟩ := createUniqueIndex_sessions s name path
      have found : (s.createUniqueIndex name path).sessions.lookup id = some (some copyAfter) :=
        still
      rw [sessions, inside] at found
      cases found
      show _ < (s.createUniqueIndex name path).version
      rw [version]
      exact behind

/-- A transaction that is behind the committed collections is never published. -/
theorem unpublished_of_behind {id : SessionId} (deeds : List Deed) {s : Store} {copy : Snapshot}
    (inside : s.sessions.lookup id = some (some copy)) (behind : copy.baseVersion < s.version) :
    Unpublished id deeds s := by
  induction deeds generalizing s copy with
  | nil => rfl
  | cons deed rest inductionHypothesis =>
      have isOpen : s.copyOf? (some id) = some copy := Option.join_eq_some_iff.2 inside
      have conflicts : deed.publishes id s = false := by
        unfold Deed.publishes
        split
        · simp [isOpen, Nat.ne_of_lt behind]
        · rfl
      rw [Unpublished, conflicts]
      cases still : (deed.perform s).copyOf? (some id) with
      | none => rfl
      | some copyAfter =>
          exact inductionHypothesis (Store.lookup_of_copyOf? still)
            (deed.behind inside (Store.lookup_of_copyOf? still) behind)

/-- A unique index stays enforced, whatever happens after its creation, if no two documents share
a value when it is created and no transaction that is open then is published.  One that is brings
back the collections without the index. -/
theorem createUniqueIndex_enforced {s : Store} {name path : String} (deeds : List Deed)
    (apart : Apart path (docsOf s.collections name))
    (unpublished : ∀ id, (s.copyOf? (some id)).isSome →
      Unpublished id deeds (s.createUniqueIndex name path)) :
    Enforced name path (deeds.foldl Deed.perform (s.createUniqueIndex name path)).collections := by
  have created : Enforced name path (s.createUniqueIndex name path).collections := by
    constructor
    · exact List.mem_cons_of_mem _ (createUniqueIndex_checks s name path)
    · rw [createUniqueIndex_docs]
      exact apart
  refine Throughout.performAll deeds ⟨created, fun {id copy} found => Or.inr ?_⟩
  rw [(createUniqueIndex_sessions s name path).1] at found
  have isOpen : s.copyOf? (some id) = some copy := Option.join_eq_some_iff.2 found
  exact unpublished id (isOpen ▸ rfl)

def mail (id address : String) : Json :=
  .object [(idField, .text id), ("email", .text address)]

/-- A transaction has inserted an address, and beside it another address was committed. -/
def overtaken : Store :=
  (serve Store.new [.startSession, .startTransaction 1,
    .operation (some 1) (.insertOne "c" (mail "a" "x")),
    .operation none (.insertOne "c" (mail "d" "y"))]).2

def laterMails : List Deed :=
  [.call (.commitTransaction 1), .call (.operation none (.insertOne "c" (mail "b" "x"))),
   .call (.operation none (.insertOne "c" (mail "e" "x")))]

theorem overtaken_enforced :
    Apart "email" (docsOf overtaken.collections "c") ∧
      (∀ id, (overtaken.copyOf? (some id)).isSome →
        Unpublished id laterMails (overtaken.createUniqueIndex "c" "email")) ∧
      Enforced "c" "email"
        (laterMails.foldl Deed.perform (overtaken.createUniqueIndex "c" "email")).collections := by
  have apart : Apart "email" (docsOf overtaken.collections "c") := by decide +kernel
  have older : ∀ entry ∈ overtaken.sessions,
      (entry.2.all fun copy => copy.baseVersion < overtaken.version) = true := by decide +kernel
  have unpublished (id : SessionId) (isOpen : (overtaken.copyOf? (some id)).isSome) :
      Unpublished id laterMails (overtaken.createUniqueIndex "c" "email") := by
    obtain ⟨copy, inside⟩ := Option.isSome_iff_exists.1 isOpen
    have found := Store.lookup_of_copyOf? inside
    obtain ⟨front, back, entries, -⟩ := List.lookup_eq_some_iff.1 found
    have member : (id, some copy) ∈ overtaken.sessions := by
      rw [entries]
      exact List.mem_append_right _ List.mem_cons_self
    obtain ⟨sessions, version⟩ := createUniqueIndex_sessions overtaken "c" "email"
    refine unpublished_of_behind laterMails (sessions ▸ found) ?_
    rw [version]
    exact of_decide_eq_true (older _ member)
  exact ⟨apart, unpublished, createUniqueIndex_enforced laterMails apart unpublished⟩

/-- A transaction has inserted an address, and nothing was committed beside it. -/
def upToDate : Store :=
  (serve Store.new [.startSession, .startTransaction 1,
    .operation (some 1) (.insertOne "c" (mail "a" "x"))]).2

/-- The commit of a transaction that is up to date takes the index away again, and an address is
stored a second time. -/
theorem upToDate_repeats :
    Apart "email" (docsOf upToDate.collections "c") ∧
      ¬ Apart "email" (docsOf ([Deed.call (.commitTransaction 1),
        .call (.operation none (.insertOne "c" (mail "b" "x")))].foldl Deed.perform
          (upToDate.createUniqueIndex "c" "email")).collections "c") := by
  decide +kernel

end Document

end Recordkeeper
