import Recordkeeper.Proofs.Document.Identity
import Recordkeeper.Proofs.Json

/-!
Contract: the ids of stored documents.

Owns:
- that every document has an id and no two of one collection have equal ones, in the committed
  collections and in the copy of every open transaction, whatever has happened to the store;
- that changes in place keep the ids of a collection and their order.

Does not own: other unique paths (`Proofs.Document.Unique`), and which documents an id addresses
(`Proofs.Document.Identity`).
-/

set_option autoImplicit false

namespace Recordkeeper.Document

open Store (docsOf)

/-! ### Ids of collections -/

/-- The ids of a collection, in the order of its documents. -/
def idsOf (cols : Collections) (name : String) : List Json := (docsOf cols name).map idOf

/-- No value of a list is equal to a later one. -/
def Distinct (values : List Json) : Prop := values.Pairwise fun v w => v.equal w = false

/-- Every document is an object with an id other than null, and the ids of a collection differ. -/
structure Keyed (cols : Collections) : Prop where
  present : ∀ name, ∀ doc ∈ docsOf cols name, ∃ (fields : Fields) (id : Json),
    doc = .object fields ∧ Fields.get? fields idField = some id ∧ id.isNull = false
  distinct : ∀ name, Distinct (idsOf cols name)
  /-- Equality of values is only known to be symmetric where no object repeats a field. -/
  distinctBothWays : ∀ name, ((idsOf cols name).filter Json.fieldsOnce).Pairwise fun v w =>
    v.equal w = false ∧ w.equal v = false

theorem exists_fields_of_idOf {doc : Json} (hasId : (idOf doc).isNull = false) :
    ∃ (fields : Fields) (id : Json),
      doc = .object fields ∧ Fields.get? fields idField = some id ∧ id.isNull = false := by
  rw [idOf, lookup_idField] at hasId
  cases doc with
  | object fields =>
      cases held : Fields.get? fields idField with
      | none =>
          rw [Json.field?, Json.fields?, Option.bind_some, held] at hasId
          cases hasId
      | some id =>
          rw [Json.field?, Json.fields?, Option.bind_some, held] at hasId
          exact ⟨fields, id, rfl, held, hasId⟩
  | null | bool | number | text | array => cases hasId

theorem Distinct.bothWays {values : List Json} (distinct : Distinct values) :
    (values.filter Json.fieldsOnce).Pairwise fun v w =>
      v.equal w = false ∧ w.equal v = false := by
  refine List.Pairwise.imp_of_mem ?_ (distinct.filter Json.fieldsOnce)
  intro v w vMember wMember differ
  refine ⟨differ, Bool.eq_false_iff.2 fun same => ?_⟩
  have back := Json.equal_symm w v (List.mem_filter.1 wMember).2 (List.mem_filter.1 vMember).2 same
  rw [differ] at back
  cases back

theorem idsOf_withDocs (cols : Collections) (name other : String) (docs : List Json) :
    idsOf (cols.withDocs other docs) name
      = if name = other then docs.map idOf else idsOf cols name := by
  rw [idsOf, docsOf, Collections.withDocs, collectionOf_insert]
  split <;> rfl

/-- A document in the place of one with the same id leaves the ids of all collections as they
are. -/
theorem idsOf_change {cols : Collections} {name : String} {before after : List Json}
    {old changed : Json} (docs : docsOf cols name = before ++ old :: after)
    (sameId : idOf changed = idOf old) :
    idsOf (cols.withDocs name (before ++ changed :: after)) = idsOf cols := by
  funext other
  rw [idsOf_withDocs]
  split
  next same => rw [same, idsOf, docs, List.map_append, List.map_cons, sameId, List.map_append,
    List.map_cons]
  next => rfl

/-- A document that passes the check has an id that none of the others has. -/
theorem checkUnique_idOf {name : String} {coll : Collection} {others : List Json} {doc : Json}
    (hasId : (idOf doc).isNull = false)
    (accepted : checkUnique name coll others doc = .ok ()) :
    ∀ other ∈ others, (idOf other).equal (idOf doc) = false := by
  intro other member
  unfold checkUnique at accepted
  split at accepted
  next => cases accepted
  next free =>
    have unrepeated := List.findSome?_eq_none_iff.1 free idField List.mem_cons_self
    obtain ⟨fields, id, rfl, held, notNull⟩ := exists_fields_of_idOf hasId
    have own : lookup (.object fields) idField = some id := (lookup_idField _).trans held
    rw [own] at unrepeated
    simp only [notNull, Bool.not_false, Bool.true_and, ite_eq_right_iff, reduceCtorEq,
      imp_false] at unrepeated
    rw [idOf, idOf, own, Option.getD_some]
    refine Bool.eq_false_iff.2 fun same => unrepeated (List.any_eq_true.2 ⟨other, member, ?_⟩)
    rw [hasValueAt]
    cases theirs : lookup other idField with
    | none =>
        rw [theirs] at same
        cases id with
        | null => cases notNull
        | bool | number | text | array | object => cases same
    | some value =>
        rw [theirs] at same
        exact same

theorem Rewrites.distinct {cols after : Collections} (rewrites : Rewrites cols after)
    (distinct : ∀ name, Distinct (idsOf cols name)) (name : String) :
    Distinct (idsOf after name) := by
  cases rewrites with
  | keeps => exact distinct name
  | @adds other doc hasId accepted =>
      rw [idsOf_withDocs]
      split
      next same =>
        rw [List.map_append]
        refine List.pairwise_append.2 ⟨distinct other, List.pairwise_singleton _ _, ?_⟩
        intro v member w new
        obtain ⟨held, heldMember, rfl⟩ := List.mem_map.1 member
        rw [List.mem_singleton.1 new]
        exact checkUnique_idOf hasId accepted held heldMember
      next => exact distinct name
  | changes docs sameId accepted =>
      rw [idsOf_change docs sameId]
      exact distinct name
  | @removes other kept sub =>
      rw [idsOf_withDocs]
      split
      next => exact (distinct other).sublist (sub.map idOf)
      next => exact distinct name

/-! ### Every state of a store -/

/-- The law of ids that every operation keeps. -/
def IdsDiffer (cols : Collections) : Prop :=
  Identified cols ∧ ∀ name, Distinct (idsOf cols name)

theorem IdsDiffer.keyed {cols : Collections} (law : IdsDiffer cols) : Keyed cols where
  present name doc member := exists_fields_of_idOf (law.1.present name doc member)
  distinct := law.2
  distinctBothWays name := (law.2 name).bothWays

theorem IdsDiffer.operation (op : Operation) (cols : Collections) (law : IdsDiffer cols) :
    IdsDiffer (op.apply cols).2 :=
  ⟨(op.rewrites cols).identified law.1, (op.rewrites cols).distinct law.2⟩

theorem IdsDiffer.index (s : Store) (name path : String) (law : IdsDiffer s.collections) :
    IdsDiffer (s.createUniqueIndex name path).collections := by
  refine ⟨⟨fun other => (law.1.enforced other).createUniqueIndex name path, ?_⟩, ?_⟩
  · intro other doc member
    rw [createUniqueIndex_docs] at member
    exact law.1.present other doc member
  · intro other
    rw [idsOf, createUniqueIndex_docs]
    exact law.2 other

/-- Whatever happens to a store keeps a law that operations and new indexes keep. -/
theorem Deed.throughout {law : Collections → Prop}
    (operations : ∀ (op : Operation) (cols : Collections), law cols → law (op.apply cols).2)
    (indexes : ∀ (s : Store) (name path : String), law s.collections →
      law (s.createUniqueIndex name path).collections)
    (deed : Deed) {s : Store} (throughout : Throughout law (fun _ => False) s) :
    Throughout law (fun _ => False) (deed.perform s) := by
  cases deed with
  | call made =>
      exact Throughout.step operations (made.does s) (fun _ _ _ _ => id) (fun _ => id) throughout
  | createUniqueIndex name path =>
      refine ⟨indexes s name path throughout.committed, fun {id copy} found => ?_⟩
      have sessions := (createUniqueIndex_sessions s name path).1
      exact throughout.copies (sessions ▸ found)

theorem Deed.throughoutAll {law : Collections → Prop}
    (operations : ∀ (op : Operation) (cols : Collections), law cols → law (op.apply cols).2)
    (indexes : ∀ (s : Store) (name path : String), law s.collections →
      law (s.createUniqueIndex name path).collections)
    (deeds : List Deed) {s : Store} (throughout : Throughout law (fun _ => False) s) :
    Throughout law (fun _ => False) (deeds.foldl Deed.perform s) := by
  induction deeds generalizing s with
  | nil => exact throughout
  | cons deed rest inductionHypothesis =>
      exact inductionHypothesis (deed.throughout operations indexes throughout)

/-! ### Changes in place -/

/-- The operation changes a document and leaves it where it is. -/
def Operation.inPlace : Operation → Bool
  | .updateOne .. => true
  | .replaceOne .. => true
  | _ => false

theorem changeFirst_idsOf {name : String} {filter : Json} {change : Json → Json} {n : Nat}
    {cols after : Collections} (sameId : ∀ old, idOf (change old) = idOf old)
    (done : changeFirst name filter change cols = .ok (n, after)) : idsOf after = idsOf cols := by
  unfold changeFirst at done
  cases found : cols.get? name with
  | none =>
      rw [found] at done
      cases done
      rfl
  | some coll =>
      have here : collectionOf cols name = coll := by
        rw [collectionOf, found]
        rfl
      subst here
      rw [found] at done
      obtain ⟨parts, split, changes⟩ := exists_of_bind done
      cases parts with
      | none =>
          cases changes
          rfl
      | some parts =>
          obtain ⟨before, old, rest⟩ := parts
          obtain ⟨_, -, same⟩ := exists_of_bind changes
          cases same
          exact idsOf_change (splitFirst_docs split) (sameId old)

/-- What an operation leaves alone in the collections that it works on is left alone in what any
caller sees. -/
theorem Operation.visible_map {α : Type} {view : Collections → α} {op : Operation}
    (kept : ∀ cols, view (op.apply cols).2 = view cols) (session caller : Option SessionId)
    (s : Store) :
    ((op.request session s).2.visible caller).map view = (s.visible caller).map view := by
  cases inside : s.copyOf? session with
  | none =>
      rcases op.request_outside inside with ⟨failure, failed⟩ | alone
      · rw [failed]
      · rw [alone, op.request_alone]
        dsimp only
        split
        next =>
          cases caller with
          | none => exact congrArg Except.ok (kept s.collections)
          | some id =>
              unfold Store.visible
              dsimp only
              rcases s.sessions.lookup id with _ | _ | copy
              · rfl
              · exact congrArg Except.ok (kept s.collections)
              · rfl
        next => rfl
  | some copy =>
      cases session with
      | none => cases inside
      | some id =>
          rw [op.request_inside inside]
          dsimp only
          split
          next =>
            cases caller with
            | none => rfl
            | some other =>
                have found := Store.lookup_of_copyOf? inside
                unfold Store.visible Store.withCopy
                dsimp only
                rw [Sessions.lookup_set]
                by_cases own : other = id
                · rw [if_pos own, own, found]
                  exact congrArg Except.ok (kept copy.collections)
                · rw [if_neg own]
          next => rfl

theorem Operation.idsOf_apply {op : Operation} (inPlace : op.inPlace) (cols : Collections) :
    idsOf (op.apply cols).2 = idsOf cols := by
  have write {change : Change Nat}
      (keeps : ∀ n after, change cols = .ok (n, after) → idsOf after = idsOf cols) :
      idsOf (Store.commitChange change { collections := cols }).2.collections = idsOf cols := by
    unfold Store.commitChange
    cases done : change cols with
    | error failure => rfl
    | ok result => exact keeps result.1 result.2 done
  cases op with
  | insertOne | find | count | deleteMany | aggregate => cases inPlace
  | updateOne name filter set =>
      cases set with
      | object fields =>
          show idsOf (Store.updateOne none name filter (.object fields)
            { collections := cols }).2.collections = _
          unfold Store.updateOne
          dsimp only
          split
          next => rfl
          next noId =>
            refine write fun n after => changeFirst_idsOf fun old => ?_
            rw [idOf, lookup_setFields (Bool.eq_false_iff.2 noId), idOf]
      | _ => rfl
  | replaceOne name filter doc =>
      cases doc with
      | object fields =>
          exact write fun n after => changeFirst_idsOf (lookup_replaceKeepingId fields)
      | _ => rfl

/-- Whatever has happened to a store: in the collections that any caller sees, committed or the copy
of its transaction, every document has an id and the ids of a collection differ.  An operation that
changes a document in place leaves all ids as they are, in their order, for every caller. -/
theorem ids_unique (transactions : Bool) (deeds : List Deed) :
    let s := deeds.foldl Deed.perform { transactions }
    (∀ caller cols, s.visible caller = .ok cols → Keyed cols) ∧
      ∀ op : Operation, op.inPlace → ∀ session caller,
        ((op.request session s).2.visible caller).map idsOf = (s.visible caller).map idsOf := by
  intro s
  have fresh : Throughout IdsDiffer (fun _ => False) { transactions } :=
    ⟨⟨.empty, fun _ => .nil⟩, fun found => by cases found⟩
  have always : Throughout IdsDiffer (fun _ => False) s :=
    Deed.throughoutAll IdsDiffer.operation IdsDiffer.index deeds fresh
  constructor
  · intro caller cols seen
    exact (always.visible seen).keyed
  · intro op inPlace session caller
    exact Operation.visible_map (Operation.idsOf_apply inPlace) session caller s

/-- An address is stored, an index created on it, and a transaction has inserted a second one. -/
def indexedMails : List Deed :=
  [.call (.operation none (.insertOne "c" (mail "a" "x"))), .createUniqueIndex "c" "email",
   .call .startSession, .call (.startTransaction 1),
   .call (.operation (some 1) (.insertOne "c" (mail "b" "y")))]

theorem indexedMails_ids :
    let s := indexedMails.foldl Deed.perform { transactions := true }
    let update : Operation := .updateOne "c" .emptyObject (.single "email" (.text "z"))
    (∃ cols, s.visible (some 1) = .ok cols ∧ idsOf cols "c" = [.text "a", .text "b"] ∧
        Keyed cols) ∧
      update.inPlace ∧
      ((update.request (some 1) s).2.visible (some 1)).map idsOf
        = (s.visible (some 1)).map idsOf := by
  intro s update
  obtain ⟨keyed, kept⟩ := ids_unique true indexedMails
  exact ⟨⟨_, rfl, rfl, keyed (some 1) _ rfl⟩, rfl, kept update rfl _ _⟩

end Recordkeeper.Document
