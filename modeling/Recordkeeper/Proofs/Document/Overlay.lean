import Recordkeeper.Proofs.Document.Identity
import Recordkeeper.Proofs.Storing

/-!
Contract: a partial update of a document.

Owns:
- the first match of a filter, and the collections in which it alone has changed;
- documents that hold a record of declared fields, and the record of one whose fields were set;
- the documents that a partial update leaves, and the record that is found among them.

Does not own: which documents share an id.

The fields are set in the document in place, so nothing is read before; the record that is found
afterwards is compared with the one that would have been found before.
-/

set_option autoImplicit false

namespace Recordkeeper.Document

open Store (docsOf)

/-! ### The first match -/

theorem splitFirst_matches {filter old : Json} {docs before after : List Json}
    (found : splitFirst filter docs = .ok (some (before, old, after))) :
    (∀ doc ∈ before, matchesFilter doc filter = .ok false) ∧ matchesFilter old filter = .ok true := by
  induction docs generalizing before with
  | nil => cases found
  | cons doc rest inductionHypothesis =>
      unfold splitFirst at found
      obtain ⟨holds, tested, found⟩ := exists_of_bind found
      cases holds with
      | true =>
          cases found
          exact ⟨List.forall_mem_nil _, tested⟩
      | false =>
          obtain ⟨later, split, found⟩ := exists_of_bind found
          cases later with
          | none => cases found
          | some parts =>
              obtain ⟨front, first, back⟩ := parts
              cases found
              obtain ⟨passed, matched⟩ := inductionHypothesis split
              exact ⟨List.forall_mem_cons.2 ⟨tested, passed⟩, matched⟩

/-- In a collection one document was changed: the first that satisfies a filter. -/
structure ChangedFirst (filter : Json) (change : Json → Json) (name : String)
    (cols after : Collections) (before : List Json) (doc : Json) (rest : List Json) : Prop where
  docs : docsOf cols name = before ++ doc :: rest
  passed : ∀ other ∈ before, matchesFilter other filter = .ok false
  first : matchesFilter doc filter = .ok true
  after_eq : after = cols.withDocs name (before ++ change doc :: rest)

theorem changeFirst_cases {name : String} {filter : Json} {change : Json → Json} {n : Nat}
    {cols after : Collections} (done : changeFirst name filter change cols = .ok (n, after)) :
    (n = 0 ∧ after = cols) ∨
      n = 1 ∧ ∃ before doc rest, ChangedFirst filter change name cols after before doc rest := by
  unfold changeFirst at done
  cases found : cols.get? name with
  | none =>
      rw [found] at done
      cases done
      exact .inl ⟨rfl, rfl⟩
  | some coll =>
      have here : collectionOf cols name = coll := by
        rw [collectionOf, found]
        rfl
      subst here
      rw [found] at done
      obtain ⟨parts, split, changes⟩ := exists_of_bind done
      cases parts with
      | none =>
          cases changes
          exact .inl ⟨rfl, rfl⟩
      | some parts =>
          obtain ⟨before, old, rest⟩ := parts
          obtain ⟨_, -, same⟩ := exists_of_bind changes
          cases same
          obtain ⟨passed, first⟩ := splitFirst_matches split
          exact .inr ⟨rfl, before, old, rest, splitFirst_docs split, passed, first, rfl⟩

/-- Fields are set where a filter first matches, unless one of them is the id or nothing matches;
then nobody sees a change. -/
theorem Store.updateOne_cases (session : Option SessionId) (name : String) (filter : Json)
    (fields : Fields) (s : Store) :
    let done := updateOne session name filter (.object fields) s
    ((done.1 = .ok 0 ∨ ∃ failure, done.1 = .error failure) ∧
      ∀ caller, done.2.visible caller = s.visible caller) ∨
    (done.1 = .ok 1 ∧ Fields.has fields idField = false ∧ ∃ cols after before doc rest,
      ChangedFirst filter (setFields fields) name cols after before doc rest ∧
      Turned session cols after s done.2) := by
  intro done
  cases hasId : Fields.has fields idField with
  | true =>
      have refused : done = (badValue "the _id field is immutable", s) := if_pos hasId
      rw [refused]
      exact .inl ⟨.inr ⟨_, rfl⟩, fun _ => rfl⟩
  | false =>
      have wrote : done = write session (changeFirst name filter (setFields fields)) s :=
        if_neg (Bool.eq_false_iff.1 hasId)
      rw [wrote]
      obtain ⟨failure, -, failed, same⟩ | ⟨cols, n, after, changed, answered, turned⟩ :=
        write_turns session (changeFirst name filter (setFields fields)) s
      · exact .inl ⟨.inr ⟨failure, failed⟩, same⟩
      · obtain ⟨rfl, rfl⟩ | ⟨rfl, before, doc, rest, first⟩ := changeFirst_cases changed
        · refine .inl ⟨.inl answered, fun caller => ?_⟩
          obtain same | ⟨saw, sees⟩ := turned.others caller
          · exact same
          · exact sees.trans saw.symm
        · exact .inr ⟨answered, rfl, cols, after, before, doc, rest, first, turned⟩

theorem ChangedFirst.docs_after {filter : Json} {change : Json → Json} {name : String}
    {cols after : Collections} {before rest : List Json} {doc : Json}
    (changed : ChangedFirst filter change name cols after before doc rest) :
    docsOf after name = before ++ change doc :: rest := by
  rw [changed.after_eq, docsOf, Collections.withDocs, collectionOf_insert, if_pos rfl]

/-! ### Documents of records -/

namespace Records

variable {σ E : Type} {d : Records σ E}

/-- A document that holds a record of declared fields: an object whose keys are those of fields,
each once. -/
structure HoldsRecord (d : Records σ E) (doc : Json) (own : Fields) : Prop where
  object : doc = .object own
  once : (own.map Prod.fst).Nodup
  declared : ∀ key ∈ own.map Prod.fst, ∃ name, (d.schema.field? name).isSome ∧ d.keyOf name = key

/-- The columns of a schema lead back to its fields, and only that of the key may be the one of
ids. -/
structure Distinguishes (s : Schema) : Prop where
  distinct : (s.fields.map (·.column)).Nodup
  notId : ∀ f ∈ s.fields, f.name ≠ s.primaryKey → f.column ≠ idField

theorem nameOf_keyOf (own : Distinguishes d.schema) {name : String}
    (declared : (d.schema.field? name).isSome) : d.nameOf (d.keyOf name) = name := by
  refine nameOf_keyOf_iff.2 fun notKey => ⟨?_, Schema.recovers_of_distinct own.distinct declared⟩
  obtain ⟨f, found⟩ := Option.isSome_iff_exists.1 declared
  obtain ⟨member, named⟩ := Schema.field?_name found
  rw [Schema.columnFor_of_field? found]
  exact own.notId f member (named ▸ notKey)

theorem keyOf_inj (own : Distinguishes d.schema) {m n : String}
    (mDeclared : (d.schema.field? m).isSome) (nDeclared : (d.schema.field? n).isSome)
    (same : d.keyOf m = d.keyOf n) : m = n := by
  rw [← nameOf_keyOf own mDeclared, same, nameOf_keyOf own nDeclared]

theorem holdsRecord_toDoc (d : Records σ E) {r : Record}
    (declared : ∀ name ∈ r.names, (d.schema.field? name).isSome) :
    d.HoldsRecord (d.toDoc r) (d.docFields r) where
  object := d.toDoc_eq r
  once := d.nodup_docFields r
  declared key member := by
    obtain ⟨name, within, same⟩ := exists_of_mem_docFields member
    exact ⟨name, declared name within, same⟩

/-- The keys of declared fields are found in the document of a record where their values are. -/
theorem get?_docFields_keyOf (apart : Distinguishes d.schema) {fields : Record}
    (declared : ∀ name ∈ fields.names, (d.schema.field? name).isSome) {name : String}
    (known : (d.schema.field? name).isSome) :
    (d.docFields fields).get? (d.keyOf name) = (fields.get? name).map Value.toJson := by
  by_cases member : name ∈ fields.names
  · exact get?_docFields (fun name set => nameOf_keyOf apart (declared name set)) member
  · rw [NameMap.get?_eq_none_iff.2 member]
    refine List.lookup_eq_none_iff.2 fun entry set => bne_iff_ne.2 fun same => member ?_
    obtain ⟨other, within, own⟩ := exists_of_mem_docFields (List.mem_map_of_mem set)
    rw [keyOf_inj apart known (declared other within) (same.trans own.symm)]
    exact within

namespace HoldsRecord

variable {doc : Json} {own : Fields} (holds : d.HoldsRecord doc own)
  (apart : Distinguishes d.schema)

include holds apart

/-- The record of a document has the declared fields whose keys are there. -/
theorem names_ofDoc {name : String} (member : name ∈ (d.ofDoc doc).names) :
    (d.schema.field? name).isSome := by
  obtain ⟨key, within, rfl⟩ := Record.mem_names_rename.1 member
  rw [holds.object, Record.mem_names_ofJson] at within
  obtain ⟨name, declared, rfl⟩ := holds.declared key within
  rwa [nameOf_keyOf apart declared]

theorem get?_ofDoc {name : String} (declared : (d.schema.field? name).isSome) :
    (d.ofDoc doc).get? name = (own.get? (d.keyOf name)).map Value.ofJson := by
  rw [← Record.get?_ofJson holds.once, ← holds.object]
  conv_lhs => rw [← nameOf_keyOf apart declared]
  refine Record.get?_rename fun other within same => ?_
  rw [holds.object, Record.mem_names_ofJson] at within
  obtain ⟨field, known, rfl⟩ := holds.declared other within
  rw [nameOf_keyOf apart known, nameOf_keyOf apart declared] at same
  rw [same]

omit apart in
/-- The fields that a document has after some were set, each under its key. -/
theorem setFields {fields : Record}
    (declared : ∀ name ∈ fields.names, (d.schema.field? name).isSome) :
    d.HoldsRecord (Document.setFields (d.docFields fields) doc)
      ((d.docFields fields).foldl (fun acc f => Fields.insert acc f.1 f.2) own) where
  object := by rw [holds.object, Document.setFields]
  once := Fields.nodup_foldl_set _ holds.once
  declared key member := by
    rcases Fields.mem_foldl_set member with old | new
    · exact holds.declared key old
    · obtain ⟨name, within, same⟩ := exists_of_mem_docFields new
      exact ⟨name, declared name within, same⟩

/-- The record of a document in which fields were set is its record with the fields over it. -/
theorem ofDoc_setFields {fields : Record}
    (declared : ∀ name ∈ fields.names, (d.schema.field? name).isSome)
    (carried : ∀ name v, fields.get? name = some v → v.isCarried) :
    d.ofDoc (Document.setFields (d.docFields fields) doc) = (d.ofDoc doc).overlay fields := by
  have set := holds.setFields declared
  refine NameMap.ext_get? fun name => ?_
  rw [NameMap.get?_overlay]
  by_cases known : (d.schema.field? name).isSome
  · have last : ((d.docFields fields).reverse.lookup (d.keyOf name))
        = (fields.get? name).map Value.toJson := by
      rw [← get?_docFields_keyOf apart declared known]
      exact lookup_perm (List.reverse_perm _)
        ((List.reverse_perm (d.docFields fields)).map Prod.fst |>.nodup_iff.2 (d.nodup_docFields _)) _
    rw [set.get?_ofDoc apart known, holds.get?_ofDoc apart known, Fields.get?_foldl_set, last]
    cases found : fields.get? name with
    | none => rfl
    | some v => exact congrArg some (v.ofJson_toJson_of_carried (carried name v found))
  · have absent {r : Record} (within : name ∈ r.names → (d.schema.field? name).isSome) :
        r.get? name = none := NameMap.get?_eq_none_iff.2 fun member => known (within member)
    rw [absent (set.names_ofDoc apart), absent (declared name), absent (holds.names_ofDoc apart)]
    rfl

end HoldsRecord

/-! ### The request -/

section Requests

variable {p : Part σ Store} (lawful : p.Lawful) (client : d.client = .memory p)
  (apart : d.env.Apart p.view)

include lawful client apart

/-- A call that sets fields fails or finds nothing to set them in, and nobody sees a change; or it
sets them in the first document that the filter matches. -/
theorem updateOne_call_cases (session : Option SessionId) (ctx : Context) (name : String)
    (filter : Json) (fields : Fields) (s : σ) :
    let run := d.call ctx (d.client.updateOne session name filter (.object fields)) s
    ((run.1 = .ok 0 ∨ ∃ e, run.1 = .error e) ∧
      ∀ caller, (p.view run.2).visible caller = (p.view s).visible caller) ∨
    (run.1 = .ok 1 ∧ Fields.has fields idField = false ∧ ∃ cols after before doc rest,
      ChangedFirst filter (setFields fields) name cols after before doc rest ∧
      Store.Turned session cols after (p.view s) (p.view run.2)) := by
  intro run
  obtain ⟨t, observed, ⟨e, stopped⟩ | ran⟩ := Action.call_cases apart ctx Error.document
    (d.client.updateOne session name filter (.object fields)) s
  · rw [show run = _ from stopped]
    exact .inl ⟨.inr ⟨e, rfl⟩, fun _ => congrArg _ observed⟩
  · rw [show run = _ from ran, client]
    obtain ⟨answer, left⟩ : ((Client.memory p).updateOne session name filter (.object fields) t).1
          = (Store.updateOne session name filter (.object fields) (p.view s)).1 ∧
        p.view ((Client.memory p).updateOne session name filter (.object fields) t).2
          = (Store.updateOne session name filter (.object fields) (p.view s)).2 := by
      rw [← observed]
      exact ⟨rfl, Part.view_run lawful _ t⟩
    rw [answer, left]
    obtain ⟨stopped, same⟩ | ⟨done, noId, changed⟩ :=
      Store.updateOne_cases session name filter fields (p.view s)
    · refine .inl ⟨?_, same⟩
      obtain none | ⟨failure, failed⟩ := stopped
      · rw [none]
        exact .inl rfl
      · rw [failed]
        exact .inr ⟨_, rfl⟩
    · rw [done]
      exact .inr ⟨rfl, noId, changed⟩

/-- A partial update fails and nobody sees a change, or it sets the fields in the first document
that the id leads to. -/
theorem updatePartial_cases (session : Option SessionId) (ctx : Context) (id : Value)
    (fields : Record) (s : σ) :
    let run := d.updatePartial session ctx id fields s
    ((∃ e, run.1 = .error e) ∧
      ∀ caller, (p.view run.2).visible caller = (p.view s).visible caller) ∨
    (run.1 = .ok () ∧ d.schema.checkPartial fields = .ok () ∧
      Fields.has (d.docFields fields) idField = false ∧
      ∃ filter cols after before doc rest, d.idFilter id = .ok filter ∧
        ChangedFirst filter (setFields (d.docFields fields)) d.schema.name cols after before doc
          rest ∧
        Store.Turned session cols after (p.view s) (p.view run.2)) := by
  intro run
  have ran : run = match d.schema.checkPartial fields, d.idFilter id with
      | .error e, _ => (.error e, s)
      | .ok (), .error e => (.error e, s)
      | .ok (), .ok filter =>
        (d.call ctx (d.client.updateOne session d.schema.name filter (d.toDoc fields))
          >>= d.requireSome id) s := by
    show (Action.ofExcept (d.schema.checkPartial fields) >>= fun _ =>
      Action.ofExcept (d.idFilter id) >>= _) s = _
    cases d.schema.checkPartial fields with
    | error e => rfl
    | ok passed => cases d.idFilter id <;> rfl
  rw [ran]
  cases d.schema.checkPartial fields with
  | error e => exact .inl ⟨⟨e, rfl⟩, fun _ => rfl⟩
  | ok passed =>
      cases d.idFilter id with
      | error e => exact .inl ⟨⟨e, rfl⟩, fun _ => rfl⟩
      | ok filter =>
          dsimp only
          rw [Action.run_bind, d.toDoc_eq]
          have called := updateOne_call_cases lawful client apart session ctx d.schema.name filter
            (d.docFields fields) s
          generalize d.call ctx (d.client.updateOne session d.schema.name filter _) s = outcome
            at called ⊢
          obtain ⟨answer, t⟩ := outcome
          obtain ⟨rfl | ⟨e, rfl⟩, same⟩ | ⟨rfl, noId, cols, after, before, doc, rest, first⟩ := called
          · exact .inl ⟨⟨_, rfl⟩, same⟩
          · exact .inl ⟨⟨e, rfl⟩, same⟩
          · exact .inr ⟨rfl, rfl, noId, filter, cols, after, before, doc, rest, rfl, first⟩

omit lawful in
/-- The first document that the id leads to is found by it. -/
theorem findById_first {session : Option SessionId} {id : Value} {filter : Json}
    (accepted : d.idFilter id = .ok filter) {cols : Collections} {before rest : List Json}
    {doc : Json} (docs : docsOf cols d.schema.name = before ++ doc :: rest)
    (passed : ∀ other ∈ before, matchesFilter other filter = .ok false)
    (first : matchesFilter doc filter = .ok true) {t : σ} {ctx : Context}
    (sees : (p.view t).visible session = .ok cols)
    (alive : ctx.check (d.env.observe t).1 = .ok ()) :
    (d.findById session ctx id t).1 = d.schema.ofRecord d.type (d.ofDoc doc) := by
  obtain ⟨-, answers⟩ := d.idFilter_matches accepted
  have selected : select filter (docsOf cols d.schema.name)
      = .ok (doc :: rest.filter fun other => equals (lookup other idField) id.toJson) := by
    have own : equals (lookup doc idField) id.toJson = true :=
      Except.ok.inj ((answers doc).symm.trans first)
    have none : before.filter (fun other => equals (lookup other idField) id.toJson) = [] := by
      refine List.filter_eq_nil_iff.2 fun other member matched => ?_
      have missed := passed other member
      rw [answers, matched] at missed
      cases missed
    rw [select_eq_filter answers, docs, List.filter_append, none, List.nil_append,
      List.filter_cons_of_pos (p := fun other => equals (lookup other idField) id.toJson) own]
  have unsorted (found : List Json) : sortDocs [] found = found :=
    List.mergeSort_of_pairwise (List.pairwise_of_forall fun _ _ => rfl)
  have observed : (p.view (d.env.observe t).2).visible session = .ok cols :=
    (congrArg (Store.visible session) (apart.observe t)).trans sees
  have found : (d.client.find session d.schema.name filter { limit := some 1 }
      (d.env.observe t).2).1 = .ok [doc] := by
    rw [client]
    show ((p.view (d.env.observe t).2).visible session >>= fun cols => do
      let found ← select filter (docsOf cols d.schema.name)
      return ((sortDocs [] found).drop 0).take 1) = _
    rw [observed]
    show (select filter (docsOf cols d.schema.name) >>= fun found =>
      pure (((sortDocs [] found).drop 0).take 1)) = _
    rw [selected]
    show Except.ok (((sortDocs [] _).drop 0).take 1) = _
    rw [unsorted]
    rfl
  unfold findById
  rw [accepted]
  show ((d.call ctx (d.client.find session d.schema.name filter { limit := some 1 }) >>= _) t).1 = _
  rw [Action.run_bind]
  unfold call
  rw [Action.run_call, alive]
  dsimp only
  rw [found]
  rfl

end Requests

/-- Where a caller sees these collections, the id leads to the record. -/
def Shows (d : Records σ E) (p : Part σ Store) (session : Option SessionId) (id : Value)
    (cols : Collections) (r : Record) : Prop :=
  ∀ (t : σ) (ctx : Context), (p.view t).visible session = .ok cols →
    ctx.check (d.env.observe t).1 = .ok () →
    (d.findById session ctx id t).1 = d.schema.ofRecord d.type r

/-- After a partial update: the first document that the id led to has the given fields set, stays
where it is and keeps its id.  All other documents are as they were, whoever looks, and so is what
is seen by those who work on another copy. -/
structure Overlaid (d : Records σ E) (p : Part σ Store) (session : Option SessionId) (id : Value)
    (fields : Record) (s after : σ) (cols : Collections) (before : List Json) (doc changed : Json)
    (rest : List Json) : Prop where
  docs : docsOf cols d.schema.name = before ++ doc :: rest
  turned : Store.Turned session cols (cols.withDocs d.schema.name (before ++ changed :: rest))
    (p.view s) (p.view after)
  sameId : idOf changed = idOf doc
  record : d.ofDoc changed = (d.ofDoc doc).overlay fields
  sameKey : ((d.ofDoc doc).overlay fields).get? d.schema.primaryKey
    = (d.ofDoc doc).get? d.schema.primaryKey
  shown : d.Shows p session id cols (d.ofDoc doc)
  shownNow : d.Shows p session id (cols.withDocs d.schema.name (before ++ changed :: rest))
    ((d.ofDoc doc).overlay fields)

/-- The documents that a caller sees in the collection of a repository hold records of declared
fields. -/
def HoldsRecords (d : Records σ E) (session : Option SessionId) (s : Store) : Prop :=
  ∀ cols, s.visible session = .ok cols → ∀ doc ∈ docsOf cols d.schema.name,
    ∃ fields, d.HoldsRecord doc fields

section Requests

variable {p : Part σ Store} (lawful : p.Lawful) (client : d.client = .memory p)
  (apart : d.env.Apart p.view)

include lawful client apart

theorem exists_overlaid (own : Distinguishes d.schema) {session : Option SessionId} {s : σ}
    {ctx : Context} {id : Value} {fields : Record} (holds : d.HoldsRecords session (p.view s))
    (carried : ∀ name v, fields.get? name = some v → v.isCarried)
    (answered : (d.updatePartial session ctx id fields s).1 = .ok ()) :
    ∃ cols before doc changed rest, d.Overlaid p session id fields s
      (d.updatePartial session ctx id fields s).2 cols before doc changed rest := by
  obtain ⟨⟨e, failed⟩, -⟩ | ⟨-, checked, noId, filter, cols, after, before, doc, rest, accepted,
    first, turned⟩ := updatePartial_cases lawful client apart session ctx id fields s
  · rw [answered] at failed
    cases failed
  have docsAfter := first.docs_after
  obtain ⟨docs, passed, matched, rfl⟩ := first
  obtain ⟨fieldsOfDoc, held⟩ := holds cols turned.saw doc
    (docs ▸ List.mem_append_right before List.mem_cons_self)
  have overlaid := held.ofDoc_setFields own
    (fun name set => (Schema.checkPartial_eq_ok checked name set).2) carried
  have sameId := lookup_setFields noId doc
  refine ⟨cols, before, doc, _, rest, docs, turned, ?_, overlaid,
    Schema.get?_overlay_key checked _, ?_, ?_⟩
  · rw [idOf, sameId, idOf]
  · exact fun t live sees alive =>
      findById_first client apart accepted docs passed matched sees alive
  · intro t live sees alive
    rw [← overlaid]
    refine findById_first client apart accepted docsAfter passed ?_ sees alive
    have answers := (d.idFilter_matches accepted).2
    rw [answers, sameId, ← answers]
    exact matched

theorem updatePartial_failed {session : Option SessionId} {s : σ} {ctx : Context} {id : Value}
    {fields : Record} {e : Error} (failed : (d.updatePartial session ctx id fields s).1 = .error e)
    (caller : Option SessionId) :
    (p.view (d.updatePartial session ctx id fields s).2).visible caller
      = (p.view s).visible caller := by
  obtain ⟨-, same⟩ | ⟨done, -⟩ := updatePartial_cases lawful client apart session ctx id fields s
  · exact same caller
  · rw [failed] at done
    cases done

end Requests

end Records

end Recordkeeper.Document
