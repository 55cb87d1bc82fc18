import Recordkeeper.Proofs.Document.Agreement
import Recordkeeper.Proofs.Paging

/-!
Contract: the records of a query that selects fields.

Owns:
- documents whose keys read back as the fields they were stored for;
- that a selection restricts the records of the query without it, on keys and values and on
  documents in memory.

Does not own: selections of groups and of merged rows.

The projection of a document guesses from its parts whether they are to be included or left out.
The id does not count in that guess, so a selection of the primary key alone leaves the key out and
keeps all other fields.  The statement says so: it names the fields that stay.
-/

set_option autoImplicit false

namespace Recordkeeper

/-- A query that selects fields of single records. -/
structure Query.Selects (q : Query) : Prop where
  ungrouped : q.groupBy = []
  unmerged : q.distinct = false
  fields : q.select ≠ []

/-- A plain column leads back to its field. -/
theorem Schema.IsPlain.fieldForColumn_columnFor {s : Schema} (plain : s.IsPlain) {name : String}
    (declared : (s.field? name).isSome) : s.fieldForColumn (s.columnFor name) = name := by
  obtain ⟨f, found⟩ := Option.isSome_iff_exists.1 declared
  obtain ⟨member, named⟩ := field?_name found
  rw [columnFor_of_field? found, fieldForColumn]
  cases first : s.fields.find? (·.column == f.column) with
  | none => exact absurd (List.find?_eq_none.1 first f member) (by simp)
  | some g =>
      have same : g.column = f.column :=
        beq_iff_eq.1 (List.find?_some (p := fun (h : FieldDef) => h.column == f.column) first)
      have one := List.inj_on_of_nodup_map plain.distinct (List.mem_of_find?_eq_some first) member same
      rw [one]
      exact named

variable {σ α β E : Type}

namespace Document

/-! ### Documents that read back -/

namespace Records

variable {d : Records σ E}

/-- A document as a repository stores it: an object that repeats no field, in which a key that
reads as a declared field is the key of that field. -/
def ReadsBack (d : Records σ E) : Json → Prop
  | .object fields => (fields.map Prod.fst).Nodup ∧
      ∀ key ∈ fields.map Prod.fst, (d.schema.field? (d.nameOf key)).isSome →
        d.compiler.key (d.nameOf key) = key
  | _ => False

instance (d : Records σ E) : DecidablePred d.ReadsBack
  | .object _ => inferInstanceAs (Decidable (_ ∧ _))
  | .null | .bool _ | .number _ | .text _ | .array _ => inferInstanceAs (Decidable False)

theorem ReadsBack.exists_fields {doc : Json} (reads : d.ReadsBack doc) :
    ∃ fields : Fields, doc = .object fields ∧ (fields.map Prod.fst).Nodup ∧
      ∀ key ∈ fields.map Prod.fst, (d.schema.field? (d.nameOf key)).isSome →
        d.compiler.key (d.nameOf key) = key := by
  cases doc with
  | object fields => exact ⟨fields, rfl, reads.1, reads.2⟩
  | null | bool | number | text | array => exact False.elim reads

/-- The fields that stay of a document's record when fields are selected: those, but all other
fields if the primary key alone is selected. -/
def stays (d : Records σ E) (selection : List String) (name : String) : Bool :=
  if selection.all (· == d.schema.primaryKey) then name != d.schema.primaryKey
  else selection.contains name

theorem nameOf_key (plain : d.schema.IsPlain) {name : String}
    (declared : (d.schema.field? name).isSome) : d.nameOf (d.compiler.key name) = name := by
  rw [Compiler.key_eq rfl plain declared, nameOf]
  by_cases isKey : name = d.schema.primaryKey
  · rw [if_pos isKey, if_pos rfl, isKey]
  · rw [if_neg isKey, if_neg (plain.columnFor_plain declared).notId,
      plain.fieldForColumn_columnFor declared]

theorem key_eq_id_iff (plain : d.schema.IsPlain) {name : String}
    (declared : (d.schema.field? name).isSome) :
    d.compiler.key name = idField ↔ name = d.schema.primaryKey := by
  rw [Compiler.key_eq rfl plain declared]
  by_cases isKey : name = d.schema.primaryKey
  · simp [isKey]
  · rw [if_neg isKey]
    exact iff_of_false (plain.columnFor_plain declared).notId isKey

theorem nameOf_eq_key_iff (plain : d.schema.IsPlain) {key : String}
    (declared : (d.schema.field? d.schema.primaryKey).isSome)
    (own : (d.schema.field? (d.nameOf key)).isSome → d.compiler.key (d.nameOf key) = key) :
    d.nameOf key = d.schema.primaryKey ↔ key = idField := by
  constructor
  · intro isKey
    rw [isKey] at own
    rw [← own declared]
    exact (key_eq_id_iff plain declared).2 rfl
  · rintro rfl
    exact if_pos rfl

/-- The document of a record reads back. -/
theorem toDoc_readsBack (plain : d.schema.IsPlain) {r : Record} (keeps : r.KeepsColumns d.schema) :
    d.ReadsBack (d.toDoc r) := by
  have folded (entries : List (String × Value)) (fields : Fields) :
      entries.foldl (fun (acc : Fields) f => acc.insert (d.schema.columnFor f.1) f.2.toJson) fields
        = (entries.map fun f => (d.schema.columnFor f.1, f.2.toJson)).foldl
          (fun (acc : Fields) e => acc.insert e.1 e.2) fields := by
    rw [List.foldl_map]
  refine ⟨?_, fun key member declared => ?_⟩
  · rw [folded]
    refine Fields.nodup_foldl_set _ ?_
    cases r.get? d.schema.primaryKey with
    | none => exact List.nodup_nil
    | some v => exact List.nodup_singleton _
  · rw [folded] at member
    rcases Fields.mem_foldl_set member with id | other
    · have isId : key = idField := by
        cases held : r.get? d.schema.primaryKey with
        | none =>
            rw [held] at id
            cases id
        | some v =>
            rw [held] at id
            exact List.mem_singleton.1 id
      subst isId
      exact (key_eq_id_iff plain declared).2 (if_pos rfl)
    · rw [List.map_map] at other
      obtain ⟨entry, stored, rfl⟩ := List.mem_map.1 other
      obtain ⟨within, notKey⟩ := List.mem_filter.1 stored
      have held : (r.get? entry.1).isSome :=
        Option.isSome_iff_exists.2 ⟨entry.2, NameMap.get?_eq_some_iff.2 within⟩
      have isOther := bne_iff_ne.1 notKey
      have named : d.nameOf (d.schema.columnFor entry.1)
          = d.schema.fieldForColumn (d.schema.columnFor entry.1) :=
        if_neg (columnFor_ne_id plain keeps held isOther)
      show d.compiler.key (d.nameOf (d.schema.columnFor entry.1)) = d.schema.columnFor entry.1
      replace declared : (d.schema.field? (d.nameOf (d.schema.columnFor entry.1))).isSome := declared
      rw [named] at declared ⊢
      cases found : d.schema.field? entry.1 with
      | some f =>
          have ownDeclared : (d.schema.field? entry.1).isSome := Option.isSome_iff_exists.2 ⟨f, found⟩
          rw [plain.fieldForColumn_columnFor ownDeclared, Compiler.key_eq rfl plain ownDeclared,
            if_neg isOther]
      | none =>
          -- A field that is not declared is stored under its own name and read back under it.
          rw [Schema.columnFor_undeclared found] at declared
          obtain ⟨-, noColumn⟩ := (keeps entry.1 held isOther).resolve_left (by simp [found])
          have unread : d.schema.fieldForColumn entry.1 = entry.1 := by
            unfold Schema.fieldForColumn
            rw [List.find?_eq_none.2 fun f member => by simpa using noColumn f member]
          rw [unread, found] at declared
          cases declared

section Kept

variable {selection : List String} {own : Fields} (plain : d.schema.IsPlain)
  (selects : selection ≠ []) (declared : ∀ name ∈ selection, (d.schema.field? name).isSome)
  (once : (own.map Prod.fst).Nodup)
  (back : ∀ key ∈ own.map Prod.fst, (d.schema.field? (d.nameOf key)).isSome →
    d.compiler.key (d.nameOf key) = key)

include plain declared back

theorem key_selected_iff {key : String} (held : key ∈ own.map Prod.fst) :
    key ∈ selection.map d.compiler.key ↔ selection.contains (d.nameOf key) := by
  rw [List.contains_iff_mem, List.mem_map]
  constructor
  · rintro ⟨name, member, rfl⟩
    rw [nameOf_key plain (declared name member)]
    exact member
  · exact fun member => ⟨_, member, back key held (declared _ member)⟩

include selects once

theorem get?_remove_id (only : ∀ name ∈ selection, name = d.schema.primaryKey) (key : String) :
    (own.remove idField).get? key
      = if d.nameOf key != d.schema.primaryKey then own.get? key else none := by
  obtain ⟨first, member⟩ := List.exists_mem_of_ne_nil _ selects
  have keyDeclared := declared first member
  rw [only first member] at keyDeclared
  rw [Fields.get?_remove once]
  cases found : own.get? key with
  | none => simp
  | some v =>
      have held : key ∈ own.map Prod.fst :=
        List.mem_map.2 ⟨(key, v), (lookup_eq_some_iff_mem once).1 found, rfl⟩
      have isKey := nameOf_eq_key_iff plain keyDeclared (back key held)
      by_cases isId : key = idField
      · rw [if_pos isId, if_neg (by simpa using isKey.2 isId)]
      · rw [if_neg isId, if_pos (bne_iff_ne.2 fun same => isId (isKey.1 same))]

/-- The projection leaves the fields under the keys whose names stay. -/
theorem exists_projected :
    ∃ small : Fields,
      project (.object own) (.object (selectedParts (selection.map d.compiler.key)))
        = .ok (.object small) ∧ (small.map Prod.fst).Nodup ∧
      ∀ key, small.get? key = if d.stays selection (d.nameOf key) then own.get? key else none := by
  by_cases keyOnly : selection.all (· == d.schema.primaryKey)
  · have only (name : String) (member : name ∈ selection) : name = d.schema.primaryKey :=
      beq_iff_eq.1 (List.all_eq_true.1 keyOnly name member)
    have onlyId : ∀ key ∈ selection.map d.compiler.key, key = idField := by
      intro key selected
      obtain ⟨name, member, rfl⟩ := List.mem_map.1 selected
      exact (key_eq_id_iff plain (declared name member)).2 (only name member)
    refine ⟨_, project_idOnly (by simpa using selects) onlyId, Fields.nodup_remove once _,
      fun key => ?_⟩
    rw [stays, if_pos keyOnly]
    exact get?_remove_id plain selects declared once back only key
  · have other : ∃ name ∈ selection, name ≠ d.schema.primaryKey := by
      simpa using keyOnly
    obtain ⟨name, member, notKey⟩ := other
    have noDots : ∀ key ∈ selection.map d.compiler.key, '.' ∉ key.toList := by
      intro key selected
      obtain ⟨name, member, rfl⟩ := List.mem_map.1 selected
      exact Compiler.key_noDot rfl plain (declared name member)
    have notOnly : ∃ key ∈ selection.map d.compiler.key, key ≠ idField :=
      ⟨_, List.mem_map_of_mem member, fun isId =>
        notKey ((key_eq_id_iff plain (declared name member)).1 isId)⟩
    obtain ⟨small, left, smallOnce, fields⟩ := @project_including _ own noDots notOnly
    refine ⟨small, left, smallOnce, fun key => ?_⟩
    rw [fields, stays, if_neg keyOnly]
    cases found : own.get? key with
    | none => simp
    | some v =>
        have held : key ∈ own.map Prod.fst :=
          List.mem_map.2 ⟨(key, v), (lookup_eq_some_iff_mem once).1 found, rfl⟩
        simp only [key_selected_iff plain declared back held]

end Kept

/-- The projection of a selection leaves the document of the record's restriction. -/
theorem ofDoc_project (plain : d.schema.IsPlain) {q : Query} (selects : q.select ≠ [])
    (declared : ∀ name ∈ q.select, (d.schema.field? name).isSome) {spec : Json}
    (projected : d.compiler.projection q = some spec) {doc : Json} (reads : d.ReadsBack doc) :
    ∃ small, project doc spec = .ok small ∧
      d.ofDoc small = Record.restrict (d.ofDoc doc) (d.stays q.select) := by
  obtain ⟨own, rfl, once, back⟩ := reads.exists_fields
  rw [d.compiler.projection_eq selects] at projected
  cases projected
  obtain ⟨small, left, smallOnce, fields⟩ := exists_projected plain selects declared once back
  refine ⟨.object small, left, ?_⟩
  unfold ofDoc
  rw [Record.ofJson_restrict smallOnce once fields]
  exact Record.rename_restrict _ _ _

end Records

/-! ### Documents in memory -/

theorem mem_of_select {filter : Json} {docs found : List Json}
    (selected : select filter docs = .ok found) : ∀ doc ∈ found, doc ∈ docs := by
  induction docs generalizing found with
  | nil =>
      cases selected
      exact fun _ => id
  | cons first rest inductionHypothesis =>
      obtain ⟨holds, -, selected⟩ := exists_of_bind selected
      obtain ⟨others, later, same⟩ := exists_of_bind selected
      cases same
      intro doc member
      cases holds with
      | true =>
          rcases List.mem_cons.1 member with rfl | other
          · exact List.mem_cons_self
          · exact List.mem_cons_of_mem _ (inductionHypothesis later doc other)
      | false => exact List.mem_cons_of_mem _ (inductionHypothesis later doc member)

theorem mapM_project {spec : Json} {f : Json → α} {g : α → α} {docs : List Json}
    (each : ∀ doc ∈ docs, ∃ small, project doc spec = .ok small ∧ f small = g (f doc)) :
    ∃ smalls, docs.mapM (fun doc => project doc spec) = .ok smalls ∧
      smalls.map f = (docs.map f).map g := by
  induction docs with
  | nil => exact ⟨[], rfl, rfl⟩
  | cons doc rest inductionHypothesis =>
      obtain ⟨first, others⟩ := List.forall_mem_cons.1 each
      obtain ⟨small, projected, same⟩ := first
      obtain ⟨smalls, projectedRest, sameRest⟩ := inductionHypothesis others
      refine ⟨small :: smalls, ?_, ?_⟩
      · rw [List.mapM_cons, projected, projectedRest]
        rfl
      · rw [List.map_cons, List.map_cons, List.map_cons, same, sameRest]

/-- A look-up with a projection answers the projected documents of the look-up without it. -/
theorem Store.find_projected {spec : Json} {f : Json → α} {g : α → α} {s : Store}
    {session : Option SessionId} {name : String}
    (each : ∀ cols, s.visible session = .ok cols → ∀ doc ∈ docsOf cols name,
      ∃ small, project doc spec = .ok small ∧ f small = g (f doc))
    (filter : Json) (options : FindOptions) :
    (Store.find session name filter { options with projection := some spec } s).1.map (List.map f)
      = (Store.find session name filter { options with projection := none } s).1.map fun docs =>
        (docs.map f).map g := by
  unfold find read
  dsimp only
  cases visible : s.visible session with
  | error e => rfl
  | ok cols =>
      show Except.map _ (select filter (docsOf cols name) >>= fun found => _)
        = Except.map _ (select filter (docsOf cols name) >>= fun found => _)
      cases selected : select filter (docsOf cols name) with
      | error e => rfl
      | ok found =>
          have within : ∀ doc ∈ cut options.skip options.limit (sortDocs options.sort found),
              doc ∈ docsOf cols name := by
            intro doc member
            have sorted : doc ∈ sortDocs options.sort found := (cut_sublist _ _ _).subset member
            exact mem_of_select selected doc (List.mem_mergeSort.1 sorted)
          obtain ⟨smalls, projected, same⟩ := mapM_project fun doc member =>
            each cols visible doc (within doc member)
          show Except.map (List.map f) ((cut options.skip options.limit
              (sortDocs options.sort found)).mapM fun doc => project doc spec)
            = Except.ok (((cut options.skip options.limit
              (sortDocs options.sort found)).map f).map g)
          rw [projected, ← same]
          rfl

/-- Every document that a session sees in the collection of a repository reads back. -/
def Records.AllReadBack (d : Records σ E) (session : Option SessionId) (s : Store) : Prop :=
  ∀ cols, s.visible session = .ok cols →
    ∀ doc ∈ Store.docsOf cols d.schema.name, d.ReadsBack doc

/-- A query of single records is a look-up, of which the selection is the projection alone. -/
theorem Compiler.compileQuery_find (c : Compiler) {q : Query} (ungrouped : q.groupBy = [])
    (unmerged : q.distinct = false) :
    c.compileQuery q = checkSupported q >>= fun _ => (c.compileFilter q.conditions).map fun r =>
      (.find r.1 {
        sort := q.sort.map fun k => (c.key k.field, k.direction == .desc)
        skip := q.offset
        limit := q.limit
        projection := c.projection q }, r.2) := by
  have direct : needsPipeline q = false := by
    simp [needsPipeline, Query.isGrouped, Query.isDistinct, ungrouped, unmerged]
  unfold compileQuery
  rw [direct]
  cases checkSupported q with
  | error e => rfl
  | ok passed => cases c.compileFilter q.conditions <;> rfl

/-- A call whose answers are those of another one with each of them changed. -/
theorem Records.call_changed {d : Records σ E} {ctx : Context} {g : Record → Record}
    {changed same : σ → Outcome (List Json) × σ} {s : σ}
    (answers : (changed (d.env.observe s).2).1.map (List.map d.ofDoc)
      = (same (d.env.observe s).2).1.map fun docs => (docs.map d.ofDoc).map g)
    (after : (changed (d.env.observe s).2).2 = (same (d.env.observe s).2).2) :
    (d.call ctx changed >>= fun docs => pure (docs.map d.ofDoc) : Action σ (List Record)) s
      = (((d.call ctx same >>= fun docs => pure (docs.map d.ofDoc) : Action σ (List Record)) s).1.map
          (List.map g),
        ((d.call ctx same >>= fun docs => pure (docs.map d.ofDoc) : Action σ (List Record)) s).2) := by
  unfold call
  rw [Action.run_bind, Action.run_bind, Action.run_call, Action.run_call]
  cases ctx.check (d.env.observe s).1 with
  | error e => rfl
  | ok live =>
      dsimp only
      generalize changed (d.env.observe s).2 = first at answers after
      generalize same (d.env.observe s).2 = second at answers after
      obtain ⟨firstAnswer, firstState⟩ := first
      obtain ⟨secondAnswer, secondState⟩ := second
      cases after
      cases firstAnswer with
      | error failure =>
          cases secondAnswer with
          | error other =>
              cases answers
              rfl
          | ok docs => cases answers
      | ok docs =>
          cases secondAnswer with
          | error other => cases answers
          | ok others =>
              have rows : docs.map d.ofDoc = (others.map d.ofDoc).map g := Except.ok.inj answers
              show (Except.ok (docs.map d.ofDoc), firstState) = (Except.ok _, firstState)
              rw [rows]

theorem Records.query_selects {d : Records σ E} {p : Part σ Store} (memory : d.client = .memory p)
    (apart : d.env.Apart p.view) (plain : d.schema.IsPlain) {q : Query} (selects : q.Selects)
    (declared : ∀ name ∈ q.select, (d.schema.field? name).isSome) {session : Option SessionId}
    {s : σ} (stored : d.AllReadBack session (p.view s)) (ctx : Context) :
    d.query session ctx q s
      = ((d.query session ctx { q with select := [] } s).1.map
          (List.map fun r => Record.restrict r (d.stays q.select)),
        (d.query session ctx { q with select := [] } s).2) := by
  have supported : Compiler.checkSupported { q with select := [] } = Compiler.checkSupported q := rfl
  unfold query
  rw [d.compiler.compileQuery_find selects.ungrouped selects.unmerged,
    d.compiler.compileQuery_find (q := { q with select := [] }) selects.ungrouped selects.unmerged,
    supported]
  cases Compiler.checkSupported q with
  | error e => rfl
  | ok passed =>
      show (Action.ofExcept (Except.map _ (d.compiler.compileFilter q.conditions)) >>= _) s
        = (((Action.ofExcept (Except.map _ (d.compiler.compileFilter q.conditions)) >>= _) s).1.map _,
          ((Action.ofExcept (Except.map _ (d.compiler.compileFilter q.conditions)) >>= _) s).2)
      cases d.compiler.compileFilter q.conditions with
      | error e => rfl
      | ok compiled =>
          obtain ⟨filter, degradations⟩ := compiled
          have projected := d.compiler.projection_eq selects.fields
          have all : d.compiler.projection { q with select := [] } = none := rfl
          rw [projected, all, memory]
          refine Records.call_changed ?_ rfl
          have seen : p.view (d.env.observe s).2 = p.view s := apart.observe s
          refine Store.find_projected (s := p.view (d.env.observe s).2) (fun cols visible doc member => ?_) filter {
            sort := q.sort.map fun k => (d.compiler.key k.field, k.direction == .desc)
            skip := q.offset
            limit := q.limit }
          rw [seen] at visible
          exact ofDoc_project plain selects.fields declared projected (stored cols visible doc member)

end Document

/-! ### Repositories -/

/-- The requests whose queries restrict records by a selection, with the fields that stay. -/
inductive Restricts (q : Query) (s : σ) : Operations σ E → (String → Bool) → Prop
  | keyValue (k : KeyValue.Records σ E) : Restricts q s k.repository.toOperations q.select.contains
  | document {d : Document.Records σ E} {p : Part σ Document.Store} (memory : d.client = .memory p)
      (apart : d.env.Apart p.view) (plain : d.schema.IsPlain)
      (declared : ∀ name ∈ q.select, (d.schema.field? name).isSome)
      (stored : d.AllReadBack none (p.view s)) :
      Restricts q s d.repository.toOperations (d.stays q.select)
  | transaction {d : Document.Records σ E} {p : Part σ Document.Store} (memory : d.client = .memory p)
      (apart : d.env.Apart p.view) (plain : d.schema.IsPlain)
      (declared : ∀ name ∈ q.select, (d.schema.field? name).isSome)
      (id : Document.SessionId) (machine : TxState) (stored : d.AllReadBack (some id) (p.view s)) :
      Restricts q s (d.handle id machine) (d.stays q.select)

/-- A plan projects the records that it selects without a projection. -/
theorem KeyValue.Plan.execute_selects {q : Query} (selects : q.Selects) (records : List Record) :
    (Plan.ofQuery q).execute records
      = ((Plan.ofQuery { q with select := [] }).execute records).map fun r =>
        Record.restrict r q.select.contains := by
  have selected : q.select.isEmpty = false := by simpa using selects.fields
  simp only [execute, Plan.ofQuery, selects.ungrouped, selects.unmerged, selected, List.isEmpty_nil,
    Bool.not_true, Bool.false_and, Bool.false_eq_true, if_false, if_true]
  rfl

theorem KeyValue.Records.query_selects (k : KeyValue.Records σ E) {q : Query}
    (selects : q.Selects) (ctx : Context) :
    k.query ctx q = List.map (fun r => Record.restrict r q.select.contains) <$>
      k.query ctx { q with select := [] } := by
  have single : q.isGrouped = false := by simp [Query.isGrouped, selects.ungrouped]
  have sameRefusals := Plan.compile_congr (p := q) (q := { q with select := [] }) rfl rfl rfl rfl rfl
    rfl (by simp [single])
  unfold query
  rw [sameRefusals]
  cases planned : Plan.compile { q with select := [] } with
  | error e => rfl
  | ok plan =>
      have parts := Plan.eq_ofQuery planned
      subst parts
      show (k.effective ctx >>= fun ctx => k.all ctx >>= fun records =>
          pure ((Plan.ofQuery q).execute records) : Action σ (List Record))
        = List.map _ <$> (k.effective ctx >>= fun ctx => k.all ctx >>= fun records =>
          pure ((Plan.ofQuery { q with select := [] }).execute records) : Action σ (List Record))
      simp only [map_bind, map_pure, Plan.execute_selects selects]

variable {requests : Operations σ E}

/-- A query that selects fields answers, in order, the records of the query without the selection,
restricted to the fields that stay; it fails where that query fails, and leaves the state that it
leaves. -/
theorem query_selects_restricts {q : Query} {s : σ} {stays : String → Bool}
    (served : Restricts q s requests stays) (selects : q.Selects) (ctx : Context) :
    requests.query ctx q s
      = ((requests.query ctx { q with select := [] } s).1.map
          (List.map fun r => Record.restrict r stays),
        (requests.query ctx { q with select := [] } s).2) := by
  -- What a request of documents begins with does not touch the store.
  have entered {d : Document.Records σ E} {p : Part σ Document.Store} (memory : d.client = .memory p)
      (apart : d.env.Apart p.view) (plain : d.schema.IsPlain)
      (declared : ∀ name ∈ q.select, (d.schema.field? name).isSome)
      {session : Option Document.SessionId} (stored : d.AllReadBack session (p.view s))
      {enter : Action σ Context} (moves : Moves p.view (fun _ _ => False) enter) :
      (enter >>= fun ctx => d.query session ctx q : Action σ (List Record)) s
        = (((enter >>= fun ctx => d.query session ctx { q with select := [] } :
              Action σ (List Record)) s).1.map
            (List.map fun r => Record.restrict r (d.stays q.select)),
          ((enter >>= fun ctx => d.query session ctx { q with select := [] } :
              Action σ (List Record)) s).2) := by
    have kept := moves.view_eq s
    rw [Action.run_bind, Action.run_bind]
    generalize enter s = outcome at kept ⊢
    obtain ⟨answer, after⟩ := outcome
    cases answer with
    | error e => rfl
    | ok ctx => exact Document.Records.query_selects memory apart plain selects declared (kept ▸ stored) ctx
  cases served with
  | keyValue k =>
      show k.query ctx q s = _
      rw [k.query_selects selects, Action.run_map]
      rfl
  | document memory apart plain declared stored =>
      exact entered memory apart plain declared stored (.lift (.effective apart ctx _))
  | transaction memory apart plain declared id machine stored =>
      exact entered memory apart plain declared stored
        (.bind (.ofExcept _) fun _ => .lift (.effective apart ctx _))

namespace Document

/-- One person in an empty store. -/
def onePerson : World Store :=
  (people.repository.create .background
    (.object [("id", .text "1"), ("name", .text "Ada"), ("age", .int 36)]) ⟨.new, {}, 0⟩).2

/-- The names of the fields of the records that a query answers. -/
def answeredNames (q : Query) : Option (List (List String)) :=
  (people.repository.query .background q onePerson).1.toOption.map (List.map NameMap.names)

theorem ageOfPerson_restricts :
    let q : Query := { select := ["age"] }
    Restricts q onePerson people.repository.toOperations (people.stays ["age"]) ∧ q.Selects ∧
      answeredNames {} = some [["age", "id", "name"]] ∧ answeredNames q = some [["age"]] ∧
      people.repository.query .background q onePerson
        = ((people.repository.query .background {} onePerson).1.map
            (List.map fun r => Record.restrict r (people.stays ["age"])),
          (people.repository.query .background {} onePerson).2) := by
  have apart : people.env.Apart World.storePart.view :=
    World.environment_apart (p := .whole) fun _ _ => rfl
  have stored : people.AllReadBack none onePerson.store := by
    intro cols visible
    cases visible
    decide +kernel
  have served : Restricts { select := ["age"] } onePerson people.repository.toOperations
      (people.stays ["age"]) :=
    .document rfl apart people_isPlain (by decide) stored
  have selects : Query.Selects { select := ["age"] } := ⟨rfl, rfl, by decide⟩
  exact ⟨served, selects, by decide +kernel, by decide +kernel,
    query_selects_restricts served selects .background⟩

/-- A selection of the primary key alone answers everything but the key. -/
theorem keyAlone_leftOut :
    answeredNames {} = some [["age", "id", "name"]] ∧
      answeredNames { select := ["id"] } = some [["age", "name"]] := by
  decide +kernel

end Document

end Recordkeeper
