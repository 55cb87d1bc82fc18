import Mathlib.Data.List.Perm.Subperm
import Recordkeeper.Proofs.Document.Calls
import Recordkeeper.Proofs.Document.Unique
import Recordkeeper.Proofs.KeyValue.Finding
import Recordkeeper.Proofs.KeyValue.Planning

/-!
Contract: deletions by conditions, against queries with the same conditions.

Owns:
- what it means that a deletion removes what a query selects;
- that records under keys are found again after others were removed, and none that is selected;
- that the documents of one pass of a filter are those that another pass drops;
- `deletion_removes_selected`: both, for repositories in memory.

Does not own: what conditions select.

Queries and deletions make different calls.  A store of documents is asked for those that pass a
filter, or told to drop them; a store of keys is scanned in both cases, and then asked to drop one
key after another.
-/

set_option autoImplicit false

namespace Recordkeeper

variable {σ ρ E : Type}

/-- The query that has conditions and nothing else. -/
def Query.selecting (cs : List Condition) : Query := { conditions := cs }

/-- The deletion by conditions removes the records that the query with them answers, counts them
and leaves none of them to be answered; or both fail with one error, and nothing is removed. -/
def DeletesSelected (requests : Operations σ E) (held : σ → ρ) (removes : List Record → ρ → ρ → Prop)
    (ctx : Context) (cs : List Condition) (s : σ) : Prop :=
  let deletion := requests.deleteByCondition ctx (.selecting cs) s
  match (requests.query ctx (.selecting cs) s).1 with
  | .ok rows =>
      deletion.1 = .ok rows.length ∧ removes rows (held s) (held deletion.2) ∧
        (requests.query ctx (.selecting cs) deletion.2).1 = .ok []
  | .error e => deletion.1 = .error e ∧ held deletion.2 = held s

/-! ### Keys and values -/

namespace KeyValue

theorem Plan.execute_selecting (cs : List Condition) (records : List Record) :
    (ofQuery (.selecting cs)).execute records
      = records.filter (ofQuery (.selecting cs)).selects := rfl

theorem Store.Placed.removeAll {s : Store} (placed : s.Placed) (keys : List String) :
    (s.removeAll keys).Placed := by
  induction keys generalizing s with
  | nil => exact placed
  | cons key rest inductionHypothesis => exact inductionHypothesis (placed.remove key)

/-- What lives after a removal was not removed, and lived before. -/
theorem Store.live?_removeAll {s : Store} {keys : List String} {key : String} {now : Instant}
    {e : Entry} (live : (s.removeAll keys).live? key now = some e) :
    key ∉ keys ∧ s.live? key now = some e := by
  rw [live?, entry?_removeAll] at live
  split at live
  next => cases live
  next kept => exact ⟨kept, live⟩

theorem Store.Placed.mem_matchedKeys_of_removeAll {s : Store} (placed : s.Placed)
    {keys : List String} {r : Regex} {now : Instant} {key : String}
    (member : key ∈ (s.removeAll keys).matchedKeys r now) : key ∈ s.matchedKeys r now := by
  obtain ⟨matched, present⟩ := (placed.removeAll keys).mem_matchedKeys.1 member
  obtain ⟨e, live⟩ := Option.isSome_iff_exists.1 present
  exact placed.mem_matchedKeys.2 ⟨matched, Option.isSome_of_eq_some (live?_removeAll live).2⟩

namespace Records

/-- Records are taken out of a store with their keys, and nothing is done under other keys. -/
def Removes (k : Records σ E) (now : Instant) (rows : List Record) (before after : Store) : Prop :=
  ∃ keys : List String, keys.Nodup ∧
    List.Forall₂ (fun key r => ∃ e, before.live? key now = some e ∧ k.decode key e.value = .ok r)
      keys rows ∧
    ∀ key, after.entry? key = if key ∈ keys then none else before.entry? key

/-- Not too many keys are read. -/
theorem readAll_bounded {k : Records σ E} {w : World Store} {keys : List String} {counted : Nat}
    {found : List (String × Record)} (read : k.readAll w counted keys = .ok found)
    (within : counted ≤ k.config.maxScanKeys) : counted + keys.length ≤ k.config.maxScanKeys := by
  induction keys generalizing counted found with
  | nil => exact within
  | cons key rest inductionHypothesis =>
      rw [readAll] at read
      split at read
      next => cases read
      next few =>
        rw [List.length_cons]
        cases held : w.store.live? key w.now with
        | none =>
            rw [held] at read
            have later := inductionHypothesis read (by omega)
            omega
        | some e =>
            rw [held] at read
            obtain ⟨r, -, read⟩ := exists_of_bind read
            cases others : k.readAll w (counted + 1) rest with
            | error problem =>
                rw [others] at read
                cases read
            | ok found =>
                have later := inductionHypothesis others (by omega)
                omega

theorem chosen_records (plan : Plan) (found : List (String × Record)) :
    (found.map (·.2)).filter plan.selects = (chosen plan found).map (·.2) := List.filter_map

section Removal

variable {k : Records σ E} {w : World Store} (placed : w.store.Placed) (plan : Plan)
  {found : List (String × Record)} (read : k.readable w = .ok found)

include placed read

/-- Taking out the selected keys takes out the records that the plan answers. -/
theorem removes_chosen : k.Removes w.now ((chosen plan found).map (·.2)) w.store
    (w.store.removeAll ((chosen plan found).map (·.1))) := by
  obtain ⟨r, -, read⟩ := exists_pattern read
  have readAs := readAll_readAs (fun key member => (placed.mem_matchedKeys.1 member).2) read
  refine ⟨(chosen plan found).map (·.1), ?_, ?_, fun key => Store.entry?_removeAll _ _ key⟩
  · have once : (found.map (·.1)).Nodup := by
      rw [readAs.keys_eq]
      exact placed.nodup_matchedKeys r w.now
    exact once.sublist (List.filter_sublist.map _)
  · refine List.forall₂_map_left_iff.2 (List.forall₂_map_right_iff.2 ?_)
    refine List.forall₂_same.2 fun entry member => ?_
    exact (readAs.exists_of_entry (List.mem_filter.1 member).1).2

/-- After the selected records were removed the others are read again, and none is selected. -/
theorem readable_removed :
    ∃ rest, k.readable { w with store := w.store.removeAll ((chosen plan found).map (·.1)) }
        = .ok rest ∧ chosen plan rest = [] := by
  obtain ⟨r, compiled, read⟩ := exists_pattern read
  set gone := (chosen plan found).map (·.1)
  set v : World Store := { w with store := w.store.removeAll gone }
  have left : v.store.Placed := placed.removeAll gone
  have readAs := readAll_readAs (fun key member => (placed.mem_matchedKeys.1 member).2) read
  have still {key : String} (member : key ∈ v.store.matchedKeys r v.now) :
      key ∈ w.store.matchedKeys r w.now := placed.mem_matchedKeys_of_removeAll member
  have before {key : String} {e : Entry} (member : key ∈ v.store.matchedKeys r v.now)
      (live : v.store.live? key v.now = some e) :
      ∃ record, k.decode key e.value = .ok record ∧ (key, record) ∈ found := by
    obtain ⟨other, record, held, decoded, among⟩ := readAs.exists_of_mem (still member)
    have lived : w.store.live? key w.now = some e := (Store.live?_removeAll live).2
    rw [lived] at held
    cases held
    exact ⟨record, decoded, among⟩
  have alive : ∀ key ∈ v.store.matchedKeys r v.now, (v.store.live? key v.now).isSome :=
    fun key member => (left.mem_matchedKeys.1 member).2
  cases again : k.readAll v 0 (v.store.matchedKeys r v.now) with
  | error problem =>
      exfalso
      rcases readAll_failed alive again with full | ⟨key, member, e, refused, live, bad⟩
      · have few := readAll_bounded read (Nat.zero_le _)
        have fewer : (v.store.matchedKeys r v.now).length ≤ (w.store.matchedKeys r w.now).length :=
          (List.Nodup.subperm (left.nodup_matchedKeys r v.now) fun _ => still).length_le
        omega
      · obtain ⟨record, decoded, -⟩ := before member live
        rw [decoded] at bad
        cases bad
  | ok rest =>
      refine ⟨rest, ?_, List.filter_eq_nil_iff.2 fun entry member selected => ?_⟩
      · rw [readable, compiled]
        exact again
      · obtain ⟨listed, e, live, decoded⟩ := (readAll_readAs alive again).exists_of_entry member
        obtain ⟨record, same, among⟩ := before listed live
        rw [decoded] at same
        cases same
        have chosenBefore : (entry.1, entry.2) ∈ chosen plan found :=
          List.mem_filter.2 ⟨among, selected⟩
        exact (Store.live?_removeAll live).1 (List.mem_map.2 ⟨_, chosenBefore, rfl⟩)

end Removal

section Memory

variable {k : Records σ E} {p : Part σ (World Store)} {w : World Store} {ctx : Context}
  (memory : k.InMemory p) (alive : ctx.check w.surroundings = .ok ()) (placed : w.store.Placed)

include memory alive

include placed

variable (lasting : k.config.defaultTimeout ≠ some 0)

include lasting

theorem query_selecting (cs : List Condition) :
    Yields p.view w (k.query ctx (.selecting cs)) (do
      let plan ← Plan.compile (.selecting cs)
      let found ← k.readable w
      return (chosen plan found).map (·.2)) w := by
  have answered := query_readable memory (Context.check_effective alive lasting) placed
    (.selecting cs)
  cases compiled : Plan.compile (.selecting cs) with
  | error e =>
      rw [compiled] at answered
      exact answered
  | ok plan =>
      obtain rfl := Plan.eq_ofQuery compiled
      rw [compiled] at answered
      show Yields _ _ _ (k.readable w >>= fun found =>
        Except.ok ((chosen (Plan.ofQuery (.selecting cs)) found).map (·.2))) w
      simp only [← chosen_records, ← Plan.execute_selecting]
      exact answered

theorem deleteByCondition_unread {cs : List Condition} {plan : Plan}
    (compiled : Plan.compile (.selecting cs) = .ok plan) {e : Error}
    (unread : k.readable w = .error e) :
    Yields p.view w (k.deleteByCondition ctx (.selecting cs)) (.error e) w := by
  have conditionsOnly : (Query.selecting cs).checkDelete = .ok () := rfl
  have scanned := scan_readable memory (Context.check_effective alive lasting) placed
  rw [unread] at scanned
  unfold deleteByCondition
  rw [conditionsOnly, compiled]
  refine (Yields.ofExcept _).andThen ((Yields.ofExcept _).andThen ?_)
  exact (effective_yields memory ctx).andThen (scanned.stop _)

/-- The entries that a deletion drops are those of the records that the query answers. -/
theorem deletes_chosen (cs : List Condition) {s : σ} (here : p.view s = w) :
    DeletesSelected k.repository.toOperations (fun s => (p.view s).store) (k.Removes w.now) ctx cs
      s := by
  have asked := (query_selecting memory alive placed lasting cs s here).1
  unfold DeletesSelected
  show (match (k.query ctx (.selecting cs) s).1 with | .ok rows => _ | .error e => _)
  rw [asked]
  cases compiled : Plan.compile (.selecting cs) with
  | error e =>
      have refused : k.deleteByCondition ctx (.selecting cs) s = (.error e, s) := by
        unfold deleteByCondition
        rw [compiled]
        rfl
      exact ⟨congrArg Prod.fst refused, congrArg (fun r => (p.view r.2).store) refused⟩
  | ok plan =>
      cases read : k.readable w with
      | error e =>
          obtain ⟨failed, left⟩ :=
            deleteByCondition_unread memory alive placed lasting compiled read s here
          exact ⟨failed, congrArg World.store (left.trans here.symm)⟩
      | ok found =>
          obtain ⟨r, accepted, readWith⟩ := exists_pattern read
          obtain ⟨deleted, left⟩ := deleteByCondition_yields memory alive lasting accepted placed rfl
            compiled readWith s here
          obtain ⟨rest, readAgain, noneChosen⟩ := readable_removed placed plan read
          have askedAgain := (query_selecting
            (w := { w with store := w.store.removeAll ((chosen plan found).map (·.1)) }) memory alive
            (placed.removeAll _) lasting cs _ left).1
          rw [compiled, readAgain] at askedAgain
          refine ⟨?_, ?_, ?_⟩
          · show _ = Except.ok ((chosen plan found).map (·.2)).length
            rw [List.length_map]
            exact deleted
          · show k.Removes w.now _ (p.view s).store
              (p.view (k.deleteByCondition ctx (.selecting cs) s).2).store
            rw [left, here]
            exact removes_chosen placed plan read
          · refine askedAgain.trans ?_
            show Except.ok ((chosen plan rest).map (·.2)) = _
            rw [noneChosen]
            rfl

end Memory

end Records

end KeyValue

/-! ### Documents -/

namespace Document

open Store (docsOf)

/-- Whether a filter holds for a document; a filter that fails does not hold. -/
def passes (filter doc : Json) : Bool := (matchesFilter doc filter).toOption.getD false

theorem select_eq_passing {filter : Json} {docs found : List Json}
    (selected : select filter docs = .ok found) :
    found = docs.filter (passes filter) ∧
      ∀ doc ∈ docs, matchesFilter doc filter = .ok (passes filter doc) := by
  induction docs generalizing found with
  | nil =>
      cases selected
      exact ⟨rfl, nofun⟩
  | cons doc rest inductionHypothesis =>
      obtain ⟨holds, tested, selected⟩ := exists_of_bind selected
      obtain ⟨others, selected, parts⟩ := exists_of_bind selected
      obtain ⟨same, answers⟩ := inductionHypothesis selected
      cases parts
      have passed : passes filter doc = holds := by
        rw [passes, tested]
        rfl
      refine ⟨?_, List.forall_mem_cons.2 ⟨?_, answers⟩⟩
      · rw [List.filter_cons, passed, same]
      · rw [passed, tested]

theorem select_none {filter : Json} {docs : List Json}
    (fails : ∀ doc ∈ docs, matchesFilter doc filter = .ok false) : select filter docs = .ok [] := by
  induction docs with
  | nil => rfl
  | cons doc rest inductionHypothesis =>
      obtain ⟨first, later⟩ := List.forall_mem_cons.1 fails
      rw [select, first, inductionHypothesis later]
      rfl

/-- A filter splits off what it selects and keeps the others in their order. -/
theorem splitAll_eq (filter : Json) (docs : List Json) :
    splitAll filter docs = (select filter docs).map fun found =>
      (found, docs.filter fun doc => !passes filter doc) := by
  induction docs with
  | nil => rfl
  | cons doc rest inductionHypothesis =>
      rw [splitAll, select, inductionHypothesis]
      cases tested : matchesFilter doc filter with
      | error failure => rfl
      | ok holds =>
          have passed : passes filter doc = holds := by
            rw [passes, tested]
            rfl
          rw [List.filter_cons, passed]
          cases select filter rest with
          | error failure => rfl
          | ok found => cases holds <;> rfl

/-- The collections without some of the documents of one of them. -/
def dropDocs (name : String) (gone : Json → Bool) (cols : Collections) : Collections :=
  match cols.get? name with
  | none => cols
  | some coll => cols.insert name { coll with docs := coll.docs.filter fun doc => !gone doc }

theorem docsOf_dropDocs (name : String) (gone : Json → Bool) (cols : Collections) :
    docsOf (dropDocs name gone cols) name = (docsOf cols name).filter fun doc => !gone doc := by
  unfold dropDocs
  cases stored : cols.get? name with
  | none =>
      dsimp only
      rw [docsOf, collectionOf, stored]
      rfl
  | some coll =>
      dsimp only
      rw [docsOf, docsOf, collectionOf, collectionOf, NameMap.get?_insert, if_pos rfl, stored]
      rfl

theorem deleteDocs_eq (name : String) (filter : Json) (cols : Collections) :
    deleteDocs name filter cols = (select filter (docsOf cols name)).map fun found =>
      (found.length, dropDocs name (passes filter) cols) := by
  unfold deleteDocs dropDocs docsOf collectionOf
  cases cols.get? name with
  | none => rfl
  | some coll =>
      show (splitAll filter coll.docs >>= _) = Except.map _ (select filter coll.docs)
      rw [splitAll_eq]
      cases select filter coll.docs <;> rfl

namespace Store

/-- The documents that a caller sees and that pass a filter. -/
def matching (session : Option SessionId) (name : String) (filter : Json) (s : Store) :
    Outcome (List Json) :=
  s.visible session >>= fun cols => select filter (docsOf cols name)

theorem find_all (session : Option SessionId) (name : String) (filter : Json) (s : Store) :
    find session name filter {} s = (s.matching session name filter, s) := by
  have unsorted (docs : List Json) : sortDocs [] docs = docs :=
    List.mergeSort_of_pairwise (List.pairwise_of_forall fun _ _ => rfl)
  have kept (cols : Collections) : (do
      let found ← select filter (docsOf cols name)
      return (sortDocs [] found).drop 0 : Outcome (List Json))
        = select filter (docsOf cols name) := by
    simp only [unsorted, List.drop_zero, bind_pure]
  unfold find read
  exact congrArg (fun answer => (s.visible session >>= answer, s)) (funext kept)

/-- A write answers for what its caller sees, and the caller sees what it has done. -/
theorem write_visible {α : Type} {session : Option SessionId} {change : Change α} {s : Store}
    {cols : Collections} (seen : s.visible session = .ok cols) :
    (write session change s).1 = (change cols).map Prod.fst ∧
      ∀ a after, change cols = .ok (a, after) →
        (write session change s).2.visible session = .ok after := by
  rcases write_turns session change s with
    ⟨failure, failed, answered, -⟩ | ⟨others, b, next, done, answered, turned⟩
  · have refused : change cols = .error failure := by
      rw [seen] at failed
      exact failed
    rw [answered, refused]
    exact ⟨rfl, nofun⟩
  · obtain rfl : cols = others := Except.ok.inj (seen.symm.trans turned.saw)
    rw [answered, done]
    refine ⟨rfl, fun a after same => ?_⟩
    cases same
    exact turned.sees

theorem write_unseen {α : Type} {session : Option SessionId} {change : Change α} {s : Store}
    {failure : DocumentFailure} (unseen : s.visible session = .error failure) :
    write session change s = (.error failure, s) := by
  cases session with
  | none => cases unseen
  | some id =>
      unfold visible at unseen
      unfold write
      rcases found : s.sessions.lookup id with _ | _ | copy
      all_goals
        simp only [found] at unseen ⊢
        cases unseen
      rfl

theorem matching_of_visible {session : Option SessionId} {name : String} {s : Store}
    {cols : Collections} (seen : s.visible session = .ok cols) (filter : Json) :
    s.matching session name filter = select filter (docsOf cols name) := by
  rw [matching, seen]
  rfl

/-- A deletion fails where a look-up does, and then nobody sees a difference. -/
theorem deleteMany_unmatched {session : Option SessionId} {name : String} {filter : Json} {s : Store}
    {failure : DocumentFailure} (failed : s.matching session name filter = .error failure) :
    (deleteMany session name filter s).1 = .error failure ∧
      ∀ caller, (deleteMany session name filter s).2.visible caller = s.visible caller := by
  have answered : (deleteMany session name filter s).1 = .error failure := by
    unfold deleteMany
    cases seen : s.visible session with
    | error unseen =>
        rw [matching, seen] at failed
        cases failed
        rw [write_unseen seen]
    | ok cols =>
        rw [matching_of_visible seen] at failed
        rw [(write_visible seen).1, deleteDocs_eq, failed]
        rfl
  have unanswered : ((Operation.deleteMany name filter).request session s).1.toOption = none := by
    show ((deleteMany session name filter s).1.map _).toOption = none
    rw [answered]
    rfl
  exact ⟨answered, Operation.failed_visible unanswered⟩

/-- A deletion drops what a look-up finds, and a look-up then finds nothing. -/
theorem deleteMany_matching {session : Option SessionId} {name : String} {filter : Json} {s : Store}
    {found : List Json} (looked : s.matching session name filter = .ok found) :
    (deleteMany session name filter s).1 = .ok found.length ∧
      (∃ cols, s.visible session = .ok cols ∧
        found = (docsOf cols name).filter (passes filter) ∧
        (deleteMany session name filter s).2.visible session
          = .ok (dropDocs name (passes filter) cols)) ∧
      (deleteMany session name filter s).2.matching session name filter = .ok [] := by
  obtain ⟨cols, seen, selected⟩ := exists_of_bind looked
  obtain ⟨same, answers⟩ := select_eq_passing selected
  have deleted : deleteDocs name filter cols
      = .ok (found.length, dropDocs name (passes filter) cols) := by
    rw [deleteDocs_eq, selected]
    rfl
  have answered : (deleteMany session name filter s).1 = .ok found.length := by
    rw [deleteMany, (write_visible seen).1, deleted]
    rfl
  have left : (deleteMany session name filter s).2.visible session
      = .ok (dropDocs name (passes filter) cols) := (write_visible seen).2 _ _ deleted
  refine ⟨answered, ⟨cols, seen, same, left⟩, ?_⟩
  rw [matching_of_visible left, docsOf_dropDocs]
  refine select_none fun doc member => ?_
  obtain ⟨among, failing⟩ := List.mem_filter.1 member
  rw [answers doc among]
  exact congrArg Except.ok (Bool.not_eq_eq_eq_not.1 failing)

end Store

theorem Compiler.compileQuery_selecting (c : Compiler) (cs : List Condition) :
    c.compileQuery (.selecting cs) = (do
      (Query.selecting cs).validate
      let (filter, degradations) ← c.compileFilter cs
      return (.find filter {}, degradations)) := by
  unfold compileQuery checkSupported
  cases (Query.selecting cs).validate with
  | error e => rfl
  | ok passed => rfl

namespace Records

/-- A repository on documents in memory, with the clock and the ids around the store. -/
structure InMemory (d : Records σ E) (p : Part σ (World Store)) : Prop where
  client : d.client = .memory (p.inside World.storePart)
  env : d.env = World.environment p
  lawful : p.Lawful

/-- The requests on documents, outside of transactions or in one. -/
inductive Offers (d : Records σ E) : Option SessionId → Operations σ E → Prop
  | repository : d.Offers none d.repository.toOperations
  | transaction (id : SessionId) (machine : TxState) : d.Offers (some id) (d.handle id machine)

/-- What callers see: the documents of some records are dropped, the others keep their order, and
everything else stays. -/
def Removes (d : Records σ E) (session : Option SessionId) (rows : List Record)
    (before after : Option SessionId → Outcome Collections) : Prop :=
  ∃ cols gone, before session = .ok cols ∧
    rows = ((docsOf cols d.schema.name).filter gone).map d.ofDoc ∧
    after session = .ok (dropDocs d.schema.name gone cols)

/-- The filter that conditions make. -/
def filterOf (d : Records σ E) (cs : List Condition) : Except Error Json := do
  (Query.selecting cs).validate
  let (filter, _) ← d.compiler.compileFilter cs
  return filter

theorem query_selecting (d : Records σ E) (session : Option SessionId) (ctx : Context)
    (cs : List Condition) :
    d.query session ctx (.selecting cs) = (do
      let filter ← Action.ofExcept (d.filterOf cs)
      let docs ← d.call ctx (d.client.find session d.schema.name filter {})
      return docs.map d.ofDoc) := by
  unfold query filterOf
  rw [Compiler.compileQuery_selecting]
  cases (Query.selecting cs).validate with
  | error e => rfl
  | ok passed => cases d.compiler.compileFilter cs <;> rfl

theorem deleteByCondition_selecting (d : Records σ E) (session : Option SessionId) (ctx : Context)
    {cs : List Condition} (closed : Condition.anySubquery cs = false) :
    d.deleteByCondition session ctx (.selecting cs) = (do
      let filter ← Action.ofExcept (d.filterOf cs)
      d.call ctx (d.client.deleteMany session d.schema.name filter)) := by
  have conditionsOnly : (Query.selecting cs).checkDelete = .ok () := rfl
  have allowed : Condition.anySubquery (Query.selecting cs).conditions = false := closed
  unfold deleteByCondition filterOf
  rw [conditionsOnly, allowed]
  cases (Query.selecting cs).validate with
  | error e => rfl
  | ok passed =>
      show (Action.ofExcept (d.compiler.compileFilter cs) >>= _) = _
      cases d.compiler.compileFilter cs <;> rfl

section Memory

variable {d : Records σ E} {p : Part σ (World Store)} {w : World Store} {ctx : Context}
  {cs : List Condition} (memory : d.InMemory p)

include memory

theorem call_yields {α : Type} (alive : ctx.check w.surroundings = .ok ())
    {native : σ → Outcome α × σ} {request : Request α}
    (serves : native = (p.inside World.storePart).run request) :
    Yields p.view w (d.call ctx native) ((request w.store).1.mapError Error.document)
      { w with store := (request w.store).2 } := by
  refine Yields.call ?_ ?_ Error.document
  · rintro s rfl
    rw [memory.env]
    exact ⟨alive, rfl⟩
  · rw [serves]
    rintro s rfl
    exact ⟨rfl, memory.lawful _ s⟩

theorem found_yields (alive : ctx.check w.surroundings = .ok ()) (session : Option SessionId)
    (filter : Json) :
    Yields p.view w (d.call ctx (d.client.find session d.schema.name filter {}))
      ((w.store.matching session d.schema.name filter).mapError Error.document) w := by
  have serves : d.client.find session d.schema.name filter {}
      = (p.inside World.storePart).run (Store.find session d.schema.name filter {}) := by
    rw [memory.client]
    rfl
  have asked := call_yields memory alive serves
  rwa [Store.find_all] at asked

theorem deleted_yields (alive : ctx.check w.surroundings = .ok ()) (session : Option SessionId)
    (filter : Json) :
    Yields p.view w (d.call ctx (d.client.deleteMany session d.schema.name filter))
      ((Store.deleteMany session d.schema.name filter w.store).1.mapError Error.document)
      { w with store := (Store.deleteMany session d.schema.name filter w.store).2 } := by
  refine call_yields memory alive ?_
  rw [memory.client]
  rfl

/-- The query and the deletion fail alike, or the deletion drops what the query answers. -/
theorem query_deletion_yields (alive : ctx.check w.surroundings = .ok ())
    (session : Option SessionId) (closed : Condition.anySubquery cs = false) :
    (∃ e v, Yields p.view w (d.query session ctx (.selecting cs)) (.error e) w ∧
      Yields p.view w (d.deleteByCondition session ctx (.selecting cs)) (.error e) v ∧
      ∀ caller, v.store.visible caller = w.store.visible caller) ∨
    ∃ rows v, Yields p.view w (d.query session ctx (.selecting cs)) (.ok rows) w ∧
      Yields p.view w (d.deleteByCondition session ctx (.selecting cs)) (.ok rows.length) v ∧
      d.Removes session rows (fun caller => w.store.visible caller)
        (fun caller => v.store.visible caller) ∧
      v.surroundings = w.surroundings ∧
      Yields p.view v (d.query session ctx (.selecting cs)) (.ok []) v := by
  rw [query_selecting, deleteByCondition_selecting d session ctx closed]
  cases compiled : d.filterOf cs with
  | error e =>
      exact .inl ⟨e, w, (Yields.ofExcept _).stop _, (Yields.ofExcept _).stop _, fun _ => rfl⟩
  | ok filter =>
      have asked := found_yields memory alive session filter
      have deleted := deleted_yields memory alive session filter
      cases looked : w.store.matching session d.schema.name filter with
      | error failure =>
          obtain ⟨failed, kept⟩ := Store.deleteMany_unmatched looked
          rw [looked] at asked
          rw [failed] at deleted
          exact .inl ⟨.document failure, _, (Yields.ofExcept _).andThen (asked.stop _),
            (Yields.ofExcept _).andThen deleted, kept⟩
      | ok found =>
          obtain ⟨counted, ⟨cols, seen, same, left⟩, none⟩ := Store.deleteMany_matching looked
          set v : World Store :=
            { w with store := (Store.deleteMany session d.schema.name filter w.store).2 } with after
          have again := found_yields (w := v) memory alive session filter
          rw [looked] at asked
          rw [counted] at deleted
          rw [after, none] at again
          refine .inr ⟨found.map d.ofDoc, v, (Yields.ofExcept _).andThen (asked.andThen (.pure _)),
            ?_, ⟨cols, passes filter, seen, congrArg (List.map d.ofDoc) same, left⟩, rfl,
            (Yields.ofExcept _).andThen (again.andThen (.pure _))⟩
          rw [List.length_map]
          exact (Yields.ofExcept _).andThen deleted

theorem Offers.enters {session : Option SessionId} {requests : Operations σ E}
    (offered : d.Offers session requests) :
    ∃ enter : Context → Action σ Context,
      (∀ ctx q, requests.query ctx q = enter ctx >>= fun ctx => d.query session ctx q) ∧
      (∀ ctx q, requests.deleteByCondition ctx q
        = enter ctx >>= fun ctx => d.deleteByCondition session ctx q) ∧
      ∀ ctx, (∃ e, ∀ v, Yields p.view v (enter ctx) (.error e) v) ∨
        ∀ v, Yields p.view v (enter ctx)
          (.ok (ctx.effective v.surroundings d.config.defaultTimeout)) v := by
  have effective (ctx : Context) (v : World Store) :
      Yields p.view v (liftM (d.effective ctx) : Action σ Context)
        (.ok (ctx.effective v.surroundings d.config.defaultTimeout)) v := by
    rintro s rfl
    unfold Records.effective
    rw [memory.env]
    exact ⟨rfl, rfl⟩
  cases offered with
  | repository => exact ⟨_, fun _ _ => rfl, fun _ _ => rfl, fun ctx => .inr (effective ctx)⟩
  | transaction id machine =>
      refine ⟨_, fun _ _ => rfl, fun _ _ => rfl, fun ctx => ?_⟩
      cases machine.ensureActive with
      | error e => exact .inl ⟨e, fun v => (Yields.ofExcept _).stop _⟩
      | ok active => exact .inr fun v => (Yields.ofExcept _).andThen (effective ctx v)

/-- The documents that a deletion drops are those of the records that the query answers. -/
theorem deletes_matching {session : Option SessionId} {requests : Operations σ E}
    (offered : d.Offers session requests)
    (alive : ctx.check w.surroundings = .ok ()) (lasting : d.config.defaultTimeout ≠ some 0)
    (closed : Condition.anySubquery cs = false) {s : σ} (here : p.view s = w) :
    DeletesSelected requests (fun s caller => (p.view s).store.visible caller) (d.Removes session)
      ctx cs s := by
  obtain ⟨enter, query, deletion, entered⟩ := offered.enters memory
  unfold DeletesSelected
  rw [query, deletion]
  rcases entered ctx with ⟨e, refused⟩ | enters
  · have asked := (refused w).stop (fun ctx => d.query session ctx (.selecting cs)) s here
    have deleted := (refused w).stop (fun ctx => d.deleteByCondition session ctx (.selecting cs)) s
      here
    dsimp only
    rw [asked.1]
    refine ⟨deleted.1, ?_⟩
    rw [deleted.2, here]
  · have live := Context.check_effective alive lasting
    have run {α : Type} {v after : World Store} (same : v.surroundings = w.surroundings)
        (request : Context → Action σ α) {answer : Except Error α}
        (yields : Yields p.view v (request (ctx.effective w.surroundings d.config.defaultTimeout))
          answer after) : Yields p.view v (enter ctx >>= request) answer after := by
      have entered := enters v
      rw [same] at entered
      exact entered.andThen yields
    rcases query_deletion_yields memory live session closed with
      ⟨e, v, asks, deletes, kept⟩ | ⟨rows, v, asks, deletes, removed, still, asksAgain⟩
    · have asked := run rfl (fun ctx => d.query session ctx (.selecting cs)) asks s here
      have deleted := run rfl (fun ctx => d.deleteByCondition session ctx (.selecting cs)) deletes s
        here
      dsimp only
      rw [asked.1]
      refine ⟨deleted.1, ?_⟩
      rw [deleted.2, here]
      exact funext kept
    · have asked := run rfl (fun ctx => d.query session ctx (.selecting cs)) asks s here
      have deleted := run rfl (fun ctx => d.deleteByCondition session ctx (.selecting cs)) deletes s
        here
      have again := run still (fun ctx => d.query session ctx (.selecting cs)) asksAgain _ deleted.2
      dsimp only
      rw [asked.1]
      refine ⟨deleted.1, ?_, again.1⟩
      rw [deleted.2, here]
      exact removed

end Memory

end Records

end Document

/-! ### Repositories in memory -/

section Opened

variable {schema : Schema} {config : Config} {type : EntityType E} {ctx : Context}

/-- A deletion by conditions removes exactly the records that the query with them answers, whose
number it answers, and leaves the others as they are; or both fail alike, and nothing is removed.
This holds for repositories on keys and values, over every store in which keys are in their stripes
(`KeyValue.Store.Placed.run`), and for those on documents, where conditions have no subqueries, also
in a transaction. -/
theorem deletion_removes_selected (cs : List Condition) :
    (∀ (p : Part σ (World KeyValue.Store)) (k : KeyValue.Records σ E) (s : σ), p.Lawful →
      KeyValue.open? (.memory p) (World.environment p) schema config type = .ok k →
      ctx.check (p.view s).surroundings = .ok () → (p.view s).store.Placed →
      DeletesSelected k.repository.toOperations (fun s => (p.view s).store)
        (k.Removes (p.view s).now) ctx cs s) ∧
    ∀ (p : Part σ (World Document.Store)) (d : Document.Records σ E) (s : σ), p.Lawful →
      Document.open? (.memory (p.inside World.storePart)) (World.environment p) schema config type
        = .ok d →
      ctx.check (p.view s).surroundings = .ok () → Condition.anySubquery cs = false →
      ∀ session requests, d.Offers session requests →
        DeletesSelected requests (fun s caller => (p.view s).store.visible caller)
          (d.Removes session) ctx cs s := by
  constructor
  · intro p k s lawful opened alive placed
    obtain ⟨memory, accepted, rfl, rfl⟩ := KeyValue.open?_cases lawful opened
    have lasting := (KeyValue.Records.accept_settings accepted).2
    exact KeyValue.Records.deletes_chosen memory alive placed lasting cs rfl
  · intro p d s lawful opened alive closed session requests offered
    obtain ⟨⟨⟩, accepted, same⟩ := exists_of_bind opened
    cases same
    have lasting := (KeyValue.Records.accept_settings accepted).2
    exact Document.Records.deletes_matching ⟨rfl, rfl, lawful⟩ offered alive lasting closed rfl

end Opened

/-- The notes of `KeyValue.notes` as documents. -/
def noteDocs : Document.Records (World Document.Store) Json where
  client := .memory (Part.inside .whole World.storePart)
  env := World.environment .whole
  schema := KeyValue.notes.schema
  config := KeyValue.notes.config
  type := .anyDocument

def note (id : String) : Json := .object [("id", .text id)]

def twoNotes : World Document.Store :=
  let first := noteDocs.repository.create .background (note "1") ⟨.new, {}, 0⟩
  (noteDocs.repository.create .background (note "2") first.2).2

def firstOnes : List Condition := [.on "id" .equal (.text "1")]

theorem firstNote_deleted :
    Part.Lawful (.whole : Part (World KeyValue.Store) _) ∧
      Part.Lawful (.whole : Part (World Document.Store) _) ∧
      KeyValue.noteWorld.store.Placed ∧ Condition.anySubquery firstOnes = false ∧
      (KeyValue.notes.repository.deleteByCondition .background (.selecting firstOnes)
        KeyValue.noteWorld).1 = .ok 1 ∧
      DeletesSelected KeyValue.notes.repository.toOperations (·.store)
        (KeyValue.notes.Removes KeyValue.noteWorld.now) .background firstOnes KeyValue.noteWorld ∧
      (noteDocs.repository.deleteByCondition .background (.selecting firstOnes) twoNotes).1 = .ok 1 ∧
      DeletesSelected noteDocs.repository.toOperations (fun w caller => w.store.visible caller)
        (noteDocs.Removes none) .background firstOnes twoNotes := by
  have keyValue : Part.Lawful (.whole : Part (World KeyValue.Store) _) := fun _ _ => rfl
  have document : Part.Lawful (.whole : Part (World Document.Store) _) := fun _ _ => rfl
  have placed : KeyValue.noteWorld.store.Placed :=
    KeyValue.Store.placed_empty.run KeyValue.noteCalls
  have openedNotes : KeyValue.open? (.memory .whole) (World.environment .whole)
      KeyValue.notes.schema KeyValue.notes.config KeyValue.notes.type = .ok KeyValue.notes := rfl
  have openedDocs : Document.open? (.memory (Part.inside .whole World.storePart))
      (World.environment .whole) noteDocs.schema noteDocs.config noteDocs.type = .ok noteDocs := rfl
  have aliveNotes : Context.background.check KeyValue.noteWorld.surroundings = .ok () := rfl
  have aliveDocs : Context.background.check twoNotes.surroundings = .ok () := rfl
  refine ⟨keyValue, document, placed, rfl, by decide +kernel, ?_, by decide +kernel, ?_⟩
  · exact (deletion_removes_selected firstOnes).1 .whole KeyValue.notes KeyValue.noteWorld keyValue
      openedNotes aliveNotes placed
  · exact (deletion_removes_selected firstOnes).2 .whole noteDocs twoNotes document openedDocs
      aliveDocs rfl none _ .repository

end Recordkeeper
