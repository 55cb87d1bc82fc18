import Recordkeeper.Proofs.Document.Unique
import Recordkeeper.Proofs.Insertion

/-!
Contract: what a batch of insertions leaves in a document store.

Owns:
- the collections that a store holds, committed or in the copies of open transactions, and what a
  write does to them;
- clients that insert in a store while calls fail and tokens are cancelled;
- the documents that a batch has put at the end of a collection, and that everything else is as it
  was.

Does not own: the report of a batch.

A batch may run in a transaction.  It then changes the copy of that transaction alone, and otherwise
the committed collections alone.
-/

set_option autoImplicit false

namespace Recordkeeper.Document

variable {σ E : Type}

open Store (docsOf)

namespace Store

/-- The collections that are committed, and those in the copy of each open transaction. -/
def held (s : Store) : Option SessionId → Option Collections
  | none => some s.collections
  | some id => (s.copyOf? (some id)).map (·.collections)

/-- Where a caller works: in the copy of its open transaction, or else in what is committed. -/
def place (s : Store) (session : Option SessionId) : Option SessionId :=
  if (s.held session).isSome then session else none

theorem held_place (s : Store) (session : Option SessionId) :
    ∃ cols, s.held (s.place session) = some cols := by
  unfold place
  split
  next open_ => exact Option.isSome_iff_exists.1 open_
  next => exact ⟨s.collections, rfl⟩

/-- A caller that changed collections goes on working where it did. -/
theorem place_update {s t : Store} {session : Option SessionId} {after : Collections}
    (changed : t.held = Function.update s.held (s.place session) (some after)) :
    t.place session = s.place session := by
  have same : (t.held session).isSome = (s.held session).isSome := by
    rw [changed, Function.update_apply]
    split
    next here =>
      rw [here]
      obtain ⟨cols, found⟩ := s.held_place session
      rw [found]
      rfl
    next => rfl
  unfold place
  rw [same]

/-- What came of a change: it failed and the same is held, or it took place where the caller
works. -/
def Changes {α : Type} (place : Option SessionId) (change : Change α) (s : Store)
    (result : Outcome α × Store) : Prop :=
  ((∃ failure, result.1 = .error failure) ∧ result.2.held = s.held) ∨
    ∃ cols a after, s.held place = some cols ∧ change cols = .ok (a, after) ∧ result.1 = .ok a ∧
      result.2.held = Function.update s.held place (some after)

theorem held_withCopy {s : Store} {id : SessionId} {copy : Snapshot}
    (inside : s.copyOf? (some id) = some copy) (next : Snapshot) :
    (s.withCopy id (some next)).held = Function.update s.held (some id) (some next.collections) := by
  funext caller
  cases caller with
  | none => exact (Function.update_of_ne (Option.some_ne_none id).symm ..).symm
  | some other =>
      rw [held, copyOf?_withCopy, lookup_of_copyOf? inside, Function.update_apply]
      by_cases own : other = id
      · rw [if_pos own, if_pos (congrArg some own)]
        rfl
      · rw [if_neg own, if_neg fun same => own (Option.some.inj same)]
        rfl

theorem write_changes {α : Type} (session : Option SessionId) (change : Change α) (s : Store) :
    Changes (s.place session) change s (write session change s) := by
  have here {id : SessionId} {copy : Snapshot} (inside : s.copyOf? (some id) = some copy) :
      s.held (some id) = some copy.collections ∧ s.place (some id) = some id := by
    have found : s.held (some id) = some copy.collections := by
      rw [held, inside]
      rfl
    refine ⟨found, ?_⟩
    rw [place, found]
    rfl
  have written := write_written session change s
  generalize write session change s = result at written ⊢
  cases written with
  | failed failed => exact .inl ⟨⟨_, rfl⟩, rfl⟩
  | committed _ outside done =>
      have working : s.place session = none := by
        cases session with
        | none => rfl
        | some id =>
            rw [place, held, outside]
            rfl
      rw [working]
      refine .inr ⟨s.collections, _, _, rfl, done, rfl, funext fun caller => ?_⟩
      cases caller with
      | none => exact (Function.update_self none _ s.held).symm
      | some id => exact (Function.update_of_ne (Option.some_ne_none id) _ s.held).symm
  | marked inside failed =>
      refine .inl ⟨⟨_, rfl⟩, (held_withCopy inside _).trans ?_⟩
      rw [← (here inside).1, Function.update_eq_self]
  | worked inside done =>
      obtain ⟨found, working⟩ := here inside
      rw [working]
      exact .inr ⟨_, _, _, found, done, rfl, held_withCopy inside _⟩

end Store

/-- The collections after some documents were put at the end of one of them. -/
structure Grown (name : String) (docs : List Json) (cols after : Collections) : Prop where
  docs : docsOf after name = docsOf cols name ++ docs
  unique : (collectionOf after name).unique = (collectionOf cols name).unique
  others : ∀ other, other ≠ name → collectionOf after other = collectionOf cols other

namespace Grown

variable {name : String} {docs : List Json} {cols after : Collections}

theorem nil (name : String) (cols : Collections) : Grown name [] cols cols where
  docs := (List.append_nil _).symm
  unique := rfl
  others _ _ := rfl

theorem concat (grown : Grown name docs cols after) {doc : Json} {u : Unit} {next : Collections}
    (inserted : insertDoc name doc after = .ok (u, next)) :
    Grown name (docs ++ [doc]) cols next := by
  obtain ⟨⟨⟩, -, inserted⟩ := exists_of_bind inserted
  cases inserted
  refine ⟨?_, ?_, fun other different => ?_⟩
  · show (collectionOf _ name).docs = _
    rw [collectionOf_insert, if_pos rfl, ← List.append_assoc, ← grown.docs]
    rfl
  · rw [collectionOf_insert, if_pos rfl, ← grown.unique]
  · rw [collectionOf_insert, if_neg different]
    exact grown.others other different

end Grown

/-- An insertion fails and nothing is changed, or it does what the store does. -/
def Inserts (p : Part σ Store) (session : Option SessionId) (name : String) (doc : Json) (s : σ)
    (result : Outcome Unit × σ) : Prop :=
  ((∃ failure, result.1 = .error failure) ∧ p.view result.2 = p.view s) ∨
    (result.1, p.view result.2) = Store.insertOne session name doc (p.view s)

/-- A repository whose client inserts in the store of the part, and fails only before it gets there.
Time may go on and tokens may be cancelled all the while, also during an insertion that succeeds. -/
structure Records.Reaches (d : Records σ E) (p : Part σ Store) : Prop where
  apart : d.env.Apart p.view
  insert : ∀ session name doc s, Inserts p session name doc s (d.client.insertOne session name doc s)

theorem Store.insertOne_changes (session : Option SessionId) (name : String) (doc : Json)
    (s : Store) :
    Changes (s.place session) (insertDoc name doc) s (insertOne session name doc s) := by
  unfold insertOne
  dsimp only
  split
  · exact write_changes session _ s
  · exact .inl ⟨⟨_, rfl⟩, rfl⟩

namespace Records

variable {d : Records σ E} {p : Part σ Store}

/-- What a store has gained: the documents of the rows, in their order, at the end of the collection
that the caller works on.  Whatever else is held, by the caller or by others, is as it was. -/
structure Gained (d : Records σ E) (session : Option SessionId) (rows : List (BatchRow E Record))
    (before after : Store) : Prop where
  row : ∀ row ∈ rows, ∃ id, d.schema.Prepares d.type row.entity row.created id row.content
  held : ∃ cols grown, before.held (before.place session) = some cols ∧
    Grown d.schema.name (rows.map fun row => d.toDoc row.content) cols grown ∧
    after.held = Function.update before.held (before.place session) (some grown)

namespace Gained

variable {session : Option SessionId} {rows : List (BatchRow E Record)} {before s t : Store}

theorem start (d : Records σ E) (session : Option SessionId) (before : Store) :
    d.Gained session [] before before where
  row := nofun
  held := by
    obtain ⟨cols, found⟩ := before.held_place session
    refine ⟨cols, cols, found, .nil _ cols, ?_⟩
    rw [← found, Function.update_eq_self]

theorem congr (gained : d.Gained session rows before s) (same : t.held = s.held) :
    d.Gained session rows before t where
  row := gained.row
  held := by
    rw [same]
    exact gained.held

/-- The next document goes to the end of the same collection. -/
theorem changes (gained : d.Gained session rows before s) {row : BatchRow E Record}
    (stores : ∃ id, d.schema.Prepares d.type row.entity row.created id row.content)
    {cols next : Collections} {u : Unit} (found : s.held (s.place session) = some cols)
    (inserted : insertDoc d.schema.name (d.toDoc row.content) cols = .ok (u, next))
    (changed : t.held = Function.update s.held (s.place session) (some next)) :
    d.Gained session (rows ++ [row]) before t where
  row := by
    rw [List.forall_mem_append]
    exact ⟨gained.row, List.forall_mem_singleton.2 stores⟩
  held := by
    obtain ⟨first, grown, start, grows, held⟩ := gained.held
    have here : s.place session = before.place session := Store.place_update held
    rw [here, held, Function.update_self] at found
    cases found
    refine ⟨first, next, start, ?_, ?_⟩
    · rw [List.map_append]
      exact grows.concat inserted
    · rw [changed, here, held, Function.update_idem]

end Gained

theorem Reaches.memory (lawful : p.Lawful) (client : d.client = .memory p)
    (apart : d.env.Apart p.view) : d.Reaches p where
  apart := apart
  insert session name doc s := by
    have seen : p.view ((Client.memory p).insertOne session name doc s).2
        = (Store.insertOne session name doc (p.view s)).2 := lawful _ s
    rw [client, Inserts, seen]
    exact .inr rfl

/-- Calls may fail on purpose, and a token may be cancelled by an insertion that succeeds. -/
theorem Reaches.faulty (reaches : d.Reaches p) (plan : FaultPlan Method DocumentFailure)
    {log : Part σ (CallLog Method)} (logApart : ∀ note s, p.view (log.put note s) = p.view s)
    {cancel : σ → σ} (cancels : ∀ s, p.view (cancel s) = p.view s) :
    { d with client := .faulty plan log cancel d.client }.Reaches p where
  apart := reaches.apart
  insert session name doc s := by
    show Inserts p session name doc s
      (plan.guardWrite log cancel .insertOne (d.client.insertOne session name doc) s)
    rcases plan.guardWrite_cases log cancel .insertOne (d.client.insertOne session name doc) s
      with ⟨failure, note, failed⟩ | ⟨note, t, u, rfl, same, left⟩
    · rw [failed]
      exact .inl ⟨⟨failure, rfl⟩, logApart note s⟩
    · have inserts := reaches.insert session name doc (log.put note s)
      have kept : p.view u = p.view (d.client.insertOne session name doc (log.put note s)).2 := by
        rcases left with rfl | ⟨note, rfl | rfl⟩
        · rfl
        · exact logApart note _
        · exact (cancels _).trans (logApart note _)
      rw [same]
      unfold Inserts at inserts ⊢
      dsimp only
      rw [kept]
      rwa [logApart] at inserts

section Insertion

variable (reaches : d.Reaches p)

include reaches

/-- The native insertion changes what is held, or it fails and nothing is changed. -/
theorem call_changes (session : Option SessionId) (ctx : Context) (doc : Json) (s : σ) :
    ((∃ e, (d.call ctx (d.client.insertOne session d.schema.name doc) s).1 = .error e) ∧
      (p.view (d.call ctx (d.client.insertOne session d.schema.name doc) s).2).held
        = (p.view s).held) ∨
    ∃ cols next, (p.view s).held ((p.view s).place session) = some cols ∧
      insertDoc d.schema.name doc cols = .ok ((), next) ∧
      (d.call ctx (d.client.insertOne session d.schema.name doc) s).1 = .ok () ∧
      (p.view (d.call ctx (d.client.insertOne session d.schema.name doc) s).2).held
        = Function.update (p.view s).held ((p.view s).place session) (some next) := by
  unfold call
  obtain ⟨t, observed, ⟨e, stopped⟩ | ran⟩ := Action.call_cases reaches.apart ctx Error.document
    (d.client.insertOne session d.schema.name doc) s
  · rw [stopped]
    exact .inl ⟨⟨e, rfl⟩, congrArg Store.held observed⟩
  · rw [ran]
    have inserts := reaches.insert session d.schema.name doc t
    generalize d.client.insertOne session d.schema.name doc t = written at inserts ⊢
    obtain ⟨answer, u⟩ := written
    dsimp only at inserts ⊢
    rcases inserts with ⟨⟨failure, rfl⟩, same⟩ | acts
    · exact .inl ⟨⟨_, rfl⟩, congrArg Store.held (same.trans observed)⟩
    · rw [observed] at acts
      have changes := Store.insertOne_changes session d.schema.name doc (p.view s)
      rw [← acts] at changes
      rcases changes with ⟨⟨failure, failed⟩, same⟩ | ⟨cols, a, next, here, inserted, done, held⟩
      · dsimp only at failed same
        rw [failed]
        exact .inl ⟨⟨_, rfl⟩, same⟩
      · dsimp only at done held
        rw [done]
        exact .inr ⟨cols, next, here, inserted, rfl, held⟩

/-- A creation stores the document of an entity, or fails and changes nothing. -/
theorem create_changes {entity : E} (takes : ∀ e, ¬ RefusesId d.schema d.type entity e)
    (session : Option SessionId) (ctx : Context) (s : σ) :
    (∃ created r cols next, (d.create session ctx entity s).1 = .ok created ∧
      (∃ id, d.schema.Prepares d.type entity created id r) ∧
      (p.view s).held ((p.view s).place session) = some cols ∧
      insertDoc d.schema.name (d.toDoc r) cols = .ok ((), next) ∧
      (p.view (d.create session ctx entity s).2).held
        = Function.update (p.view s).held ((p.view s).place session) (some next)) ∨
    ((∃ e, (d.create session ctx entity s).1 = .error e) ∧
      (p.view (d.create session ctx entity s).2).held = (p.view s).held) := by
  unfold create
  cases converted : d.schema.toRecord d.type entity with
  | error e => exact .inr ⟨⟨e, rfl⟩, rfl⟩
  | ok own =>
      rw [Action.run_bind]
      dsimp only [Action.ofExcept]
      have kept : p.view (d.schema.prepareId d.env own s).2 = p.view s :=
        (Moves.prepareId reaches.apart _ own).view_eq s
      have writes := @writeBack_ok σ E d.schema d.type entity d.env own
      rw [Action.run_bind]
      rcases prepared : d.schema.prepareId d.env own s with ⟨answer, t⟩
      rw [prepared] at kept
      dsimp only at kept
      rcases answer with e | ⟨_ | id, r⟩
      · exact .inr ⟨⟨e, rfl⟩, congrArg Store.held kept⟩
      · exact .inr ⟨⟨_, rfl⟩, congrArg Store.held kept⟩
      · dsimp only
        rw [Action.run_bind]
        have called := call_changes reaches session ctx (d.toDoc r) t
        rw [kept] at called
        generalize d.call ctx (d.client.insertOne session d.schema.name (d.toDoc r)) t = outcome
          at called ⊢
        obtain ⟨answer, u⟩ := outcome
        rcases called with ⟨⟨e, rfl⟩, same⟩ | ⟨cols, next, here, inserted, rfl, held⟩
        · exact .inr ⟨⟨e, rfl⟩, same⟩
        · obtain ⟨created, answered, prepares⟩ :=
            writes takes converted (congrArg Prod.fst prepared) u
          dsimp only
          rw [answered]
          exact .inl ⟨created, r, cols, next, rfl, ⟨id, prepares⟩, here, inserted, held⟩

omit reaches in
/-- A context that has ended by now creates nothing more. -/
theorem create_ended {ctx : Context} {past : σ → Prop} (ends : d.env.Ends ctx past)
    (session : Option SessionId) (entity : E) {s : σ} (ended : past s) :
    ∃ e, (d.create session ctx entity s).1 = .error e := by
  cases answer : (d.create session ctx entity s).1 with
  | error e => exact ⟨e, rfl⟩
  | ok created =>
      exfalso
      unfold create at answer
      obtain ⟨own, converted, answer⟩ := Action.ok_of_bind answer
      obtain ⟨⟨id, r⟩, prepared, answer⟩ := Action.ok_of_bind answer
      have still : past (d.schema.prepareId d.env own s).2 := ends.prepareId d.schema own ended
      cases id with
      | none => cases answer
      | some id =>
          obtain ⟨⟨⟩, stored, -⟩ := Action.ok_of_bind answer
          obtain ⟨e, failed⟩ := ends.call Error.document
            (d.client.insertOne session d.schema.name (d.toDoc r)) still
          exact absurd (stored.symm.trans failed) nofun

theorem createBatch_gains {entities : List E}
    (takes : ∀ entity ∈ entities, ∀ e, ¬ RefusesId d.schema d.type entity e)
    (session : Option SessionId) (ctx : Context) (s : σ) :
    ∃ outcome rows, (d.createBatch session ctx entities s).1.1 = .ok outcome ∧
      Accounts entities outcome (d.createBatch session ctx entities s).1.2 rows ∧
      d.Gained session rows (p.view s) (p.view (d.createBatch session ctx entities s).2) := by
  obtain ⟨rows, accounts, gained⟩ := insertEach_accounts (d.create session ctx)
    (fun rows t => d.Gained session rows (p.view s) (p.view t)) (Gained.start d session _) entities
    fun entity member rows t gained => by
      rcases create_changes reaches (takes entity member) session ctx t with
        ⟨created, r, cols, next, answered, stores, here, inserted, held⟩ | ⟨failed, same⟩
      · exact .inl ⟨created, r, answered, fun _ => gained.changes stores here inserted held⟩
      · exact .inr ⟨failed, gained.congr same⟩
  exact ⟨_, rows, rfl, accounts, gained⟩

end Insertion

/-- The requests on documents that are made of the repository, or of an open transaction. -/
inductive Opens (d : Records σ E) : Option SessionId → Operations σ E → Prop
  | repository : d.Opens none d.repository.toOperations
  | transaction (id : SessionId) : d.Opens (some id) (d.handle id .active)

theorem Opens.createBatch_eq {session : Option SessionId} {requests : Operations σ E}
    (opened : d.Opens session requests) (ctx : Context) (entities : List E) (s : σ) :
    requests.createBatch ctx entities s
      = d.createBatch session (d.effective ctx s).1 entities (d.effective ctx s).2 := by
  cases opened <;> rfl

end Records

end Recordkeeper.Document
