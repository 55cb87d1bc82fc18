import Recordkeeper.Proofs.Insertion
import Recordkeeper.Proofs.Json.Values

/-!
Contract: what a creation changes of an entity besides its id.

Owns:
- documents that are the same once they were values;
- the entity that is given an id, and the native insertion that stored the record under it;
- `created_keeps_fields_iff`, which says when all other fields of the entity stay as they are.

Does not own: creations that fail.

An id is written back by way of the record of the entity.  So every other field becomes a value and
a document again, and a value is no object and no whole number beyond 64 bits.
-/

set_option autoImplicit false

namespace Recordkeeper

variable {σ E : Type}

/-! ### Documents as values -/

namespace Json

mutual

/-- No objects, whole numbers of 64 bits only, and finite floats only. -/
def isPlain : Json → Bool
  | .number (.int n) => decide (Number.leastInt ≤ n ∧ n ≤ Number.greatestInt)
  | .number (.float x) => x.isFinite
  | .array items => arePlain items
  | .object _ => false
  | _ => true
termination_by structural doc => doc

def arePlain : List Json → Bool
  | [] => true
  | doc :: rest => isPlain doc && arePlain rest
termination_by structural docs => docs

end

end Json

namespace Value

theorem toJson_ofJson_number_iff (n : Number) :
    (ofJson (.number n)).toJson = .number n ↔ (Json.number n).isPlain := by
  cases n with
  | int n =>
      rw [ofJson, Number.toInt64?]
      by_cases bounded : Number.leastInt ≤ n ∧ n ≤ Number.greatestInt
      · rw [if_pos bounded]
        refine iff_of_true ?_ (decide_eq_true bounded)
        show Json.number (.int (Int64.ofInt n).toInt) = _
        rw [Int64.toInt_ofInt_of_le bounded.1 (Int.lt_add_one_of_le bounded.2)]
      · rw [if_neg bounded]
        refine iff_of_false (fun same => ?_) fun plain => bounded (of_decide_eq_true plain)
        dsimp only at same
        rw [toJson] at same
        split at same <;> cases same
  | float x =>
      show (Value.float x).toJson = _ ↔ x.isFinite
      rw [toJson]
      split
      next finite => exact iff_of_true rfl finite
      next infinite => exact iff_of_false Json.noConfusion infinite

mutual

/-- A document is that of its value if and only if it is plain. -/
theorem toJson_ofJson_iff (doc : Json) : (ofJson doc).toJson = doc ↔ doc.isPlain := by
  match doc with
  | .null | .bool _ | .text _ => exact iff_of_true rfl rfl
  | .number n => exact toJson_ofJson_number_iff n
  | .array items =>
      show Json.array (toJsonItems (ofJsonItems items)) = .array items ↔ Json.arePlain items
      rw [← toJsonItems_ofJsonItems_iff items, Json.array.injEq]
  | .object fields => exact iff_of_false nofun nofun
termination_by structural doc

theorem toJsonItems_ofJsonItems_iff (docs : List Json) :
    toJsonItems (ofJsonItems docs) = docs ↔ Json.arePlain docs := by
  match docs with
  | [] => exact iff_of_true rfl rfl
  | doc :: rest =>
      rw [ofJsonItems, toJsonItems, Json.arePlain, Bool.and_eq_true, List.cons.injEq,
        toJson_ofJson_iff doc, toJsonItems_ofJsonItems_iff rest]
termination_by structural docs

end

end Value

/-! ### The document of the entity afterwards -/

theorem Record.field?_toJson (r : Record) (name : String) :
    r.toJson.field? name = (r.get? name).map Value.toJson :=
  lookup_map_values Value.toJson r.entries name

namespace Schema

variable {schema : Schema} {type : EntityType E} {entity created : E} {fields : Fields} {id : Value}

/-- The document that an entity with a new id is read from. -/
def renewed (schema : Schema) (fields : Fields) (id : Value) : Json :=
  Record.toJson ((Record.ofJson (.object fields)).insert schema.primaryKey id)

theorem toRecord_eq (shown : type.toJson entity = .object fields) :
    schema.toRecord type entity = .ok (Record.ofJson (.object fields)) := by
  unfold toRecord
  rw [shown]

theorem assignId_ok (shown : type.toJson entity = .object fields)
    (assigned : schema.assignId type entity id = .ok created) :
    type.ofJson (schema.renewed fields id) = .ok created := by
  unfold assignId at assigned
  rw [toRecord_eq shown] at assigned
  have read : schema.ofRecord type _ = .ok created := assigned
  unfold ofRecord at read
  unfold renewed
  split at read
  next entity taken =>
    cases read
    exact taken
  next => cases read

theorem field?_renewed (once : (fields.map Prod.fst).Nodup) (id : Value) (name : String) :
    (schema.renewed fields id).field? name = if name = schema.primaryKey then some id.toJson
      else (fields.get? name).map fun v => (Value.ofJson v).toJson := by
  rw [renewed, Record.field?_toJson, NameMap.get?_insert, Record.get?_ofJson once]
  split
  next => rfl
  next => rw [Option.map_map]; rfl

/-- The other fields stay as they are if and only if they are plain. -/
theorem renewed_same_iff (once : (fields.map Prod.fst).Nodup) (id : Value) :
    (∀ name, name ≠ schema.primaryKey →
        (schema.renewed fields id).field? name = (Json.object fields).field? name)
      ↔ ∀ f ∈ fields, f.1 ≠ schema.primaryKey → f.2.isPlain := by
  have own (name : String) : (Json.object fields).field? name = fields.get? name := rfl
  constructor
  · intro same f member notKey
    have held : fields.get? f.1 = some f.2 := lookup_of_mem once member
    have kept := same f.1 notKey
    rw [field?_renewed once, if_neg notKey, own, held] at kept
    exact (Value.toJson_ofJson_iff f.2).1 (Option.some.inj kept)
  · intro plain name notKey
    rw [field?_renewed once, if_neg notKey, own]
    cases held : fields.get? name with
    | none => rfl
    | some v =>
        have member : (name, v) ∈ fields := (lookup_eq_some_iff_mem once).1 held
        exact congrArg some ((Value.toJson_ofJson_iff v).2 (plain (name, v) member notKey))

theorem idOf?_insert {r : Record} {id : Value} (present : id.isNull = false) :
    schema.idOf? (r.insert schema.primaryKey id) = some id := by
  rw [idOf?, NameMap.get?_insert, if_pos rfl, Option.filter_some, present]
  rfl

end Schema

theorem Generated.not_null {strategy : IdStrategy} {id : Value} (generated : Generated strategy id) :
    id.isNull = false := by
  cases generated <;> rfl

/-- An entity without an id is given one that was generated for it. -/
def Schema.Gives (schema : Schema) (type : EntityType E) (entity created : E) (id : Value) : Prop :=
  Generated schema.idStrategy id ∧ schema.assignId type entity id = .ok created

/-- The end of a creation, for an entity that brought no id. -/
theorem Schema.gives_of_writeBack {schema : Schema} {type : EntityType E} {entity created : E}
    {own : Record} {id : Value} {s u : σ} (missing : schema.idOf? own = none)
    (generated : Generated schema.idStrategy id)
    (done : (if (schema.idOf? own).isSome then pure entity
      else Action.ofExcept (schema.assignId type entity id) : Action σ E) s = (.ok created, u)) :
    schema.Gives type entity created id ∧ u = s := by
  rw [missing] at done
  obtain ⟨assigned, same⟩ := Prod.mk.inj (show (_, _) = _ from done)
  exact ⟨⟨generated, assigned⟩, same.symm⟩

/-- A record without an id that was prepared with one holds it. -/
theorem Schema.idOf?_prepared {schema : Schema} {env : Environment σ} {own r : Record} {id : Value}
    {s t : σ} (missing : schema.idOf? own = none)
    (prepared : schema.prepareId env own s = (.ok (some id, r), t)) :
    Generated schema.idStrategy id ∧ schema.idOf? r = some id := by
  have answered : (schema.prepareId env own s).1 = .ok (some id, r) := by rw [prepared]
  rcases Schema.prepareId_some answered with ⟨has, -⟩ | ⟨-, generated, rfl⟩
  · rw [missing] at has
    cases has
  · exact ⟨generated, Schema.idOf?_insert generated.not_null⟩

/-- A record that the engine is to number has no id. -/
theorem Schema.get?_prepared {schema : Schema} {env : Environment σ} {own r : Record} {s t : σ}
    (prepared : schema.prepareId env own s = (.ok (none, r), t)) :
    r.get? schema.primaryKey = none := by
  have outcome := schema.prepareId_prepared env own s
  rw [prepared] at outcome
  cases outcome with
  | numbered missing strategy => rw [NameMap.get?_erase, if_pos rfl]

/-! ### The three backends -/

namespace Document.Records

/-- A record was inserted under an id, and this is the state that the insertion left. -/
def StoredUnder (d : Records σ E) (id : Value) (after : σ) : Prop :=
  ∃ session r t, d.schema.idOf? r = some id ∧
    d.client.insertOne session d.schema.name (d.toDoc r) t = (.ok (), after)

theorem create_storedUnder {d : Records σ E} {session : Option SessionId} {ctx : Context}
    {entity created : E} {own : Record} {s after : σ}
    (converted : d.schema.toRecord d.type entity = .ok own) (missing : d.schema.idOf? own = none)
    (done : d.create session ctx entity s = (.ok created, after)) :
    ∃ id, d.StoredUnder id after ∧ d.schema.Gives d.type entity created id := by
  unfold create at done
  obtain ⟨_, _, first, later⟩ := Action.steps_of_bind done
  obtain ⟨rfl, rfl⟩ := Action.eq_of_ofExcept first converted
  obtain ⟨⟨provided, r⟩, _, prepared, done⟩ := Action.steps_of_bind later
  cases provided with
  | none => cases done
  | some id =>
      obtain ⟨generated, held⟩ := Schema.idOf?_prepared missing prepared
      obtain ⟨_, _, called, done⟩ := Action.steps_of_bind done
      have native := Action.native_of_call called
      obtain ⟨gives, rfl⟩ := Schema.gives_of_writeBack missing generated done
      exact ⟨id, ⟨session, r, _, held, native⟩, gives⟩

end Document.Records

namespace KeyValue.Records

/-- A record was written under the key of an id, where there was none, and this is the state
afterwards. -/
def StoredUnder (k : Records σ E) (id : Value) (after : σ) : Prop :=
  ∃ key r t, k.keyFor id = .ok key ∧ k.schema.idOf? r = some id ∧
    k.client.setIfMissing key (k.encode r) none t = (.ok true, after)

theorem insert_storedUnder {k : Records σ E} {ctx : Context} {entity created : E} {own : Record}
    {s after : σ} (converted : k.schema.toRecord k.type entity = .ok own)
    (missing : k.schema.idOf? own = none)
    (done : k.insert ctx none entity s = (.ok created, after)) :
    ∃ id, k.StoredUnder id after ∧ k.schema.Gives k.type entity created id := by
  unfold insert at done
  obtain ⟨_, _, first, later⟩ := Action.steps_of_bind done
  obtain ⟨rfl, rfl⟩ := Action.eq_of_ofExcept first converted
  obtain ⟨⟨provided, r⟩, _, prepared, done⟩ := Action.steps_of_bind later
  cases provided with
  | none => cases done
  | some id =>
      obtain ⟨generated, held⟩ := Schema.idOf?_prepared missing prepared
      obtain ⟨key, _, keyed, done⟩ := Action.steps_of_bind done
      obtain ⟨keyIs, rfl⟩ := Prod.mk.inj (show (k.keyFor id, _) = _ from keyed)
      obtain ⟨written, _, called, done⟩ := Action.steps_of_bind done
      have native := Action.native_of_call called
      cases written with
      | false => cases done
      | true =>
          obtain ⟨gives, rfl⟩ := Schema.gives_of_writeBack missing generated done
          exact ⟨id, ⟨key, r, _, keyIs, held, native⟩, gives⟩

end KeyValue.Records

namespace Relational.Records

/-- A row was inserted under an id, or without one and got it as its number, and this is the state
that the insertion left. -/
def StoredUnder (d : Records σ E) (id : Value) (after : σ) : Prop :=
  ∃ fields r statement t changed, d.compiler.compileInsert d.schema.name fields r = .ok statement ∧
    d.client.execute statement.sql (statement.params.map bind) t = (.ok changed, after) ∧
    (d.schema.idOf? r = some id ∨
      r.get? d.schema.primaryKey = none ∧ id = .int (d.client.lastRow after))

theorem create_storedUnder {d : Records σ E} {ctx : Context} {entity created : E} {own : Record}
    {s after : σ} (converted : d.schema.toRecord d.type entity = .ok own)
    (missing : d.schema.idOf? own = none) (done : d.create ctx entity s = (.ok created, after)) :
    ∃ id, d.StoredUnder id after ∧ d.schema.Gives d.type entity created id := by
  unfold create at done
  obtain ⟨_, _, first, later⟩ := Action.steps_of_bind done
  obtain ⟨rfl, rfl⟩ := Action.eq_of_ofExcept first converted
  obtain ⟨id, u, inserted, done⟩ := Action.steps_of_bind later
  have generated : Generated d.schema.idStrategy id :=
    insert_generated (by rw [inserted]) missing
  obtain ⟨gives, rfl⟩ := Schema.gives_of_writeBack missing generated done
  refine ⟨id, ?_, gives⟩
  unfold insert at inserted
  obtain ⟨⟨provided, r⟩, _, prepared, inserted⟩ := Action.steps_of_bind inserted
  obtain ⟨statement, _, compiled, inserted⟩ := Action.steps_of_bind inserted
  obtain ⟨compiles, rfl⟩ := Prod.mk.inj (show (d.compiler.compileInsert _ _ r, _) = _ from compiled)
  obtain ⟨changed, _, called, inserted⟩ := Action.steps_of_bind inserted
  have native := Action.native_of_call called
  cases provided with
  | some other =>
      cases inserted
      exact ⟨_, r, statement, _, changed, compiles, native,
        .inl (Schema.idOf?_prepared missing prepared).2⟩
  | none =>
      cases inserted
      exact ⟨_, r, statement, _, changed, compiles, native,
        .inr ⟨Schema.get?_prepared prepared, rfl⟩⟩

end Relational.Records

namespace Backing

variable {b : Backing σ E}

/-- The native insertion stored a record under an id, and left the state, but that a connection may
have been given back since. -/
def StoredUnder (id : Value) (after : σ) : Backing σ E → Prop
  | .document d => d.StoredUnder id after
  | .keyValue k => k.StoredUnder id after
  | .relational d => ∃ u, d.StoredUnder id u ∧ (after = u ∨ after = d.client.unlock u)

/-- Every creation of an entity without an id stores a record under a new one and writes it back. -/
theorem create_storedUnder {requests : Operations σ E} (offered : b.Offers requests) {ctx : Context}
    {entity created : E} {own : Record} {s after : σ}
    (converted : b.schema.toRecord b.type entity = .ok own) (missing : b.schema.idOf? own = none)
    (done : requests.create ctx entity s = (.ok created, after)) :
    ∃ id, b.StoredUnder id after ∧ b.schema.Gives b.type entity created id := by
  cases offered with
  | repository =>
      cases b with
      | document d =>
          obtain ⟨_, _, -, done⟩ := Action.steps_of_bind done
          exact Document.Records.create_storedUnder converted missing done
      | keyValue k =>
          obtain ⟨_, _, -, done⟩ := Action.steps_of_bind done
          exact KeyValue.Records.insert_storedUnder converted missing done
      | relational d =>
          obtain ⟨ctx, _, -, done⟩ := Action.steps_of_bind done
          obtain ⟨_, t, -, done⟩ := Action.steps_of_bind done
          rcases ran : d.create ctx entity t with ⟨answer, u⟩
          dsimp only at done
          rw [ran] at done
          obtain ⟨rfl, rfl⟩ := Prod.mk.inj done
          obtain ⟨id, stores, gives⟩ := Relational.Records.create_storedUnder converted missing ran
          exact ⟨id, ⟨u, stores, .inr rfl⟩, gives⟩
  | session d session machine =>
      obtain ⟨_, _, -, done⟩ := Action.steps_of_bind done
      exact Document.Records.create_storedUnder converted missing done
  | transaction d machine =>
      obtain ⟨_, _, -, done⟩ := Action.steps_of_bind done
      obtain ⟨_, _, -, done⟩ := Action.steps_of_bind done
      obtain ⟨id, stores, gives⟩ := Relational.Records.create_storedUnder converted missing done
      exact ⟨id, ⟨_, stores, .inl rfl⟩, gives⟩

/-- An entity that has no id and is created has the id under which it was stored, once its type
shows what it reads.  All of its other fields are as they were if and only if they are plain:
objects among them become texts, and whole numbers beyond 64 bits become floats. -/
theorem created_keeps_fields_iff {requests : Operations σ E} (offered : b.Offers requests)
    {ctx : Context} {entity created : E} {fields : Fields} {s after : σ}
    (shown : b.type.toJson entity = .object fields) (once : (fields.map Prod.fst).Nodup)
    (missing : ∀ v, fields.get? b.schema.primaryKey = some v → v = .null)
    (done : requests.create ctx entity s = (.ok created, after)) :
    ∃ id, Generated b.schema.idStrategy id ∧ b.StoredUnder id after ∧
      b.type.ofJson (b.schema.renewed fields id) = .ok created ∧
      ((∀ name, (b.type.toJson created).field? name = (b.schema.renewed fields id).field? name) →
        (b.type.toJson created).field? b.schema.primaryKey = some id.toJson ∧
        ((∀ name, name ≠ b.schema.primaryKey →
            (b.type.toJson created).field? name = (b.type.toJson entity).field? name)
          ↔ ∀ f ∈ fields, f.1 ≠ b.schema.primaryKey → f.2.isPlain)) := by
  have noId : b.schema.idOf? (Record.ofJson (.object fields)) = none := by
    rw [Schema.idOf?, Record.get?_ofJson once]
    cases held : fields.get? b.schema.primaryKey with
    | none => rfl
    | some v =>
        rw [missing v held]
        rfl
  obtain ⟨id, stores, generated, assigned⟩ :=
    create_storedUnder offered (Schema.toRecord_eq shown) noId done
  refine ⟨id, generated, stores, Schema.assignId_ok shown assigned, fun reads => ⟨?_, ?_⟩⟩
  · rw [reads, Schema.field?_renewed once, if_pos rfl]
  · rw [shown, ← Schema.renewed_same_iff once id]
    simp only [reads]

/-! ### Tickets in memory -/

/-- A repository of documents that are given texts as ids. -/
def tickets : Document.Records (World Document.Store) Json where
  client := .memory World.storePart
  env := World.environment .whole
  schema :=
    { name := "tickets", primaryKey := "id", idStrategy := .uuid
      fields := [⟨"id", "id", .text, false, false⟩, ⟨"seats", "seats", .json, true, false⟩] }
  config := {}
  type := .anyDocument

def newTickets : World Document.Store := ⟨.new, {}, 0⟩

def seatFields : Fields := [("id", .null), ("seats", .array [.int 7, .text "A"])]

theorem ticket_keeps_seats :
    (Backing.document tickets).Offers tickets.repository.toOperations ∧
    (∀ v, Fields.get? seatFields "id" = some v → v = .null) ∧
    ∃ created after, tickets.repository.create .background (.object seatFields) newTickets
        = (.ok created, after) ∧
      ∃ id, (Backing.document tickets).StoredUnder id after ∧ Json.field? created "id" = some id.toJson ∧
        ∀ name, name ≠ "id" → created.field? name = (Json.object seatFields).field? name := by
  have offered : (Backing.document tickets).Offers tickets.repository.toOperations := .repository _
  have missing : ∀ v, Fields.get? seatFields "id" = some v → v = .null := by
    intro v held
    exact (Option.some.inj held).symm
  obtain ⟨created, done⟩ : ∃ created,
      (tickets.repository.create .background (.object seatFields) newTickets).1 = .ok created :=
    ⟨_, rfl⟩
  have ran : tickets.repository.create .background (.object seatFields) newTickets
      = (.ok created, _) := Prod.ext done rfl
  obtain ⟨id, -, stores, read, same⟩ :=
    created_keeps_fields_iff (b := .document tickets) offered rfl (by decide) missing ran
  obtain rfl := Except.ok.inj read
  obtain ⟨held, kept⟩ := same fun name => rfl
  exact ⟨offered, missing, _, _, ran, id, stores, held, kept.2 (by decide)⟩

def nestedTicket : Json := .object [("seats", .object [("b", .int 1)])]

/-- An object in a ticket is a text afterwards. -/
theorem nestedSeats_become_text :
    ∃ created, (tickets.repository.create .background nestedTicket newTickets).1 = .ok created ∧
      Json.field? created "id" = some (.text (World.idText 1)) ∧
      created.field? "seats" = some (.text "\x7b\"b\":1\x7d") ∧
      created.field? "seats" ≠ nestedTicket.field? "seats" :=
  ⟨_, rfl, rfl, rfl, nofun⟩

end Backing

end Recordkeeper
