import Recordkeeper.Proofs.KeyValue.Effects
import Recordkeeper.Proofs.Storing

/-!
Contract: the requests of a repository keep every record under the key of its id.

Owns:
- records that stay under their keys when they are written and read;
- entities whose records do so, and changes that leave them where they are;
- that each request which writes keeps the records of a store under their keys.

Does not own: runs of requests, and what a query answers (`Proofs.KeyValue.Identity`).

The key of a record is made from its id when it is written, and the id is read from its bytes.  So
they go together as long as the id is read as what was written.
-/

set_option autoImplicit false

namespace Recordkeeper

variable {σ E : Type}

namespace Schema

variable {s : Schema} {r : Record}

open KeyValue in
/-- The number of fields and the lengths of their columns can be written. -/
structure IsLimited (s : Schema) : Prop where
  few : s.fields.length < Codec.lengthLimit
  columns : ∀ f ∈ s.fields, (Text.Utf8.encode f.column).length < Codec.lengthLimit

open KeyValue in
theorem IsLimited.recordAddressable (limited : s.IsLimited)
    (declared : ∀ name ∈ r.names, (s.field? name).isSome)
    (addressable : ∀ name v, r.get? name = some v → Codec.Addressable v) :
    Codec.RecordAddressable (r.rename s.columnFor) := by
  have column {name : String} (member : name ∈ (r.rename s.columnFor).names) :
      ∃ f ∈ s.fields, f.column = name := by
    obtain ⟨field, known, rfl⟩ := Record.mem_names_rename.1 member
    obtain ⟨f, found⟩ := Option.isSome_iff_exists.1 (declared field known)
    exact ⟨f, (field?_name found).1, (columnFor_of_field? found).symm⟩
  refine ⟨?_, fun entry member => ?_, fun entry member => ?_⟩
  · have within : (r.rename s.columnFor).names ⊆ s.fields.map (·.column) := by
      intro name member
      obtain ⟨f, known, rfl⟩ := column member
      exact List.mem_map_of_mem known
    have fewer := (List.subperm_of_subset (r.rename s.columnFor).nodup_names within).length_le
    rw [NameMap.names, List.length_map, List.length_map] at fewer
    exact Nat.lt_of_le_of_lt fewer limited.few
  · obtain ⟨f, known, same⟩ := column (List.mem_map_of_mem member)
    rw [← same]
    exact limited.columns f known
  · obtain ⟨field, -, held⟩ :=
      Record.exists_of_get?_rename (NameMap.get?_eq_some_iff.2 member)
    exact addressable field entry.2 held

theorem idOf?_eq_some {id : Value} (found : s.idOf? r = some id) :
    r.get? s.primaryKey = some id := (Option.filter_eq_some_iff.1 found).1

/-- A record that is stored under an id is the one that brought it, or has a fresh text as its
id. -/
theorem prepareId_cases {env : Environment σ} {stored : Record} {state : σ} {id : Value}
    (prepared : (s.prepareId env r state).1 = .ok (some id, stored)) :
    (r.get? s.primaryKey = some id ∧ stored = r) ∨
      ∃ t, id = .text (env.freshId t).1 ∧ stored = r.insert s.primaryKey id := by
  obtain ⟨t, prepared⟩ := prepared_of_ok prepared
  cases prepared with
  | given has => exact .inl ⟨idOf?_eq_some has, rfl⟩
  | drawn missing strategy => exact .inr ⟨state, rfl, rfl⟩

theorem identified_cases {type : EntityType E} {entity : E} {id : Value}
    (found : s.identified type entity = .ok (id, r)) :
    s.toRecord type entity = .ok r ∧ r.get? s.primaryKey = some id := by
  obtain ⟨own, converted, found⟩ := exists_of_bind found
  cases has : s.idOf? own with
  | none =>
      rw [has] at found
      cases found
  | some v =>
      rw [has] at found
      cases found
      exact ⟨converted, idOf?_eq_some has⟩

end Schema

namespace KeyValue

theorem Codec.addressable_idText (n : Nat) : Addressable (.text (World.idText n)) := by
  have digits (width n : Nat) : (World.hexDigits width n).length = width := by
    induction width generalizing n with
    | zero => rfl
    | succ width inductionHypothesis =>
        rw [World.hexDigits, List.length_append, inductionHypothesis]
        rfl
  have head : "00000000-0000-4000-8000-".length = 24 := by decide +kernel
  have chars : (World.idText n).length = 36 := by
    unfold World.idText
    rw [String.length_append, head, String.length_ofList, digits]
  have long := Text.Utf8.length_encode_le (World.idText n)
  rw [String.length_toList, chars] at long
  have few : 4 * 36 < lengthLimit := by
    rw [lengthLimit]
    norm_num
  show (Text.Utf8.encode (World.idText n)).length < lengthLimit
  exact Nat.lt_of_le_of_lt long few

variable {p : Part σ (World Store)} {k : Records σ E} {key : String} {r : Record}

namespace Records

/-! ### Records under their keys -/

/-- The codec reads a value as itself, where the value is the id of a record. -/
def KeepsId (k : Records σ E) (v : Value) : Prop :=
  k.config.codec = .json → v.isCarried ∧ v.ReadsBack 126

theorem KeepsId.text (t : String) : k.KeepsId (.text t) := fun _ => ⟨rfl, trivial⟩

theorem KeepsId.eq_of_isReadAs {v w : Value} (kept : k.KeepsId v)
    (read : Codec.IsReadAs k.config.codec v w) : w = v := by
  unfold Codec.IsReadAs at read
  cases codec : k.config.codec with
  | json =>
      rw [codec] at read
      obtain ⟨carried, readsBack⟩ := kept codec
      have itself := (Value.reread_toJson_iff v carried 126).2 readsBack
      dsimp only at read
      rw [itself] at read
      exact (Except.ok.inj read).symm
  | binary =>
      rw [codec] at read
      exact read

/-- The binary form can hold all values of the record, if that form is used. -/
def CanWrite (k : Records σ E) (r : Record) : Prop :=
  k.config.codec = .binary → ∀ name v, r.get? name = some v → Codec.Addressable v

/-- A record that brings an id, if any, which is read as itself. -/
structure Fits (k : Records σ E) (r : Record) : Prop where
  declared : ∀ name ∈ r.names, (k.schema.field? name).isSome
  canWrite : k.CanWrite r
  id : ∀ v, r.get? k.schema.primaryKey = some v → k.KeepsId v

/-- A record that stands under a key, now and whenever it is read: the key is that of its id. -/
structure Keeps (k : Records σ E) (key : String) (r : Record) : Prop where
  fits : k.Fits r
  id : ∃ v, r.get? k.schema.primaryKey = some v ∧ k.keyFor v = .ok key

/-- A record is given a text as its id. -/
theorem Fits.insert_text (fits : k.Fits r)
    (declared : (k.schema.field? k.schema.primaryKey).isSome) {t : String}
    (short : k.config.codec = .binary → Codec.Addressable (.text t)) :
    k.Fits (r.insert k.schema.primaryKey (.text t)) where
  declared name member := by
    rw [← NameMap.isSome_get?_iff, NameMap.get?_insert] at member
    split at member
    next same => rwa [same]
    next => exact fits.declared name (NameMap.isSome_get?_iff.1 member)
  canWrite binary name v held := by
    rw [NameMap.get?_insert] at held
    split at held
    next =>
      cases held
      exact short binary
    next => exact fits.canWrite binary name v held
  id v held := by
    rw [NameMap.get?_insert, if_pos rfl] at held
    cases held
    exact .text t

namespace Keeps

variable (keeps : k.Keeps key r)

include keeps

/-- A partial update leaves the id as it is. -/
theorem overlay {fields : Record} (checked : k.schema.checkPartial fields = .ok ())
    (canWrite : k.CanWrite fields) : k.Keeps key (r.overlay fields) := by
  have allowed := Schema.checkPartial_eq_ok checked
  have keptKey := Schema.get?_overlay_key checked r
  refine ⟨⟨fun name member => ?_, fun binary name v held => ?_, fun v held => ?_⟩, ?_⟩
  · rw [← NameMap.isSome_get?_iff, NameMap.get?_overlay, Option.isSome_or, Bool.or_eq_true,
      NameMap.isSome_get?_iff, NameMap.isSome_get?_iff] at member
    exact member.elim (fun set => (allowed name set).2) (keeps.fits.declared name)
  · rw [NameMap.get?_overlay, Option.or_eq_some_iff] at held
    rcases held with set | ⟨-, before⟩
    · exact canWrite binary name v set
    · exact keeps.fits.canWrite binary name v before
  · exact keeps.fits.id v (keptKey ▸ held)
  · rw [keptKey]
    exact keeps.id

variable (distinct : (k.schema.fields.map (·.column)).Nodup)
  (limited : k.config.codec = .binary → k.schema.IsLimited)

include distinct limited

/-- What is read where a record was written stands under the same key. -/
theorem reread {read : Record} (decoded : k.decode key (k.encode r) = .ok read) :
    k.Keeps key read := by
  have recovers (name : String) (member : name ∈ r.names) : k.schema.Recovers name :=
    Schema.recovers_of_distinct distinct (keeps.fits.declared name member)
  have addressable (binary : k.config.codec = .binary) :
      Codec.RecordAddressable (r.rename k.schema.columnFor) :=
    (limited binary).recordAddressable keeps.fits.declared (keeps.fits.canWrite binary)
  obtain ⟨stored, readAs, rfl⟩ := stored_of_decode decoded
  obtain ⟨sameNames, values⟩ := Codec.decode_encode_fields addressable readAs
  have names (name : String) : name ∈ stored.names
      ↔ ∃ field ∈ r.names, k.schema.columnFor field = name := by
    rw [sameNames, Record.mem_names_rename]
  obtain ⟨id, own, built⟩ := keeps.id
  have known : k.schema.primaryKey ∈ r.names := NameMap.isSome_get?_iff.1 (own ▸ rfl)
  have sameId : (stored.rename k.schema.fieldForColumn).get? k.schema.primaryKey = some id := by
    rw [Record.get?_rename_back recovers names known]
    have renamed := Record.get?_rename_of_recovers recovers known
    obtain ⟨w, readId, found⟩ := values _ id (renamed.trans own)
    rw [found, (keeps.fits.id id own).eq_of_isReadAs readId]
  refine ⟨⟨fun name member => ?_, fun binary => ?_, fun v held => ?_⟩, id, sameId, built⟩
  · obtain ⟨column, within, rfl⟩ := Record.mem_names_rename.1 member
    obtain ⟨field, inside, rfl⟩ := (names column).1 within
    rw [recovers field inside]
    exact keeps.fits.declared field inside
  · have same : stored = r.rename k.schema.columnFor := by
      have written := Codec.decode_binary_encode (addressable binary)
      rw [← binary] at written
      exact Except.ok.inj (readAs.symm.trans written)
    rw [same, Record.rename_back recovers]
    exact keeps.fits.canWrite binary
  · rw [sameId] at held
    cases held
    exact keeps.fits.id id own

end Keeps

/-! ### Stores -/

/-- Every record in the store stands under the key of its id. -/
structure Sound (k : Records σ E) (s : Store) : Prop where
  placed : s.Placed
  keeps : ∀ key e r, s.entry? key = some e → k.decode key e.value = .ok r → k.Keeps key r

namespace Sound

variable {s : Store} {now : Instant}

theorem empty : k.Sound .empty where
  placed := Store.placed_empty
  keeps key e r held := by
    rw [Store.entry?, Store.stripe_eq, Store.stripeAt_empty] at held
    cases held

variable (sound : k.Sound s)

include sound

theorem put {e : Entry} (keeps : ∀ r, k.decode key e.value = .ok r → k.Keeps key r) :
    k.Sound (s.put key e) where
  placed := sound.placed.put key e
  keeps other held r found decoded := by
    rw [Store.entry?_put] at found
    split at found
    next same =>
      cases found
      subst same
      exact keeps r decoded
    next => exact sound.keeps other held r found decoded

/-- An entry that is written again with another expiry. -/
theorem retime {e : Entry} (held : s.entry? key = some e) (expiresAt : Option Instant) :
    k.Sound (s.put key { e with expiresAt }) :=
  sound.put fun r decoded => sound.keeps key e r held decoded

theorem remove (key : String) : k.Sound (s.remove key) where
  placed := sound.placed.remove key
  keeps other held r found decoded := by
    rw [Store.entry?_remove] at found
    split at found
    next => cases found
    next => exact sound.keeps other held r found decoded

theorem expire (key : String) (ttl : Micros) : k.Sound (s.expire key ttl now).2 := by
  unfold Store.expire
  split
  next => exact sound
  next e held =>
    split
    next =>
      split
      next => exact sound.remove key
      next => exact sound.retime held _
    next => exact sound.remove key

variable {value : Bytes} (keeps : ∀ r, k.decode key value = .ok r → k.Keeps key r)

include keeps

theorem setIfMissing (ttl : Option Micros) : k.Sound (s.setIfMissing key value ttl now).2 := by
  unfold Store.setIfMissing
  split
  next =>
    split
    next => exact sound
    next => exact sound.put keeps
  next => exact sound

theorem setIfPresent : k.Sound (s.setIfPresent key value now).2 := by
  unfold Store.setIfPresent
  split
  next => exact sound
  next =>
    split
    next => exact sound.put keeps
    next => exact sound.remove key

end Sound

/-! ### Requests -/

/-- A repository on a store in memory that can read what it writes: its columns are apart, and its
lengths can be written where they are. -/
structure IsReady (k : Records σ E) (p : Part σ (World Store)) : Prop where
  lawful : p.Lawful
  client : k.client = .memory p
  apart : k.env.Apart (stored p)
  keyDeclared : (k.schema.field? k.schema.primaryKey).isSome
  distinct : (k.schema.fields.map (·.column)).Nodup
  limited : k.config.codec = .binary → k.schema.IsLimited
  shortIds : k.config.codec = .binary → ∀ s, Codec.Addressable (.text (k.env.freshId s).1)

/-- The record of an entity brings an id, if any, which is read as itself. -/
def Takes (k : Records σ E) (entity : E) : Prop :=
  ∀ r, k.schema.toRecord k.type entity = .ok r → k.Fits r

namespace IsReady

variable (ready : k.IsReady p)

include ready

theorem keeps_read (keeps : k.Keeps key r) (read : Record)
    (decoded : k.decode key (k.encode r) = .ok read) : k.Keeps key read :=
  keeps.reread ready.distinct ready.limited decoded

theorem write_preserves {β : Type} {request : Instant → Store → β × Store}
    (keeps : ∀ now s, k.Sound s → k.Sound (request now s).2) :
    Preserves (fun s => k.Sound (stored p s)) (Client.memory.write p request) := by
  intro s sound
  show k.Sound (stored p (p.run _ s).2)
  rw [stored_run ready.lawful]
  exact keeps _ _ sound

theorem effective_preserves (ctx : Context) :
    Preserves (fun s => k.Sound (stored p s)) (k.effective ctx) :=
  .of_moves (Moves.effective ready.apart ctx _)

theorem call_preserves {native : σ → Outcome Bool × σ}
    (kept : Preserves (fun s => k.Sound (stored p s)) native) (ctx : Context) :
    Preserves (fun s => k.Sound (stored p s)) (k.call ctx native) :=
  Preserves.call ready.apart kept ctx Error.keyValue

theorem insert_preserves (ctx : Context) (ttl : Option Micros) {entity : E}
    (takes : k.Takes entity) :
    Preserves (fun s => k.Sound (stored p s)) (k.insert ctx ttl entity) := by
  unfold insert
  refine (Preserves.ofExcept _).bind fun _ r _ converted => ?_
  have fits := takes r converted
  refine (Preserves.of_moves (Moves.prepareId ready.apart _ r)).bind fun _ prepared _ answered => ?_
  obtain ⟨given, stored⟩ := prepared
  cases given with
  | none => exact .refuse _
  | some id =>
      refine (Preserves.ofExcept _).bind fun _ key _ built => ?_
      have keeps : k.Keeps key stored := by
        rcases Schema.prepareId_cases answered with ⟨own, rfl⟩ | ⟨t, rfl, rfl⟩
        · exact ⟨fits, id, own, built⟩
        · refine ⟨fits.insert_text ready.keyDeclared fun binary => ready.shortIds binary t, _, ?_,
            built⟩
          rw [NameMap.get?_insert, if_pos rfl]
      refine (ready.call_preserves ?_ ctx).bind fun _ written _ _ => ?_
      · rw [ready.client]
        exact ready.write_preserves fun _ _ sound => sound.setIfMissing (ready.keeps_read keeps) ttl
      · refine .ite ((Preserves.refuse _).bind fun _ _ _ _ => ?_) ?_ <;>
          exact .ite (.pure _) (.ofExcept _)

theorem storeExisting_preserves (ctx : Context) (keeps : k.Keeps key r) :
    Preserves (fun s => k.Sound (stored p s)) (k.storeExisting ctx key r) := by
  unfold storeExisting
  refine (ready.call_preserves ?_ ctx).bind fun _ written _ _ => .ite (.refuse _) (.pure _)
  rw [ready.client]
  exact ready.write_preserves fun _ _ sound => sound.setIfPresent (ready.keeps_read keeps)

theorem create_preserves (ctx : Context) {entity : E} (takes : k.Takes entity) :
    Preserves (fun s => k.Sound (stored p s)) (k.create ctx entity) :=
  (ready.effective_preserves ctx).bind fun _ ctx _ _ => ready.insert_preserves ctx none takes

theorem createWithTtl_preserves (ctx : Context) {entity : E} (ttl : Micros)
    (takes : k.Takes entity) :
    Preserves (fun s => k.Sound (stored p s)) (k.createWithTtl ctx entity ttl) := by
  refine (Preserves.ofExcept _).bind fun _ _ _ _ => ?_
  exact (ready.effective_preserves ctx).bind fun _ ctx _ _ => ready.insert_preserves ctx _ takes

theorem createBatch_preserves (ctx : Context) {entities : List E}
    (takes : ∀ entity ∈ entities, k.Takes entity) :
    Preserves (fun s => k.Sound (stored p s)) (k.createBatch ctx entities) := by
  refine (ready.effective_preserves ctx).bindState fun ctx => ?_
  refine Preserves.bindState ?_ fun _ _ sound => sound
  exact Preserves.insertEach
    (fun entity member => ready.insert_preserves ctx none (takes entity member)) 0

theorem update_preserves (ctx : Context) {entity : E} (takes : k.Takes entity) :
    Preserves (fun s => k.Sound (stored p s)) (k.update ctx entity) := by
  refine (Preserves.ofExcept _).bind fun _ found _ identified => ?_
  obtain ⟨id, r⟩ := found
  obtain ⟨converted, own⟩ := Schema.identified_cases identified
  refine (Preserves.ofExcept _).bind fun _ key _ built => ?_
  refine (ready.effective_preserves ctx).bind fun _ ctx _ _ => ?_
  exact ready.storeExisting_preserves ctx ⟨takes r converted, id, own, built⟩

theorem updatePartial_preserves (ctx : Context) (id : Value) {fields : Record}
    (canWrite : k.CanWrite fields) :
    Preserves (fun s => k.Sound (stored p s)) (k.updatePartial ctx id fields) := by
  refine (Preserves.ofExcept _).bind fun _ _ _ checked => ?_
  refine (ready.effective_preserves ctx).bind fun _ ctx _ _ => ?_
  refine (Preserves.ofExcept _).bind fun _ key _ _ => ?_
  refine (Preserves.of_moves (load_moves ready.lawful ready.client ready.apart ctx key)).bind
    fun s r sound loaded => ?_
  obtain ⟨e, held, decoded⟩ := load_entry ready.client ready.apart loaded
  exact ready.storeExisting_preserves ctx
    ((sound.keeps key e r held decoded).overlay checked canWrite)

theorem removal_preserves (ctx : Context) (key : String) :
    Preserves (fun s => k.Sound (stored p s)) (k.call ctx (k.client.delete key)) := by
  refine ready.call_preserves ?_ ctx
  rw [ready.client]
  exact ready.write_preserves fun _ _ sound => sound.remove key

theorem delete_preserves (ctx : Context) (id : Value) :
    Preserves (fun s => k.Sound (stored p s)) (k.delete ctx id) := by
  refine (Preserves.ofExcept _).bind fun _ key _ _ => ?_
  refine (ready.effective_preserves ctx).bind fun _ ctx _ _ => ?_
  exact (ready.removal_preserves ctx key).bind fun _ _ _ _ => .ite (.refuse _) (.pure _)

theorem deleteSelected_preserves (ctx : Context) (plan : Plan) (found : List (String × Record)) :
    Preserves (fun s => k.Sound (stored p s)) (k.deleteSelected ctx plan found) := by
  induction found with
  | nil => exact .pure _
  | cons entry rest inductionHypothesis =>
      obtain ⟨key, r⟩ := entry
      rw [deleteSelected]
      refine .ite ?_ inductionHypothesis
      refine (ready.removal_preserves ctx key).bind fun _ _ _ _ => ?_
      exact inductionHypothesis.bind fun _ _ _ _ => .pure _

theorem deleteByCondition_preserves (ctx : Context) (q : Query) :
    Preserves (fun s => k.Sound (stored p s)) (k.deleteByCondition ctx q) := by
  refine (Preserves.ofExcept _).bind fun _ _ _ _ => ?_
  refine (Preserves.ofExcept _).bind fun _ plan _ _ => ?_
  refine (ready.effective_preserves ctx).bind fun _ ctx _ _ => ?_
  refine (Preserves.of_moves (scan_moves ready.lawful ready.client ready.apart ctx)).bind
    fun _ found _ _ => ?_
  exact ready.deleteSelected_preserves ctx plan found

theorem expire_preserves (ctx : Context) (id : Value) (ttl : Micros) :
    Preserves (fun s => k.Sound (stored p s)) (k.expire ctx id ttl) := by
  refine (Preserves.ofExcept _).bind fun _ _ _ _ => ?_
  refine (Preserves.ofExcept _).bind fun _ key _ _ => ?_
  refine (ready.effective_preserves ctx).bind fun _ ctx _ _ => ?_
  refine (ready.call_preserves ?_ ctx).bind fun _ _ _ _ => .ite (.refuse _) (.pure _)
  rw [ready.client]
  exact ready.write_preserves fun _ _ sound => sound.expire key ttl

end IsReady

end Records

end KeyValue

end Recordkeeper
