import Recordkeeper.Proofs.KeyValue.Finding
import Recordkeeper.Proofs.KeyValue.Isolation
import Recordkeeper.Proofs.KeyValue.Keeping
import Recordkeeper.Proofs.KeyValue.Planning
import Recordkeeper.Proofs.Paging

/-!
Contract: records and ids of a key-value repository go together.

Owns:
- the states that runs of operations lead to from an empty store;
- `queried_records_found`: each record that a query answers has an id, under which it is found,
  and no two of them have ids with one text form.

Does not own: which records a query selects.

Between two operations time may pass, and within an operation the context may end.  Only the query
and the look-up of its records are made at one moment.
-/

set_option autoImplicit false

namespace Recordkeeper.KeyValue

variable {σ E : Type} {p : Part σ (World Store)} {k : Records σ E}

/-! ### Runs -/

/-- What a request writes is such that the repository can read it, with the id it has. -/
def Records.Accepts (k : Records σ E) {α : Type} : Ask E α → Prop
  | .create _ entity | .update _ entity => k.Takes entity
  | .createBatch _ entities => ∀ entity ∈ entities, k.Takes entity
  | .updatePartial _ _ fields => k.CanWrite fields
  | _ => True

def Operation.Suits (k : Records σ E) {α : Type} : Operation E α → Prop
  | .request ask => k.Accepts ask
  | .createWithTtl _ entity _ => k.Takes entity
  | .expire .. | .ttl .. | .transaction .. => True

namespace Records

/-- The states that operations lead to from an empty store.  Between them anything but the store
may change, and within them clocks and tokens may. -/
inductive Reached (k : Records σ E) (p : Part σ (World Store)) : σ → Prop
  | fresh {s : σ} (empty : stored p s = .empty) : Reached k p s
  | meanwhile {s t : σ} (reached : Reached k p s) (same : stored p t = stored p s) : Reached k p t
  | operate {s : σ} (reached : Reached k p s) {env : Environment σ} (apart : env.Apart (stored p))
      (shortIds : k.config.codec = .binary → ∀ s, Codec.Addressable (.text (env.freshId s).1))
      {α : Type} {operation : Operation E α} (suits : operation.Suits k) :
      Reached k p (operation.perform (k.hosted k.client env) s).2

theorem IsReady.ask_preserves (ready : k.IsReady p) {α : Type} {ask : Ask E α}
    (accepted : k.Accepts ask) : Preserves (fun s => k.Sound (stored p s))
      (ask.perform k.repository.toOperations) := by
  have ⟨lawful, client, apart, _, _, _, _⟩ := ready
  cases ask with
  | create ctx entity => exact ready.create_preserves ctx accepted
  | createBatch ctx entities => exact ready.createBatch_preserves ctx accepted
  | update ctx entity => exact ready.update_preserves ctx accepted
  | updatePartial ctx id fields => exact ready.updatePartial_preserves ctx id accepted
  | delete ctx id => exact ready.delete_preserves ctx id
  | deleteByCondition ctx q => exact ready.deleteByCondition_preserves ctx q
  | findById ctx id => exact .of_moves (findById_moves lawful client apart ctx id)
  | findAll ctx q => exact .of_moves (findAll_moves lawful client apart ctx q)
  | query ctx q => exact .of_moves (query_moves lawful client apart ctx q)
  | queryOne ctx q => exact .of_moves (queryOne_moves lawful client apart ctx q)
  | count ctx q => exact .of_moves (count_moves lawful client apart ctx q)
  | existsAny ctx q => exact .of_moves (existsAny_moves lawful client apart ctx q)
  | aggregate ctx pipeline => exact fun _ sound => sound

theorem IsReady.perform_preserves (ready : k.IsReady p) {α : Type} {operation : Operation E α}
    (suits : operation.Suits k) :
    Preserves (fun s => k.Sound (stored p s)) (operation.perform k) := by
  cases operation with
  | request ask => exact ready.ask_preserves suits
  | createWithTtl ctx entity ttl => exact ready.createWithTtl_preserves ctx ttl suits
  | expire ctx id ttl => exact ready.expire_preserves ctx id ttl
  | ttl ctx id => exact .of_moves (ttl_moves ready.lawful ready.client ready.apart ctx id)
  | transaction ctx callback => exact fun _ sound => sound

/-! Which records stand where does not depend on clocks. -/

theorem Fits.hosted {r : Record} (fits : k.Fits r) (env : Environment σ) :
    (k.hosted k.client env).Fits r := ⟨fits.declared, fits.canWrite, fits.id⟩

theorem Takes.hosted {entity : E} (takes : k.Takes entity) (env : Environment σ) :
    (k.hosted k.client env).Takes entity := fun r converted => (takes r converted).hosted env

theorem Sound.hosted {s : Store} (sound : k.Sound s) (env : Environment σ) :
    (k.hosted k.client env).Sound s where
  placed := sound.placed
  keeps key e r held decoded := by
    obtain ⟨fits, id⟩ := sound.keeps key e r held decoded
    exact ⟨fits.hosted env, id⟩

theorem suits_hosted {α : Type} {operation : Operation E α} (suits : operation.Suits k)
    (env : Environment σ) : operation.Suits (k.hosted k.client env) := by
  cases operation with
  | request ask =>
      cases ask with
      | create ctx entity | update ctx entity => exact Takes.hosted suits env
      | createBatch ctx entities =>
          exact fun entity member => Takes.hosted (suits entity member) env
      | updatePartial ctx id fields => exact suits
      | _ => trivial
  | createWithTtl ctx entity ttl => exact Takes.hosted suits env
  | expire | ttl | transaction => trivial

theorem Reached.sound (ready : k.IsReady p) {s : σ} (reached : k.Reached p s) :
    k.Sound (stored p s) := by
  induction reached with
  | fresh empty =>
      rw [empty]
      exact .empty
  | meanwhile _ same inductionHypothesis =>
      rw [same]
      exact inductionHypothesis
  | @operate s _ env apart shortIds _ operation suits inductionHypothesis =>
      have readyThere : (k.hosted k.client env).IsReady p :=
        ⟨ready.lawful, ready.client, apart, ready.keyDeclared, ready.distinct, ready.limited,
          shortIds⟩
      exact (readyThere.perform_preserves (suits_hosted suits env) s
        (inductionHypothesis.hosted env)).hosted k.env

/-! ### Queries -/

theorem keyFor_notNull {id : Value} {key : String} (built : k.keyFor id = .ok key) :
    id.isNull = false := by
  cases id with
  | null => exact absurd rfl (keyFor_cases built).1
  | bool | int | float | text | bytes | list => rfl

end Records

/-- Rows that are neither grouped nor cut to some fields are records, each no more often than it
was there. -/
theorem Plan.execute_subperm (plan : Plan) (ungrouped : plan.groupBy = [])
    (unprojected : plan.select = []) (records : List Record) :
    (plan.execute records).Subperm records := by
  have rows : plan.execute records = plan.page (plan.sorted (records.filter plan.selects)) := by
    rw [execute, ungrouped, unprojected, List.isEmpty_nil, Bool.not_true, Bool.and_false,
      if_neg Bool.false_ne_true, if_neg Bool.false_ne_true, if_pos rfl]
  have sorted : (plan.sorted (records.filter plan.selects)).Perm (records.filter plan.selects) := by
    unfold Plan.sorted
    split
    next => exact .refl _
    next => exact List.mergeSort_perm _ _
  rw [rows]
  exact (cut_sublist plan.offset plan.limit _).subperm.trans
    (sorted.subperm.trans List.filter_sublist.subperm)

namespace Records

section Memory

variable {w : World Store} {ctx : Context} (memory : k.InMemory p)

include memory

/-- A record is found by the id that its key is made from. -/
theorem findById_yields (alive : ctx.check w.surroundings = .ok ())
    (lasting : k.config.defaultTimeout ≠ some 0) {id : Value} {key : String}
    (built : k.keyFor id = .ok key) {e : Entry} (held : w.store.live? key w.now = some e)
    {r : Record} (decoded : k.decode key e.value = .ok r) :
    Yields p.view w (k.findById ctx id) (k.schema.ofRecord k.type r) w := by
  have given := get_yields memory (Context.check_effective alive lasting) key
  rw [held] at given
  unfold findById load
  rw [built]
  refine (Yields.ofExcept _).andThen ((effective_yields memory ctx).andThen ?_)
  refine Yields.andThen (given.andThen ?_) (.ofExcept _)
  show Yields _ _ (Action.ofExcept (k.decode key e.value)) _ _
  rw [decoded]
  exact .ofExcept _

/-- A query that answers works on records that were read under their keys. -/
theorem query_cases {s : σ} (placed : (p.view s).store.Placed) {q : Query} {rows : List Record}
    (answered : (k.query ctx q s).1 = .ok rows) :
    ∃ keys found, keys.Nodup ∧ k.ReadAs (p.view s) keys found ∧
      rows = (Plan.ofQuery q).execute (found.map (·.2)) := by
  cases alive : (ctx.effective (p.view s).surroundings k.config.defaultTimeout).check
      (p.view s).surroundings with
  | error e =>
      have ended := (query_ended memory alive q s rfl).1
      rw [answered] at ended
      obtain ⟨plan, -, stopped⟩ := exists_of_bind ended.symm
      cases stopped
  | ok live =>
      have read := (query_readable memory alive placed q s rfl).1
      rw [answered] at read
      obtain ⟨plan, planned, read⟩ := exists_of_bind read.symm
      obtain ⟨found, readHere, same⟩ := exists_of_bind read
      obtain rfl := Plan.eq_ofQuery planned
      obtain ⟨r, -, readHere⟩ := exists_pattern readHere
      cases same
      exact ⟨_, found, placed.nodup_matchedKeys r _,
        readAll_readAs (fun key member => (placed.mem_matchedKeys.1 member).2) readHere, rfl⟩

end Memory

namespace Sound

variable {w : World Store} {keys : List String} {found : List (String × Record)}
  (sound : k.Sound w.store) (readAs : k.ReadAs w keys found)

include sound readAs

/-- A record that is read has an id, from which its key is made. -/
theorem exists_id {entry : String × Record} (member : entry ∈ found) :
    ∃ e id, w.store.live? entry.1 w.now = some e ∧ k.decode entry.1 e.value = .ok entry.2 ∧
      entry.2.get? k.schema.primaryKey = some id ∧ k.keyFor id = .ok entry.1 := by
  obtain ⟨-, e, held, decoded⟩ := readAs.exists_of_entry member
  obtain ⟨-, id, own, built⟩ :=
    sound.keeps entry.1 e entry.2 (Option.filter_eq_some_iff.1 held).1 decoded
  exact ⟨e, id, held, decoded, own, built⟩

/-- The keys are told apart by nothing but the text forms of the ids. -/
theorem nodup_texts (once : keys.Nodup) :
    (found.map fun entry => (entry.2.valueAt k.schema.primaryKey).coerced).Nodup := by
  have keysOfIds : (found.map fun entry => (entry.2.valueAt k.schema.primaryKey).coerced).map
      (k.keyHead ++ ·) = keys := by
    rw [← readAs.keys_eq, List.map_map]
    refine List.map_congr_left fun entry member => ?_
    obtain ⟨-, id, -, -, own, built⟩ := sound.exists_id readAs member
    rw [(keyFor_cases built).2, Function.comp_apply, Record.valueAt, own]
    rfl
  exact List.Nodup.of_map _ (keysOfIds ▸ once)

end Sound

end Records

/-! ### Records and ids -/

variable {schema : Schema} {config : Config} {type : EntityType E}

/-- An opened repository is ready if its columns are apart. -/
theorem isReady_of_open (lawful : p.Lawful)
    (opened : open? (Client.memory p) (World.environment p) schema config type = .ok k)
    (distinct : (schema.fields.map (·.column)).Nodup)
    (limited : config.codec = .binary → schema.IsLimited) : k.IsReady p := by
  obtain ⟨memory, accepted, rfl, rfl⟩ := open?_cases lawful opened
  have valid := Records.accept_schema accepted
  refine ⟨lawful, memory.client, ?_, (Schema.validate_fields valid).1, distinct, limited, ?_⟩
  · rw [memory.env]
    exact World.environment_apart lawful
  · rw [memory.env]
    exact fun _ _ => Codec.addressable_idText _

/-- After every run of operations on an empty store, each record that a query answers has an id
under which the same record is found at that moment, and the ids have different text forms.  This
takes columns that are apart, declared fields, and ids that the codec reads as themselves: the
binary one does so with all, the JSON one with all but some floats. -/
theorem queried_records_found (lawful : p.Lawful)
    (opened : open? (Client.memory p) (World.environment p) schema config type = .ok k)
    (distinct : (schema.fields.map (·.column)).Nodup)
    (limited : config.codec = .binary → schema.IsLimited) {s : σ} (reached : k.Reached p s)
    {q : Query} (unprojected : q.select = []) (ungrouped : q.groupBy = []) {ctx : Context}
    {rows : List Record} (answered : (k.query ctx q s).1 = .ok rows) :
    (∀ r ∈ rows, ∃ id, r.get? schema.primaryKey = some id ∧ id.isNull = false ∧
      ∀ live : Context, live.check (p.view s).surroundings = .ok () →
        (k.findById live id s).1 = schema.ofRecord type r) ∧
      (rows.map fun r => (r.valueAt schema.primaryKey).coerced).Nodup := by
  have sound := reached.sound (isReady_of_open lawful opened distinct limited)
  have sameType : k.type = type := by
    obtain ⟨⟨⟩, -, same⟩ := exists_of_bind opened
    cases same
    rfl
  obtain ⟨memory, accepted, rfl, rfl⟩ := open?_cases lawful opened
  subst sameType
  obtain ⟨-, lasting⟩ := Records.accept_settings accepted
  obtain ⟨keys, found, once, readAs, rfl⟩ := Records.query_cases memory sound.placed answered
  have among := Plan.execute_subperm (.ofQuery q) ungrouped unprojected (found.map (·.2))
  constructor
  · intro r member
    obtain ⟨entry, inFound, rfl⟩ := List.mem_map.1 (among.subset member)
    obtain ⟨e, id, held, decoded, own, built⟩ := sound.exists_id readAs inFound
    refine ⟨id, own, Records.keyFor_notNull built, fun live alive => ?_⟩
    exact (Records.findById_yields memory alive lasting built held decoded s rfl).1
  · have textsOnce : ((found.map (·.2)).map fun r =>
        (r.valueAt k.schema.primaryKey).coerced).Nodup := by
      rw [List.map_map]
      exact sound.nodup_texts readAs once
    obtain ⟨some, permuted, within⟩ := among
    exact (permuted.map _).nodup_iff.1 (textsOnce.sublist (within.map _))

/-! ### A note and a point -/

def noted : World Store := (notes.create .background numberOne fresh).2

theorem note_queried :
    ∃ rows, (notes.query .background {} noted).1 = .ok rows ∧ rows.length = 1 ∧
      ∀ r ∈ rows, ∃ id, r.get? "id" = some id ∧
        (notes.findById .background id noted).1 = notes.schema.ofRecord notes.type r := by
  have opened : open? (.memory .whole) (World.environment .whole) notes.schema notes.config
      notes.type = .ok notes := rfl
  have takes : notes.Takes numberOne := by
    intro r converted
    cases converted
    refine ⟨by decide, nofun, fun v held => ?_⟩
    cases held
    exact .text "1"
  have reached : notes.Reached .whole noted :=
    .operate (.fresh rfl) (World.environment_apart fun _ _ => rfl) nofun
      (show (Operation.request (.create .background numberOne)).Suits notes from takes)
  have one : ((notes.query .background {} noted).1.toOption.map List.length) = some 1 := by
    decide +kernel
  cases answered : (notes.query .background {} noted).1 with
  | error e =>
      rw [answered] at one
      cases one
  | ok rows =>
      rw [answered] at one
      refine ⟨rows, rfl, Option.some.inj one, fun r member => ?_⟩
      obtain ⟨found, -⟩ := queried_records_found (fun _ _ => rfl) opened (by decide) nofun reached
        rfl rfl answered
      obtain ⟨id, own, -, same⟩ := found r member
      exact ⟨id, own, same .background rfl⟩

/-- A repository of points, which are numbered by floats. -/
def points : Records (World Store) Json where
  client := .memory .whole
  env := World.environment .whole
  schema := { name := "points", primaryKey := "id", fields := [⟨"id", "id", .float, true, false⟩] }
  config := {}
  type := .anyDocument

/-- A little more than 1e-24, whose JSON text is read as 1e-24. -/
def tiny : Binary64 := ⟨4247835366853742248⟩

def pointed : World Store :=
  (points.create .background (.object [("id", .number (.float tiny))]) fresh).2

/-- The record of a point is under the text of its number, and is read with another number. -/
theorem misreadPoint_missed :
    open? (.memory .whole) (World.environment .whole) points.schema points.config points.type
        = .ok points ∧
      (points.schema.fields.map (·.column)).Nodup ∧ tiny.isFinite ∧
      ∃ rows r id, (points.query .background {} pointed).1 = .ok rows ∧ r ∈ rows ∧
        r.get? "id" = some id ∧ (points.findById .background id pointed).1.isOk = false := by
  refine ⟨rfl, by decide, by decide, ?_⟩
  have missed : ((points.query .background {} pointed).1.toOption.bind fun rows =>
      rows.head?.bind fun r => (r.get? "id").map fun id =>
        (points.findById .background id pointed).1.isOk) = some false := by
    decide +kernel
  obtain ⟨rows, answered, missed⟩ := Option.bind_eq_some_iff.1 missed
  obtain ⟨r, first, missed⟩ := Option.bind_eq_some_iff.1 missed
  obtain ⟨id, own, missed⟩ := Option.map_eq_some_iff.1 missed
  refine ⟨rows, r, id, ?_, List.mem_of_head? first, own, missed⟩
  cases outcome : (points.query .background {} pointed).1 with
  | error e =>
      rw [outcome] at answered
      cases answered
  | ok found =>
      rw [outcome] at answered
      exact congrArg Except.ok (Option.some.inj answered)

end Recordkeeper.KeyValue
