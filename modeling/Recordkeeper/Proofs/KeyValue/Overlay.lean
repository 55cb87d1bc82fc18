import Recordkeeper.Proofs.KeyValue.Expiry
import Recordkeeper.Proofs.KeyValue.Identity

/-!
Contract: a partial update of a record in a key-value store, with others at work.

Owns:
- the part of a partial update that reads, and the one write behind it;
- what the write does to a store that anybody may have changed since it was read;
- that a record which is gone by then is not brought back;
- the entry that a partial update leaves, and the record that is found there.

Does not own: partial updates of documents.

Between reading and writing a record stands in no store, so everything that another client does is
a change of the state at that one point.  An entry that has expired is dropped by the write that
meets it; nobody sees this, which is why stores are compared by what lives in them from then on.
-/

set_option autoImplicit false

namespace Recordkeeper.KeyValue

variable {σ E : Type} {p : Part σ (World Store)} {k : Records σ E}

/-! ### What lives -/

namespace Store

/-- From a moment on the same entries live in both stores. -/
def LivesAlike (now : Instant) (s t : Store) : Prop :=
  ∀ key moment, now ≤ moment → t.live? key moment = s.live? key moment

theorem LivesAlike.of_eq {now : Instant} {s t : Store} (same : t = s) : LivesAlike now s t :=
  fun _ _ _ => congrArg (fun store => live? store _ _) same

theorem LivesAlike.remove {now : Instant} {s : Store} {key : String}
    (gone : s.live? key now = none) : LivesAlike now s (s.remove key) := by
  intro other moment order
  rw [live?, entry?_remove]
  split
  next same => rw [same, live?_eq_none_of_later order gone, Option.filter_none]
  next => rfl

/-- A write to what is there replaces the value of an entry that lives, or nothing lives there. -/
theorem setIfPresent_cases (s : Store) (key : String) (value : Bytes) (now : Instant) :
    (∃ e, s.entry? key = some e ∧ e.live now ∧
      s.setIfPresent key value now = (.ok true, s.put key { e with value := value })) ∨
    ((s.setIfPresent key value now).1 = .ok false ∧
      s.LivesAlike now (s.setIfPresent key value now).2) := by
  unfold setIfPresent
  cases held : s.entry? key with
  | none => exact .inr ⟨rfl, .of_eq rfl⟩
  | some e =>
      dsimp only
      by_cases lives : e.live now
      · rw [if_pos lives]
        exact .inl ⟨e, rfl, lives, rfl⟩
      · rw [if_neg lives]
        refine .inr ⟨rfl, .remove ?_⟩
        rw [live?, held, Option.filter_some, if_neg lives]

end Store

namespace Records

/-! ### Reading and writing -/

/-- The part of a partial update that reads: the context and the key to write under, and the
record to write. -/
def overlaid (k : Records σ E) (ctx : Context) (id : Value) (fields : Record) :
    Action σ (Context × String × Record) := do
  Action.ofExcept (k.schema.checkPartial fields)
  let ctx ← k.effective ctx
  let key ← Action.ofExcept (k.keyFor id)
  let r ← k.load ctx key
  return (ctx, key, r.overlay fields)

/-- A partial update with what others do between its reading and its write. -/
def updatePartialAmid (k : Records σ E) (others : σ → σ) (ctx : Context) (id : Value)
    (fields : Record) : Action σ Unit := do
  let (ctx, key, r) ← k.overlaid ctx id fields
  fun s => (.ok (), others s)
  k.storeExisting ctx key r

/-- A partial update is one amid others who do nothing. -/
theorem updatePartialAmid_id (k : Records σ E) (ctx : Context) (id : Value) (fields : Record) :
    k.updatePartialAmid (fun s => s) ctx id fields = k.updatePartial ctx id fields := by
  unfold updatePartialAmid overlaid updatePartial
  simp only [bind_assoc, pure_bind]
  rfl

section Requests

variable (lawful : p.Lawful) (client : k.client = .memory p) (apart : k.env.Apart (stored p))

include lawful client apart

theorem overlaid_moves {step : Store → Store → Prop} (ctx : Context) (id : Value)
    (fields : Record) : Moves (stored p) step (k.overlaid ctx id fields) := by
  refine (Moves.ofExcept _).bind fun _ => (Moves.effective apart ctx _).lift.bind fun ctx => ?_
  refine (Moves.ofExcept _).bind fun key => ?_
  exact (load_moves lawful client apart ctx key).bind fun _ => .pure _

omit lawful in
/-- What is to be written is the record under the key of the id, with the given fields over it. -/
theorem overlaid_answers {ctx live : Context} {id : Value} {fields r : Record} {key : String} {s : σ}
    (read : (k.overlaid ctx id fields s).1 = .ok (live, key, r)) :
    k.schema.checkPartial fields = .ok () ∧ k.keyFor id = .ok key ∧
      ∃ e own, Store.entry? (stored p s) key = some e ∧ k.decode key e.value = .ok own ∧
        r = own.overlay fields := by
  obtain ⟨⟨⟩, checked, read⟩ := Action.ok_of_bind read
  obtain ⟨live, -, read⟩ := Action.ok_of_bind read
  obtain ⟨built, made, read⟩ := Action.ok_of_bind read
  obtain ⟨own, loaded, read⟩ := Action.ok_of_bind read
  cases read
  obtain ⟨e, held, decoded⟩ := load_entry client apart loaded
  replace held : Store.entry? (stored p (k.env.observe s).2) key = some e := held
  rw [apart.observe] at held
  exact ⟨checked, made, e, own, held, decoded, rfl⟩

omit apart in
/-- The write on a store in memory: what is left there, and that no time has passed. -/
theorem setIfPresent_run (key : String) (value : Bytes) (s : σ) :
    let w := p.view s
    (k.client.setIfPresent key value s).1 = (w.store.setIfPresent key value w.now).1 ∧
      p.view (k.client.setIfPresent key value s).2
        = { w with store := (w.store.setIfPresent key value w.now).2 } := by
  rw [client]
  exact ⟨rfl, Part.view_run lawful _ s⟩

/-- The write of a partial update replaces the value of an entry that lives, or fails and leaves
everything that lives as it is. -/
theorem storeExisting_cases (ctx : Context) (key : String) (r : Record) (s : σ) :
    let after := (k.storeExisting ctx key r s).2
    ((k.storeExisting ctx key r s).1 = .ok () ∧
      ∃ e, Store.entry? (stored p s) key = some e ∧ e.live (p.view after).now ∧
        stored p after = (stored p s).put key { e with value := k.encode r }) ∨
    ((∃ e, (k.storeExisting ctx key r s).1 = .error e) ∧
      (stored p s).LivesAlike (p.view after).now (stored p after)) := by
  unfold storeExisting call
  dsimp only
  rw [Action.run_bind]
  obtain ⟨t, observed, ⟨e, stopped⟩ | ran⟩ := Action.call_cases apart ctx Error.keyValue
    (k.client.setIfPresent key (k.encode r)) s
  · rw [stopped]
    exact .inr ⟨⟨e, rfl⟩, .of_eq observed⟩
  · obtain ⟨answered, left⟩ := setIfPresent_run lawful client key (k.encode r) t
    have same : (p.view t).store = stored p s := observed
    rw [same] at answered left
    rw [ran, answered]
    have moment : (p.view (k.client.setIfPresent key (k.encode r) t).2).now = (p.view t).now := by
      rw [left]
      rfl
    have kept : stored p (k.client.setIfPresent key (k.encode r) t).2
        = ((stored p s).setIfPresent key (k.encode r) (p.view t).now).2 := congrArg World.store left
    obtain ⟨e, held, lives, put⟩ | ⟨refused, alike⟩ :=
      Store.setIfPresent_cases (stored p s) key (k.encode r) (p.view t).now
    · rw [put] at kept ⊢
      exact .inl ⟨rfl, e, held, moment ▸ lives, kept⟩
    · rw [refused]
      rw [← kept, ← moment] at alike
      exact .inr ⟨⟨_, rfl⟩, alike⟩

/-- A partial update amid others ends before it writes and changes nothing, or it writes to the
store that the others left. -/
theorem updatePartialAmid_cases (others : σ → σ) (ctx : Context) (id : Value) (fields : Record)
    (s : σ) :
    let run := k.updatePartialAmid others ctx id fields s
    ((∃ e, run.1 = .error e) ∧ stored p run.2 = stored p s) ∨
    ∃ t key e r, stored p t = stored p s ∧ k.schema.checkPartial fields = .ok () ∧
      k.keyFor id = .ok key ∧ Store.entry? (stored p s) key = some e ∧ k.decode key e.value = .ok r ∧
      ((run.1 = .ok () ∧
          ∃ left, Store.entry? (stored p (others t)) key = some left ∧ left.live (p.view run.2).now ∧
            stored p run.2 = (stored p (others t)).put key
              { left with value := k.encode (r.overlay fields) }) ∨
        ((∃ e, run.1 = .error e) ∧
          (stored p (others t)).LivesAlike (p.view run.2).now (stored p run.2))) := by
  intro run
  have kept : stored p (k.overlaid ctx id fields s).2 = stored p s :=
    (overlaid_moves lawful client apart ctx id fields).view_eq s
  have ran : run = match k.overlaid ctx id fields s with
      | (.ok (live, key, r), t) => k.storeExisting live key r (others t)
      | (.error e, t) => (.error e, t) := by
    show (k.overlaid ctx id fields >>= _) s = _
    rw [Action.run_bind]
    rcases k.overlaid ctx id fields s with ⟨answer, t⟩
    cases answer <;> rfl
  rcases read : k.overlaid ctx id fields s with ⟨answer, t⟩
  rw [read] at ran kept
  cases answer with
  | error e => exact .inl ⟨⟨e, by rw [ran]⟩, by rw [ran]; exact kept⟩
  | ok found =>
      obtain ⟨live, key, r⟩ := found
      obtain ⟨checked, built, e, own, held, decoded, rfl⟩ :=
        overlaid_answers client apart (congrArg Prod.fst read)
      refine .inr ⟨t, key, e, own, kept, checked, built, held, decoded, ?_⟩
      rw [ran]
      exact storeExisting_cases lawful client apart live key (own.overlay fields) (others t)

/-- What is gone when a partial update writes stays gone, whoever removed it, and what expired
stays so. -/
theorem updatePartialAmid_revives_nothing (others : σ → σ) (ctx : Context) (id : Value)
    (fields : Record) (s : σ) :
    let run := k.updatePartialAmid others ctx id fields s
    ((∃ e, run.1 = .error e) ∧ stored p run.2 = stored p s) ∨
    ∃ t, stored p t = stored p s ∧ ∀ key, (stored p (others t)).live? key (p.view run.2).now = none →
      ∀ moment, (p.view run.2).now ≤ moment → (stored p run.2).live? key moment = none := by
  intro run
  refine (updatePartialAmid_cases lawful client apart others ctx id fields s).imp_right ?_
  rintro ⟨t, key, e, r, kept, -, -, -, -, wrote⟩
  refine ⟨t, kept, fun other gone moment order => ?_⟩
  have goneLater := Store.live?_eq_none_of_later order gone
  obtain ⟨-, left, held, lives, put⟩ | ⟨-, alike⟩ := wrote
  · have apartKeys : other ≠ key := by
      rintro rfl
      rw [Store.live?, held, Option.filter_some, if_pos lives] at gone
      cases gone
    rw [put, Store.live?_put, if_neg apartKeys]
    exact goneLater
  · rw [alike other moment order]
    exact goneLater

theorem updatePartial_error {ctx : Context} {id : Value} {fields : Record} {s : σ} {e : Error}
    (failed : (k.updatePartial ctx id fields s).1 = .error e) :
    (stored p s).LivesAlike (p.view (k.updatePartial ctx id fields s).2).now
      (stored p (k.updatePartial ctx id fields s).2) := by
  have cases := updatePartialAmid_cases lawful client apart (fun s => s) ctx id fields s
  rw [updatePartialAmid_id] at cases
  obtain ⟨-, same⟩ | ⟨t, key, e, r, kept, -, -, -, -, ⟨done, -⟩ | ⟨-, alike⟩⟩ := cases
  · exact .of_eq same
  · rw [failed] at done
    cases done
  · rwa [kept] at alike

theorem updatePartial_ok {ctx : Context} {id : Value} {fields : Record} {s : σ}
    (answered : (k.updatePartial ctx id fields s).1 = .ok ()) :
    ∃ key e r, k.schema.checkPartial fields = .ok () ∧ k.keyFor id = .ok key ∧
      Store.entry? (stored p s) key = some e ∧ k.decode key e.value = .ok r ∧
      e.live (p.view (k.updatePartial ctx id fields s).2).now ∧
      stored p (k.updatePartial ctx id fields s).2
        = (stored p s).put key { e with value := k.encode (r.overlay fields) } := by
  have cases := updatePartialAmid_cases lawful client apart (fun s => s) ctx id fields s
  rw [updatePartialAmid_id] at cases
  obtain ⟨⟨e, failed⟩, -⟩ | ⟨t, key, e, r, kept, checked, built, held, decoded,
    ⟨-, left, found, lives, put⟩ | ⟨⟨e, failed⟩, -⟩⟩ := cases
  · rw [answered] at failed
    cases failed
  · rw [kept] at found put
    rw [held] at found
    cases found
    exact ⟨key, e, r, checked, built, held, decoded, lives, put⟩
  · rw [answered] at failed
    cases failed

end Requests

/-! ### The record that is found -/

/-- Where the store is this one and its entry lives, the id leads to the record. -/
def Shows (k : Records σ E) (p : Part σ (World Store)) (id : Value) (store : Store) (e : Entry)
    (r : Record) : Prop :=
  ∀ (t : σ) (ctx : Context), stored p t = store → e.live (p.view t).now →
    ctx.check (p.view t).surroundings = .ok () →
    (k.findById ctx id t).1 = k.schema.ofRecord k.type r

theorem shows_of_entry (memory : k.InMemory p) (lasting : k.config.defaultTimeout ≠ some 0)
    {id : Value} {key : String} (built : k.keyFor id = .ok key) {store : Store} {e : Entry}
    (held : store.entry? key = some e) {r : Record} (decoded : k.decode key e.value = .ok r) :
    k.Shows p id store e r := by
  rintro t ctx rfl lives alive
  have live : (p.view t).store.live? key (p.view t).now = some e := by
    unfold Store.live?
    rw [show Store.entry? (p.view t).store key = some e from held, Option.filter_some, if_pos lives]
  exact (findById_yields memory alive lasting built live decoded t rfl).1

/-- The codec reads the values of a record as themselves. -/
def ReadsBack (k : Records σ E) (r : Record) : Prop :=
  k.config.codec = .json → ∀ name v, r.get? name = some v → v.ReadsBack 126

/-- After a partial update: the entry of the record that the id led to holds the given fields over
that record.  It expires when it did before, and all other entries are as they were.  The id leads
to the new record exactly if the codec reads its values as themselves. -/
structure Overlaid (k : Records σ E) (p : Part σ (World Store)) (id : Value) (fields : Record)
    (s after : σ) (key : String) (e : Entry) (r : Record) : Prop where
  built : k.keyFor id = .ok key
  held : Store.entry? (stored p s) key = some e
  lives : e.live (p.view after).now
  decoded : k.decode key e.value = .ok r
  shown : k.Shows p id (stored p s) e r
  sameId : (r.overlay fields).get? k.schema.primaryKey = r.get? k.schema.primaryKey
  entries : ∀ other, Store.entry? (stored p after) other = if other = key
    then some { e with value := k.encode (r.overlay fields) } else Store.entry? (stored p s) other
  returned : (k.config.codec = .binary →
      Codec.RecordAddressable (Record.rename (r.overlay fields) k.schema.columnFor)) →
    (k.decode key (k.encode (r.overlay fields)) = .ok (r.overlay fields)
      ↔ k.ReadsBack (r.overlay fields))
  shownNow : k.decode key (k.encode (r.overlay fields)) = .ok (r.overlay fields) →
    k.Shows p id (stored p after) { e with value := k.encode (r.overlay fields) }
      (r.overlay fields)

/-- The values under the keys of a store that can be read are records of declared fields, with
values that JSON carries. -/
def HoldsRecords (k : Records σ E) (store : Store) : Prop :=
  ∀ key e r, store.entry? key = some e → k.decode key e.value = .ok r → r.IsStorable k.schema

theorem holdsRecords_empty (k : Records σ E) : k.HoldsRecords .empty := by
  intro key e r held
  rw [Store.entry?, Store.stripe_eq, Store.stripeAt_empty] at held
  cases held

theorem HoldsRecords.put {store : Store} (holds : k.HoldsRecords store) {key : String} {e : Entry}
    (storable : ∀ r, k.decode key e.value = .ok r → r.IsStorable k.schema) :
    k.HoldsRecords (store.put key e) := by
  intro other held r found decoded
  rw [Store.entry?_put] at found
  split at found
  next same =>
    cases found
    exact storable r (same ▸ decoded)
  next => exact holds other held r found decoded

/-- A stored record that is read back as itself is one of the records that the store holds. -/
theorem HoldsRecords.put_own {store : Store} (holds : k.HoldsRecords store) {r : Record}
    (storable : r.IsStorable k.schema) {key : String}
    (returned : k.decode key (k.encode r) = .ok r) (expiry : Option Micros) :
    k.HoldsRecords (store.put key ⟨k.encode r, expiry⟩) := by
  refine holds.put fun read decoded => ?_
  rw [returned] at decoded
  cases decoded
  exact storable

theorem exists_overlaid (memory : k.InMemory p) (accepted : accept k.schema k.config = .ok ())
    (distinct : (k.schema.fields.map (·.column)).Nodup) {env : Environment σ}
    (apart : env.Apart (stored p)) {s : σ} {ctx : Context} {id : Value} {fields : Record}
    (holds : k.HoldsRecords (stored p s))
    (carried : ∀ name v, fields.get? name = some v → v.isCarried)
    (answered : ((k.hosted k.client env).updatePartial ctx id fields s).1 = .ok ()) :
    ∃ key e r, k.Overlaid p id fields s
      ((k.hosted k.client env).updatePartial ctx id fields s).2 key e r := by
  obtain ⟨key, e, r, checked, built, held, decoded, lives, put⟩ :=
    updatePartial_ok (k := k.hosted k.client env) memory.lawful memory.client apart answered
  obtain ⟨-, lasting⟩ := accept_settings accepted
  have overlaid := (holds key e r held decoded).overlay checked carried
  have entries (other : String) :
      Store.entry? (stored p ((k.hosted k.client env).updatePartial ctx id fields s).2) other
        = if other = key then some { e with value := k.encode (r.overlay fields) }
          else Store.entry? (stored p s) other := by
    rw [put, Store.entry?_put]
    rfl
  refine ⟨key, e, r, built, held, lives, decoded, shows_of_entry memory lasting built held decoded,
    Schema.get?_overlay_key checked r, entries, fun addressable => ?_, fun returned => ?_⟩
  · have recovers (name : String) (member : name ∈ (r.overlay fields).names) :
        k.schema.Recovers name :=
      Schema.recovers_of_distinct distinct (overlaid.declared name member)
    exact (k.decode_encode_iff (accept_schema accepted) overlaid addressable key).trans
      (and_iff_right recovers)
  · exact shows_of_entry memory lasting built ((entries key).trans (if_pos rfl)) returned

end Records

end Recordkeeper.KeyValue
