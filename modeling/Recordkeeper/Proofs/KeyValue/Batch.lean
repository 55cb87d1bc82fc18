import Recordkeeper.Proofs.Insertion
import Recordkeeper.Proofs.KeyValue.Effects
import Recordkeeper.Proofs.KeyValue.Expiry

/-!
Contract: what a batch of insertions leaves in a key-value store.

Owns:
- clients that insert in a store while time goes on, calls fail and tokens are cancelled;
- a single insertion, which puts an entry where nothing lived, or none at all;
- the rows that a batch has put, and that everything else is as it was.

Does not own: the report of a batch.

What a batch puts does not expire, so nothing that it comes to later can take its place; an entry
that had expired may be replaced, and it counts as missing before.
-/

set_option autoImplicit false

namespace Recordkeeper.KeyValue

variable {σ E : Type} {p : Part σ (World Store)} {k : Records σ E}

/-- The store is as it was and no time is taken back. -/
def Passes (p : Part σ (World Store)) (s t : σ) : Prop :=
  stored p t = stored p s ∧ (p.view s).now ≤ (p.view t).now

theorem Passes.refl (s : σ) : Passes p s s := ⟨rfl, Int.le_refl _⟩

theorem Passes.trans {s t u : σ} (first : Passes p s t) (second : Passes p t u) : Passes p s u :=
  ⟨second.1.trans first.1, Int.le_trans first.2 second.2⟩

/-- Where nothing lives under a key, an entry is put there for good, and no time is taken back. -/
def Puts (p : Part σ (World Store)) (key : String) (value : Bytes) (s t : σ) : Prop :=
  ∃ moment, (p.view s).now ≤ moment ∧ moment ≤ (p.view t).now ∧
    (stored p s).live? key moment = none ∧ stored p t = (stored p s).put key ⟨value, none⟩

/-- An insertion fails and only time passes, or it does what the store does at the moment. -/
def Inserts (p : Part σ (World Store)) (key : String) (value : Bytes) (s : σ)
    (result : Outcome Bool × σ) : Prop :=
  ((∃ failure, result.1 = .error failure) ∧ Passes p s result.2) ∨
    (result.1, stored p result.2)
        = Store.setIfMissing key value none (p.view s).now (stored p s) ∧
      (p.view s).now ≤ (p.view result.2).now

/-- A repository whose client inserts in the store of the part, and fails only before it gets there.
Time goes on and tokens may be cancelled all the while, also during an insertion that succeeds. -/
structure Records.Reaches (k : Records σ E) (p : Part σ (World Store)) : Prop where
  observe : ∀ s, Passes p s (k.env.observe s).2
  freshId : ∀ s, Passes p s (k.env.freshId s).2
  insert : ∀ key value s, Inserts p key value s (k.client.setIfMissing key value none s)

theorem Passes.of_view {s t : σ} (same : p.view t = p.view s) : Passes p s t := by
  unfold Passes stored
  rw [same]
  exact ⟨rfl, Int.le_refl _⟩

theorem Inserts.before {key : String} {value : Bytes} {s t : σ} {result : Outcome Bool × σ}
    (inserts : Inserts p key value t result) (same : p.view t = p.view s) :
    Inserts p key value s result := by
  unfold Inserts Passes stored at inserts ⊢
  rwa [same] at inserts

theorem Inserts.andThen {key : String} {value : Bytes} {s t : σ} {result : Outcome Bool × σ}
    (inserts : Inserts p key value s result) (passes : Passes p result.2 t) :
    Inserts p key value s (result.1, t) := by
  rcases inserts with ⟨failed, idle⟩ | ⟨acts, later⟩
  · exact .inl ⟨failed, idle.trans passes⟩
  · refine .inr ⟨?_, Int.le_trans later passes.2⟩
    rw [passes.1]
    exact acts

theorem Store.setIfMissing_cases (s : Store) (key : String) (value : Bytes) (now : Instant) :
    s.setIfMissing key value none now = (.ok false, s) ∨
      s.live? key now = none ∧
        s.setIfMissing key value none now = (.ok true, s.put key ⟨value, none⟩) := by
  unfold setIfMissing expiry
  cases s.live? key now with
  | some e => exact .inl rfl
  | none => exact .inr ⟨rfl, rfl⟩

namespace Records

/-- The record of a row is stored under its key, which is that of its id. -/
def Stores (k : Records σ E) (entity created : E) (content : String × Record) : Prop :=
  ∃ id, k.schema.Prepares k.type entity created id content.2 ∧ k.keyFor id = .ok content.1

/-- What a store has gained: the records of the rows under keys of their own, where nothing lived.
All other entries are as they were. -/
structure Gained (k : Records σ E) (rows : List (BatchRow E (String × Record)))
    (before after : World Store) : Prop where
  row : ∀ row ∈ rows, k.Stores row.entity row.created row.content
  distinct : (rows.map (·.content.1)).Nodup
  fresh : ∀ row ∈ rows, ∀ moment, after.now ≤ moment →
    before.store.live? row.content.1 moment = none
  stored : ∀ row ∈ rows,
    after.store.entry? row.content.1 = some ⟨k.encode row.content.2, none⟩
  others : ∀ key, key ∉ rows.map (·.content.1) → after.store.entry? key = before.store.entry? key
  later : before.now ≤ after.now

section Insertion

variable (reaches : k.Reaches p)

include reaches

theorem prepareId_passes (own : Record) (s : σ) :
    Passes p s (k.schema.prepareId k.env own s).2 := by
  rcases k.schema.prepareId_state k.env own s with same | issued
  · rw [same]
    exact .refl s
  · rw [issued]
    exact reaches.freshId s

/-- The native insertion puts an entry, or it does not answer yes and time passes. -/
theorem call_puts (ctx : Context) (key : String) (value : Bytes) (s : σ) :
    ((k.call ctx (k.client.setIfMissing key value none) s).1 = .ok true ∧
        Puts p key value s (k.call ctx (k.client.setIfMissing key value none) s).2) ∨
      ((k.call ctx (k.client.setIfMissing key value none) s).1 ≠ .ok true ∧
        Passes p s (k.call ctx (k.client.setIfMissing key value none) s).2) := by
  have observed := reaches.observe s
  unfold call
  rw [Action.run_call]
  generalize k.env.observe s = asked at observed ⊢
  obtain ⟨surroundings, t⟩ := asked
  cases ctx.check surroundings with
  | error e => exact .inr ⟨nofun, observed⟩
  | ok live =>
      dsimp only at observed ⊢
      have inserts := reaches.insert key value t
      generalize k.client.setIfMissing key value none t = written at inserts ⊢
      obtain ⟨answer, u⟩ := written
      dsimp only at inserts ⊢
      rcases inserts with ⟨⟨failure, rfl⟩, passes⟩ | ⟨acts, later⟩
      · exact .inr ⟨nofun, observed.trans passes⟩
      · rcases (stored p t).setIfMissing_cases key value (p.view t).now with
          refused | ⟨missing, done⟩
        · rw [refused] at acts
          obtain ⟨rfl, same⟩ := Prod.mk.inj acts
          exact .inr ⟨nofun, observed.trans ⟨same, later⟩⟩
        · rw [done] at acts
          obtain ⟨rfl, put⟩ := Prod.mk.inj acts
          rw [observed.1] at missing put
          exact .inl ⟨rfl, _, observed.2, later, missing, put⟩

/-- An insertion stores the record of an entity, or fails and stores nothing. -/
theorem insert_puts {entity : E} (takes : ∀ e, ¬ RefusesId k.schema k.type entity e)
    (ctx : Context) (s : σ) :
    (∃ created content, (k.insert ctx none entity s).1 = .ok created ∧
      k.Stores entity created content ∧
      Puts p content.1 (k.encode content.2) s (k.insert ctx none entity s).2) ∨
    ((∃ e, (k.insert ctx none entity s).1 = .error e) ∧
      Passes p s (k.insert ctx none entity s).2) := by
  unfold insert
  cases converted : k.schema.toRecord k.type entity with
  | error e => exact .inr ⟨⟨e, rfl⟩, .refl s⟩
  | ok own =>
      rw [Action.run_bind]
      dsimp only [Action.ofExcept]
      have passes := prepareId_passes reaches own s
      have writes := @writeBack_ok σ E k.schema k.type entity k.env own
      rw [Action.run_bind]
      rcases prepared : k.schema.prepareId k.env own s with ⟨answer, t⟩
      rw [prepared] at passes
      rcases answer with e | ⟨_ | id, r⟩
      · exact .inr ⟨⟨e, rfl⟩, passes⟩
      · exact .inr ⟨⟨_, rfl⟩, passes⟩
      · dsimp only at passes ⊢
        rw [Action.run_bind]
        cases built : k.keyFor id with
        | error e => exact .inr ⟨⟨e, rfl⟩, passes⟩
        | ok key =>
            dsimp only [Action.ofExcept]
            rw [Action.run_bind]
            have written := call_puts reaches ctx key (k.encode r) t
            generalize k.call ctx (k.client.setIfMissing key (k.encode r) none) t = outcome
              at written ⊢
            obtain ⟨answer, u⟩ := outcome
            rcases written with ⟨rfl, moment, after, before, missing, put⟩ | ⟨unwritten, idle⟩
            · obtain ⟨created, answered, prepares⟩ :=
                writes takes converted (congrArg Prod.fst prepared) u
              rw [passes.1] at missing put
              dsimp only
              rw [if_neg (by decide), answered]
              exact .inl ⟨created, (key, r), rfl, ⟨id, prepares, built⟩, moment,
                Int.le_trans passes.2 after, before, missing, put⟩
            · rcases answer with e | ⟨_ | _⟩
              · exact .inr ⟨⟨e, rfl⟩, passes.trans idle⟩
              · exact .inr ⟨⟨_, rfl⟩, passes.trans idle⟩
              · exact absurd rfl unwritten

omit reaches in
/-- A context that has ended by now inserts nothing more. -/
theorem insert_ended {ctx : Context} {past : σ → Prop} (ends : k.env.Ends ctx past)
    (ttl : Option Micros) (entity : E) {s : σ} (ended : past s) :
    ∃ e, (k.insert ctx ttl entity s).1 = .error e := by
  cases answer : (k.insert ctx ttl entity s).1 with
  | error e => exact ⟨e, rfl⟩
  | ok created =>
      exfalso
      unfold insert at answer
      obtain ⟨own, converted, answer⟩ := Action.ok_of_bind answer
      obtain ⟨⟨id, r⟩, prepared, answer⟩ := Action.ok_of_bind answer
      have still : past (k.schema.prepareId k.env own s).2 := ends.prepareId k.schema own ended
      cases id with
      | none => cases answer
      | some id =>
          obtain ⟨key, built, answer⟩ := Action.ok_of_bind answer
          obtain ⟨written, stored, -⟩ := Action.ok_of_bind answer
          obtain ⟨e, failed⟩ := ends.call Error.keyValue
            (k.client.setIfMissing key (k.encode r) ttl) still
          exact absurd (stored.symm.trans failed) nofun

end Insertion

theorem Reaches.memory (memory : k.InMemory p) : k.Reaches p where
  observe s := by
    rw [memory.env]
    exact .refl s
  freshId s := by
    have seen : p.view ((World.environment p).freshId s).2
        = { p.view s with issued := (p.view s).issued + 1 } := memory.lawful _ s
    rw [memory.env, Passes, KeyValue.stored, seen]
    exact ⟨rfl, Int.le_refl _⟩
  insert key value s := by
    have seen : p.view ((Client.memory p).setIfMissing key value none s).2
        = { p.view s with
            store := (Store.setIfMissing key value none (p.view s).now (p.view s).store).2 } :=
      memory.lawful _ s
    rw [memory.client, Inserts, KeyValue.stored, seen]
    exact .inr ⟨rfl, Int.le_refl _⟩

/-- Calls may fail on purpose, and a token may be cancelled by an insertion that succeeds. -/
theorem Reaches.faulty (reaches : k.Reaches p) (plan : FaultPlan Method KeyValueFailure)
    {log : Part σ (CallLog Method)} (logApart : ∀ note s, p.view (log.put note s) = p.view s)
    {cancel : σ → σ} (cancels : ∀ s, Passes p s (cancel s)) :
    { k with client := .faulty plan log cancel k.client }.Reaches p where
  observe := reaches.observe
  freshId := reaches.freshId
  insert key value s := by
    have noted (note : CallLog Method) (t : σ) : Passes p t (log.put note t) :=
      .of_view (logApart note t)
    show Inserts p key value s
      (plan.guardWrite log cancel .setIfMissing (k.client.setIfMissing key value none) s)
    rcases plan.guardWrite_cases log cancel .setIfMissing (k.client.setIfMissing key value none) s
      with ⟨failure, note, failed⟩ | ⟨note, t, u, rfl, same, left⟩
    · rw [failed]
      exact .inl ⟨⟨failure, rfl⟩, noted note s⟩
    · rw [same]
      refine ((reaches.insert key value _).before (logApart note s)).andThen ?_
      rcases left with rfl | ⟨note, rfl | rfl⟩
      · exact .refl _
      · exact noted note _
      · exact (noted note _).trans (cancels _)

namespace Gained

variable {rows : List (BatchRow E (String × Record))} {before : World Store} {s t : σ}

theorem start (k : Records σ E) (before : World Store) : k.Gained [] before before where
  row := nofun
  distinct := .nil
  fresh := nofun
  stored := nofun
  others _ _ := rfl
  later := Int.le_refl _

theorem passes (gained : k.Gained rows before (p.view s)) (passes : Passes p s t) :
    k.Gained rows before (p.view t) where
  row := gained.row
  distinct := gained.distinct
  fresh row member moment order := gained.fresh row member moment (Int.le_trans passes.2 order)
  stored row member := by
    rw [show (p.view t).store = _ from passes.1]
    exact gained.stored row member
  others key outside := by
    rw [show (p.view t).store = _ from passes.1]
    exact gained.others key outside
  later := Int.le_trans gained.later passes.2

/-- What was stored before lives for good, so a key where nothing lives is a new one. -/
theorem puts (gained : k.Gained rows before (p.view s)) {row : BatchRow E (String × Record)}
    (stores : k.Stores row.entity row.created row.content)
    (puts : Puts p row.content.1 (k.encode row.content.2) s t) :
    k.Gained (rows ++ [row]) before (p.view t) := by
  obtain ⟨moment, after, upTo, missing, put⟩ := puts
  have unused : row.content.1 ∉ rows.map (·.content.1) := by
    intro member
    obtain ⟨other, listed, same⟩ := List.mem_map.1 member
    have held := gained.stored other listed
    rw [show other.content.1 = row.content.1 from same] at held
    rw [Store.live?, show Store.entry? (KeyValue.stored p s) row.content.1 = _ from held] at missing
    cases missing
  have entry (key : String) : Store.entry? (p.view t).store key
      = if key = row.content.1 then some ⟨k.encode row.content.2, none⟩
        else Store.entry? (p.view s).store key := by
    rw [show (p.view t).store = _ from put, Store.entry?_put]
    rfl
  have later : (p.view s).now ≤ (p.view t).now := Int.le_trans after upTo
  refine ⟨?_, ?_, ?_, ?_, ?_, Int.le_trans gained.later later⟩
  · rw [List.forall_mem_append]
    exact ⟨gained.row, List.forall_mem_singleton.2 stores⟩
  · rw [List.map_append]
    refine List.nodup_append.2 ⟨gained.distinct, List.nodup_singleton _, ?_⟩
    rintro key member last other rfl
    obtain rfl := List.mem_singleton.1 other
    exact unused member
  · rw [List.forall_mem_append]
    refine ⟨fun earlier member time order =>
      gained.fresh earlier member time (Int.le_trans later order),
      List.forall_mem_singleton.2 fun time order => ?_⟩
    have gone := Store.live?_eq_none_of_later (Int.le_trans upTo order) missing
    unfold Store.live? at gone ⊢
    rwa [← gained.others _ unused]
  · rw [List.forall_mem_append]
    refine ⟨fun earlier member => ?_, List.forall_mem_singleton.2 ?_⟩
    · have listed : earlier.content.1 ∈ rows.map (·.content.1) := List.mem_map_of_mem member
      have different : earlier.content.1 ≠ row.content.1 := fun same => unused (same ▸ listed)
      rw [entry, if_neg different]
      exact gained.stored earlier member
    · rw [entry, if_pos rfl]
  · intro key outside
    rw [List.map_append, List.mem_append, not_or] at outside
    have different : key ≠ row.content.1 := fun same => outside.2 (List.mem_singleton.2 same)
    rw [entry, if_neg different]
    exact gained.others key outside.1

end Gained

/-- A batch of insertions accounts for every entity, and the store has gained the rows. -/
theorem createBatch_gains (reaches : k.Reaches p) {entities : List E}
    (takes : ∀ entity ∈ entities, ∀ e, ¬ RefusesId k.schema k.type entity e) (ctx : Context)
    (s : σ) :
    ∃ outcome rows, (k.createBatch ctx entities s).1.1 = .ok outcome ∧
      Accounts entities outcome (k.createBatch ctx entities s).1.2 rows ∧
      k.Gained rows (p.view s) (p.view (k.createBatch ctx entities s).2) := by
  have began : k.Gained [] (p.view s) (p.view (k.effective ctx s).2) :=
    (Gained.start k _).passes (reaches.observe s)
  obtain ⟨rows, accounts, gained⟩ := insertEach_accounts (k.insert (k.effective ctx s).1 none)
    (fun rows t => k.Gained rows (p.view s) (p.view t)) began entities
    fun entity member rows t gained => by
      rcases insert_puts reaches (takes entity member) (k.effective ctx s).1 t with
        ⟨created, content, answered, stores, puts⟩ | ⟨failed, passes⟩
      · exact .inl ⟨created, content, answered, fun _ => gained.puts stores puts⟩
      · exact .inr ⟨failed, gained.passes passes⟩
  exact ⟨_, rows, rfl, accounts, gained⟩

/-- An entity that a batch comes to when its context has ended is among the failures. -/
theorem createBatch_ended {ctx : Context} {past : σ → Prop} (ends : k.env.Ends ctx past)
    {earlier later : List E} {entity : E} {s : σ} (ended : past (k.createBatch ctx earlier s).2)
    {outcome : BatchOutcome}
    (answered : (k.createBatch ctx (earlier ++ entity :: later) s).1.1 = .ok outcome) :
    earlier.length ∈ outcome.failures.map (·.1) := by
  obtain rfl := Except.ok.inj answered
  exact insertEach_failed (insert_ended (ends.effective _ _) none entity ended) later

end Records

end Recordkeeper.KeyValue
