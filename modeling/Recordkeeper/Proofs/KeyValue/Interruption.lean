import Recordkeeper.Proofs.Creation
import Recordkeeper.Proofs.KeyValue.Effects
import Recordkeeper.Proofs.KeyValue.Finding

/-!
Contract: what a request that runs out of time leaves in a store.

Owns:
- the requests on one key, whose only write is their last call, so that nothing is written when
  they end in a timeout;
- deletions by condition, which make one call for every record and can stop between two of them;
- `timeout_changes_nothing`: a timeout leaves the store as it was, but for a deletion by condition
  that had begun to delete.

Does not own: batches, which report every entity on its own.

The clock and the tokens are part of the state, and whoever asks for them may find time gone and
tokens cancelled.  So a context can end between any two calls of a request.
-/

set_option autoImplicit false

namespace Recordkeeper.KeyValue

variable {σ τ α E : Type} {p : Part σ (World Store)} {k : Records σ E}

/-- Errors that do not invite to try again because time ran out. -/
def IsOther (e : Error) : Prop := e.kind ≠ .timeout

/-- A timeout leaves what is held as it was. -/
def KeepsOnTimeout (held : σ → τ) (action : Action σ α) : Prop :=
  ∀ s e, (action s).1 = .error e → e.kind = .timeout → held (action s).2 = held s

theorem keepsOnTimeout_of_spares {held : σ → τ} {action : Action σ α}
    (spares : Spares held IsOther action) : KeepsOnTimeout held action := by
  intro s e failed timedOut
  exact (spares s e failed).resolve_right fun other => other timedOut

/-- What a type has against the id it is given has nothing to do with time. -/
theorem isOther_of_refusesId {schema : Schema} {type : EntityType E} {entity : E} {e : Error}
    (refuses : RefusesId schema type entity e) : IsOther e := by
  obtain ⟨r, id, converted, -, -, refused⟩ := refuses
  unfold Schema.assignId at refused
  rw [converted] at refused
  replace refused : schema.ofRecord type (r.insert schema.primaryKey id) = .error e := refused
  unfold Schema.ofRecord at refused
  split at refused
  next => cases refused
  next =>
    cases refused
    exact nofun

namespace Records

/-! ### Requests on one key -/

/-- The last call of a request, after which it fails only where nothing was under the key. -/
theorem lastCall_spares (apart : k.env.Apart (stored p)) {native : σ → Outcome Bool × σ}
    (answers : ∀ s, ∃ done, (native s).1 = .ok done) (ctx : Context) (key : String) :
    Spares (stored p) IsOther (do
      let done ← k.call ctx native
      if !done then Action.refuse (.noRecordAt key)) := by
  refine Spares.before (Spares.call apart ?_ ctx _) fun s done _ t e failed => ?_
  · intro s failure failed
    obtain ⟨done, answered⟩ := answers s
    rw [answered] at failed
    cases failed
  · cases done with
    | true => cases failed
    | false =>
        cases failed
        exact nofun

section Requests

variable (client : k.client = .memory p) (apart : k.env.Apart (stored p))

include client apart

theorem storeExisting_spares (ctx : Context) (key : String) (r : Record) :
    Spares (stored p) IsOther (k.storeExisting ctx key r) := by
  unfold storeExisting
  rw [client]
  exact lastCall_spares apart (fun _ => Store.setIfPresent_answers) ctx key

theorem update_spares (ctx : Context) (entity : E) :
    Spares (stored p) IsOther (k.update ctx entity) := by
  unfold update
  refine Spares.bind (Moves.ofExcept _) fun _ identified _ => ?_
  obtain ⟨id, r⟩ := identified
  refine Spares.bind (Moves.ofExcept _) fun _ key _ => ?_
  refine Spares.bind (Moves.lift (Moves.effective apart _ _)) fun _ ctx _ => ?_
  exact storeExisting_spares client apart ctx key r

theorem delete_spares (ctx : Context) (id : Value) :
    Spares (stored p) IsOther (k.delete ctx id) := by
  unfold delete
  refine Spares.bind (Moves.ofExcept _) fun _ key _ => ?_
  refine Spares.bind (Moves.lift (Moves.effective apart _ _)) fun _ ctx _ => ?_
  rw [client]
  exact lastCall_spares apart (fun _ => ⟨_, rfl⟩) ctx key

theorem expire_spares (ctx : Context) (id : Value) (ttl : Micros) :
    Spares (stored p) IsOther (k.expire ctx id ttl) := by
  unfold expire
  refine Spares.bind (Moves.ofExcept _) fun _ _ _ => ?_
  refine Spares.bind (Moves.ofExcept _) fun _ key _ => ?_
  refine Spares.bind (Moves.lift (Moves.effective apart _ _)) fun _ ctx _ => ?_
  rw [client]
  exact lastCall_spares apart (fun _ => Store.expire_answers) ctx key

variable (lawful : p.Lawful)

include lawful

theorem insert_spares_other (ctx : Context) (ttl : Option Micros) (entity : E) :
    Spares (stored p) IsOther (k.insert ctx ttl entity) := by
  have whole : k.client.InsertsWhole (stored p) := by
    rw [client]
    exact Client.memory_insertsWhole lawful
  intro s e failed
  exact (insert_spares apart whole ctx ttl entity s e failed).imp_right isOther_of_refusesId

theorem create_spares (ctx : Context) (entity : E) :
    Spares (stored p) IsOther (k.create ctx entity) := by
  unfold create
  refine Spares.bind (Moves.lift (Moves.effective apart _ _)) fun _ ctx _ => ?_
  exact insert_spares_other client apart lawful ctx none entity

theorem createWithTtl_spares (ctx : Context) (entity : E) (ttl : Micros) :
    Spares (stored p) IsOther (k.createWithTtl ctx entity ttl) := by
  unfold createWithTtl
  refine Spares.bind (Moves.ofExcept _) fun _ _ _ => ?_
  refine Spares.bind (Moves.lift (Moves.effective apart _ _)) fun _ ctx _ => ?_
  exact insert_spares_other client apart lawful ctx (some ttl) entity

theorem updatePartial_spares (ctx : Context) (id : Value) (fields : Record) :
    Spares (stored p) IsOther (k.updatePartial ctx id fields) := by
  unfold updatePartial
  refine Spares.bind (Moves.ofExcept _) fun _ _ _ => ?_
  refine Spares.bind (Moves.lift (Moves.effective apart _ _)) fun _ ctx _ => ?_
  refine Spares.bind (Moves.ofExcept _) fun _ key _ => ?_
  refine Spares.bind (load_moves lawful client apart ctx key) fun _ r _ => ?_
  exact storeExisting_spares client apart ctx key _

/-! ### Deletions by condition -/

/-- The selected records are deleted one after another, and a failure comes before one of them. -/
theorem deleteSelected_progress (ctx : Context) (plan : Plan) (found : List (String × Record)) :
    ∀ s, ∃ n, stored p (k.deleteSelected ctx plan found s).2
        = (stored p s).removeAll (((chosen plan found).take n).map (·.1)) ∧
      ∀ e, (k.deleteSelected ctx plan found s).1 = .error e → n < (chosen plan found).length := by
  induction found with
  | nil => exact fun s => ⟨0, rfl, nofun⟩
  | cons entry rest inductionHypothesis =>
      obtain ⟨key, r⟩ := entry
      intro s
      rw [deleteSelected, chosen_cons]
      by_cases selected : plan.selects r
      · rw [if_pos selected, if_pos selected, Action.run_bind]
        unfold call
        rw [Action.run_call]
        have observed := apart.observe s
        cases alive : ctx.check (k.env.observe s).1 with
        | error e => exact ⟨0, observed, fun _ _ => Nat.succ_pos _⟩
        | ok live =>
            rw [client]
            set left := ((Client.memory p).delete key (k.env.observe s).2).2 with deleted
            have removed : stored p left = (stored p s).remove key := by
              rw [← observed]
              exact stored_run lawful _ _
            obtain ⟨n, progress, before⟩ := inductionHypothesis left
            rw [removed] at progress
            refine ⟨n + 1, ?_⟩
            show stored p ((k.deleteSelected ctx plan rest >>= _) left).2 = _ ∧
              ∀ e, ((k.deleteSelected ctx plan rest >>= _) left).1 = .error e → _
            rw [Action.run_bind]
            generalize k.deleteSelected ctx plan rest left = outcome at progress before ⊢
            obtain ⟨answer, after⟩ := outcome
            cases answer with
            | ok others => exact ⟨progress, fun _ failed => by cases failed⟩
            | error e => exact ⟨progress, fun _ _ => Nat.succ_lt_succ (before e rfl)⟩
      · rw [if_neg selected, if_neg selected]
        exact inductionHypothesis s

/-- A deletion by condition has deleted some of the records it selects, but not all of them. -/
def StoppedAmid (k : Records σ E) (p : Part σ (World Store)) (ctx : Context) (q : Query)
    (s after : σ) : Prop :=
  ∃ plan found n, Plan.compile q = .ok plan ∧
    (k.scan (k.effective ctx s).1 (k.effective ctx s).2).1 = .ok found ∧
    0 < n ∧ n < (chosen plan found).length ∧
    stored p after = (stored p s).removeAll (((chosen plan found).take n).map (·.1))

theorem deleteByCondition_failed (ctx : Context) (q : Query) (s : σ) (e : Error)
    (failed : (k.deleteByCondition ctx q s).1 = .error e) :
    stored p (k.deleteByCondition ctx q s).2 = stored p s ∨
      k.StoppedAmid p ctx q s (k.deleteByCondition ctx q s).2 := by
  unfold deleteByCondition at failed ⊢
  cases checked : q.checkDelete with
  | error refused => exact .inl rfl
  | ok passed =>
      cases compiled : Plan.compile q with
      | error refused => exact .inl rfl
      | ok plan =>
          rw [checked, compiled] at failed
          show stored p ((k.scan (k.effective ctx s).1 >>= k.deleteSelected _ plan)
            (k.effective ctx s).2).2 = _ ∨ k.StoppedAmid p ctx q s ((k.scan (k.effective ctx s).1
              >>= k.deleteSelected _ plan) (k.effective ctx s).2).2
          replace failed : ((k.scan (k.effective ctx s).1 >>= k.deleteSelected _ plan)
            (k.effective ctx s).2).1 = .error e := failed
          have unchanged : stored p (k.scan (k.effective ctx s).1 (k.effective ctx s).2).2
              = stored p s :=
            ((scan_moves lawful client apart _).view_eq _).trans (apart.observe s)
          rw [Action.run_bind] at failed ⊢
          rcases outcome : k.scan (k.effective ctx s).1 (k.effective ctx s).2 with ⟨answer, after⟩
          rw [outcome] at failed unchanged
          cases answer with
          | error refused => exact .inl unchanged
          | ok found =>
              obtain ⟨n, progress, before⟩ := deleteSelected_progress client apart lawful
                (k.effective ctx s).1 plan found after
              rw [unchanged] at progress
              rcases Nat.eq_zero_or_pos n with rfl | begun
              · exact .inl progress
              · exact .inr ⟨plan, found, n, compiled, congrArg Prod.fst outcome, begun,
                  before e failed, progress⟩

end Requests

end Records

/-! ### Timeouts -/

/-- A request other than a batch that ends in a timeout has changed nothing in the store, whenever
the context ended.  Only a deletion by condition can have begun: it has then deleted some of the
records it selects, in the order of the scan, but not all of them. -/
theorem timeout_changes_nothing (lawful : p.Lawful) (client : k.client = .memory p)
    (apart : k.env.Apart (stored p)) :
    (∀ ctx entity, KeepsOnTimeout (stored p) (k.create ctx entity)) ∧
      (∀ ctx entity ttl, KeepsOnTimeout (stored p) (k.createWithTtl ctx entity ttl)) ∧
      (∀ ctx entity, KeepsOnTimeout (stored p) (k.update ctx entity)) ∧
      (∀ ctx id fields, KeepsOnTimeout (stored p) (k.updatePartial ctx id fields)) ∧
      (∀ ctx id, KeepsOnTimeout (stored p) (k.delete ctx id)) ∧
      (∀ ctx id ttl, KeepsOnTimeout (stored p) (k.expire ctx id ttl)) ∧
      ∀ ctx q s e, (k.deleteByCondition ctx q s).1 = .error e → e.kind = .timeout →
        stored p (k.deleteByCondition ctx q s).2 = stored p s ∨
          k.StoppedAmid p ctx q s (k.deleteByCondition ctx q s).2 := by
  refine ⟨fun ctx entity => ?_, fun ctx entity ttl => ?_, fun ctx entity => ?_,
    fun ctx id fields => ?_, fun ctx id => ?_, fun ctx id ttl => ?_, fun ctx q s e failed _ => ?_⟩
  · exact keepsOnTimeout_of_spares (Records.create_spares client apart lawful ctx entity)
  · exact keepsOnTimeout_of_spares (Records.createWithTtl_spares client apart lawful ctx entity ttl)
  · exact keepsOnTimeout_of_spares (Records.update_spares client apart ctx entity)
  · exact keepsOnTimeout_of_spares (Records.updatePartial_spares client apart lawful ctx id fields)
  · exact keepsOnTimeout_of_spares (Records.delete_spares client apart ctx id)
  · exact keepsOnTimeout_of_spares (Records.expire_spares client apart ctx id ttl)
  · exact Records.deleteByCondition_failed client apart lawful ctx q s e failed

/-! ### A clock that goes on -/

/-- A clock that goes on by a microsecond whenever it is asked. -/
def ticking : Environment (World Store) where
  observe w := (w.surroundings, w.sleep 1)
  freshId := (World.environment .whole).freshId

theorem ticking_apart : ticking.Apart (stored .whole) := ⟨fun _ => rfl, fun _ => rfl⟩

def drafts : Records (World Store) Json where
  client := .memory .whole
  env := ticking
  schema :=
    { name := "drafts", primaryKey := "id"
      fields := [⟨"id", "id", .text, true, false⟩, ⟨"title", "title", .text, true, false⟩] }
  config := {}
  type := .anyDocument

def draftsWorld : World Store :=
  { store := (run [⟨0, .set "drafts:1" (Text.Utf8.encode "\x7b\"id\":\"1\"\x7d") none⟩,
      ⟨0, .set "drafts:2" (Text.Utf8.encode "\x7b\"id\":\"2\"\x7d") none⟩] .empty).2 }

/-- The context ends between reading a draft and writing it back. -/
theorem retitling_changes_nothing :
    let retitled := drafts.updatePartial { deadline := some 2 } (.text "1")
      (NameMap.empty.insert "title" (.text "Plan")) draftsWorld
    (Part.whole : Part (World Store) (World Store)).Lawful ∧ drafts.client = .memory .whole ∧
      drafts.env.Apart (stored .whole) ∧
      retitled.1 = .error (.refused .deadlineExceeded) ∧
      stored .whole retitled.2 = stored .whole draftsWorld := by
  intro retitled
  have lawful : (Part.whole : Part (World Store) (World Store)).Lawful := fun _ _ => rfl
  have timedOut : retitled.1 = .error (.refused .deadlineExceeded) := by decide +kernel
  obtain ⟨-, -, -, keeps, -⟩ := timeout_changes_nothing (k := drafts) lawful rfl ticking_apart
  exact ⟨lawful, rfl, ticking_apart, timedOut, keeps _ _ _ draftsWorld _ timedOut rfl⟩

/-- The context ends between the deletions of two drafts, and the first of them is gone. -/
theorem halfDeleted_changed :
    ¬ KeepsOnTimeout (stored .whole) (drafts.deleteByCondition { deadline := some 5 } {}) := by
  intro keeps
  have timedOut : (drafts.deleteByCondition { deadline := some 5 } {} draftsWorld).1
      = .error (.refused .deadlineExceeded) := by decide +kernel
  have left :
      (stored .whole (drafts.deleteByCondition { deadline := some 5 } {} draftsWorld).2).size 0
        = 1 := by decide +kernel
  have before : (stored .whole draftsWorld).size 0 = 2 := by decide +kernel
  rw [keeps draftsWorld _ timedOut rfl, before] at left
  cases left

end Recordkeeper.KeyValue
