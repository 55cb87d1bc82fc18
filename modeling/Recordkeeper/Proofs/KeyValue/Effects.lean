import Recordkeeper.KeyValue.Repository
import Recordkeeper.Proofs.Action
import Recordkeeper.Proofs.KeyValue.Reading

/-!
Contract: what the calls of a repository do to a store in memory.

Owns:
- the calls that read, and the requests made of them, which leave the store as it is;
- that the conditional writes and the deletion answer in any case.

Does not own: clocks and tokens, which may change whenever they are asked for.
-/

set_option autoImplicit false

namespace Recordkeeper.KeyValue

variable {σ β E : Type} {p : Part σ (World Store)} {k : Records σ E}

/-- What is in the store of a state. -/
def stored (p : Part σ (World Store)) (s : σ) : Store := (p.view s).store

theorem stored_run (lawful : p.Lawful) (request : World Store → β × World Store) (s : σ) :
    stored p (p.run request s).2 = (request (p.view s)).2.store :=
  congrArg World.store (p.view_run lawful request s)

namespace Store

variable {key : String} {value : Bytes} {ttl : Micros} {now : Instant} {s : Store}

theorem setIfPresent_answers : ∃ written, (s.setIfPresent key value now).1 = .ok written := by
  unfold setIfPresent
  split
  next => exact ⟨_, rfl⟩
  next => split <;> exact ⟨_, rfl⟩

theorem expire_answers : ∃ present, (s.expire key ttl now).1 = .ok present := by
  unfold expire
  split
  next => exact ⟨_, rfl⟩
  next =>
    split
    next => split <;> exact ⟨_, rfl⟩
    next => exact ⟨_, rfl⟩

end Store

namespace Records

section Reading

variable {step : Store → Store → Prop} (lawful : p.Lawful) (client : k.client = .memory p)
  (apart : k.env.Apart (stored p))

include lawful client apart

theorem get_moves (ctx : Context) (key : String) :
    Moves (stored p) step (k.call ctx (k.client.get key)) := by
  rw [client]
  exact .call apart (.of_same fun s => stored_run lawful _ s) ctx _

theorem page_moves (ctx : Context) (cursor : Nat) (pattern : String) (count : Nat) :
    Moves (stored p) step (k.call ctx (k.client.scan cursor pattern count)) := by
  rw [client]
  exact .call apart (.of_same fun s => stored_run lawful _ s) ctx _

theorem load_moves (ctx : Context) (key : String) :
    Moves (stored p) step (k.load ctx key) := by
  unfold load
  refine (get_moves lawful client apart ctx key).bind fun raw => ?_
  cases raw with
  | none => exact .refuse _
  | some raw => exact .ofExcept _

omit lawful in
/-- A record that is loaded is read from an entry of the store. -/
theorem load_entry {ctx : Context} {key : String} {r : Record} {s : σ}
    (loaded : (k.load ctx key s).1 = .ok r) :
    ∃ e, Store.entry? (stored p s) key = some e ∧ k.decode key e.value = .ok r := by
  obtain ⟨raw, answered, decoded⟩ := Action.ok_of_bind loaded
  cases raw with
  | none => cases decoded
  | some raw =>
      unfold call at answered
      rw [Action.run_call, client] at answered
      cases alive : ctx.check (k.env.observe s).1 with
      | error e =>
          rw [alive] at answered
          cases answered
      | ok live =>
          rw [alive] at answered
          have found : ((stored p (k.env.observe s).2).live? key
              (p.view (k.env.observe s).2).now).map (·.value) = some raw := Except.ok.inj answered
          rw [apart.observe] at found
          obtain ⟨e, live, rfl⟩ := Option.map_eq_some_iff.1 found
          exact ⟨e, (Option.filter_eq_some_iff.1 live).1, decoded⟩

theorem visit_moves (ctx : Context) (keys : List String) :
    ∀ seen, Moves (stored p) step (k.visit ctx keys seen) := by
  induction keys with
  | nil => exact fun seen => .pure _
  | cons key rest inductionHypothesis =>
      intro seen
      rw [visit]
      refine .ite (inductionHypothesis seen) ?_
      dsimp only
      refine .ite ((Moves.refuse _).bind fun _ => ?_) ?_
      all_goals
        refine (get_moves lawful client apart ctx key).bind fun raw => ?_
        cases raw with
        | none => exact inductionHypothesis _
        | some raw =>
            refine (Moves.ofExcept _).bind fun r => ?_
            exact (inductionHypothesis _).bind fun _ => .pure _

theorem scanFrom_moves (ctx : Context) :
    ∀ pages cursor seen, Moves (stored p) step (k.scanFrom ctx pages cursor seen) := by
  intro pages
  induction pages with
  | zero => exact fun _ _ => .pure _
  | succ pages inductionHypothesis =>
      intro cursor seen
      rw [scanFrom]
      refine (page_moves lawful client apart ctx cursor _ _).bind fun page => ?_
      obtain ⟨next, keys⟩ := page
      refine (visit_moves lawful client apart ctx keys seen).bind fun visited => ?_
      exact .ite (.pure _) ((inductionHypothesis next _).bind fun _ => .pure _)

theorem scan_moves (ctx : Context) : Moves (stored p) step (k.scan ctx) :=
  scanFrom_moves lawful client apart ctx _ _ _

theorem all_moves (ctx : Context) : Moves (stored p) step (k.all ctx) :=
  (scan_moves lawful client apart ctx).bind fun _ => .pure _

theorem findById_moves (ctx : Context) (id : Value) :
    Moves (stored p) step (k.findById ctx id) := by
  refine (Moves.ofExcept _).bind fun key => (Moves.effective apart ctx _).lift.bind fun ctx => ?_
  exact (load_moves lawful client apart ctx key).bind fun _ => .ofExcept _

theorem query_moves (ctx : Context) (q : Query) : Moves (stored p) step (k.query ctx q) := by
  refine (Moves.ofExcept _).bind fun plan => (Moves.effective apart ctx _).lift.bind fun ctx => ?_
  exact (all_moves lawful client apart ctx).bind fun _ => .pure _

theorem findAll_moves (ctx : Context) (q : Query) : Moves (stored p) step (k.findAll ctx q) :=
  (query_moves lawful client apart ctx q).bind fun _ => .ofExcept _

theorem queryOne_moves (ctx : Context) (q : Query) : Moves (stored p) step (k.queryOne ctx q) :=
  (query_moves lawful client apart ctx q.firstOnly).bind fun _ => .ofExcept _

theorem count_moves (ctx : Context) (q : Query) : Moves (stored p) step (k.count ctx q) := by
  refine (Moves.ofExcept _).bind fun plan => (Moves.effective apart ctx _).lift.bind fun ctx => ?_
  exact (all_moves lawful client apart ctx).bind fun _ => .pure _

theorem existsAny_moves (ctx : Context) (q : Query) : Moves (stored p) step (k.existsAny ctx q) :=
  (query_moves lawful client apart ctx q.firstOnly).bind fun _ => .pure _

theorem ttl_moves (ctx : Context) (id : Value) : Moves (stored p) step (k.ttl ctx id) := by
  refine (Moves.ofExcept _).bind fun key => (Moves.effective apart ctx _).lift.bind fun ctx => ?_
  have asks : Moves (stored p) step (k.client.ttl key) := by
    rw [client]
    exact .of_same fun s => stored_run lawful _ s
  refine (Moves.call apart asks ctx _).bind fun lifetime => ?_
  cases lifetime with
  | missing => exact .refuse _
  | noExpiry | remaining => exact .pure _

end Reading

end Records

end Recordkeeper.KeyValue
