import Mathlib.Data.List.Induction
import Recordkeeper.Faults
import Recordkeeper.Proofs.Creation

/-!
Contract: what a batch of insertions reports.

Owns:
- reports that account for every entity of a batch, by its position;
- the invariant of a batch from that of a single insertion;
- the record and the id of an entity that is inserted, and the id that is written back;
- contexts that end while a batch runs, and insertions that fail on purpose.

Does not own: what a store gains, and relational batches, which are not inserted one by one.

A batch is followed from its end, since a report is written in the order of the positions: whatever
holds of the first entities is known when the next one is inserted.
-/

set_option autoImplicit false

namespace Recordkeeper

variable {σ φ E : Type}

/-! ### Batches -/

theorem insertEach_cons (create : E → Action σ E) (position : Nat) (entity : E) (rest : List E)
    (s : σ) :
    insertEach create position (entity :: rest) s
      = match create entity s with
        | (.ok created, t) =>
          let ((outcome, others), u) := insertEach create (position + 1) rest t
          ((⟨outcome.inserted + 1, outcome.failures⟩, created :: others), u)
        | (.error e, t) =>
          let ((outcome, others), u) := insertEach create (position + 1) rest t
          ((⟨outcome.inserted, (position, e) :: outcome.failures⟩, entity :: others), u) := by
  rw [insertEach]
  simp only [bind, StateT.bind]
  rcases create entity s with ⟨_ | created, t⟩ <;> rfl

/-- The last entity of a batch is inserted where the others have left the state. -/
theorem insertEach_concat (create : E → Action σ E) (entity : E) (entities : List E)
    (position : Nat) (s : σ) :
    insertEach create position (entities ++ [entity]) s
      = let ((outcome, others), t) := insertEach create position entities s
        match create entity t with
        | (.ok created, u) =>
          ((⟨outcome.inserted + 1, outcome.failures⟩, others ++ [created]), u)
        | (.error e, u) =>
          ((⟨outcome.inserted, outcome.failures ++ [(position + entities.length, e)]⟩,
            others ++ [entity]), u) := by
  induction entities generalizing position s with
  | nil =>
      rw [List.nil_append, insertEach_cons]
      rfl
  | cons first rest inductionHypothesis =>
      have further : position + 1 + rest.length = position + (first :: rest).length := by
        rw [List.length_cons]
        omega
      rw [List.cons_append, insertEach_cons, insertEach_cons]
      rcases create first s with ⟨_ | created, t⟩
      all_goals
        dsimp -proj only
        rw [inductionHypothesis, further]
        rcases insertEach create (position + 1) rest t with ⟨⟨outcome, others⟩, after⟩
        dsimp only
        rcases create entity after with ⟨_ | own, u⟩ <;> rfl

/-- A record that a batch stored: the position of its entity, the entity before and afterwards, and
what was stored for it. -/
structure BatchRow (E φ : Type) where
  position : Nat
  entity : E
  created : E
  content : φ

/-- A report on a batch together with the entities afterwards and the rows that were stored.  Every
position is that of a failure, where the entity is as it was, or of one row. -/
structure Accounts (entities : List E) (outcome : BatchOutcome) (after : List E)
    (rows : List (BatchRow E φ)) : Prop where
  total : outcome.inserted + outcome.failures.length = entities.length
  increasing : (outcome.failures.map (·.1)).Pairwise (· < ·)
  below : ∀ failure ∈ outcome.failures, failure.1 < entities.length
  length : after.length = entities.length
  unchanged : ∀ failure ∈ outcome.failures, after[failure.1]? = entities[failure.1]?
  positions : rows.map (·.position) = (List.range entities.length).filter fun position =>
    position ∉ outcome.failures.map (·.1)
  stored : ∀ row ∈ rows,
    entities[row.position]? = some row.entity ∧ after[row.position]? = some row.created

namespace Accounts

theorem nil : Accounts (φ := φ) ([] : List E) ⟨0, []⟩ [] [] where
  total := rfl
  increasing := .nil
  below := nofun
  length := rfl
  unchanged := nofun
  positions := rfl
  stored := nofun

variable {entities after : List E} {outcome : BatchOutcome} {rows : List (BatchRow E φ)}
  (accounts : Accounts entities outcome after rows) (entity : E)

include accounts

/-- A further entity leaves what is known of a position before it. -/
theorem getElem?_concat {position : Nat} (below : position < entities.length) (entity created : E) :
    (entities ++ [entity])[position]? = entities[position]? ∧
      (after ++ [created])[position]? = after[position]? :=
  ⟨List.getElem?_append_left below, List.getElem?_append_left (accounts.length ▸ below)⟩

theorem position_lt {row : BatchRow E φ} (member : row ∈ rows) : row.position < entities.length :=
  (List.getElem?_eq_some_iff.1 (accounts.stored row member).1).1

theorem insert (created : E) (content : φ) :
    Accounts (entities ++ [entity]) ⟨outcome.inserted + 1, outcome.failures⟩ (after ++ [created])
      (rows ++ [⟨entities.length, entity, created, content⟩]) where
  total := by
    have total := accounts.total
    simp only [List.length_append, List.length_singleton]
    omega
  increasing := accounts.increasing
  below failure member := by
    rw [List.length_append]
    exact Nat.lt_add_right _ (accounts.below failure member)
  length := by rw [List.length_append, List.length_append, accounts.length]; rfl
  unchanged failure member := by
    obtain ⟨same, sameAfter⟩ :=
      accounts.getElem?_concat (accounts.below failure member) entity created
    rw [same, sameAfter]
    exact accounts.unchanged failure member
  positions := by
    have free : entities.length ∉ outcome.failures.map (·.1) := by
      intro member
      obtain ⟨failure, listed, same⟩ := List.mem_map.1 member
      exact absurd same (Nat.ne_of_lt (accounts.below failure listed))
    rw [List.map_append, accounts.positions, List.length_append, List.length_singleton,
      List.range_succ, List.filter_append, List.filter_singleton, decide_eq_true free]
    rfl
  stored row member := by
    rcases List.mem_append.1 member with before | last
    · obtain ⟨same, sameAfter⟩ := accounts.getElem?_concat (accounts.position_lt before) entity created
      rw [same, sameAfter]
      exact accounts.stored row before
    · obtain rfl := List.mem_singleton.1 last
      refine ⟨List.getElem?_concat_length, ?_⟩
      show (after ++ [created])[entities.length]? = _
      rw [← accounts.length]
      exact List.getElem?_concat_length

theorem fail (e : Error) :
    Accounts (entities ++ [entity])
      ⟨outcome.inserted, outcome.failures ++ [(entities.length, e)]⟩ (after ++ [entity]) rows where
  total := by
    have total := accounts.total
    simp only [List.length_append, List.length_singleton]
    omega
  increasing := by
    rw [List.map_append]
    refine List.pairwise_append.2 ⟨accounts.increasing, List.pairwise_singleton _ _, ?_⟩
    intro position member last same
    obtain ⟨failure, listed, rfl⟩ := List.mem_map.1 member
    obtain rfl := List.mem_singleton.1 same
    exact accounts.below failure listed
  below failure member := by
    rw [List.length_append, List.length_singleton, Nat.lt_succ_iff]
    rcases List.mem_append.1 member with before | last
    · exact Nat.le_of_lt (accounts.below failure before)
    · obtain rfl := List.mem_singleton.1 last
      exact Nat.le_refl _
  length := by rw [List.length_append, List.length_append, accounts.length]
  unchanged failure member := by
    rcases List.mem_append.1 member with before | last
    · obtain ⟨same, sameAfter⟩ :=
        accounts.getElem?_concat (accounts.below failure before) entity entity
      rw [same, sameAfter]
      exact accounts.unchanged failure before
    · rw [List.mem_singleton.1 last]
      show (after ++ [entity])[entities.length]? = _
      rw [List.getElem?_concat_length, ← accounts.length, List.getElem?_concat_length]
  positions := by
    rw [accounts.positions, List.length_append, List.length_singleton, List.range_succ,
      List.filter_append, List.map_append]
    have last : ([entities.length].filter fun position =>
        position ∉ outcome.failures.map (·.1) ++ [(entities.length, e)].map (·.1)) = [] := by
      simp
    rw [last, List.append_nil]
    refine List.filter_congr fun position member => ?_
    have other : position ≠ entities.length := Nat.ne_of_lt (List.mem_range.1 member)
    simp [other]
  stored row member := by
    obtain ⟨same, sameAfter⟩ := accounts.getElem?_concat (accounts.position_lt member) entity entity
    rw [same, sameAfter]
    exact accounts.stored row member

end Accounts

/-- A batch accounts for every entity, and keeps what each single insertion keeps between the rows
stored so far and the state. -/
theorem insertEach_accounts (create : E → Action σ E) (keeps : List (BatchRow E φ) → σ → Prop)
    {s : σ} (start : keeps [] s) (entities : List E)
    (each : ∀ entity ∈ entities, ∀ rows t, keeps rows t →
      (∃ created content, (create entity t).1 = .ok created ∧ ∀ position,
        keeps (rows ++ [⟨position, entity, created, content⟩]) (create entity t).2) ∨
      (∃ e, (create entity t).1 = .error e) ∧ keeps rows (create entity t).2) :
    ∃ rows, Accounts entities (insertEach create 0 entities s).1.1
      (insertEach create 0 entities s).1.2 rows ∧ keeps rows (insertEach create 0 entities s).2 := by
  induction entities using List.reverseRecOn with
  | nil => exact ⟨[], .nil, start⟩
  | append_singleton entities entity inductionHypothesis =>
      obtain ⟨rows, accounts, kept⟩ := inductionHypothesis fun other member =>
        each other (List.mem_append_left _ member)
      have next := each entity (List.mem_append_right _ (List.mem_singleton_self _)) rows _ kept
      rw [insertEach_concat, Nat.zero_add]
      generalize insertEach create 0 entities s = run at accounts next ⊢
      obtain ⟨⟨outcome, after⟩, t⟩ := run
      dsimp only at accounts next ⊢
      rcases created : create entity t with ⟨answer, u⟩
      rw [created] at next
      rcases next with ⟨own, content, rfl, carried⟩ | ⟨⟨e, rfl⟩, carried⟩
      · exact ⟨_, accounts.insert entity own content, carried _⟩
      · exact ⟨rows, accounts.fail entity e, carried⟩

/-- An entity that cannot be inserted where the ones before it have left the state is among the
failures. -/
theorem insertEach_failed {create : E → Action σ E} {earlier : List E} {entity : E} {s : σ}
    (failed : ∃ e, (create entity (insertEach create 0 earlier s).2).1 = .error e)
    (later : List E) :
    earlier.length
      ∈ (insertEach create 0 (earlier ++ entity :: later) s).1.1.failures.map (·.1) := by
  induction later using List.reverseRecOn with
  | nil =>
      obtain ⟨e, failed⟩ := failed
      rw [insertEach_concat, Nat.zero_add]
      generalize insertEach create 0 earlier s = run at failed ⊢
      obtain ⟨⟨outcome, after⟩, t⟩ := run
      dsimp only at failed ⊢
      generalize create entity t = last at failed ⊢
      obtain ⟨answer, u⟩ := last
      obtain rfl : answer = .error e := failed
      exact List.mem_map_of_mem (List.mem_append_right _ (List.mem_singleton_self _))
  | append_singleton later last inductionHypothesis =>
      rw [← List.cons_append, ← List.append_assoc, insertEach_concat]
      generalize insertEach create 0 (earlier ++ entity :: later) s = run at inductionHypothesis ⊢
      obtain ⟨⟨outcome, after⟩, t⟩ := run
      dsimp only
      rcases create last t with ⟨_ | created, u⟩
      · rw [List.map_append]
        exact List.mem_append_left _ inductionHypothesis
      · exact inductionHypothesis

/-! ### One entity -/

/-- The record that is stored for an entity under an id, and the entity afterwards.  An entity that
brings an id stays as it is; any other one is given the id, in the record and in itself. -/
def Schema.Prepares (schema : Schema) (type : EntityType E) (entity created : E) (id : Value)
    (r : Record) : Prop :=
  ∃ own, schema.toRecord type entity = .ok own ∧
    ((schema.idOf? own = some id ∧ r = own ∧ created = entity) ∨
      (schema.idOf? own = none ∧ Generated schema.idStrategy id ∧
        r = own.insert schema.primaryKey id ∧ schema.assignId type entity id = .ok created))

theorem Schema.prepareId_some {schema : Schema} {env : Environment σ} {own r : Record} {id : Value}
    {s : σ} (prepared : (schema.prepareId env own s).1 = .ok (some id, r)) :
    (schema.idOf? own = some id ∧ r = own) ∨
      (schema.idOf? own = none ∧ Generated schema.idStrategy id ∧
        r = own.insert schema.primaryKey id) := by
  obtain ⟨t, prepared⟩ := prepared_of_ok prepared
  cases prepared with
  | given has => exact .inl ⟨has, rfl⟩
  | drawn missing strategy => exact .inr ⟨missing, strategy ▸ .text _, rfl⟩

/-- Preparing an id asks for a new one at most. -/
theorem Schema.prepareId_state (schema : Schema) (env : Environment σ) (own : Record) (s : σ) :
    (schema.prepareId env own s).2 = s ∨ (schema.prepareId env own s).2 = (env.freshId s).2 := by
  have cases' := schema.prepareId_prepared env own s
  generalize schema.prepareId env own s = result at cases' ⊢
  cases cases' with
  | refused e => exact .inl rfl
  | given has => exact .inl rfl
  | numbered missing strategy => exact .inl rfl
  | drawn missing strategy => exact .inr rfl

/-- The id is written back into an entity whose type takes it. -/
theorem writeBack_ok {schema : Schema} {type : EntityType E} {entity : E} {env : Environment σ}
    {own r : Record} {id : Value} {s : σ} (takes : ∀ e, ¬ RefusesId schema type entity e)
    (converted : schema.toRecord type entity = .ok own)
    (prepared : (schema.prepareId env own s).1 = .ok (some id, r)) (t : σ) :
    ∃ created, ((if (schema.idOf? own).isSome then pure entity
        else Action.ofExcept (schema.assignId type entity id) : Action σ E) t) = (.ok created, t) ∧
      schema.Prepares type entity created id r := by
  rcases Schema.prepareId_some prepared with ⟨has, rfl⟩ | ⟨missing, generated, rfl⟩
  · rw [has]
    exact ⟨entity, rfl, _, converted, .inl ⟨has, rfl, rfl⟩⟩
  · rw [missing]
    cases assigned : schema.assignId type entity id with
    | error e => exact absurd ⟨own, id, converted, missing, generated, assigned⟩ (takes e)
    | ok created =>
        exact ⟨created, rfl, own, converted, .inr ⟨missing, generated, rfl, assigned⟩⟩

theorem anyDocument_takes {schema : Schema} {entity : Json} (e : Error) :
    ¬ RefusesId schema .anyDocument entity e := by
  rintro ⟨r, id, converted, -, -, refused⟩
  unfold Schema.assignId at refused
  rw [converted] at refused
  cases refused

theorem Context.isDone_eq (ctx : Context) (s : Surroundings) :
    ctx.isDone s
      = (ctx.token.any s.cancelled.contains || ctx.deadline.any fun d => d ≤ s.now) := by
  unfold isDone check
  cases ctx.token.any s.cancelled.contains with
  | true => rfl
  | false => cases ctx.deadline.any fun d => d ≤ s.now <;> rfl

/-- A context that has ended by some state is found done there, also once a new id was issued. -/
structure Environment.Ends (env : Environment σ) (ctx : Context) (past : σ → Prop) : Prop where
  done : ∀ s, past s → ctx.isDone (env.observe s).1
  freshId : ∀ s, past s → past (env.freshId s).2

/-- Once the token of a context is cancelled, the context has ended. -/
theorem World.environment_ends {τ : Type} {p : Part σ (World τ)} (lawful : p.Lawful)
    {ctx : Context} {token : Token} (owns : ctx.token = some token) :
    (World.environment p).Ends ctx fun s => token ∈ (p.view s).surroundings.cancelled where
  done s cancelled := by
    have found : ctx.token.any (p.view s).surroundings.cancelled.contains = true := by
      rw [owns, Option.any_some]
      exact List.contains_iff_mem.2 cancelled
    show ctx.isDone (p.view s).surroundings = true
    rw [Context.isDone_eq, found, Bool.true_or]
  freshId s cancelled := by
    show token ∈ (p.view (p.run _ s).2).surroundings.cancelled
    rw [p.view_run lawful]
    exact cancelled

theorem Environment.Ends.call {ε α : Type} {env : Environment σ} {ctx : Context} {past : σ → Prop}
    (ends : env.Ends ctx past) (wrap : ε → Error) (native : σ → Except ε α × σ) {s : σ}
    (ended : past s) : ∃ e, (Action.call env ctx wrap native s).1 = .error e := by
  have done := ends.done s ended
  unfold Context.isDone at done
  rw [Action.run_call]
  cases alive : ctx.check (env.observe s).1 with
  | ok live =>
      rw [alive] at done
      cases done
  | error e => exact ⟨e, rfl⟩

theorem Environment.Ends.prepareId {env : Environment σ} {ctx : Context} {past : σ → Prop}
    (ends : env.Ends ctx past) (schema : Schema) (own : Record) {s : σ} (ended : past s) :
    past (schema.prepareId env own s).2 := by
  rcases schema.prepareId_state env own s with same | issued
  · rw [same]
    exact ended
  · rw [issued]
    exact ends.freshId s ended

/-- A default timeout does not revive a context. -/
theorem Environment.Ends.effective {env : Environment σ} {ctx : Context} {past : σ → Prop}
    (ends : env.Ends ctx past) (s : Surroundings) (timeout : Option Micros) :
    env.Ends (ctx.effective s timeout) past where
  done t ended := by
    have done := ends.done t ended
    unfold Context.effective
    split
    next span noDeadline =>
      rw [Context.isDone_eq, noDeadline, Option.any_none, Bool.or_false] at done
      rw [Context.isDone_eq]
      exact Bool.or_eq_true_iff.2 (.inl done)
    next => exact done
  freshId := ends.freshId

/-! ### Calls that fail on purpose -/

/-- A write that a plan guards fails before it begins, or it takes place after it was noted.  Once it
has succeeded that is noted too, and a token may be cancelled. -/
theorem FaultPlan.guardWrite_cases {μ f α : Type} [DecidableEq μ] (plan : FaultPlan μ f)
    (log : Part σ (CallLog μ)) (cancel : σ → σ) (method : μ) (native : σ → Except f α × σ) (s : σ) :
    (∃ failure note, plan.guardWrite log cancel method native s = (.error failure, log.put note s)) ∨
      ∃ note t u, log.put note s = t ∧
        plan.guardWrite log cancel method native s = ((native t).1, u) ∧
        (u = (native t).2 ∨
          ∃ note, u = log.put note (native t).2 ∨ u = cancel (log.put note (native t).2)) := by
  unfold guardWrite guard Part.modify
  dsimp only
  cases plan.failure? method ((log.view s).calls.count method) with
  | some failure => exact .inl ⟨failure, _, rfl⟩
  | none =>
      right
      dsimp only
      generalize noted : log.put _ s = t
      generalize done : native t = result
      obtain ⟨answer, after⟩ := result
      cases answer with
      | error failure => exact ⟨_, t, after, noted, by rw [done], .inl (by rw [done])⟩
      | ok a =>
          refine ⟨_, t, _, noted, by rw [done], .inr ?_⟩
          rw [done]
          split
          · exact ⟨_, .inr rfl⟩
          · exact ⟨_, .inl rfl⟩

end Recordkeeper
