import Mathlib.Logic.Relation
import Recordkeeper.Entity.Basic
import Recordkeeper.World

/-!
Contract: what a computation may do to a part of its state.

Owns:
- what a step that did not fail gives;
- computations that move a view of the state along the steps of a relation, or keep it;
- their composition, so that the requests of a repository are followed call by call;
- computations that keep what holds of the state, and those that keep a view when they fail;
- what becomes of the id of a new record;
- parts of a state that give back what was put.

Does not own: the steps of a store.
-/

set_option autoImplicit false

namespace Recordkeeper

open Relation

/-- What is put in a part is what is seen there. -/
def Part.Lawful {σ τ : Type} (p : Part σ τ) : Prop := ∀ t s, p.view (p.put t s) = t

theorem Part.view_run {σ τ β : Type} {p : Part σ τ} (lawful : p.Lawful) (request : τ → β × τ)
    (s : σ) : p.view (p.run request s).2 = (request (p.view s)).2 :=
  lawful _ s

theorem Part.view_modify {σ τ : Type} {p : Part σ τ} (lawful : p.Lawful) (change : τ → τ)
    (s : σ) : p.view (p.modify change s) = change (p.view s) :=
  lawful _ s

theorem Part.Lawful.inside {σ τ ρ : Type} {outer : Part σ τ} {inner : Part τ ρ}
    (outerLawful : outer.Lawful) (innerLawful : inner.Lawful) : (outer.inside inner).Lawful := by
  intro r s
  show inner.view (outer.view (outer.put (inner.put r (outer.view s)) s)) = r
  rw [outerLawful, innerLawful]

/-- The computation takes any number of steps in the view. -/
def Moves {σ τ β : Type} (view : σ → τ) (step : τ → τ → Prop) (f : σ → β × σ) : Prop :=
  ∀ s, ReflTransGen step (view s) (view (f s).2)

/-- Asking for signals and for new ids leaves the view as it is. -/
structure Environment.Apart {σ τ : Type} (env : Environment σ) (view : σ → τ) : Prop where
  observe : ∀ s, view (env.observe s).2 = view s
  freshId : ∀ s, view (env.freshId s).2 = view s

/-- What is seen of a view that is left as it is. -/
theorem Environment.Apart.comp {σ τ ρ : Type} {env : Environment σ} {view : σ → τ}
    (apart : env.Apart view) (detail : τ → ρ) : env.Apart fun s => detail (view s) where
  observe s := congrArg detail (apart.observe s)
  freshId s := congrArg detail (apart.freshId s)

/-- The clock and the supply of ids around a store do not touch the store. -/
theorem World.environment_apart {σ τ : Type} {p : Part σ (World τ)} (lawful : p.Lawful) :
    (World.environment p).Apart fun s => (p.view s).store where
  observe _ := rfl
  freshId s := by
    show (p.view (p.run _ s).2).store = _
    rw [p.view_run lawful]

variable {σ τ α β ε E : Type}

/-! ### Composition -/

/-- A step that did not fail, and what was done with its result. -/
theorem exists_of_bind {E A B : Type} {x : Except E A} {f : A → Except E B} {b : B}
    (done : x >>= f = .ok b) : ∃ a, x = .ok a ∧ f a = .ok b := by
  cases x with
  | error e => cases done
  | ok a => exact ⟨a, rfl, done⟩

/-- What all single steps give, each at its place. -/
theorem getElem?_of_mapM {E A B : Type} {f : A → Except E B} {as : List A} {bs : List B}
    (mapped : as.mapM f = .ok bs) :
    bs.length = as.length ∧ ∀ (i : Nat) a, as[i]? = some a → ∃ b, bs[i]? = some b ∧ f a = .ok b := by
  induction as generalizing bs with
  | nil =>
      obtain rfl := Except.ok.inj mapped
      refine ⟨rfl, fun i a member => ?_⟩
      rw [List.getElem?_nil] at member
      cases member
  | cons a rest inductionHypothesis =>
      rw [List.mapM_cons] at mapped
      obtain ⟨b, first, mapped⟩ := exists_of_bind mapped
      obtain ⟨others, later, mapped⟩ := exists_of_bind mapped
      obtain rfl := Except.ok.inj mapped
      obtain ⟨length, each⟩ := inductionHypothesis later
      refine ⟨congrArg (· + 1) length, fun i x member => ?_⟩
      cases i with
      | zero =>
          obtain rfl := Option.some.inj member
          exact ⟨b, rfl, first⟩
      | succ i => exact each i x member

/-- All steps together fail only if one of them does. -/
theorem exists_mapM_iff {E A B : Type} {f : A → Except E B} {as : List A} :
    (∃ bs, as.mapM f = .ok bs) ↔ ∀ a ∈ as, ∃ b, f a = .ok b := by
  induction as with
  | nil => exact ⟨fun _ => nofun, fun _ => ⟨[], rfl⟩⟩
  | cons a rest inductionHypothesis =>
      rw [List.forall_mem_cons, ← inductionHypothesis, List.mapM_cons]
      constructor
      · rintro ⟨bs, mapped⟩
        obtain ⟨b, first, mapped⟩ := exists_of_bind mapped
        obtain ⟨others, later, -⟩ := exists_of_bind mapped
        exact ⟨⟨b, first⟩, others, later⟩
      · rintro ⟨⟨b, first⟩, others, later⟩
        rw [first, later]
        exact ⟨b :: others, rfl⟩

/-- What each single step gives, all of them together give. -/
theorem forall_of_mapM {E A B : Type} {f : A → Except E B} {P : B → Prop} {as : List A}
    (each : ∀ a ∈ as, ∀ b, f a = .ok b → P b) {bs : List B} (mapped : as.mapM f = .ok bs) :
    ∀ b ∈ bs, P b := by
  obtain ⟨length, stepAt⟩ := getElem?_of_mapM mapped
  intro b member
  obtain ⟨i, inside, rfl⟩ := List.getElem_of_mem member
  have listed := List.getElem?_eq_getElem (length ▸ inside)
  obtain ⟨other, same, done⟩ := stepAt i _ listed
  obtain rfl := Option.some.inj ((List.getElem?_eq_getElem inside).symm.trans same)
  exact each _ (List.getElem_mem _) _ done

theorem Action.run_bind (action : Action σ α) (next : α → Action σ β) (s : σ) :
    (action >>= next) s
      = match action s with
        | (.ok a, after) => next a after
        | (.error e, after) => (.error e, after) := by
  rcases outcome : action s with ⟨answer, after⟩
  simp only [bind, ExceptT.bind, ExceptT.mk, StateT.bind, outcome]
  cases answer <;> rfl

/-- An action that is followed by something without effects. -/
theorem Action.answer_bind (action : Action σ α) (next : α → Except Error β) (s : σ) :
    ((action >>= fun a => Action.ofExcept (next a)) s).1 = (action s).1 >>= next := by
  rw [run_bind]
  rcases action s with ⟨_ | a, after⟩ <;> rfl

/-- An action in two parts that did not fail: the first part answered, and the second one did from
the state that the first one left. -/
theorem Action.ok_of_bind {action : Action σ α} {next : α → Action σ β} {s : σ} {b : β}
    (done : ((action >>= next) s).1 = .ok b) :
    ∃ a, (action s).1 = .ok a ∧ (next a (action s).2).1 = .ok b := by
  rw [run_bind] at done
  generalize action s = outcome at done ⊢
  obtain ⟨answer, after⟩ := outcome
  cases answer with
  | ok a => exact ⟨a, rfl, done⟩
  | error e => cases done

/-- An action in two parts that did not fail, with the answer of its first part. -/
theorem Action.exists_of_bind {action : Action σ α} {next : α → Action σ β} {s : σ} {b : β}
    (done : ((action >>= next) s).1 = .ok b) :
    ∃ a t, (action s).1 = .ok a ∧ (next a t).1 = .ok b := by
  obtain ⟨a, first, rest⟩ := ok_of_bind done
  exact ⟨a, _, first, rest⟩

/-- Two steps that did not fail, with the states that they left. -/
theorem Action.steps_of_bind {action : Action σ α} {next : α → Action σ β} {s u : σ}
    {b : β} (done : (action >>= next) s = (.ok b, u)) :
    ∃ a t, action s = (.ok a, t) ∧ next a t = (.ok b, u) := by
  rw [run_bind] at done
  split at done
  next a t first => exact ⟨a, t, first, done⟩
  next => cases done

theorem Action.run_lift (f : StateM σ α) (s : σ) :
    (liftM f : Action σ α) s = (.ok (f s).1, (f s).2) := rfl

theorem Action.run_call (env : Environment σ) (ctx : Context) (wrap : ε → Error)
    (native : σ → Except ε α × σ) (s : σ) :
    Action.call env ctx wrap native s
      = match ctx.check (env.observe s).1 with
        | .ok () => ((native (env.observe s).2).1.mapError wrap, (native (env.observe s).2).2)
        | .error e => (.error e, (env.observe s).2) := by
  unfold Action.call
  rw [Action.run_bind]
  unfold Action.check
  generalize env.observe s = observed
  obtain ⟨surroundings, after⟩ := observed
  dsimp -proj only
  cases ctx.check surroundings <;> rfl

/-- A call that succeeded is a native one that did, once signals were asked for. -/
theorem Action.native_of_call {env : Environment σ} {ctx : Context} {wrap : ε → Error}
    {native : σ → Except ε α × σ} {s u : σ} {a : α}
    (done : Action.call env ctx wrap native s = (.ok a, u)) :
    native (env.observe s).2 = (.ok a, u) := by
  rw [run_call] at done
  split at done
  next =>
    generalize native (env.observe s).2 = result at done
    obtain ⟨answer, after⟩ := result
    cases answer with
    | error failure => cases done
    | ok b =>
        cases done
        rfl
  next => cases done

/-- What is known before an action has one outcome. -/
theorem Action.eq_of_ofExcept {x : Except Error α} {a b : α} {s t : σ}
    (done : (Action.ofExcept x : Action σ α) s = (.ok b, t)) (outcome : x = .ok a) :
    b = a ∧ t = s := by
  obtain ⟨answer, same⟩ := Prod.mk.inj (show (x, s) = _ from done)
  rw [outcome] at answer
  exact ⟨(Except.ok.inj answer).symm, same.symm⟩

/-- The context of a call has ended, or its native part takes place; by then nothing has changed in
what signals leave alone. -/
theorem Action.call_cases {env : Environment σ} {view : σ → τ} (apart : env.Apart view)
    (ctx : Context) (wrap : ε → Error) (native : σ → Except ε α × σ) (s : σ) :
    ∃ t, view t = view s ∧ ((∃ e, Action.call env ctx wrap native s = (.error e, t)) ∨
      Action.call env ctx wrap native s = ((native t).1.mapError wrap, (native t).2)) := by
  refine ⟨(env.observe s).2, apart.observe s, ?_⟩
  rw [Action.run_call]
  cases ctx.check (env.observe s).1 with
  | error e => exact .inl ⟨e, rfl⟩
  | ok live => exact .inr rfl

/-- An answer of a call is an answer of the native part. -/
theorem Action.exists_of_call {env : Environment σ} {ctx : Context} {wrap : ε → Error}
    {native : σ → Except ε α × σ} {s : σ} {a : α}
    (done : (Action.call env ctx wrap native s).1 = .ok a) : ∃ t, (native t).1 = .ok a := by
  exact ⟨_, by rw [native_of_call (Prod.ext done rfl)]⟩

namespace Moves

variable {view : σ → τ} {step : τ → τ → Prop}

theorem of_same {f : σ → β × σ} (same : ∀ s, view (f s).2 = view s) : Moves view step f := by
  intro s
  rw [same s]

theorem of_step {f : σ → β × σ} (moves : ∀ s, step (view s) (view (f s).2)) :
    Moves view step f := by
  intro s
  exact .single (moves s)

/-- A computation that takes no steps keeps the view. -/
theorem view_eq {f : σ → β × σ} (moves : Moves view (fun _ _ => False) f) (s : σ) :
    view (f s).2 = view s :=
  (reflTransGen_iff_eq fun _ => id).1 (moves s)

theorem pure (a : α) : Moves view step (Pure.pure a : Action σ α) := of_same fun _ => rfl

theorem ofExcept (r : Except Error α) : Moves view step (Action.ofExcept r : Action σ α) :=
  of_same fun _ => rfl

theorem refuse (reason : Refusal) : Moves view step (Action.refuse reason : Action σ α) :=
  of_same fun _ => rfl

theorem bind {action : Action σ α} {next : α → Action σ β} (first : Moves view step action)
    (rest : ∀ a, Moves view step (next a)) : Moves view step (action >>= next) := by
  intro s
  have moved := first s
  rw [Action.run_bind]
  rcases outcome : action s with ⟨answer, after⟩
  rw [outcome] at moved
  cases answer with
  | ok a => exact moved.trans (rest a after)
  | error e => exact moved

theorem bindState {f : StateM σ α} {next : α → StateM σ β} (first : Moves view step f)
    (rest : ∀ a, Moves view step (next a)) : Moves view step (f >>= next) := by
  intro s
  exact (first s).trans (rest (f s).1 (f s).2)

theorem lift {f : StateM σ α} (moves : Moves view step f) :
    Moves view step (liftM f : Action σ α) := moves

theorem ite {condition : Prop} [Decidable condition] {yes no : σ → β × σ}
    (first : Moves view step yes) (second : Moves view step no) :
    Moves view step (if condition then yes else no) := by
  split
  · exact first
  · exact second

/-! ### Computations of repositories -/

variable {env : Environment σ} (apart : env.Apart view)

include apart

theorem check (ctx : Context) : Moves view step (Action.check env ctx) :=
  of_same fun s => apart.observe s

theorem effective (ctx : Context) (timeout : Option Micros) :
    Moves view step (Action.effective env ctx timeout) :=
  of_same fun s => apart.observe s

/-- A native call moves the view as the native part does. -/
theorem call {native : σ → Except ε α × σ} (moves : Moves view step native) (ctx : Context)
    (wrap : ε → Error) : Moves view step (Action.call env ctx wrap native) := by
  refine (check apart ctx).bind fun _ => ?_
  intro s
  exact moves s

theorem prepareId (schema : Schema) (r : Record) : Moves view step (schema.prepareId env r) := by
  unfold Schema.prepareId
  split
  · exact (ofExcept _).bind fun _ => pure _
  · split
    · exact refuse _
    · exact pure _
    · refine bind ?_ fun _ => pure _
      exact of_same fun s => apart.freshId s

end Moves

/-! ### Ids of new records -/

/-- What preparing an id comes to.  A record that brings an id is stored as it is; one that brings
none is given a fresh text, or is left to the engine to number.  Or the record is refused. -/
inductive Schema.Prepared (schema : Schema) (env : Environment σ) (own : Record) (s : σ) :
    Except Error (Option Value × Record) × σ → Prop
  | refused (e : Error) : Prepared schema env own s (.error e, s)
  | given {id : Value} (has : schema.idOf? own = some id) :
      Prepared schema env own s (.ok (some id, own), s)
  | numbered (missing : schema.idOf? own = none) (strategy : schema.idStrategy = .autoIncrement) :
      Prepared schema env own s (.ok (none, own.erase schema.primaryKey), s)
  | drawn (missing : schema.idOf? own = none) (strategy : schema.idStrategy = .uuid) :
      Prepared schema env own s
        (.ok (some (.text (env.freshId s).1),
          own.insert schema.primaryKey (.text (env.freshId s).1)), (env.freshId s).2)

theorem Schema.prepareId_prepared (schema : Schema) (env : Environment σ) (own : Record) (s : σ) :
    schema.Prepared env own s (schema.prepareId env own s) := by
  unfold prepareId
  cases has : schema.idOf? own with
  | some id =>
      dsimp only
      rw [Action.run_bind]
      cases schema.checkId id with
      | error e => exact .refused e
      | ok _ => exact .given has
  | none =>
      cases strategy : schema.idStrategy with
      | provided => exact .refused _
      | autoIncrement => exact .numbered has strategy
      | uuid => exact .drawn has strategy

theorem Schema.prepared_of_ok {schema : Schema} {env : Environment σ} {own : Record} {s : σ}
    {answer : Option Value × Record} (answered : (schema.prepareId env own s).1 = .ok answer) :
    ∃ t, schema.Prepared env own s (.ok answer, t) := by
  rw [← answered]
  exact ⟨_, schema.prepareId_prepared env own s⟩

/-! ### Invariants -/

/-- A computation that keeps what holds of the state. -/
def Preserves (holds : σ → Prop) (f : σ → β × σ) : Prop := ∀ s, holds s → holds (f s).2

namespace Preserves

variable {holds : σ → Prop}

theorem of_moves {view : σ → τ} {invariant : τ → Prop} {f : σ → β × σ}
    (moves : Moves view (fun _ _ => False) f) : Preserves (fun s => invariant (view s)) f := by
  intro s held
  show invariant (view (f s).2)
  rw [moves.view_eq s]
  exact held

theorem ofExcept (r : Except Error α) : Preserves holds (Action.ofExcept r : Action σ α) :=
  fun _ held => held

theorem refuse (reason : Refusal) : Preserves holds (Action.refuse reason : Action σ α) :=
  fun _ held => held

theorem pure (a : α) : Preserves holds (Pure.pure a : Action σ α) := fun _ held => held

/-- What comes next may rely on the answer that it is given. -/
theorem bind {action : Action σ α} {next : α → Action σ β} (first : Preserves holds action)
    (rest : ∀ s a, holds s → (action s).1 = .ok a → Preserves holds (next a)) :
    Preserves holds (action >>= next) := by
  intro s held
  have kept := first s held
  have goesOn := rest s
  rw [Action.run_bind]
  rcases outcome : action s with ⟨answer, after⟩
  rw [outcome] at kept goesOn
  cases answer with
  | ok a => exact goesOn a held rfl after kept
  | error e => exact kept

theorem bindState {f : StateM σ α} {next : α → StateM σ β} (first : Preserves holds f)
    (rest : ∀ a, Preserves holds (next a)) : Preserves holds (f >>= next) := by
  intro s held
  exact rest (f s).1 (f s).2 (first s held)

/-- A call keeps what its native part keeps, if asking for signals cannot change it. -/
theorem call {env : Environment σ} {view : σ → τ} {invariant : τ → Prop} (apart : env.Apart view)
    {native : σ → Except ε α × σ} (kept : Preserves (fun s => invariant (view s)) native)
    (ctx : Context) (wrap : ε → Error) :
    Preserves (fun s => invariant (view s)) (Action.call env ctx wrap native) :=
  (of_moves (Moves.check apart ctx)).bind fun _ _ _ _ => kept

theorem ite {condition : Prop} [Decidable condition] {yes no : σ → β × σ}
    (first : Preserves holds yes) (second : Preserves holds no) :
    Preserves holds (if condition then yes else no) := by
  split
  · exact first
  · exact second

theorem insertEach {create : E → Action σ E} {entities : List E}
    (each : ∀ entity ∈ entities, Preserves holds (create entity)) :
    ∀ position, Preserves holds (Recordkeeper.insertEach create position entities) := by
  induction entities with
  | nil => exact fun _ _ held => held
  | cons entity rest inductionHypothesis =>
      intro position
      obtain ⟨first, others⟩ := List.forall_mem_cons.1 each
      unfold Recordkeeper.insertEach
      refine bindState first fun answer => ?_
      cases answer with
      | ok created => exact bindState (inductionHypothesis others _) fun _ _ held => held
      | error e => exact bindState (inductionHypothesis others _) fun _ _ held => held

end Preserves

/-- Moving from where one began is an invariant. -/
theorem Moves.insertEach {view : σ → τ} {step : τ → τ → Prop} {create : E → Action σ E}
    (moves : ∀ entity, Moves view step (create entity)) (entities : List E) (position : Nat) :
    Moves view step (insertEach create position entities) := by
  intro s
  have kept (entity : E) :
      Preserves (fun t => ReflTransGen step (view s) (view t)) (create entity) :=
    fun t reached => reached.trans (moves entity t)
  exact Preserves.insertEach (fun entity _ => kept entity) position s .refl

/-! ### Failures -/

/-- A computation that keeps a view when it fails, but for excused errors. -/
def Spares (view : σ → τ) (excused : Error → Prop) (action : Action σ α) : Prop :=
  ∀ s e, (action s).1 = .error e → view (action s).2 = view s ∨ excused e

namespace Spares

variable {view : σ → τ} {excused : Error → Prop}

theorem of_moves {action : Action σ α} (moves : Moves view (fun _ _ => False) action) :
    Spares view excused action := by
  intro s e _
  exact Or.inl (moves.view_eq s)

/-- What comes first keeps the view in any case. -/
theorem bind {action : Action σ α} {next : α → Action σ β}
    (first : Moves view (fun _ _ => False) action)
    (rest : ∀ s a, (action s).1 = .ok a → Spares view excused (next a)) :
    Spares view excused (action >>= next) := by
  intro s e failed
  have kept := first.view_eq s
  have spares := rest s
  rw [Action.run_bind] at failed ⊢
  generalize action s = outcome at failed kept spares ⊢
  obtain ⟨answer, after⟩ := outcome
  cases answer with
  | ok a =>
      rw [← kept]
      exact spares a rfl after e failed
  | error other => exact Or.inl kept

/-- What comes after fails with excused errors only. -/
theorem before {action : Action σ α} {next : α → Action σ β}
    (first : Spares view (fun _ => False) action)
    (rest : ∀ s a, (action s).1 = .ok a → ∀ t e, (next a t).1 = .error e → excused e) :
    Spares view excused (action >>= next) := by
  intro s e failed
  have spares := first s
  have answered := rest s
  rw [Action.run_bind] at failed ⊢
  generalize action s = outcome at failed spares answered ⊢
  obtain ⟨answer, after⟩ := outcome
  cases answer with
  | ok a => exact Or.inr (answered a rfl after e failed)
  | error other =>
      cases failed
      exact Or.inl ((spares e rfl).resolve_right not_false)

theorem call {env : Environment σ} (apart : env.Apart view) {native : σ → Except ε α × σ}
    (atomic : ∀ s failure, (native s).1 = .error failure → view (native s).2 = view s)
    (ctx : Context) (wrap : ε → Error) :
    Spares view excused (Action.call env ctx wrap native) := by
  intro s e failed
  left
  rw [Action.run_call] at failed ⊢
  cases alive : ctx.check (env.observe s).1 with
  | error e => exact apart.observe s
  | ok live =>
      rw [alive] at failed
      cases answer : (native (env.observe s).2).1 with
      | ok a =>
          rw [answer] at failed
          cases failed
      | error failure => exact (atomic _ failure answer).trans (apart.observe s)

/-- A step that keeps the view unless it answers yes, and is refused unless it does. -/
theorem tested {action : Action σ Bool} {next : Action σ β} {reason : Refusal}
    (first : ∀ s, (action s).1 ≠ .ok true → view (action s).2 = view s)
    (rest : ∀ s e, (next s).1 = .error e → excused e) :
    Spares view excused (action >>= fun done =>
      if !done then (Action.refuse reason : Action σ Unit) >>= fun _ => next else next) := by
  intro s e failed
  have kept := first s
  rw [Action.run_bind] at failed ⊢
  generalize action s = outcome at failed kept ⊢
  obtain ⟨answer, after⟩ := outcome
  cases answer with
  | ok done =>
      cases done with
      | true => exact Or.inr (rest after e failed)
      | false => exact Or.inl (kept nofun)
  | error other => exact Or.inl (kept nofun)

end Spares

end Recordkeeper
