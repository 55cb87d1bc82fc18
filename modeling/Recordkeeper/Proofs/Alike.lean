import Recordkeeper.Proofs.Action

/-!
Contract: two computations, over states of their own, that no caller can tell apart.

Owns:
- pairs of computations that answer alike from related states and leave related states;
- environments that are alike;
- their composition, so that the requests of two repositories are followed call by call.

Does not own: the relation of the states.
-/

set_option autoImplicit false

namespace Recordkeeper

universe u

variable {σ τ α β ε E : Type}

/-- From related states the computations give one answer, and leave related states. -/
def Alike {γ : Type u} (related : σ → τ → Prop) (f : σ → γ × σ) (g : τ → γ × τ) : Prop :=
  ∀ s t, related s t → (f s).1 = (g t).1 ∧ related (f s).2 (g t).2

structure Environment.Alike (related : σ → τ → Prop) (env : Environment σ)
    (other : Environment τ) : Prop where
  observe : Recordkeeper.Alike related env.observe other.observe
  freshId : Recordkeeper.Alike related env.freshId other.freshId

namespace Alike

variable {related : σ → τ → Prop}

theorem ofExcept (r : Except Error α) :
    Alike related (Action.ofExcept r : Action σ α) (Action.ofExcept r : Action τ α) :=
  fun _ _ relates => ⟨rfl, relates⟩

theorem pure (a : α) : Alike related (Pure.pure a : Action σ α) (Pure.pure a : Action τ α) :=
  fun _ _ relates => ⟨rfl, relates⟩

theorem pureState (a : α) : Alike related (Pure.pure a : StateM σ α) (Pure.pure a : StateM τ α) :=
  fun _ _ relates => ⟨rfl, relates⟩

theorem refuse (reason : Refusal) :
    Alike related (Action.refuse reason : Action σ α) (Action.refuse reason : Action τ α) :=
  ofExcept _

/-- Nothing comes after a refusal. -/
theorem refuseFirst (reason : Refusal) (next : α → Action σ β) (next' : α → Action τ β) :
    Alike related (Action.refuse reason >>= next) (Action.refuse reason >>= next') :=
  fun _ _ relates => ⟨rfl, relates⟩

/-- What comes second only has to be alike after answers of what comes first. -/
theorem bind {action : Action σ α} {action' : Action τ α} {next : α → Action σ β}
    {next' : α → Action τ β} (first : Alike related action action')
    (rest : ∀ a, (∃ s, (action s).1 = .ok a) → Alike related (next a) (next' a)) :
    Alike related (action >>= next) (action' >>= next') := by
  intro s t relates
  obtain ⟨same, left⟩ := first s t relates
  have goesOn (a : α) (answered : (action s).1 = .ok a) := rest a ⟨s, answered⟩
  rw [Action.run_bind, Action.run_bind]
  generalize action s = outcome at same left goesOn
  generalize action' t = outcome' at same left
  obtain ⟨answer, after⟩ := outcome
  obtain ⟨answer', after'⟩ := outcome'
  cases same
  cases answer with
  | error e => exact ⟨rfl, left⟩
  | ok a => exact goesOn a rfl after after' left

theorem bindState {f : StateM σ α} {g : StateM τ α} {next : α → StateM σ β}
    {next' : α → StateM τ β} (first : Alike related f g)
    (rest : ∀ a, Alike related (next a) (next' a)) : Alike related (f >>= next) (g >>= next') := by
  intro s t relates
  obtain ⟨same, left⟩ := first s t relates
  show (next (f s).1 (f s).2).1 = (next' (g t).1 (g t).2).1
    ∧ related (next (f s).1 (f s).2).2 (next' (g t).1 (g t).2).2
  rw [← same]
  exact rest (f s).1 _ _ left

theorem lift {f : StateM σ α} {g : StateM τ α} (alike : Alike related f g) :
    Alike related (liftM f : Action σ α) (liftM g : Action τ α) := by
  intro s t relates
  obtain ⟨same, left⟩ := alike s t relates
  exact ⟨congrArg Except.ok same, left⟩

/-! ### Computations of repositories -/

variable {env : Environment σ} {env' : Environment τ} (surrounded : env.Alike related env')

include surrounded

theorem check (ctx : Context) :
    Alike related (Action.check env ctx) (Action.check env' ctx) := by
  intro s t relates
  obtain ⟨same, left⟩ := surrounded.observe s t relates
  exact ⟨congrArg ctx.check same, left⟩

theorem effective (ctx : Context) (timeout : Option Micros) :
    Alike related (Action.effective env ctx timeout) (Action.effective env' ctx timeout) := by
  intro s t relates
  obtain ⟨same, left⟩ := surrounded.observe s t relates
  exact ⟨congrArg (ctx.effective · timeout) same, left⟩

theorem call {native : σ → Except ε α × σ} {native' : τ → Except ε α × τ}
    (alike : Alike related native native') (ctx : Context) (wrap : ε → Error) :
    Alike related (Action.call env ctx wrap native) (Action.call env' ctx wrap native') := by
  refine (check surrounded ctx).bind fun _ _ => ?_
  intro s t relates
  obtain ⟨same, left⟩ := alike s t relates
  exact ⟨congrArg (Except.mapError wrap) same, left⟩

theorem prepareId (schema : Schema) (r : Record) :
    Alike related (schema.prepareId env r) (schema.prepareId env' r) := by
  unfold Schema.prepareId
  split
  · exact (ofExcept _).bind fun _ _ => pure _
  · split
    · exact refuse _
    · exact pure _
    · refine bind ?_ fun _ _ => pure _
      intro s t relates
      obtain ⟨same, left⟩ := surrounded.freshId s t relates
      exact ⟨congrArg Except.ok same, left⟩

omit surrounded in
theorem insertEach {create : E → Action σ E} {create' : E → Action τ E}
    (alike : ∀ entity, Alike related (create entity) (create' entity)) (entities : List E) :
    ∀ position, Alike related (insertEach create position entities)
      (insertEach create' position entities) := by
  induction entities with
  | nil => exact fun _ => pureState _
  | cons entity rest inductionHypothesis =>
      intro position
      unfold Recordkeeper.insertEach
      refine bindState (alike entity) fun answer => ?_
      cases answer with
      | ok created => exact bindState (inductionHypothesis _) fun _ => pureState _
      | error e => exact bindState (inductionHypothesis _) fun _ => pureState _

end Alike

end Recordkeeper
