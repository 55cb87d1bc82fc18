import Recordkeeper.Transaction

/-!
Contract: what a scope is asked for, whatever its body does to the machine.

Owns:
- bodies that see the machine and change it by its transitions;
- runs that keep a record of what was called, and that the record changes nothing else;
- `runInScope_settled_iff`: the runs that settle their scope, told by the state in which the body
  leaves the machine, and what becomes of all others.

Does not own: bodies that leave the machine alone (`Proofs.Transaction`).

The driver asks the machine before it asks the scope.  So a body that has begun the commit or has
finished the transaction by itself makes the driver give up in front of the scope.  Only after a
panic is the answer of the machine dropped.
-/

set_option autoImplicit false

namespace Recordkeeper

variable {σ α : Type}

/-! ### Bodies that see the machine -/

namespace TxState

theorem start_idle : TxState.idle.start = (.ok (), .active) := rfl

/-- What anybody who sees the machine can ask it for. -/
inductive Step where
  | start
  | startCommit
  | finishCommit
  | rollBack
  deriving DecidableEq, Repr

/-- The state after a step.  A step that is refused leaves the state. -/
def Step.take : Step → TxState → TxState
  | .start, s => s.start.2
  | .startCommit, s => s.startCommit.2
  | .finishCommit, s => s.finishCommit.2
  | .rollBack, s => s.rollBack.2

def after (s : TxState) (steps : List Step) : TxState := steps.foldl (fun s step => step.take s) s

theorem Step.take_ne_idle {s : TxState} (begun : s ≠ .idle) (step : Step) : step.take s ≠ .idle := by
  cases step <;> cases s <;> first | exact absurd rfl begun | decide

/-- No steps lead back to the beginning. -/
theorem after_ne_idle {s : TxState} (begun : s ≠ .idle) (steps : List Step) :
    s.after steps ≠ .idle := by
  induction steps generalizing s with
  | nil => exact begun
  | cons step rest inductionHypothesis => exact inductionHypothesis (step.take_ne_idle begun)

end TxState

/-- A body that sees the machine.  It may look at the state and take any steps, and it ends in any
way. -/
structure TxRoutine (σ α : Type) where
  run : TxState × σ → Ending α × (TxState × σ)
  stepwise : ∀ entry, ∃ steps, (run entry).2.1 = entry.1.after steps

theorem TxRoutine.run_ne_idle (routine : TxRoutine σ α) (s : σ) :
    (routine.run (.active, s)).2.1 ≠ .idle := by
  obtain ⟨steps, left⟩ := routine.stepwise (.active, s)
  rw [left]
  exact TxState.after_ne_idle (s := .active) nofun steps

/-! ### Runs by the end of their body -/

section Runs

variable {scope : TxScope σ} {body : TxState × σ → Ending α × (TxState × σ)} {s w : σ}
  {machine : TxState}

/-- A machine that is not idle refuses the body. -/
theorem runInScope_busy (busy : machine ≠ .idle) :
    runInScope scope body (machine, s)
      = (.error (.refused (.invalidTransition machine .active)), machine, s) := by
  cases machine with
  | idle => exact absurd rfl busy
  | active | committing | committed | rolledBack => rfl

theorem runInScope_value {a : α} (ran : body (.active, s) = (.value a, machine, w)) :
    runInScope scope body (.idle, s)
      = if machine = .active then
          match scope.commit w with
          | (.ok (), w) => (.value a, .committed, w)
          | (.error e, w) => (.error e, .rolledBack, w)
        else (.error (.refused (.invalidTransition machine .committing)), machine, w) := by
  simp only [runInScope, TxState.start_idle, ran]
  cases machine with
  | active =>
      rw [if_pos rfl]
      show (match scope.commit w with | (.ok (), w) => _ | (.error e, w) => _) = _
      rcases scope.commit w with ⟨⟨⟩, w⟩ <;> rfl
  | idle | committing | committed | rolledBack => rfl

theorem runInScope_error {e : Error} (ran : body (.active, s) = (.error e, machine, w)) :
    runInScope scope body (.idle, s)
      = if machine = .active ∨ machine = .committing then
          (.error e, .rolledBack, (scope.rollback w).2)
        else (.error (.refused (.invalidTransition machine .rolledBack)), machine, w) := by
  simp only [runInScope, TxState.start_idle, ran]
  cases machine <;> rfl

theorem runInScope_panic (ran : body (.active, s) = (.panic, machine, w)) :
    runInScope scope body (.idle, s) = (.panic, machine.rollBack.2, (scope.rollback w).2) := by
  simp only [runInScope, TxState.start_idle, ran]

end Runs

/-! ### Recorded runs -/

inductive ScopeCall where
  | body
  | commit
  | rollback
  deriving DecidableEq, Repr

def TxScope.recorded (scope : TxScope σ) : TxScope (σ × List ScopeCall) where
  commit s := ((scope.commit s.1).1, (scope.commit s.1).2, s.2 ++ [.commit])
  rollback s := ((scope.rollback s.1).1, (scope.rollback s.1).2, s.2 ++ [.rollback])

def TxRoutine.recorded (routine : TxRoutine σ α) (entry : TxState × (σ × List ScopeCall)) :
    Ending α × (TxState × (σ × List ScopeCall)) :=
  let ran := routine.run (entry.1, entry.2.1)
  (ran.1, ran.2.1, ran.2.2, entry.2.2 ++ [.body])

theorem TxRoutine.recorded_start {routine : TxRoutine σ α} {ending : Ending α} {machine : TxState}
    {s w : σ} (ran : routine.run (.active, s) = (ending, machine, w)) :
    routine.recorded (.active, s, []) = (ending, machine, w, [.body]) := by
  simp only [TxRoutine.recorded, ran]
  rfl

/-- How a run ends, with the calls made in it. -/
structure ScopeRun (σ α : Type) where
  ending : Ending α
  machine : TxState
  world : σ
  calls : List ScopeCall

def TxScope.course (scope : TxScope σ) (routine : TxRoutine σ α) (machine : TxState) (s : σ) :
    ScopeRun σ α :=
  let ran := runInScope scope.recorded routine.recorded (machine, s, [])
  ⟨ran.1, ran.2.1, ran.2.2.1, ran.2.2.2⟩

namespace TxScope

variable (scope : TxScope σ) (routine : TxRoutine σ α) {s w : σ} {machine : TxState}

theorem course_busy (busy : machine ≠ .idle) :
    scope.course routine machine s
      = ⟨.error (.refused (.invalidTransition machine .active)), machine, s, []⟩ := by
  rw [course, runInScope_busy busy]

theorem course_value {a : α} (ran : routine.run (.active, s) = (.value a, machine, w)) :
    scope.course routine .idle s
      = if machine = .active then
          match scope.commit w with
          | (.ok (), w) => ⟨.value a, .committed, w, [.body, .commit]⟩
          | (.error e, w) => ⟨.error e, .rolledBack, w, [.body, .commit]⟩
        else ⟨.error (.refused (.invalidTransition machine .committing)), machine, w, [.body]⟩ := by
  rw [course, runInScope_value (TxRoutine.recorded_start ran)]
  split
  next =>
    simp only [TxScope.recorded]
    rcases scope.commit w with ⟨⟨⟩, after⟩ <;> rfl
  next => rfl

theorem course_error {e : Error} (ran : routine.run (.active, s) = (.error e, machine, w)) :
    scope.course routine .idle s
      = if machine = .active ∨ machine = .committing then
          ⟨.error e, .rolledBack, (scope.rollback w).2, [.body, .rollback]⟩
        else ⟨.error (.refused (.invalidTransition machine .rolledBack)), machine, w, [.body]⟩ := by
  rw [course, runInScope_error (TxRoutine.recorded_start ran)]
  split <;> rfl

theorem course_panic (ran : routine.run (.active, s) = (.panic, machine, w)) :
    scope.course routine .idle s
      = ⟨.panic, machine.rollBack.2, (scope.rollback w).2, [.body, .rollback]⟩ := by
  rw [course, runInScope_panic (TxRoutine.recorded_start ran)]
  rfl

/-- The record changes nothing else. -/
theorem runInScope_eq_course (machine : TxState) (s : σ) :
    runInScope scope routine.run (machine, s)
      = ((scope.course routine machine s).ending, (scope.course routine machine s).machine,
          (scope.course routine machine s).world) := by
  by_cases idle : machine = .idle
  · subst idle
    rcases ran : routine.run (.active, s) with ⟨ending, left, w⟩
    cases ending with
    | value a =>
        rw [runInScope_value ran, course_value scope routine ran]
        split
        next => rcases scope.commit w with ⟨⟨⟩, after⟩ <;> rfl
        next => rfl
    | error e =>
        rw [runInScope_error ran, course_error scope routine ran]
        split <;> rfl
    | panic => rw [runInScope_panic ran, course_panic scope routine ran]
  · rw [runInScope_busy idle, course_busy scope routine idle]

end TxScope

/-! ### Settled runs -/

/-- The scope is settled: the transaction is over, one of commit and rollback was called, once and
after the body, and the run ends as the body and this call say. -/
structure ScopeRun.Settles (run : ScopeRun σ α) (scope : TxScope σ)
    (ran : Ending α × (TxState × σ)) : Prop where
  finished : run.machine = .committed ∨ run.machine = .rolledBack
  once : run.calls = [.body, .commit] ∨ run.calls = [.body, .rollback]
  commits : .commit ∈ run.calls → ∃ a, ran.1 = .value a
  value_iff : ∀ a, run.ending = .value a ↔
    ran.1 = .value a ∧ .commit ∈ run.calls ∧ (scope.commit ran.2.2).1 = .ok ()
  panics : ran.1 = .panic → run.ending = .panic ∧ .rollback ∈ run.calls

/-- The state in which a body has to leave the machine, by the way it ends. -/
def LeavesOpen (ran : Ending α × (TxState × σ)) : Prop :=
  match ran.1 with
  | .value _ => ran.2.1 = .active
  | .error _ => ran.2.1 = .active ∨ ran.2.1 = .committing
  | .panic => True

/-- The run has given up: the scope was asked for nothing, and the machine is where the body left
it. -/
structure ScopeRun.GivesUp (run : ScopeRun σ α) (ran : Ending α × (TxState × σ)) : Prop where
  unasked : run.calls = [.body]
  machine : run.machine = ran.2.1
  refused : ∃ target, run.ending = .error (.refused (.invalidTransition ran.2.1 target))

theorem ScopeRun.GivesUp.not_settles {run : ScopeRun σ α} {scope : TxScope σ}
    {ran : Ending α × (TxState × σ)} (givesUp : run.GivesUp ran) : ¬ run.Settles scope ran := by
  intro settles
  rcases settles.once with committed | rolledBack
  · rw [givesUp.unasked] at committed
    cases committed
  · rw [givesUp.unasked] at rolledBack
    cases rolledBack

namespace TxScope

variable (scope : TxScope σ) (routine : TxRoutine σ α) (s : σ)

theorem course_settles (leavesOpen : LeavesOpen (routine.run (.active, s))) :
    (scope.course routine .idle s).Settles scope (routine.run (.active, s)) := by
  have begun := routine.run_ne_idle s
  rcases ran : routine.run (.active, s) with ⟨ending, machine, w⟩
  rw [ran] at leavesOpen begun
  cases ending with
  | value a =>
      have active : machine = .active := leavesOpen
      rw [course_value scope routine ran, if_pos active]
      rcases answered : scope.commit w with ⟨⟨⟩ | ⟨⟩, after⟩
      next e =>
        have failed : (scope.commit w).1 = .error e := congrArg Prod.fst answered
        refine ⟨.inr rfl, .inl rfl, fun _ => ⟨a, rfl⟩, fun b => ⟨nofun, fun both => ?_⟩, nofun⟩
        have succeeded : (scope.commit w).1 = .ok () := both.2.2
        rw [failed] at succeeded
        cases succeeded
      next =>
        have succeeded : (scope.commit w).1 = .ok () := congrArg Prod.fst answered
        exact ⟨.inl rfl, .inl rfl, fun _ => ⟨a, rfl⟩,
          fun b => ⟨fun same => ⟨same, .tail _ (.head _), succeeded⟩, fun both => both.1⟩, nofun⟩
  | error e =>
      have unfinished : machine = .active ∨ machine = .committing := leavesOpen
      rw [course_error scope routine ran, if_pos unfinished]
      exact ⟨.inr rfl, .inr rfl, nofun, fun a => ⟨nofun, nofun⟩, nofun⟩
  | panic =>
      rw [course_panic scope routine ran]
      refine ⟨?_, .inr rfl, nofun, fun a => ⟨nofun, nofun⟩, fun _ => ⟨rfl, .tail _ (.head _)⟩⟩
      -- The machine was finished by the body, or it is rolled back now.
      cases machine with
      | idle => exact absurd rfl begun
      | committed => exact .inl rfl
      | active | committing | rolledBack => exact .inr rfl

theorem course_givesUp (closed : ¬ LeavesOpen (routine.run (.active, s))) :
    (scope.course routine .idle s).GivesUp (routine.run (.active, s)) := by
  rcases ran : routine.run (.active, s) with ⟨ending, machine, w⟩
  rw [ran] at closed
  cases ending with
  | value a =>
      have finished : ¬ machine = .active := closed
      rw [course_value scope routine ran, if_neg finished]
      exact ⟨rfl, rfl, _, rfl⟩
  | error e =>
      have finished : ¬ (machine = .active ∨ machine = .committing) := closed
      rw [course_error scope routine ran, if_neg finished]
      exact ⟨rfl, rfl, _, rfl⟩
  | panic => exact absurd trivial closed

end TxScope

/-- A run from an idle machine settles its scope exactly when the body panics, ends with an error
and leaves the transaction unfinished, or ends with a value and leaves the machine active; any
other run gives up.  From any other state the body is not run, nothing is asked of the scope, and
the machine stays where it is. -/
theorem runInScope_settled_iff (scope : TxScope σ) (routine : TxRoutine σ α) (machine : TxState)
    (s : σ) :
    let run := scope.course routine machine s
    let ran := routine.run (.active, s)
    runInScope scope routine.run (machine, s) = (run.ending, run.machine, run.world) ∧
      (machine = .idle →
        (run.Settles scope ran ↔ LeavesOpen ran) ∧ (¬ LeavesOpen ran → run.GivesUp ran)) ∧
      (machine ≠ .idle → run.machine = machine ∧ run.world = s ∧ run.calls = [] ∧
        ∃ e, run.ending = .error e ∧ e.kind = .transaction) := by
  intro run ran
  refine ⟨scope.runInScope_eq_course routine machine s, fun idle => ?_, fun busy => ?_⟩
  · subst idle
    refine ⟨⟨fun settles => ?_, scope.course_settles routine s⟩, scope.course_givesUp routine s⟩
    exact Classical.byContradiction fun closed =>
      (scope.course_givesUp routine s closed).not_settles settles
  · have refused : run = _ := scope.course_busy routine busy
    rw [refused]
    exact ⟨rfl, rfl, rfl, _, rfl, rfl⟩

/-- A scope that always settles. -/
def easyScope : TxScope Unit where
  commit s := (.ok (), s)
  rollback s := (.ok (), s)

/-- The body begins the commit by itself and ends in a given way. -/
def commitBeginner (ending : Ending Nat) : TxRoutine Unit Nat where
  run entry := (ending, entry.1.startCommit.2, entry.2)
  stepwise _ := ⟨[.startCommit], rfl⟩

theorem commitBeginner_rolledBack :
    let failing := commitBeginner (.error (.refused .jsonSyntax))
    let run := easyScope.course failing .idle ()
    LeavesOpen (failing.run (.active, ())) ∧
      run.Settles easyScope (failing.run (.active, ())) ∧
      (.active : TxState) ≠ .idle ∧ (easyScope.course failing .active ()).calls = [] := by
  intro failing run
  have open_ : LeavesOpen (failing.run (.active, ())) := .inr rfl
  have fromIdle := (runInScope_settled_iff easyScope failing .idle ()).2.1 rfl
  have fromActive := (runInScope_settled_iff easyScope failing .active ()).2.2 nofun
  exact ⟨open_, fromIdle.1.2 open_, nofun, fromActive.2.2.1⟩

/-- A body that has begun the commit and ends with a value is neither committed nor rolled back,
and the machine stays in between. -/
theorem commitBeginner_unsettled :
    let run := easyScope.course (commitBeginner (.value 5)) .idle ()
    run.calls = [.body] ∧ run.machine = .committing ∧
      ¬ run.Settles easyScope ((commitBeginner (.value 5)).run (.active, ())) := by
  refine ⟨rfl, rfl, fun settles => ?_⟩
  rcases settles.finished with committed | rolledBack
  · cases committed
  · cases rolledBack

end Recordkeeper
