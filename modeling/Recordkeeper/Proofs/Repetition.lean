import Recordkeeper.Retry

/-!
Contract: how often a repeated operation is called, and which of its outcomes is returned.

Owns:
- the calls that an operation would see if every one of them were repeated, with the pause and the
  check of the context behind it;
- runs that keep a record of their calls, and that the record changes nothing else;
- `retryWith_stops`: the call at which a run stops, and that no other call is made.

Does not own: how long the pauses are.

An operation may do anything to the world that it is called in: let time pass, cancel tokens, and
give its outcomes in any sequence.  So the context may end at any call, in a pause, or never.
-/

set_option autoImplicit false

namespace Recordkeeper

variable {σ α : Type}

/-- An outcome after which an operation may be called again. -/
def Passing : Except Error α → Prop
  | .ok _ => False
  | .error e => e.isRetryable = true

instance (outcome : Except Error α) : Decidable (Passing outcome) := by
  unfold Passing
  cases outcome <;> infer_instance

theorem exists_error_of_passing {outcome : Except Error α} (passing : Passing outcome) :
    ∃ e, outcome = .error e ∧ e.isRetryable = true := by
  cases outcome with
  | ok a => exact passing.elim
  | error e => exact ⟨e, rfl, passing⟩

/-- An operation with everything that its repetition depends on. -/
structure Repetition (σ α : Type) where
  pausing : Pausing σ
  ctx : Context
  policy : RetryPolicy
  call : σ → Except Error α × σ

namespace Repetition

/-! ### Calls that are all repeated -/

section Calls

variable (r : Repetition σ α) (world : σ)

def run : Except Error α × σ := retryWith r.pausing r.ctx r.policy r.call world

/-- The world after the pause in front of repetition number `attempt`. -/
def pause (attempt : Nat) (w : σ) : σ :=
  r.pausing.sleep
    (match r.ctx.remaining? (r.pausing.view w) with
      | some remaining => min (r.policy.backoff attempt) remaining
      | none => r.policy.backoff attempt) w

/-- The world in front of call number `n`, counted from zero. -/
def before : Nat → σ
  | 0 => world
  | n + 1 => r.pause n (r.call (before n)).2

def outcome (n : Nat) : Except Error α := (r.call (r.before world n)).1

def after (n : Nat) : σ := (r.call (r.before world n)).2

/-- The check of the context that follows call number `n` and its pause does not fail. -/
def Live (n : Nat) : Prop := r.ctx.isDone (r.pausing.view (r.before world (n + 1))) = false

/-- Call number `n` is the first whose outcome is decisive, which is the last of the policy, or
behind which the check fails. -/
structure StopsAt (n : Nat) : Prop where
  within : n ≤ r.policy.maxAttempts
  repeated : ∀ i < n, Passing (r.outcome world i) ∧ r.Live world i
  stops : Passing (r.outcome world n) → n = r.policy.maxAttempts ∨ ¬ r.Live world n

/-- The world at the end of a run that stops at call number `n`: behind the pause only if there is
a pause. -/
def final (n : Nat) : σ :=
  if Passing (r.outcome world n) ∧ n < r.policy.maxAttempts then r.before world (n + 1)
  else r.after world n

variable {r world}

theorem StopsAt.unique {m n : Nat} (first : r.StopsAt world m) (second : r.StopsAt world n) :
    m = n := by
  have notBelow {i j : Nat} (early : r.StopsAt world i) (late : r.StopsAt world j) : ¬ i < j := by
    intro below
    obtain ⟨passing, live⟩ := late.repeated i below
    rcases early.stops passing with last | failed
    · have := late.within
      omega
    · exact failed live
  have := notBelow first second
  have := notBelow second first
  omega

end Calls

/-! ### The course of a run -/

section Course

variable (r : Repetition σ α) (world : σ)

/-- What a run does with the answer to a call when so many calls remain. -/
def settle (remaining : Nat) : Except Error α × σ → Except Error α × σ
  | (.ok a, w) => (.ok a, w)
  | (.error e, w) =>
    if e.isRetryable then retryLoop r.pausing r.ctx r.policy r.call remaining e w else (.error e, w)

/-- One repetition: a pause, a check, and the next call unless the check fails. -/
theorem retryLoop_succ {remaining n : Nat} (place : n + (remaining + 1) = r.policy.maxAttempts)
    (last : Error) :
    retryLoop r.pausing r.ctx r.policy r.call (remaining + 1) last (r.after world n)
      = if r.ctx.isDone (r.pausing.view (r.before world (n + 1))) then
          (.error last, r.before world (n + 1))
        else r.settle remaining (r.call (r.before world (n + 1))) := by
  have attempt : r.policy.maxAttempts - (remaining + 1) = n := by omega
  rw [retryLoop, attempt]
  rfl

theorem settle_decisive {answer : Except Error α × σ} (decisive : ¬ Passing answer.1)
    (remaining : Nat) : r.settle remaining answer = answer := by
  rcases answer with ⟨e | a, w⟩
  · exact if_neg decisive
  · rfl

/-- When no calls remain, every answer is the last one. -/
theorem settle_zero (answer : Except Error α × σ) : r.settle 0 answer = answer := by
  rcases answer with ⟨e | a, w⟩
  · exact ite_self _
  · rfl

theorem settle_passing {n : Nat} {e : Error} (failed : r.outcome world n = .error e)
    (retryable : e.isRetryable = true) (remaining : Nat) :
    r.settle remaining (r.call (r.before world n))
      = retryLoop r.pausing r.ctx r.policy r.call remaining e (r.after world n) := by
  have answer : r.call (r.before world n) = (.error e, r.after world n) := by
    rw [← failed]
    rfl
  rw [answer]
  exact if_pos retryable

/-- A run that has come to call number `n` stops at this call or a later one. -/
theorem settle_stops {remaining n : Nat} (place : n + remaining = r.policy.maxAttempts)
    (repeated : ∀ i < n, Passing (r.outcome world i) ∧ r.Live world i) :
    ∃ m, r.StopsAt world m ∧
      r.settle remaining (r.call (r.before world n)) = (r.outcome world m, r.final world m) := by
  have within : n ≤ r.policy.maxAttempts := by omega
  induction remaining generalizing n with
  | zero =>
      refine ⟨n, ⟨within, repeated, fun _ => .inl (by omega)⟩, ?_⟩
      rw [r.settle_zero, final, if_neg fun both => absurd both.2 (by omega)]
      rfl
  | succ remaining inductionHypothesis =>
      by_cases passing : Passing (r.outcome world n)
      · obtain ⟨e, failed, retryable⟩ := exists_error_of_passing passing
        rw [r.settle_passing world failed retryable, r.retryLoop_succ world place]
        cases checked : r.ctx.isDone (r.pausing.view (r.before world (n + 1))) with
        | true =>
            have dead : ¬ r.Live world n := fun live => absurd (checked.symm.trans live) nofun
            refine ⟨n, ⟨within, repeated, fun _ => .inr dead⟩, ?_⟩
            rw [if_pos rfl, final, if_pos ⟨passing, by omega⟩, failed]
        | false =>
            rw [if_neg Bool.false_ne_true]
            refine inductionHypothesis (by omega) (fun i below => ?_) (by omega)
            rcases Nat.lt_succ_iff_lt_or_eq.1 below with earlier | rfl
            · exact repeated i earlier
            · exact ⟨passing, checked⟩
      · refine ⟨n, ⟨within, repeated, fun other => absurd other passing⟩, ?_⟩
        rw [r.settle_decisive passing, final, if_neg fun both => passing both.1]
        rfl

theorem run_stops : ∃ n, r.StopsAt world n ∧ r.run world = (r.outcome world n, r.final world n) :=
  r.settle_stops world (Nat.zero_add _) nofun

end Course

/-! ### Recorded runs -/

section Record

variable (r : Repetition σ α) (world : σ)

/-- The same repetition in a world with a list of the worlds that the operation was called in. -/
def recorded : Repetition (σ × List σ) α where
  pausing := ⟨fun w => r.pausing.view w.1, fun span w => (r.pausing.sleep span w.1, w.2)⟩
  ctx := r.ctx
  policy := r.policy
  call w := ((r.call w.1).1, (r.call w.1).2, w.2 ++ [w.1])

theorem before_recorded (n : Nat) :
    r.recorded.before (world, []) n = (r.before world n, (List.range n).map (r.before world)) := by
  induction n with
  | zero => rfl
  | succ n inductionHypothesis =>
      rw [before, inductionHypothesis, List.range_succ, List.map_append]
      rfl

theorem outcome_recorded (n : Nat) :
    r.recorded.outcome (world, []) n = r.outcome world n := by
  rw [outcome, before_recorded]
  rfl

theorem live_recorded (n : Nat) : r.recorded.Live (world, []) n ↔ r.Live world n := by
  rw [Live, before_recorded]
  rfl

theorem stopsAt_recorded {n : Nat} (stops : r.recorded.StopsAt (world, []) n) :
    r.StopsAt world n where
  within := stops.within
  repeated i below := by
    have passed := stops.repeated i below
    rwa [outcome_recorded, live_recorded] at passed
  stops passing := by
    have ended := stops.stops
    rw [outcome_recorded, live_recorded] at ended
    exact ended passing

/-- The record of a run that stops at call number `n` has this call and those before it. -/
theorem final_recorded (n : Nat) :
    r.recorded.final (world, []) n = (r.final world n, (List.range (n + 1)).map (r.before world)) := by
  have called : r.recorded.after (world, []) n
      = (r.after world n, (List.range (n + 1)).map (r.before world)) := by
    rw [after, before_recorded, List.range_succ, List.map_append]
    rfl
  unfold final
  rw [outcome_recorded, called, before_recorded]
  exact apply_ite (fun w => (w, (List.range (n + 1)).map (r.before world))) _ _ _ |>.symm

/-- How a run ends, with the worlds in which the operation was called. -/
structure Course (σ α : Type) where
  result : Except Error α
  world : σ
  calls : List σ

def course : Course σ α :=
  let ran := r.recorded.run (world, [])
  ⟨ran.1, ran.2.1, ran.2.2⟩

theorem course_eq {n : Nat} (stops : r.StopsAt world n) :
    r.course world
      = ⟨r.outcome world n, r.final world n, (List.range (n + 1)).map (r.before world)⟩ := by
  obtain ⟨m, recordedStops, ran⟩ := r.recorded.run_stops (world, [])
  obtain rfl := (r.stopsAt_recorded world recordedStops).unique stops
  rw [course, ran, outcome_recorded, final_recorded]

end Record

end Repetition

/-! ### The calls of a run -/

/-- A run stops at the first call that gives a decisive outcome, that is the last of the policy,
or behind which the check of the context fails, and it returns the outcome of this call.  It makes
this call and those before it, each in the world that the one before and the pause have left, and
no other; all outcomes before were passing, and all checks between the calls succeeded. -/
theorem retryWith_stops (r : Repetition σ α) (world : σ) :
    retryWith r.pausing r.ctx r.policy r.call world
        = ((r.course world).result, (r.course world).world) ∧
      ∃ n, n ≤ r.policy.maxAttempts ∧
        (r.course world).calls = (List.range (n + 1)).map (r.before world) ∧
        (r.course world).result = r.outcome world n ∧
        (∀ i < n, Passing (r.outcome world i) ∧ r.Live world i) ∧
        (Passing (r.outcome world n) → n = r.policy.maxAttempts ∨ ¬ r.Live world n) := by
  obtain ⟨n, stops, ran⟩ := r.run_stops world
  rw [r.course_eq world stops]
  exact ⟨ran, n, stops.within, rfl, rfl, stops.repeated, stops.stops⟩

/-- Cancelled during its second call, an operation that only times out is not called again. -/
example :
    let pausing : Pausing (Surroundings × Nat) := ⟨(·.1), fun span w => (w.1.sleep span, w.2)⟩
    let call (w : Surroundings × Nat) : Except Error Nat × (Surroundings × Nat) :=
      (refuse .connectionBusy, (if w.2 = 1 then w.1.cancel 0 else w.1, w.2 + 1))
    let r : Repetition (Surroundings × Nat) Nat := ⟨pausing, { token := some 0 }, .fast, call⟩
    (r.course ({}, 0)).result = refuse .connectionBusy ∧
      (r.course ({}, 0)).calls.length = 2 ∧ r.policy.maxAttempts = 3 := by
  exact ⟨rfl, rfl, rfl⟩

end Recordkeeper
