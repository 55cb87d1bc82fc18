import Recordkeeper.Context
import Recordkeeper.Binary64.Basic

/-!
Contract: repeating a call after passing failures, with growing pauses.

Owns:
- the policies and the pause before each repetition;
- the loop, which repeats only after errors of a retryable kind and while the context lives.

Does not own: the repeated call.  Repositories never repeat on their own.
-/

set_option autoImplicit false

namespace Recordkeeper

structure RetryPolicy where
  /-- Repetitions after the first call. -/
  maxAttempts : Nat
  initialBackoff : Micros
  maxBackoff : Micros
  multiplier : Binary64
  deriving DecidableEq, Repr

namespace RetryPolicy

def noRetry : RetryPolicy := ⟨0, 0, 0, .ofNat 1⟩

def fast : RetryPolicy := ⟨3, 10000, 100000, .ofNat 2⟩

def standard : RetryPolicy := ⟨5, 100000, 5000000, .ofNat 2⟩

/-- An attempt number as the exponent of the multiplier: 32 bits with sign. -/
def attemptExponent (attempt : Nat) : Int := Int.bmod attempt (1 <<< 32)

/-- Whole milliseconds before repetition number `attempt`, counted from zero: the first pause
times a power of the multiplier, at most the greatest pause. -/
def backoffMillis (p : RetryPolicy) (attempt : Nat) : Nat :=
  let grown := (Binary64.ofNat (p.initialBackoff / 1000)).mul
    (p.multiplier.powInt (attemptExponent attempt))
  (grown.minimum (.ofNat (p.maxBackoff / 1000))).toNatClamped (1 <<< 64)

def backoff (p : RetryPolicy) (attempt : Nat) : Micros := p.backoffMillis attempt * 1000

end RetryPolicy

/-- Surroundings that can be read and in which time can be spent. -/
structure Pausing (σ : Type) where
  view : σ → Surroundings
  sleep : Micros → σ → σ

/-- The repetitions after a call that failed with `last`; `left` of them remain. -/
def retryLoop {σ α : Type} (pausing : Pausing σ) (ctx : Context) (policy : RetryPolicy)
    (call : σ → Except Error α × σ) : Nat → Error → σ → Except Error α × σ
  | 0, last, world => (.error last, world)
  | left + 1, last, world =>
    let pause := policy.backoff (policy.maxAttempts - (left + 1))
    let pause :=
      match ctx.remaining? (pausing.view world) with
      | some remaining => min pause remaining
      | none => pause
    let world := pausing.sleep pause world
    if ctx.isDone (pausing.view world) then (.error last, world)
    else
      match call world with
      | (.ok a, world) => (.ok a, world)
      | (.error e, world) =>
        if e.isRetryable then retryLoop pausing ctx policy call left e world
        else (.error e, world)

/-- Calls until success, an error that is not retryable, the end of the policy, or the end of
the context.  The first call is made whatever the context says. -/
def retryWith {σ α : Type} (pausing : Pausing σ) (ctx : Context) (policy : RetryPolicy)
    (call : σ → Except Error α × σ) (world : σ) : Except Error α × σ :=
  match call world with
  | (.ok a, world) => (.ok a, world)
  | (.error e, world) =>
    if e.isRetryable then retryLoop pausing ctx policy call policy.maxAttempts e world
    else (.error e, world)

end Recordkeeper
