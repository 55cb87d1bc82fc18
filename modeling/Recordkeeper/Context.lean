import Recordkeeper.Config

/-!
Contract: when a call must stop.

Owns:
- the clock and the tokens a context is judged against;
- contexts with a deadline and a cancellation token;
- the check made before each native call.

Does not own: the calls themselves.  A native call that has started reports its own outcome.
-/

set_option autoImplicit false

namespace Recordkeeper

/-- A moment, in microseconds from an arbitrary origin. -/
abbrev Instant := Int

/-- Name of a cancellation flag shared between a caller and running calls. -/
abbrev Token := Nat

structure Surroundings where
  now : Instant := 0
  cancelled : List Token := []
  deriving DecidableEq, Repr

namespace Surroundings

def cancel (s : Surroundings) (token : Token) : Surroundings :=
  { s with cancelled := token :: s.cancelled }

def sleep (s : Surroundings) (span : Micros) : Surroundings := { s with now := s.now + span }

end Surroundings

structure Context where
  deadline : Option Instant := none
  token : Option Token := none
  deriving DecidableEq, Repr

namespace Context

/-- A context that never ends. -/
def background : Context := {}

def withTimeout (s : Surroundings) (span : Micros) : Context := { deadline := some (s.now + span) }

/-- The earlier of two deadlines counts. -/
def withDeadline (c : Context) (deadline : Instant) : Context :=
  { c with
    deadline :=
      match c.deadline with
      | some existing => some (min existing deadline)
      | none => some deadline }

def withToken (c : Context) (token : Token) : Context := { c with token := some token }

/-- Time left before the deadline, nothing once it has passed. -/
def remaining? (c : Context) (s : Surroundings) : Option Micros :=
  c.deadline.map fun d => (d - s.now).toNat

/-- Fails once the token is cancelled or the deadline has come; cancellation is reported
first. -/
def check (c : Context) (s : Surroundings) : Except Error Unit :=
  if c.token.any s.cancelled.contains then refuse .cancelled
  else if c.deadline.any fun d => d ≤ s.now then refuse .deadlineExceeded
  else .ok ()

def isDone (c : Context) (s : Surroundings) : Bool :=
  match c.check s with
  | .ok () => false
  | .error _ => true

/-- The context with a default timeout when it has no deadline of its own. -/
def effective (c : Context) (s : Surroundings) (defaultTimeout : Option Micros) : Context :=
  match c.deadline, defaultTimeout with
  | none, some span => c.withDeadline (s.now + span)
  | _, _ => c

end Context

end Recordkeeper
