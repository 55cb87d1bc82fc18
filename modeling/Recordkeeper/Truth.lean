/-!
Contract: three-valued logic.

Owns: the three truth values, their connectives and folds of the connectives over lists.

Does not own: when a predicate is unknown.
-/

set_option autoImplicit false

namespace Recordkeeper

/-- A truth value of the logic in which a test of something missing is unknown. -/
inductive Truth where
  | true
  | false
  | unknown
  deriving DecidableEq, Repr, Inhabited

namespace Truth

def ofBool (b : Bool) : Truth := if b then .true else .false

/-- False as soon as one side is false, true when both are true. -/
def and : Truth → Truth → Truth
  | .false, _ => .false
  | _, .false => .false
  | .true, .true => .true
  | _, _ => .unknown

/-- True as soon as one side is true, false when both are false. -/
def or : Truth → Truth → Truth
  | .true, _ => .true
  | _, .true => .true
  | .false, .false => .false
  | _, _ => .unknown

def not : Truth → Truth
  | .true => .false
  | .false => .true
  | .unknown => .unknown

def isTrue : Truth → Bool
  | .true => Bool.true
  | _ => Bool.false

/-- Conjunction of a list; the empty one is true. -/
def all (ts : List Truth) : Truth := ts.foldl and .true

/-- Disjunction of a list; the empty one is false. -/
def any (ts : List Truth) : Truth := ts.foldl or .false

/-- The truth of a test on an order, unknown when the operands do not compare. -/
def ofOrder (order : Option Ordering) (test : Ordering → Bool) : Truth :=
  match order with
  | some o => ofBool (test o)
  | none => .unknown

end Truth

end Recordkeeper
