import Recordkeeper.Condition

/-!
Contract: the description of one request, built up option by option.

Owns:
- the parts of a query and how an option changes them: lists grow, numbers and modes are
  replaced;
- the implicit conjunction of its conditions, and the query without order and paging.

Does not own: which parts a backend supports.
-/

set_option autoImplicit false

namespace Recordkeeper

inductive Direction where
  | asc
  | desc
  deriving DecidableEq, Repr

structure SortKey where
  field : String
  direction : Direction
  deriving DecidableEq, Repr

inductive JoinKind where
  | inner
  | left
  | right
  | full
  deriving DecidableEq, Repr

/-- A relational join; `on` is text of the engine. -/
structure Join where
  kind : JoinKind
  table : String
  on : String
  deriving DecidableEq, Repr

structure Query where
  conditions : List Condition := []
  sort : List SortKey := []
  limit : Option Nat := none
  offset : Option Nat := none
  select : List String := []
  groupBy : List String := []
  having : List Condition := []
  joins : List Join := []
  preloads : List String := []
  distinct : Bool := false
  lock : LockMode := .none

inductive QueryOption where
  | filter (condition : Condition)
  | orderBy (key : SortKey)
  | limit (n : Nat)
  | offset (n : Nat)
  | select (fields : List String)
  | distinct
  | groupBy (fields : List String)
  | having (condition : Condition)
  | join (join : Join)
  | preload (names : List String)
  | lock (mode : LockMode)

namespace Query

/-- Name under which the rows of a grouped query carry the size of their group. -/
def countField : String := "count"

def apply (q : Query) : QueryOption → Query
  | .filter c => { q with conditions := q.conditions ++ [c] }
  | .orderBy key => { q with sort := q.sort ++ [key] }
  | .limit n => { q with limit := some n }
  | .offset n => { q with offset := some n }
  | .select fields => { q with select := q.select ++ fields }
  | .distinct => { q with distinct := true }
  | .groupBy fields => { q with groupBy := q.groupBy ++ fields }
  | .having c => { q with having := q.having ++ [c] }
  | .join j => { q with joins := q.joins ++ [j] }
  | .preload names => { q with preloads := q.preloads ++ names }
  | .lock mode => { q with lock := mode }

def ofOptions (options : List QueryOption) : Query := options.foldl apply {}

/-- The implicit conjunction as one condition, if there is any. -/
def combinedCondition (q : Query) : Option Condition :=
  match q.conditions with
  | [] => none
  | [c] => some c
  | many => some (.group .and many)

def validate (q : Query) : Except Error Unit :=
  match Condition.validateAll q.conditions with
  | .ok () => Condition.validateAll q.having
  | .error e => .error e

def equal (p q : Query) : Bool :=
  Condition.equalAll p.conditions q.conditions && p.sort == q.sort && p.limit == q.limit
    && p.offset == q.offset && p.select == q.select && p.groupBy == q.groupBy
    && Condition.equalAll p.having q.having && p.joins == q.joins
    && p.preloads == q.preloads && p.distinct == q.distinct && p.lock == q.lock

def isGrouped (q : Query) : Bool := !q.groupBy.isEmpty

/-- Whether equal projections are merged; without a projection there is nothing to merge. -/
def isDistinct (q : Query) : Bool := q.distinct && !q.select.isEmpty

/-- The query without order and paging, as counting needs it. -/
def unpaged (q : Query) : Query := { q with sort := [], limit := none, offset := none }

def firstOnly (q : Query) : Query := { q with limit := some 1 }

def ungroupedField? (q : Query) : Option String :=
  q.select.find? fun f => !q.groupBy.contains f

/-- A deletion selects whole records: conditions are the only part it takes, besides parts
that change no selection. -/
def checkDelete (q : Query) : Except Error Unit :=
  if q.limit.isSome || q.offset.isSome || !q.joins.isEmpty || q.isGrouped || !q.having.isEmpty
  then refuse .deleteTakesConditionsOnly
  else .ok ()

end Query

end Recordkeeper
