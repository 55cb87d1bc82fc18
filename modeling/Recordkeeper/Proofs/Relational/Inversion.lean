import Recordkeeper.Proofs.Action
import Recordkeeper.Relational.Compiler

/-!
Contract: what the text of a condition was put together from.

Owns:
- the column a compiled predicate is tested on;
- the parts of a compiled group, of its members, of a compiled subquery and of the foreign text in
  it.

Does not own: what the parts say.
-/

set_option autoImplicit false

namespace Recordkeeper.Relational

variable {c : Compiler} {onGroups : Bool} {fs : List Fragment}

def head : Logic → String
  | .not => "NOT ("
  | .and | .or => "("

namespace Compiler

theorem exists_of_predicate {p : Predicate} (compiled : c.predicate onGroups p = .ok fs) :
    p.validate = .ok () ∧ ∃ col,
      (if onGroups && p.field = Query.countField then .ok "COUNT(*)" else c.column p.field) = .ok col ∧
      c.predicateOn p col = .ok fs := by
  obtain ⟨⟨⟩, valid, named⟩ := exists_of_bind compiled
  refine ⟨valid, ?_⟩
  split at named
  next counted => exact ⟨"COUNT(*)", if_pos counted, named⟩
  next ordinary =>
    obtain ⟨col, column, tested⟩ := exists_of_bind named
    exact ⟨col, (if_neg ordinary).trans column, tested⟩

theorem exists_of_group {logic : Logic} {child : Condition} {rest : List Condition}
    (compiled : c.condition onGroups (.group logic (child :: rest)) = .ok fs) :
    ∃ body, c.members onGroups (joiner logic) (child :: rest) = .ok body ∧
      fs = .text (head logic) :: body ++ [.text ")"] := by
  obtain ⟨body, written, same⟩ := exists_of_bind
    (x := c.members onGroups (joiner logic) (child :: rest)) compiled
  refine ⟨body, written, ?_⟩
  cases logic <;> exact (Except.ok.inj same).symm

theorem exists_of_members {between : String} {child next : Condition} {rest : List Condition}
    (compiled : c.members onGroups between (child :: next :: rest) = .ok fs) :
    ∃ front others, c.condition onGroups child = .ok front ∧
      c.members onGroups between (next :: rest) = .ok others ∧
      fs = front ++ .text between :: others := by
  obtain ⟨front, first, steps⟩ := exists_of_bind (x := c.condition onGroups child) compiled
  obtain ⟨others, later, same⟩ := exists_of_bind
    (x := c.members onGroups between (next :: rest)) steps
  exact ⟨front, others, first, later, (Except.ok.inj same).symm⟩

theorem exists_of_subquery {q : Subquery} (compiled : c.subquery q = .ok fs) :
    ∃ head body, c.subqueryHead q = .ok head ∧ foreign q.raw q.args = .ok body ∧
      fs = .text head :: body ++ [.text ")"] := by
  obtain ⟨_, -, compiled⟩ := exists_of_bind compiled
  obtain ⟨head, headed, compiled⟩ := exists_of_bind compiled
  obtain ⟨body, bound, same⟩ := exists_of_bind compiled
  exact ⟨head, body, headed, bound, (Except.ok.inj same).symm⟩

end Compiler

/-- A foreign text has a placeholder for each of its arguments. -/
theorem of_foreign {raw : String} {args : List Value} (bound : foreign raw args = .ok fs) :
    countPlaceholders false raw.toList = args.length ∧
      fs = bindPlaceholders false raw.toList args [] := by
  unfold foreign at bound
  dsimp only at bound
  split at bound
  next all => exact ⟨all, (Except.ok.inj bound).symm⟩
  next => cases bound

end Recordkeeper.Relational
