import Recordkeeper.Engine.Evaluate
import Recordkeeper.Engine.Resolve

/-!
Contract: expressions and terms from their parts.

Owns:
- the value of a term, from the values of its parts;
- the conditions that a filter is taken apart to;
- the term of an expression, from the terms of its parts.

Does not own: columns, functions and selections inside.
-/

set_option autoImplicit false

namespace Recordkeeper.Engine

open Sql

/-! ### Terms -/

section Terms

variable {env : Env} {a b : Term} {x y : Cell}

theorem eval_parameter {i : Nat} (bound : env.params[i]? = some x) :
    eval env (.parameter i) = .ok x := by
  show Except.ok (env.params[i]?.getD .null) = _
  rw [bound]
  rfl

theorem eval_not (value : eval env a = .ok x) : eval env (.not a) = .ok (notCell x) := by
  show (eval env a >>= fun c => pure (notCell c)) = _
  rw [value]
  rfl

/-- The right side of a conjunction does not count when the left side is false. -/
theorem eval_and (left : eval env a = .ok x) (right : eval env b = .ok y) :
    eval env (.and a b) = .ok (if x.truth? == some false then .ofBool false else andCell x y) := by
  show (eval env a >>= fun x => if x.truth? == some false then pure (.ofBool false)
    else eval env b >>= fun y => pure (andCell x y)) = _
  rw [left, right]
  show (if x.truth? == some false then _ else _) = _
  split <;> rfl

/-- The right side of a disjunction does not count when the left side is true. -/
theorem eval_or (left : eval env a = .ok x) (right : eval env b = .ok y) :
    eval env (.or a b) = .ok (if x.truth? == some true then .ofBool true else orCell x y) := by
  show (eval env a >>= fun x => if x.truth? == some true then pure (.ofBool true)
    else eval env b >>= fun y => pure (orCell x y)) = _
  rw [left, right]
  show (if x.truth? == some true then _ else _) = _
  split <;> rfl

theorem eval_compare (op : Comparison) (affinity : Option Affinity) (left : eval env a = .ok x)
    (right : eval env b = .ok y) :
    eval env (.compare op affinity a b) = .ok (compareCells op affinity x y) := by
  show (eval env a >>= fun x => eval env b >>= fun y => pure (compareCells op affinity x y)) = _
  rw [left, right]
  rfl

theorem eval_isNull (value : eval env a = .ok x) :
    eval env (.isNull a) = .ok (.ofBool x.isNull) := by
  show (eval env a >>= fun c => pure (Cell.ofBool c.isNull)) = _
  rw [value]
  rfl

theorem eval_inList (affinity : Option Affinity) {items : List Term} {cells : List Cell}
    (value : eval env a = .ok x) (values : evalAll env items = .ok cells) :
    eval env (.inList affinity a items) = .ok (memberCell affinity x cells) := by
  show (eval env a >>= fun c => evalAll env items >>= fun cells =>
    pure (memberCell affinity c cells)) = _
  rw [value, values]
  rfl

theorem eval_like {escape : Option Term} {sign : Option Cell} (text : eval env a = .ok x)
    (pattern : eval env b = .ok y) (escaped : evalOption env escape = .ok sign) :
    eval env (.like a b escape) = likeCells env.settings x y sign := by
  show (eval env a >>= fun x => eval env b >>= fun y => evalOption env escape >>= fun sign =>
    likeCells env.settings x y sign) = _
  rw [text, pattern, escaped]
  rfl

theorem evalAll_cons {rest : List Term} {cells : List Cell} (first : eval env a = .ok x)
    (others : evalAll env rest = .ok cells) : evalAll env (a :: rest) = .ok (x :: cells) := by
  show (eval env a >>= fun c => evalAll env rest >>= fun cells => pure (c :: cells)) = _
  rw [first, others]
  rfl

theorem evalAll_parameters {places : List Nat} {cells : List Cell}
    (bound : places.map (fun i => env.params[i]?) = cells.map some) :
    evalAll env (places.map Term.parameter) = .ok cells := by
  induction places generalizing cells with
  | nil =>
      cases cells with
      | nil => rfl
      | cons c rest => cases bound
  | cons i places inductionHypothesis =>
      cases cells with
      | nil => cases bound
      | cons c rest =>
          obtain ⟨same, others⟩ := List.cons.inj bound
          exact evalAll_cons (eval_parameter same) (inductionHypothesis others)

/-! ### Filters -/

theorem holds_single {t : Term} (value : eval env t = .ok x) :
    holds env [t] = .ok (x.truth? == some true) := by
  rw [holds, value]
  show (if x.truth? == some true then Except.ok true else Except.ok false) = _
  cases x.truth? == some true <;> rfl

theorem holds_append (ts us : List Term) :
    holds env (ts ++ us) = holds env ts >>= fun all => if all then holds env us else .ok false := by
  induction ts with
  | nil => rfl
  | cons t ts inductionHypothesis =>
      rw [List.cons_append, holds, holds, inductionHypothesis]
      cases eval env t with
      | error e => rfl
      | ok c =>
          show (if c.truth? == some true then holds env ts >>= _ else pure false)
            = (if c.truth? == some true then holds env ts else pure false) >>= _
          cases c.truth? == some true <;> rfl

/-- The conditions of a filter are tried one by one and hold when their conjunction is true. -/
theorem holds_conjuncts {t : Term} (value : eval env t = .ok x) :
    holds env t.conjuncts = .ok (x.truth? == some true) := by
  fun_induction Term.conjuncts t generalizing x with
  | case1 a b left right =>
      replace value : (eval env a >>= fun x => if x.truth? == some false then pure (.ofBool false)
          else eval env b >>= fun y => pure (andCell x y)) = .ok x := value
      cases first : eval env a with
      | error e =>
          rw [first] at value
          cases value
      | ok c =>
          rw [first] at value
          replace value : (if c.truth? == some false then Except.ok (.ofBool false)
              else eval env b >>= fun y => pure (andCell c y)) = .ok x := value
          rw [holds_append, left first]
          show (if c.truth? == some true then holds env b.conjuncts else .ok false) = _
          split at value
          next decided =>
            obtain rfl := Except.ok.inj value
            rw [eq_of_beq decided]
            rfl
          next undecided =>
            cases second : eval env b with
            | error e =>
                rw [second] at value
                cases value
            | ok d =>
                rw [second] at value
                obtain rfl := Except.ok.inj value
                rw [right second]
                unfold andCell
                rcases c.truth? with _ | _ | _ <;> rcases d.truth? with _ | _ | _ <;> rfl
  | case2 t _ => exact holds_single value

end Terms

/-! ### Expressions -/

section Expressions

variable {cat : Catalog} {scope : Scope} {a b : Expr} {s t : Typed}

theorem resolve_not (inner : resolve cat scope a = .ok t) :
    resolve cat scope (.not a) = .ok (.of [t] (.not t.term)) := by
  show (resolve cat scope a >>= fun t => pure (Typed.of [t] (.not t.term))) = _
  rw [inner]
  rfl

theorem resolve_and (left : resolve cat scope a = .ok s) (right : resolve cat scope b = .ok t) :
    resolve cat scope (.and a b) = .ok (.of [s, t] (.and s.term t.term)) := by
  show (resolve cat scope a >>= fun s => resolve cat scope b >>= fun t =>
    pure (Typed.of [s, t] (.and s.term t.term))) = _
  rw [left, right]
  rfl

theorem resolve_or (left : resolve cat scope a = .ok s) (right : resolve cat scope b = .ok t) :
    resolve cat scope (.or a b) = .ok (.of [s, t] (.or s.term t.term)) := by
  show (resolve cat scope a >>= fun s => resolve cat scope b >>= fun t =>
    pure (Typed.of [s, t] (.or s.term t.term))) = _
  rw [left, right]
  rfl

theorem resolve_compare (op : Comparison) (scalars : checkWidths cat [a, b] = .ok ())
    (left : resolve cat scope a = .ok s) (right : resolve cat scope b = .ok t) :
    resolve cat scope (.compare op a b) = .ok (.of [s, t] (comparison op s t)) := by
  show (checkWidths cat [a, b] >>= fun _ => resolve cat scope a >>= fun s =>
    resolve cat scope b >>= fun t => pure (Typed.of [s, t] (comparison op s t))) = _
  rw [scalars, left, right]
  rfl

theorem resolve_isNull (negate : Bool) (inner : resolve cat scope a = .ok t) :
    resolve cat scope (.isNull negate a) = .ok (negated negate (.of [t] (.isNull t.term))) := by
  show (resolve cat scope a >>= fun t => pure (negated negate (.of [t] (.isNull t.term)))) = _
  rw [inner]
  rfl

theorem resolve_between (negate : Bool) {e : Expr} {u : Typed}
    (scalars : checkWidths cat [a, b, e] = .ok ()) (inner : resolve cat scope a = .ok s)
    (low : resolve cat scope b = .ok t) (high : resolve cat scope e = .ok u) :
    resolve cat scope (.between negate a b e)
      = .ok (negated negate (.of [s, t, u] (.and (comparison .ge s t) (comparison .le s u)))) := by
  show (checkWidths cat [a, b, e] >>= fun _ => resolve cat scope a >>= fun s =>
    resolve cat scope b >>= fun t => resolve cat scope e >>= fun u =>
      pure (negated negate (.of [s, t, u] (.and (comparison .ge s t) (comparison .le s u))))) = _
  rw [scalars, inner, low, high]
  rfl

theorem resolve_inList (negate : Bool) {items : List Expr} {ts : List Typed}
    (inner : resolve cat scope a = .ok t) (listed : resolveAll cat scope items = .ok ts) :
    resolve cat scope (.inList negate a items)
      = .ok (negated negate
        (.of (t :: ts) (.inList (memberAffinity t.affinity) t.term (ts.map (·.term))))) := by
  show (resolve cat scope a >>= fun t => resolveAll cat scope items >>= fun ts =>
    pure (negated negate
      (.of (t :: ts) (.inList (memberAffinity t.affinity) t.term (ts.map (·.term)))))) = _
  rw [inner, listed]
  rfl

theorem resolve_like (negate : Bool) {escape : Option Expr} {sign : Option Typed}
    (inner : resolve cat scope a = .ok s) (pattern : resolve cat scope b = .ok t)
    (escaped : resolveOption cat scope escape = .ok sign) :
    resolve cat scope (.like negate a b escape)
      = .ok (negated negate
        (.of ([s, t] ++ sign.toList) (.like s.term t.term (sign.map (·.term))))) := by
  show (resolve cat scope a >>= fun s => resolve cat scope b >>= fun t =>
    resolveOption cat scope escape >>= fun sign => pure (negated negate
      (.of ([s, t] ++ sign.toList) (.like s.term t.term (sign.map (·.term)))))) = _
  rw [inner, pattern, escaped]
  rfl

theorem resolveAll_cons {rest : List Expr} {ts : List Typed} (first : resolve cat scope a = .ok t)
    (others : resolveAll cat scope rest = .ok ts) :
    resolveAll cat scope (a :: rest) = .ok (t :: ts) := by
  show (resolve cat scope a >>= fun t => resolveAll cat scope rest >>= fun ts =>
    pure (t :: ts)) = _
  rw [first, others]
  rfl

theorem resolve_parameter (cat : Catalog) (scope : Scope) (i : Nat) :
    resolve cat scope (.parameter i) = .ok { term := .parameter i } := rfl

theorem resolveAll_parameters (cat : Catalog) (scope : Scope) (places : List Nat) :
    resolveAll cat scope (places.map .parameter)
      = .ok (places.map fun i => { term := .parameter i }) := by
  induction places with
  | nil => rfl
  | cons i places inductionHypothesis =>
      exact resolveAll_cons (resolve_parameter cat scope i) inductionHypothesis

end Expressions

end Recordkeeper.Engine
