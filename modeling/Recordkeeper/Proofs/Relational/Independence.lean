import Recordkeeper.Proofs.Pattern.Escaping
import Recordkeeper.Proofs.Predicate
import Recordkeeper.Proofs.Relational.Frames

/-!
Contract: the text of a statement does not depend on the values of its conditions.

Owns:
- queries of one shape, which are equal but for the values in their predicates and the arguments of
  their subqueries;
- that two queries of one shape are compiled to one text, with parameters that differ exactly where
  the values do.

Does not own: which values a query may have.

Lists of one length are of one shape, and so are values that are both null or both not: the number
of places and the test of null are the only things a text takes from a value.
-/

set_option autoImplicit false

namespace Recordkeeper

/-! ### Shapes -/

/-- Predicates that are equal but for their values. -/
structure Predicate.SameShape (p q : Predicate) : Prop where
  field : p.field = q.field
  op : p.op = q.op
  nulls : p.op = .equal ∨ p.op = .notEqual → p.value.isNull = q.value.isNull
  lengths : ∀ items others, p.value = .list items → q.value = .list others →
    items.length = others.length

/-- Subqueries that are equal but for their arguments. -/
def Subquery.SameShape (q r : Subquery) : Prop := r = { q with args := r.args }

namespace Condition

mutual

def SameShape : Condition → Condition → Prop
  | .basic p, .basic q => p.SameShape q
  | .group logic xs, .group other ys => logic = other ∧ AllSameShape xs ys
  | .sub q, .sub r => q.SameShape r
  | _, _ => False
termination_by structural x => x

def AllSameShape : List Condition → List Condition → Prop
  | [], [] => True
  | x :: xs, y :: ys => SameShape x y ∧ AllSameShape xs ys
  | _, _ => False
termination_by structural x => x

end

/-- The values in a condition, in the order of the tree. -/
def operands : Condition → List Value := collect Predicate.operands Subquery.args

def operandsOfAll : List Condition → List Value := collectAll Predicate.operands Subquery.args

end Condition

/-- Queries that are equal but for the values in their conditions. -/
structure Query.SameShape (q r : Query) : Prop where
  others : r = { q with conditions := r.conditions, having := r.having }
  conditions : Condition.AllSameShape q.conditions r.conditions
  having : Condition.AllSameShape q.having r.having

/-- The values in the conditions that have a place in a statement, in the order of the tree. -/
def Query.operands (q : Query) : List Value :=
  Condition.operandsOfAll (q.conditions ++ q.groupConditions)

theorem Predicate.effectiveOp_eq (p : Predicate) :
    p.effectiveOp
      = if p.op = .equal ∧ p.value.isNull then .isNull
        else if p.op = .notEqual ∧ p.value.isNull then .isNotNull else p.op := by
  obtain ⟨field, op, value⟩ := p
  cases op <;> cases value <;> rfl

theorem Predicate.SameShape.effectiveOp {p q : Predicate} (same : p.SameShape q) :
    p.effectiveOp = q.effectiveOp := by
  rw [effectiveOp_eq, effectiveOp_eq, ← same.op]
  by_cases equal : p.op = .equal
  · rw [same.nulls (.inl equal)]
  by_cases differs : p.op = .notEqual
  · rw [same.nulls (.inr differs)]
  rw [if_neg fun both => equal both.1, if_neg fun both => differs both.1,
    if_neg fun both => equal both.1, if_neg fun both => differs both.1]

namespace Relational

/-! ### Fragments of one shape -/

/-- Two lists of fragments with the same texts, in which the values at a place are equal exactly if
the values they come from are. -/
inductive Alike : List Fragment → List Fragment → List Value → List Value → Prop where
  | nil : Alike [] [] [] []
  | text (s : String) {fs gs : List Fragment} {vs ws : List Value} :
    Alike fs gs vs ws → Alike (.text s :: fs) (.text s :: gs) vs ws
  | bound {v w a b : Value} {fs gs : List Fragment} {vs ws : List Value} :
    (v = w ↔ a = b) → Alike fs gs vs ws →
    Alike (.bound v :: fs) (.bound w :: gs) (a :: vs) (b :: ws)

section Alike

variable {fs gs hs is : List Fragment} {vs ws xs ys : List Value}

theorem Alike.append (first : Alike fs gs vs ws) (second : Alike hs is xs ys) :
    Alike (fs ++ hs) (gs ++ is) (vs ++ xs) (ws ++ ys) := by
  induction first with
  | nil => exact second
  | text s _ inductionHypothesis => exact .text s inductionHypothesis
  | bound iff _ inductionHypothesis => exact .bound iff inductionHypothesis

theorem Alike.enclosed (inner : Alike fs gs vs ws) (front back : String) :
    Alike (.text front :: fs ++ [.text back]) (.text front :: gs ++ [.text back]) vs ws := by
  have whole := (inner.text front).append (.text back .nil)
  rw [List.append_nil, List.append_nil] at whole
  exact whole

/-- Texts alone are alike whatever the values are. -/
theorem Plain.alike {provided : Prop} (plain : Plain provided fs) : Alike fs fs [] [] := by
  induction fs with
  | nil => exact .nil
  | cons f rest inductionHypothesis =>
      obtain ⟨s, rfl, -⟩ := plain f List.mem_cons_self
      exact .text s (inductionHypothesis fun g member => plain g (List.mem_cons_of_mem _ member))

theorem Alike.place (v w : Value) (rest : Alike fs gs vs ws) :
    Alike (.bound v :: fs) (.bound w :: gs) (v :: vs) (w :: ws) :=
  .bound Iff.rfl rest

theorem alike_boundList : ∀ {vs ws : List Value}, vs.length = ws.length →
    Alike (Compiler.boundList vs) (Compiler.boundList ws) vs ws
  | [], [], _ => .nil
  | [v], [w], _ => .place v w .nil
  | v :: a :: vs, w :: b :: ws, same => by
      have rest : (a :: vs).length = (b :: ws).length := Nat.succ.inj same
      exact .place v w (.text ", " (alike_boundList rest))

theorem Alike.renderFrom (alike : Alike fs gs vs ws) (dialect : Dialect) (before : Nat) :
    Relational.renderFrom dialect before fs = Relational.renderFrom dialect before gs := by
  induction alike generalizing before with
  | nil => rfl
  | text s _ inductionHypothesis => exact congrArg (s ++ ·) (inductionHypothesis before)
  | bound _ _ inductionHypothesis => exact congrArg (_ ++ ·) (inductionHypothesis (before + 1))

theorem Alike.length (alike : Alike fs gs vs ws) :
    (boundValues fs).length = vs.length ∧ (boundValues gs).length = ws.length
      ∧ vs.length = ws.length := by
  induction alike with
  | nil => exact ⟨rfl, rfl, rfl⟩
  | text _ _ inductionHypothesis => exact inductionHypothesis
  | bound _ _ inductionHypothesis =>
      obtain ⟨first, second, same⟩ := inductionHypothesis
      exact ⟨congrArg (· + 1) first, congrArg (· + 1) second, congrArg (· + 1) same⟩

/-- The parameters at a position are equal exactly if the values there are. -/
theorem Alike.position (alike : Alike fs gs vs ws) (i : Nat) :
    (boundValues fs)[i]? = (boundValues gs)[i]? ↔ vs[i]? = ws[i]? := by
  induction alike generalizing i with
  | nil => exact Iff.rfl
  | text _ _ inductionHypothesis => exact inductionHypothesis i
  | bound iff _ inductionHypothesis =>
      cases i with
      | zero => simpa [boundValues] using iff
      | succ i => exact inductionHypothesis i

end Alike

/-! ### Patterns -/

/-- Patterns of different parts are different. -/
theorem partPattern_inj {op : Operator} {s t : String} :
    Compiler.partPattern op s = Compiler.partPattern op t ↔ s = t := by
  refine ⟨fun same => ?_, congrArg _⟩
  unfold Compiler.partPattern at same
  split at same
  case h_1 => exact Like.escape_inj.1 (by simpa using same)
  case h_2 => exact Like.escape_inj.1 (by simpa using same)
  case h_3 => exact Like.escape_inj.1 (by simpa using same)

/-! ### Predicates -/

section Predicates

variable {c : Compiler} {p q : Predicate} {fs gs : List Fragment}

theorem predicateOn_alike (same : p.SameShape q) (valid : p.validate = .ok ())
    (validOther : q.validate = .ok ()) (col : String) (compiled : c.predicateOn p col = .ok fs)
    (compiledOther : c.predicateOn q col = .ok gs) : Alike fs gs p.operands q.operands := by
  have shape := Predicate.validate_cases valid
  have shapeOther := Predicate.validate_cases validOther
  have binary (text : String) (v w : Value) :
      Alike [.text text, .bound v] [.text text, .bound w] [v] [w] := .text text (.place _ _ .nil)
  rw [← same.effectiveOp] at shapeOther
  have opOther := same.effectiveOp.symm
  cases op : p.effectiveOp <;> rw [op] at shape shapeOther opOther <;>
    dsimp only at shape shapeOther <;>
    simp only [Compiler.predicateOn, op, opOther] at compiled compiledOther
  case equal | notEqual | greaterThan | greaterThanOrEqual | lessThan | lessThanOrEqual =>
    obtain rfl := Except.ok.inj compiled
    obtain rfl := Except.ok.inj compiledOther
    rw [shape, shapeOther]
    exact binary _ _ _
  case like | notLike =>
    obtain rfl := Except.ok.inj compiled
    obtain rfl := Except.ok.inj compiledOther
    obtain ⟨t, text, operands⟩ := shape
    obtain ⟨u, other, otherOperands⟩ := shapeOther
    rw [operands, otherOperands, text, other]
    exact binary _ _ _
  case regex =>
    obtain rfl := Except.ok.inj compiled
    obtain rfl := Except.ok.inj compiledOther
    obtain ⟨t, text, operands, -⟩ := shape
    obtain ⟨u, other, otherOperands, -⟩ := shapeOther
    rw [operands, otherOperands, text, other]
    exact binary _ _ _
  case isIn | notIn =>
    obtain ⟨items, list, operands⟩ := shape
    obtain ⟨others, otherList, otherOperands⟩ := shapeOther
    have lengths := same.lengths items others list otherList
    rw [operands, otherOperands]
    simp only [list, otherList, Value.list?, Option.getD_some] at compiled compiledOther
    cases items with
    | nil =>
        obtain rfl := List.length_eq_zero_iff.1 lengths.symm
        obtain rfl := Except.ok.inj compiled
        obtain rfl := Except.ok.inj compiledOther
        exact .text _ .nil
    | cons v more =>
        obtain ⟨w, others, rfl⟩ := List.exists_cons_of_length_eq_add_one lengths.symm
        obtain rfl := Except.ok.inj compiled
        obtain rfl := Except.ok.inj compiledOther
        exact (alike_boundList lengths).enclosed _ _
  case isNull | isNotNull =>
    obtain rfl := Except.ok.inj compiled
    obtain rfl := Except.ok.inj compiledOther
    rw [shape, shapeOther]
    exact .text _ .nil
  case between | notBetween =>
    obtain ⟨low, high, list, operands, bounds⟩ := shape
    obtain ⟨otherLow, otherHigh, otherList, otherOperands, otherBounds⟩ := shapeOther
    rw [bounds] at compiled
    rw [otherBounds] at compiledOther
    obtain rfl := Except.ok.inj compiled
    obtain rfl := Except.ok.inj compiledOther
    rw [operands, otherOperands]
    exact .text _ (.place _ _ (.text _ (.place _ _ .nil)))
  case contains | startsWith | endsWith =>
    obtain rfl := Except.ok.inj compiled
    obtain rfl := Except.ok.inj compiledOther
    obtain ⟨t, text, operands⟩ := shape
    obtain ⟨u, other, otherOperands⟩ := shapeOther
    rw [operands, otherOperands, text, other]
    refine .text _ (.bound ?_ (.text _ .nil))
    rw [Value.text.injEq, Value.text.injEq]
    exact partPattern_inj

theorem predicate_alike {onGroups : Bool} (same : p.SameShape q)
    (compiled : c.predicate onGroups p = .ok fs) (compiledOther : c.predicate onGroups q = .ok gs) :
    Alike fs gs p.operands q.operands := by
  obtain ⟨valid, col, column, compiled⟩ := Compiler.exists_of_predicate compiled
  obtain ⟨validOther, other, columnOther, compiledOther⟩ := Compiler.exists_of_predicate compiledOther
  rw [← same.field] at columnOther
  obtain rfl := Except.ok.inj (column.symm.trans columnOther)
  exact predicateOn_alike same valid validOther col compiled compiledOther

end Predicates

/-! ### Conditions -/

section Conditions

variable {c : Compiler} {fs gs : List Fragment}

/-- A foreign text is cut at the same places whatever its arguments are. -/
theorem alike_bindPlaceholders {quoted : Bool} {text : List Char} {args others : List Value}
    (acc : List Char) (all : countPlaceholders quoted text = args.length)
    (same : args.length = others.length) :
    Alike (bindPlaceholders quoted text args acc) (bindPlaceholders quoted text others acc) args
      others := by
  induction text generalizing quoted args others acc with
  | nil =>
      obtain rfl := List.length_eq_zero_iff.1 all.symm
      obtain rfl := List.length_eq_zero_iff.1 same.symm
      exact .text _ .nil
  | cons ch rest inductionHypothesis =>
      rw [countPlaceholders] at all
      rw [bindPlaceholders.eq_def, bindPlaceholders.eq_def quoted (ch :: rest) others]
      dsimp only
      split
      next mark =>
        rw [if_pos mark] at all
        exact inductionHypothesis _ all same
      next noMark =>
        rw [if_neg noMark] at all
        split
        next sign =>
          rw [if_pos sign] at all
          cases args with
          | nil => cases all
          | cons v args =>
              cases others with
              | nil => cases same
              | cons w others =>
                  exact .text _ (.place v w
                    (inductionHypothesis [] (Nat.succ.inj all) (Nat.succ.inj same)))
        next noSign =>
          rw [if_neg noSign] at all
          exact inductionHypothesis _ all same

theorem subquery_alike {q r : Subquery} (same : q.SameShape r) (compiled : c.subquery q = .ok fs)
    (compiledOther : c.subquery r = .ok gs) : Alike fs gs q.args r.args := by
  obtain ⟨head, body, headed, bound, rfl⟩ := Compiler.exists_of_subquery compiled
  obtain ⟨headOther, bodyOther, headedOther, boundOther, rfl⟩ := Compiler.exists_of_subquery compiledOther
  have front : c.subqueryHead r = c.subqueryHead q := by rw [same]; rfl
  obtain rfl := Except.ok.inj (headed.symm.trans (front.symm.trans headedOther))
  have raw : r.raw = q.raw := by rw [same]
  rw [raw] at boundOther
  obtain ⟨all, rfl⟩ := of_foreign bound
  obtain ⟨allOther, rfl⟩ := of_foreign boundOther
  exact (alike_bindPlaceholders [] all (all.symm.trans allOther)).enclosed head ")"

mutual

theorem condition_alike {onGroups : Bool} (x y : Condition) (same : x.SameShape y)
    {fs gs : List Fragment} (compiled : c.condition onGroups x = .ok fs)
    (compiledOther : c.condition onGroups y = .ok gs) : Alike fs gs x.operands y.operands := by
  match x, y with
  | .basic p, .basic q => exact predicate_alike same compiled compiledOther
  | .group logic xs, .group other ys =>
      obtain ⟨rfl, same⟩ := same
      match xs, ys, same with
      | [], [], _ =>
          obtain rfl := Except.ok.inj (compiled.symm.trans compiledOther)
          cases logic <;> cases compiled <;> exact .text _ .nil
      | x :: xs, y :: ys, same =>
          obtain ⟨body, written, rfl⟩ := Compiler.exists_of_group compiled
          obtain ⟨bodyOther, writtenOther, rfl⟩ := Compiler.exists_of_group compiledOther
          exact (members_alike (x :: xs) (y :: ys) same written writtenOther).enclosed _ ")"
  | .sub q, .sub r => exact subquery_alike same compiled compiledOther
  | .basic _, .group .. | .basic _, .sub _ | .group .., .basic _ | .group .., .sub _
  | .sub _, .basic _ | .sub _, .group .. => exact same.elim

theorem members_alike {onGroups : Bool} {between : String} (xs ys : List Condition)
    (same : Condition.AllSameShape xs ys) {fs gs : List Fragment}
    (compiled : c.members onGroups between xs = .ok fs)
    (compiledOther : c.members onGroups between ys = .ok gs) :
    Alike fs gs (Condition.operandsOfAll xs) (Condition.operandsOfAll ys) := by
  match xs, ys, same with
  | [], [], _ =>
      obtain rfl := Except.ok.inj compiled
      obtain rfl := Except.ok.inj compiledOther
      exact .nil
  | [x], [y], ⟨same, _⟩ =>
      have only := condition_alike x y same compiled compiledOther
      rw [Condition.operandsOfAll, Condition.collectAll_singleton, Condition.collectAll_singleton]
      exact only
  | x :: next :: xs, y :: nextOther :: ys, ⟨same, others⟩ =>
      obtain ⟨first, later, firstOk, laterOk, rfl⟩ := Compiler.exists_of_members compiled
      obtain ⟨firstOther, laterOther, firstOtherOk, laterOtherOk, rfl⟩ :=
        Compiler.exists_of_members compiledOther
      exact (condition_alike x y same firstOk firstOtherOk).append
        (.text between
          (members_alike (next :: xs) (nextOther :: ys) others laterOk laterOtherOk))

end

theorem clause_alike {word : String} {onGroups : Bool} {xs ys : List Condition}
    (same : Condition.AllSameShape xs ys) (compiled : c.clause word onGroups xs = .ok fs)
    (compiledOther : c.clause word onGroups ys = .ok gs) :
    Alike fs gs (Condition.operandsOfAll xs) (Condition.operandsOfAll ys) := by
  match xs, ys, same with
  | [], [], _ =>
      obtain rfl := Except.ok.inj compiled
      obtain rfl := Except.ok.inj compiledOther
      exact .nil
  | x :: xs, y :: ys, same =>
      obtain ⟨body, written, rfl⟩ := Compiler.exists_of_clause compiled
      obtain ⟨bodyOther, writtenOther, rfl⟩ := Compiler.exists_of_clause compiledOther
      exact .text word (members_alike (x :: xs) (y :: ys) same written writtenOther)

end Conditions

/-! ### Queries -/

section Queries

variable {q r : Query}

theorem isEmpty_of_sameShape {xs ys : List Condition} (same : Condition.AllSameShape xs ys) :
    xs.isEmpty = ys.isEmpty := by
  match xs, ys, same with
  | [], [], _ => rfl
  | _ :: _, _ :: _, _ => rfl

theorem groupConditions_sameShape (same : q.SameShape r) :
    Condition.AllSameShape q.groupConditions r.groupConditions := by
  have grouped : r.isGrouped = q.isGrouped := by rw [same.others]; rfl
  unfold Query.groupConditions
  rw [grouped]
  split
  next => exact same.having
  next => trivial

/-- The frame is read off what queries of one shape have in common. -/
theorem frame_of_sameShape (same : q.SameShape r) (purpose : Purpose) (c : Compiler)
    (table : String) : purpose.frame c table r = purpose.frame c table q := by
  have having := isEmpty_of_sameShape same.having
  rw [same.others]
  cases purpose with
  | select => rfl
  | count => rfl
  | existsAny =>
      unfold Purpose.frame
      rw [having]
      rfl
  | delete => rfl

/-- The text of a statement does not depend on the values in its conditions.  Queries of one shape
that are compiled give one text, and their parameters, as many as the values, differ exactly at the
positions of values that differ. -/
theorem sql_of_sameShape (same : q.SameShape r) {purpose : Purpose} {c : Compiler}
    {table : String} {s t : Statement} (compiled : purpose.compile c table q = .ok s)
    (compiledOther : purpose.compile c table r = .ok t) :
    s.sql = t.sql ∧ s.preloads = t.preloads
      ∧ s.params.length = q.operands.length ∧ t.params.length = q.operands.length
      ∧ ∀ i : Nat, s.params[i]? = t.params[i]? ↔ q.operands[i]? = r.operands[i]? := by
  obtain ⟨fs, ⟨frame, rows, groups, framed, rowsOk, groupsOk, rfl⟩, rfl⟩ :=
    Purpose.compile_framed compiled
  obtain ⟨gs, ⟨frameOther, rowsOther, groupsOther, framedOther, rowsOtherOk, groupsOtherOk, rfl⟩,
    rfl⟩ := Purpose.compile_framed compiledOther
  rw [frame_of_sameShape same] at framedOther
  obtain rfl := Except.ok.inj (framed.symm.trans framedOther)
  obtain ⟨head, middle, tail⟩ := Purpose.frame_plain framed
  have alike := (((head.alike.append (clause_alike same.conditions rowsOk rowsOtherOk)).append
    middle.plain.alike).append
    (clause_alike (groupConditions_sameShape same) groupsOk groupsOtherOk)).append tail.plain.alike
  simp only [List.nil_append, List.append_nil, Condition.operandsOfAll,
    ← Condition.collectAll_append] at alike
  have preloads : purpose.preloads q = purpose.preloads r := by
    rw [same.others]
    cases purpose <;> rfl
  obtain ⟨count, countOther, counts⟩ := alike.length
  exact ⟨alike.renderFrom c.dialect 0, preloads, count, countOther.trans counts.symm,
    alike.position⟩

def membersNamed (part : String) : Query :=
  { conditions := [.on "age" .greaterThan (.int 17), .on "name" .contains (.text part)] }

theorem membersNamed_sameSql :
    ∃ s t, Purpose.delete.compile {} "members" (membersNamed "a") = .ok s
      ∧ Purpose.delete.compile {} "members" (membersNamed "%") = .ok t
      ∧ s.sql = t.sql ∧ s.params.length = 2
      ∧ s.params[0]? = t.params[0]? ∧ s.params[1]? ≠ t.params[1]? := by
  have same : (membersNamed "a").SameShape (membersNamed "%") := {
    others := rfl
    conditions := ⟨⟨rfl, rfl, fun _ => rfl, nofun⟩, ⟨rfl, rfl, fun _ => rfl, nofun⟩, trivial⟩
    having := trivial }
  have compiled : Purpose.delete.compile {} "members" (membersNamed "a") = .ok ⟨
      "DELETE FROM \"members\" WHERE \"age\" > ? AND \"name\" LIKE ? ESCAPE '\\'",
      [.int 17, .text "%a%"], []⟩ := by
    with_unfolding_all rfl
  have compiledOther : Purpose.delete.compile {} "members" (membersNamed "%") = .ok ⟨
      "DELETE FROM \"members\" WHERE \"age\" > ? AND \"name\" LIKE ? ESCAPE '\\'",
      [.int 17, .text "%\\%%"], []⟩ := by
    with_unfolding_all rfl
  obtain ⟨sql, -, count, -, positions⟩ := sql_of_sameShape same compiled compiledOther
  have operands (part : String) : (membersNamed part).operands = [.int 17, .text part] := rfl
  rw [operands] at count
  simp only [operands] at positions
  refine ⟨_, _, compiled, compiledOther, sql, count, (positions 0).2 rfl, fun equal => ?_⟩
  have texts := (positions 1).1 equal
  simp at texts

end Queries

end Relational

end Recordkeeper
