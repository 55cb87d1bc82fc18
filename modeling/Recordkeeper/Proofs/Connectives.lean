import Recordkeeper.Proofs.Document.Selection
import Recordkeeper.Proofs.KeyValue.Planning
import Recordkeeper.Relational.Compiler

/-!
Contract: the laws of the connectives, for every form in which a backend reads conditions.

Owns:
- truth values and answers of filters combined by a connective;
- a compiled group read as its connective applied to its members, whether there are none, one
  or several;
- explicit and implicit conjunction, and a negation as the negated disjunction and as the
  conjunction of negations.

Does not own: what a predicate selects.

A group is read through what its members answer and through nothing else, so the laws of
conditions are laws of lists of answers.  Filters are tested in order up to the first that
decides or fails, and every law keeps that order; this is why failures are covered by the same
equations as answers.
-/

set_option autoImplicit false

namespace Recordkeeper

/-! ### Truth values -/

namespace Truth

/-- What a connective makes of the truth values of its members. -/
def combined : Logic → List Truth → Truth
  | .and, ts => all ts
  | .or, ts => any ts
  | .not, ts => (any ts).not

theorem combined_and_single (t : Truth) : combined .and [t] = t := by
  cases t <;> rfl

theorem combined_not_or (ts : List Truth) : combined .not [combined .or ts] = combined .not ts := by
  show (any [any ts]).not = (any ts).not
  cases any ts <;> rfl

theorem combined_and_nots (ts : List Truth) :
    combined .and (ts.map fun t => combined .not [t]) = combined .not ts := by
  induction ts with
  | nil => rfl
  | cons t rest inductionHypothesis =>
      have laterMembers : all (rest.map fun t => combined .not [t]) = (any rest).not :=
        inductionHypothesis
      show all (combined .not [t] :: rest.map fun t => combined .not [t]) = (any (t :: rest)).not
      rw [all_cons, any_cons, laterMembers]
      cases t <;> cases any rest <;> rfl

end Truth

namespace Condition

theorem truth_group (r : Record) (logic : Logic) (cs : List Condition) :
    truth r (.group logic cs) = Truth.combined logic (truths r cs) := by
  cases logic <;> rfl

theorem truths_map {r : Record} (form : Condition → Condition) (read : Truth → Truth)
    (formed : ∀ c, truth r (form c) = read (truth r c)) (cs : List Condition) :
    truths r (cs.map form) = (truths r cs).map read := by
  induction cs with
  | nil => rfl
  | cons c rest inductionHypothesis =>
      rw [List.map_cons, truths, truths, List.map_cons, formed, inductionHypothesis]

theorem validateAll_single (c : Condition) : validateAll [c] = validate c := by
  rw [validateAll]
  cases validate c <;> rfl

theorem validateAll_map (form : Condition → Condition)
    (formed : ∀ c, validate (form c) = validate c) (cs : List Condition) :
    validateAll (cs.map form) = validateAll cs := by
  induction cs with
  | nil => rfl
  | cons c rest inductionHypothesis =>
      rw [List.map_cons, validateAll, validateAll, formed, inductionHypothesis]

theorem validateAll_group (logic : Logic) (cs : List Condition) :
    validateAll [.group logic cs] = validateAll cs := validateAll_single _

theorem anySubquery_single (c : Condition) : anySubquery [c] = hasSubquery c := Bool.or_false _

theorem anySubquery_group (logic : Logic) (cs : List Condition) :
    anySubquery [.group logic cs] = anySubquery cs := anySubquery_single _

theorem anySubquery_map (form : Condition → Condition)
    (formed : ∀ c, hasSubquery (form c) = hasSubquery c) (cs : List Condition) :
    anySubquery (cs.map form) = anySubquery cs := by
  induction cs with
  | nil => rfl
  | cons c rest inductionHypothesis =>
      rw [List.map_cons, anySubquery, anySubquery, formed, inductionHypothesis]

end Condition

/-! ### Plans -/

namespace KeyValue.Plan

open Condition (validateAll anySubquery truths)

/-- What a plan for the conditions tells of a record; the query gives the other parts. -/
def truthOf (q : Query) (cs : List Condition) (r : Record) : Except Error Truth :=
  (compile { q with conditions := cs }).map (·.evaluate r)

/-- Compilation reads of conditions only the outcome of validation and whether they hold a
subquery. -/
theorem truthOf_congr {cs ds : List Condition} (valid : validateAll cs = validateAll ds)
    (subqueries : anySubquery cs = anySubquery ds) {r : Record}
    (same : Truth.all (truths r cs) = Truth.all (truths r ds)) (q : Query) :
    truthOf q cs r = truthOf q ds r := by
  have checked : Query.validate { q with conditions := cs }
      = Query.validate { q with conditions := ds } := by
    unfold Query.validate
    rw [valid]
  rw [truthOf, compile_congr_of_checks checked subqueries rfl rfl rfl rfl rfl fun _ => rfl, truthOf]
  cases planned : compile { q with conditions := ds } with
  | error e => rfl
  | ok plan =>
      rw [eq_ofQuery planned]
      exact congrArg Except.ok same

theorem truthOf_group_and (q : Query) (cs : List Condition) (r : Record) :
    truthOf q [.group .and cs] r = truthOf q cs r := by
  refine truthOf_congr (Condition.validateAll_single _) (Condition.anySubquery_single _) ?_ q
  exact Truth.combined_and_single (Truth.all (truths r cs))

theorem truthOf_not_or (q : Query) (cs : List Condition) (r : Record) :
    truthOf q [.group .not cs] r = truthOf q [.group .not [.group .or cs]] r := by
  refine truthOf_congr ?_ ?_ ?_ q
  · rw [Condition.validateAll_group, Condition.validateAll_group, Condition.validateAll_group]
  · rw [Condition.anySubquery_group, Condition.anySubquery_group, Condition.anySubquery_group]
  · exact congrArg (Truth.combined .and [·]) (Truth.combined_not_or (truths r cs)).symm

theorem truthOf_and_nots (q : Query) (cs : List Condition) (r : Record) :
    truthOf q [.group .not cs] r
      = truthOf q [.group .and (cs.map fun c => .group .not [c])] r := by
  refine truthOf_congr ?_ ?_ ?_ q
  · rw [Condition.validateAll_group, Condition.validateAll_group]
    exact (Condition.validateAll_map (fun c => .group .not [c])
      Condition.validateAll_single cs).symm
  · rw [Condition.anySubquery_group, Condition.anySubquery_group]
    exact (Condition.anySubquery_map (fun c => .group .not [c])
      Condition.anySubquery_single cs).symm
  · have members := Condition.truths_map (r := r) (fun c => .group .not [c])
      (fun t => Truth.combined .not [t]) (fun _ => rfl) cs
    refine congrArg (Truth.combined .and [·]) ?_
    rw [Condition.truth_group, Condition.truth_group, members]
    exact (Truth.combined_and_nots (truths r cs)).symm

end KeyValue.Plan

/-! ### Filters -/

namespace Document

/-- Whether all answers are yes, up to the first that is not. -/
def conjoined : List (Outcome Bool) → Outcome Bool
  | [] => .ok true
  | answer :: rest => do
    let holds ← answer
    if holds then conjoined rest else return false

/-- Whether some answer is yes, up to the first that is. -/
def disjoined : List (Outcome Bool) → Outcome Bool
  | [] => .ok false
  | answer :: rest => do
    let holds ← answer
    if holds then return true else disjoined rest

/-- What a connective makes of the answers of its members. -/
def combined : Logic → List (Outcome Bool) → Outcome Bool
  | .and, answers => conjoined answers
  | .or, answers => disjoined answers
  | .not, answers => (disjoined answers).map (!·)

theorem combined_and_single (answer : Outcome Bool) : combined .and [answer] = answer := by
  cases answer with
  | error failure => rfl
  | ok holds => cases holds <;> rfl

theorem combined_not_or (answers : List (Outcome Bool)) :
    combined .not [combined .or answers] = combined .not answers := by
  show (disjoined [disjoined answers]).map (!·) = (disjoined answers).map (!·)
  cases disjoined answers with
  | error failure => rfl
  | ok holds => cases holds <;> rfl

/-- The conjunction stops at a negation that does not hold where the disjunction stops at the
member that does. -/
theorem combined_and_nots (answers : List (Outcome Bool)) :
    combined .and (answers.map fun answer => combined .not [answer]) = combined .not answers := by
  induction answers with
  | nil => rfl
  | cons answer rest inductionHypothesis =>
      cases answer with
      | error failure => rfl
      | ok holds =>
          cases holds with
          | true => rfl
          | false => exact inductionHypothesis

theorem allMatch_eq (doc : Json) (filters : List Json) :
    allMatch doc filters = conjoined (filters.map (matchesFilter doc)) := by
  induction filters with
  | nil => rfl
  | cons f rest inductionHypothesis => rw [allMatch, inductionHypothesis, List.map_cons, conjoined]

theorem anyMatch_eq (doc : Json) (filters : List Json) :
    anyMatch doc filters = disjoined (filters.map (matchesFilter doc)) := by
  induction filters with
  | nil => rfl
  | cons f rest inductionHypothesis => rw [anyMatch, inductionHypothesis, List.map_cons, disjoined]

theorem matchesFilter_combined (doc : Json) (logic : Logic) (f : Json) (more : List Json) :
    matchesFilter doc (.single (Compiler.groupOperator logic) (.array (f :: more)))
      = combined logic ((f :: more).map (matchesFilter doc)) := by
  rw [matchesFilter_group]
  cases logic with
  | and => exact allMatch_eq doc (f :: more)
  | or => exact anyMatch_eq doc (f :: more)
  | not => exact congrArg (Except.map (!·)) (anyMatch_eq doc (f :: more))

/-- What a compiled filter answers for a document, with the degradations of its compilation. -/
def answer (doc : Json) (compiled : Except Error (Degraded Json)) :
    Except Error (Degraded (Outcome Bool)) :=
  compiled.map fun filter => (matchesFilter doc filter.1, filter.2)

/-- What several compiled filters answer for a document. -/
def answers (doc : Json) (compiled : Except Error (Degraded (List Json))) :
    Except Error (Degraded (List (Outcome Bool))) :=
  compiled.map fun filters => (filters.1.map (matchesFilter doc), filters.2)

namespace Compiler

variable (c : Compiler) (mapped : Bool) (doc : Json)

theorem answers_cons (x : Condition) (rest : List Condition) :
    answers doc (c.conditions mapped (x :: rest)) = do
      let (first, degradations) ← answer doc (c.condition mapped x)
      let (others, more) ← answers doc (c.conditions mapped rest)
      return (first :: others, degradations ++ more) := by
  rw [conditions]
  cases c.condition mapped x with
  | error e => rfl
  | ok filter => cases c.conditions mapped rest <;> rfl

theorem answers_single (x : Condition) :
    answers doc (c.conditions mapped [x])
      = (answer doc (c.condition mapped x)).map fun own => ([own.1], own.2) := by
  rw [answers_cons]
  cases answer doc (c.condition mapped x) with
  | error e => rfl
  | ok own => exact congrArg (fun more => Except.ok ([own.1], more)) (List.append_nil own.2)

theorem answers_map (form : Condition → Condition) (read : Outcome Bool → Outcome Bool)
    (formed : ∀ x, answer doc (c.condition mapped (form x))
      = (answer doc (c.condition mapped x)).map fun own => (read own.1, own.2))
    (cs : List Condition) :
    answers doc (c.conditions mapped (cs.map form))
      = (answers doc (c.conditions mapped cs)).map fun own => (own.1.map read, own.2) := by
  induction cs with
  | nil => rfl
  | cons x rest inductionHypothesis =>
      rw [List.map_cons, answers_cons, answers_cons, formed, inductionHypothesis]
      cases answer doc (c.condition mapped x) with
      | error e => rfl
      | ok own => cases answers doc (c.conditions mapped rest) <;> rfl

/-- A compiled group answers what its connective makes of the answers of its members.  Groups
without members have filters of their own, which answer alike. -/
theorem answer_group (logic : Logic) (cs : List Condition) :
    answer doc (c.condition mapped (.group logic cs))
      = (answers doc (c.conditions mapped cs)).map fun own => (combined logic own.1, own.2) := by
  cases cs with
  | nil =>
      cases logic with
      | and => rfl
      | not => rfl
      | or =>
          show Except.ok (matchesFilter doc selectNothing, _) = Except.ok (Except.ok false, _)
          rw [matchesFilter_selectNothing]
  | cons x rest =>
      rw [condition, conditions]
      cases c.condition mapped x with
      | error e => rfl
      | ok filter =>
          cases c.conditions mapped rest with
          | error e => rfl
          | ok filters =>
              exact congrArg (fun result => Except.ok (result, filter.2 ++ filters.2))
                (matchesFilter_combined doc logic filter.1 filters.1)

theorem answer_conjunction (cs : List Condition) :
    answer doc (c.conjunction mapped cs)
      = (answers doc (c.conditions mapped cs)).map fun own => (combined .and own.1, own.2) := by
  match cs with
  | [] => rfl
  | [x] =>
      rw [conjunction, answers_single]
      cases answer doc (c.condition mapped x) with
      | error e => rfl
      | ok own =>
          exact congrArg (fun result => Except.ok (result, own.2)) (combined_and_single own.1).symm
  | x :: y :: rest =>
      rw [← answer_group c mapped doc .and (x :: y :: rest)]
      rfl

/-- What the filter of the conditions answers for a document. -/
def answerFor (cs : List Condition) : Except Error (Degraded (Outcome Bool)) :=
  answer doc (c.compileFilter cs)

theorem answerFor_group (logic : Logic) (cs : List Condition) :
    c.answerFor doc [.group logic cs]
      = (answers doc (c.conditions true cs)).map fun own => (combined logic own.1, own.2) :=
  answer_group c true doc logic cs

theorem answerFor_group_and (cs : List Condition) :
    c.answerFor doc [.group .and cs] = c.answerFor doc cs := by
  rw [answerFor_group, answerFor, compileFilter, answer_conjunction]

theorem answerFor_not_or (cs : List Condition) :
    c.answerFor doc [.group .not cs] = c.answerFor doc [.group .not [.group .or cs]] := by
  rw [answerFor_group, answerFor_group, answers_single, answer_group]
  cases answers doc (c.conditions true cs) with
  | error e => rfl
  | ok own =>
      exact congrArg (fun result => Except.ok (result, own.2)) (combined_not_or own.1).symm

theorem answerFor_and_nots (cs : List Condition) :
    c.answerFor doc [.group .not cs]
      = c.answerFor doc [.group .and (cs.map fun x => .group .not [x])] := by
  have negated (x : Condition) :
      answer doc (c.condition true (.group .not [x]))
        = (answer doc (c.condition true x)).map fun own => (combined .not [own.1], own.2) := by
    rw [answer_group, answers_single]
    cases answer doc (c.condition true x) <;> rfl
  rw [answerFor_group, answerFor_group,
    answers_map c true doc (fun x => .group .not [x]) (fun own => combined .not [own]) negated]
  cases answers doc (c.conditions true cs) with
  | error e => rfl
  | ok own =>
      exact congrArg (fun result => Except.ok (result, own.2)) (combined_and_nots own.1).symm

end Compiler

end Document

/-! ### Statements -/

namespace Relational

/-- A statement in parentheses. -/
def Statement.parenthesised (s : Statement) : Statement := { s with sql := "(" ++ s.sql ++ ")" }

theorem renderFrom_append_text (dialect : Dialect) (fs : List Fragment) (s : String)
    (before : Nat) :
    renderFrom dialect before (fs ++ [.text s]) = renderFrom dialect before fs ++ s := by
  induction fs generalizing before with
  | nil => exact (String.append_empty).trans (String.empty_append).symm
  | cons f rest inductionHypothesis =>
      cases f with
      | text t =>
          rw [List.cons_append, renderFrom, renderFrom, inductionHypothesis, String.append_assoc]
      | bound v =>
          rw [List.cons_append, renderFrom, renderFrom, inductionHypothesis, String.append_assoc]

theorem boundValues_append_text (fs : List Fragment) (s : String) :
    boundValues (fs ++ [.text s]) = boundValues fs := by
  induction fs with
  | nil => rfl
  | cons f rest inductionHypothesis =>
      cases f with
      | text t => exact inductionHypothesis
      | bound v => exact congrArg (v :: ·) inductionHypothesis

/-- Parentheses bind no value, so the placeholders between them keep their numbers. -/
theorem Compiler.finish_parenthesised (c : Compiler) (fs : List Fragment) :
    c.finish (.text "(" :: fs ++ [.text ")"]) [] = (c.finish fs []).parenthesised := by
  show Statement.mk ("(" ++ renderFrom c.dialect 0 (fs ++ [.text ")"]))
    (boundValues (fs ++ [.text ")"])) [] = _
  rw [renderFrom_append_text, boundValues_append_text, ← String.append_assoc]
  rfl

theorem Compiler.compilePredicate_and (c : Compiler) (x : Condition) (rest : List Condition) :
    c.compilePredicate [.group .and (x :: rest)]
      = (c.compilePredicate (x :: rest)).map Statement.parenthesised := by
  have explicit : c.conjunction false [.group .and (x :: rest)] = do
      let body ← c.members false " AND " (x :: rest)
      return .text "(" :: body ++ [.text ")"] := rfl
  have implicit : c.conjunction false (x :: rest) = c.members false " AND " (x :: rest) := rfl
  rw [compilePredicate, compilePredicate, explicit, implicit]
  cases c.members false " AND " (x :: rest) with
  | error e => rfl
  | ok body => exact congrArg Except.ok (c.finish_parenthesised body)

end Relational

/-! ### The laws -/

/-- In all three compilers an explicit conjunction reads like the implicit one, and a negation
like the negated disjunction and like the conjunction of the negations of its members: a plan
finds the same truth value for every record, a filter the same answer or failure for every
document, and the text of the explicit conjunction is that of the implicit one in parentheses,
with the same values. -/
theorem connectives_agree (cs : List Condition) :
    (∀ (q : Query) (r : Record),
      KeyValue.Plan.truthOf q [.group .and cs] r = KeyValue.Plan.truthOf q cs r ∧
      KeyValue.Plan.truthOf q [.group .not cs] r
        = KeyValue.Plan.truthOf q [.group .not [.group .or cs]] r ∧
      KeyValue.Plan.truthOf q [.group .not cs] r
        = KeyValue.Plan.truthOf q [.group .and (cs.map fun c => .group .not [c])] r) ∧
    (∀ (c : Document.Compiler) (doc : Json),
      c.answerFor doc [.group .and cs] = c.answerFor doc cs ∧
      c.answerFor doc [.group .not cs] = c.answerFor doc [.group .not [.group .or cs]] ∧
      c.answerFor doc [.group .not cs]
        = c.answerFor doc [.group .and (cs.map fun c => .group .not [c])]) ∧
    ∀ c : Relational.Compiler,
      c.compilePredicate [.group .and cs]
        = (c.compilePredicate cs).map fun s => if cs.isEmpty then s else s.parenthesised := by
  refine ⟨fun q r => ⟨?_, ?_, ?_⟩, fun c doc => ⟨?_, ?_, ?_⟩, fun c => ?_⟩
  · exact KeyValue.Plan.truthOf_group_and q cs r
  · exact KeyValue.Plan.truthOf_not_or q cs r
  · exact KeyValue.Plan.truthOf_and_nots q cs r
  · exact c.answerFor_group_and doc cs
  · exact c.answerFor_not_or doc cs
  · exact c.answerFor_and_nots doc cs
  · cases cs with
    | nil => rfl
    | cons x rest => exact c.compilePredicate_and x rest

end Recordkeeper
