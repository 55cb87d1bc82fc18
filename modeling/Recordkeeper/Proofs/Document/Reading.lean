import Recordkeeper.Proofs.Action
import Recordkeeper.Proofs.Document.Selection

/-!
Contract: what the conditions on groups read of a document.

Owns:
- the paths of conditions whose names are not mapped;
- that an expression and a filter give the same for documents that are the same at their paths.

Does not own: the documents that stand for groups.
-/

set_option autoImplicit false

namespace Recordkeeper.Document

open Condition (predicates predicatesOfAll)

/-- Two documents hold the same at some paths. -/
def SameAt (paths : List String) (doc other : Json) : Prop :=
  ∀ path ∈ paths, lookup doc path = lookup other path

theorem SameAt.append {front back : List String} {doc other : Json} :
    SameAt (front ++ back) doc other ↔ SameAt front doc other ∧ SameAt back doc other :=
  List.forall_mem_append

namespace Compiler

/-- The paths that the expression of a subquery reads. -/
def subqueryPaths (c : Compiler) (q : Subquery) : List String :=
  match c.collectionOf q.raw with
  | none => []
  | some collection => (collection ++ "_joined") :: (q.field.map c.key).toList

mutual

/-- The paths that the filter of a condition reads, whose names are not mapped. -/
def paths (c : Compiler) : Condition → List String
  | .basic p => [p.field]
  | .group _ children => pathsOfAll c children
  | .sub q => c.subqueryPaths q
termination_by structural x => x

def pathsOfAll (c : Compiler) : List Condition → List String
  | [] => []
  | first :: rest => paths c first ++ pathsOfAll c rest
termination_by structural x => x

end

end Compiler

/-! ### Expressions -/

/-- A path that is missing gives null. -/
theorem evaluate_reference (doc : Json) (path : String) :
    evaluate doc (.text ("$" ++ path)) = .ok ((lookup doc path).getD .null) := by
  have after : afterSign ("$" ++ path) = path := by
    unfold afterSign
    rw [String.toList_append]
    exact String.ofList_toList
  have signed : isOperator ("$" ++ path) = true := by
    unfold isOperator
    rw [String.toList_append]
    rfl
  rw [evaluate, if_pos signed, after]

section Alike

variable {doc other : Json}

theorem evaluate_path {path : String} (same : lookup doc path = lookup other path) :
    evaluate doc (.text ("$" ++ path)) = evaluate other (.text ("$" ++ path)) := by
  rw [evaluate_reference, evaluate_reference, same]

theorem evaluateItems_cons {item : Json} {rest : List Json}
    (first : evaluate doc item = evaluate other item)
    (others : evaluateItems doc rest = evaluateItems other rest) :
    evaluateItems doc (item :: rest) = evaluateItems other (item :: rest) := by
  rw [evaluateItems, evaluateItems, first, others]

theorem evaluate_array {items : List Json}
    (same : evaluateItems doc items = evaluateItems other items) :
    evaluate doc (.array items) = evaluate other (.array items) := by
  rw [evaluate, evaluate, same]

theorem evaluate_operator {op : String} {items : List Json}
    (same : evaluateItems doc items = evaluateItems other items) :
    evaluate doc (.single op (.array items)) = evaluate other (.single op (.array items)) := by
  show (if isOperator op then evaluateItems doc items >>= fun args => applyOperator op args
      else evaluate doc (.array items) >>= fun v => pure (.object [(op, v)]))
    = (if isOperator op then evaluateItems other items >>= fun args => applyOperator op args
      else evaluate other (.array items) >>= fun v => pure (.object [(op, v)]))
  rw [same, evaluate_array same]

theorem evaluate_operator_object {op : String} {fields : List (String × Json)}
    (same : evaluate doc (.object fields) = evaluate other (.object fields)) :
    evaluate doc (.single op (.object fields)) = evaluate other (.single op (.object fields)) := by
  show (if isOperator op then
        evaluate doc (.object fields) >>= fun v => applyOperator op [v]
      else evaluate doc (.object fields) >>= fun v => pure (.object [(op, v)]))
    = (if isOperator op then
        evaluate other (.object fields) >>= fun v => applyOperator op [v]
      else evaluate other (.object fields) >>= fun v => pure (.object [(op, v)]))
  rw [same]

theorem matchesFilter_expr {e : Json} (same : evaluate doc e = evaluate other e) :
    matchesFilter doc (.single "$expr" e) = matchesFilter other (.single "$expr" e) := by
  have opened (doc : Json) : matchesFilter doc (.single "$expr" e)
      = (evaluate doc e).map truthy := by
    show clausesMatch doc [("$expr", e)] = _
    unfold clausesMatch
    rw [if_neg (by decide), if_neg (by decide), if_neg (by decide), if_pos rfl]
    cases evaluate doc e with
    | error failure => rfl
    | ok v =>
        show (if truthy v then Except.ok true else Except.ok false) = Except.ok (truthy v)
        cases truthy v <;> rfl
  rw [opened, opened, same]

/-- A degraded subquery selects every document. -/
theorem degrade_alike {c : Compiler} {q : Subquery} {reason : String} {filter : Json}
    {degradations : List Degradation} (compiled : c.degrade q reason = .ok (filter, degradations)) :
    matchesFilter doc filter = matchesFilter other filter := by
  unfold Compiler.degrade at compiled
  cases policy : c.policy with
  | strict =>
      rw [policy] at compiled
      cases compiled
  | permissive =>
      rw [policy] at compiled
      cases compiled
      rfl

/-- A subquery reads the array that joins its collection and its own field. -/
theorem subquery_alike {c : Compiler} {q : Subquery} {filter : Json}
    {degradations : List Degradation} (compiled : c.subquery q = .ok (filter, degradations))
    (same : SameAt (c.subqueryPaths q) doc other) :
    matchesFilter doc filter = matchesFilter other filter := by
  obtain ⟨_, -, compiled⟩ := exists_of_bind compiled
  unfold Compiler.subqueryPaths at same
  cases found : c.collectionOf q.raw with
  | none =>
      rw [found] at compiled
      exact degrade_alike compiled
  | some collection =>
      rw [found] at compiled same
      obtain ⟨joinedSame, fieldSame⟩ := List.forall_mem_cons.1 same
      have joined : evaluate doc (.single "$ifNull"
            (.array [.text ("$" ++ (collection ++ "_joined")), .array []]))
          = evaluate other (.single "$ifNull"
            (.array [.text ("$" ++ (collection ++ "_joined")), .array []])) :=
        evaluate_operator (evaluateItems_cons (evaluate_path joinedSame) rfl)
      have path : "$" ++ collection ++ "_joined" = "$" ++ (collection ++ "_joined") :=
        String.append_assoc
      dsimp only at compiled
      rw [path] at compiled
      have expression {e : Json} (compiled : (Except.ok (Json.single "$expr" e, []) : Except Error (Degraded Json))
          = .ok (filter, degradations)) (same : evaluate doc e = evaluate other e) :
          matchesFilter doc filter = matchesFilter other filter := by
        cases compiled
        exact matchesFilter_expr same
      have size {op : String} : evaluate doc (.single op (.array [.single "$size" (.single "$ifNull"
            (.array [.text ("$" ++ (collection ++ "_joined")), .array []])), .int 0]))
          = evaluate other (.single op (.array [.single "$size" (.single "$ifNull"
            (.array [.text ("$" ++ (collection ++ "_joined")), .array []])), .int 0])) :=
        evaluate_operator (evaluateItems_cons (evaluate_operator_object joined) rfl)
      cases field : q.field with
      | none =>
          rw [field] at compiled
          cases op : q.op <;> rw [op] at compiled
          case existsRow | notExists => exact expression compiled size
          all_goals exact degrade_alike compiled
      | some f =>
          rw [field] at compiled fieldSame
          have own := evaluate_path (fieldSame (c.key f) List.mem_cons_self)
          have pair {op : String} {second : Json} (same : evaluate doc second = evaluate other second) :
              evaluate doc (.single op (.array [.text ("$" ++ c.key f), second]))
                = evaluate other (.single op (.array [.text ("$" ++ c.key f), second])) :=
            evaluate_operator (evaluateItems_cons own (evaluateItems_cons same rfl))
          cases op : q.op <;> rw [op] at compiled
          case existsRow | notExists => exact expression compiled size
          case inSubquery => exact expression compiled (pair joined)
          case notInSubquery =>
            exact expression compiled (evaluate_operator (evaluateItems_cons (pair joined) rfl))
          case equal | notEqual | greaterThan | greaterThanOrEqual | lessThan | lessThanOrEqual =>
            exact expression compiled (pair (evaluate_operator (evaluateItems_cons joined rfl)))
          all_goals exact degrade_alike compiled

/-! ### Filters -/

theorem single_alike {field : String} (noSign : field.toList.head? ≠ some '$')
    (same : lookup doc field = lookup other field) (test : Json) :
    matchesFilter doc (.single field test) = matchesFilter other (.single field test) := by
  rw [matchesFilter_single noSign, matchesFilter_single noSign, same]

theorem group_alike {filters : List Json} (logic : Logic)
    (conjunction : allMatch doc filters = allMatch other filters)
    (disjunction : anyMatch doc filters = anyMatch other filters) (notEmpty : filters ≠ []) :
    matchesFilter doc (.single (Compiler.groupOperator logic) (.array filters))
      = matchesFilter other (.single (Compiler.groupOperator logic) (.array filters)) := by
  cases filters with
  | nil => exact absurd rfl notEmpty
  | cons f more => rw [matchesFilter_group, matchesFilter_group, conjunction, disjunction]

theorem members_alike {f : Json} {more : List Json}
    (first : matchesFilter doc f = matchesFilter other f)
    (conjunction : allMatch doc more = allMatch other more)
    (disjunction : anyMatch doc more = anyMatch other more) :
    allMatch doc (f :: more) = allMatch other (f :: more) ∧
      anyMatch doc (f :: more) = anyMatch other (f :: more) := by
  rw [allMatch, allMatch, anyMatch, anyMatch, first, conjunction, disjunction]
  exact ⟨rfl, rfl⟩

theorem predicate_alike {c : Compiler} {p : Predicate} {filter : Json}
    (compiled : c.predicate false p = .ok filter) (noSign : p.field.toList.head? ≠ some '$')
    (same : lookup doc p.field = lookup other p.field) :
    matchesFilter doc filter = matchesFilter other filter := by
  obtain ⟨_, -, compiled⟩ := exists_of_bind compiled
  obtain ⟨test, -, compiled⟩ := exists_of_bind compiled
  cases test with
  | some test =>
      cases compiled
      exact single_alike noSign same test
  | none =>
      obtain ⟨bounds, -, compiled⟩ := exists_of_bind compiled
      cases compiled
      have low := single_alike noSign same (.single "$lt" bounds.1.toJson)
      have high := single_alike noSign same (.single "$gt" bounds.2.toJson)
      have last : allMatch doc [_] = allMatch other [_] ∧ anyMatch doc [_] = anyMatch other [_] :=
        members_alike high rfl rfl
      obtain ⟨conjunction, disjunction⟩ := members_alike low last.1 last.2
      exact group_alike .or conjunction disjunction (by simp)

mutual

/-- A compiled condition reads its paths only. -/
theorem condition_alike {c : Compiler} (condition : Condition) {filter : Json}
    {degradations : List Degradation}
    (compiled : c.condition false condition = .ok (filter, degradations))
    (noSign : ∀ p ∈ predicates condition, p.field.toList.head? ≠ some '$')
    (same : SameAt (c.paths condition) doc other) :
    matchesFilter doc filter = matchesFilter other filter := by
  cases condition with
  | basic p =>
      rw [Compiler.condition] at compiled
      obtain ⟨own, ownCompiled, compiled⟩ := exists_of_bind compiled
      cases compiled
      exact predicate_alike ownCompiled (noSign p List.mem_cons_self) (same _ List.mem_cons_self)
  | sub q => exact subquery_alike compiled same
  | group logic children =>
      cases children with
      | nil =>
          cases logic with
          | and | not =>
              cases compiled
              rfl
          | or =>
              cases compiled
              rw [matchesFilter_selectNothing, matchesFilter_selectNothing]
      | cons child rest =>
          rw [Compiler.condition] at compiled
          obtain ⟨filters, membersCompiled, compiled⟩ := exists_of_bind compiled
          cases compiled
          obtain ⟨conjunction, disjunction, notEmpty⟩ :=
            conditions_alike (child :: rest) membersCompiled noSign same
          exact group_alike logic conjunction disjunction (notEmpty (by simp))
termination_by structural condition

theorem conditions_alike {c : Compiler} (conditions : List Condition) {filters : List Json}
    {degradations : List Degradation}
    (compiled : c.conditions false conditions = .ok (filters, degradations))
    (noSign : ∀ p ∈ predicatesOfAll conditions, p.field.toList.head? ≠ some '$')
    (same : SameAt (c.pathsOfAll conditions) doc other) :
    allMatch doc filters = allMatch other filters ∧ anyMatch doc filters = anyMatch other filters ∧
      (conditions ≠ [] → filters ≠ []) := by
  cases conditions with
  | nil =>
      cases compiled
      exact ⟨rfl, rfl, fun notEmpty => absurd rfl notEmpty⟩
  | cons first rest =>
      rw [Compiler.conditions] at compiled
      obtain ⟨own, ownCompiled, compiled⟩ := exists_of_bind compiled
      obtain ⟨others, othersCompiled, compiled⟩ := exists_of_bind compiled
      cases compiled
      obtain ⟨firstSigns, restSigns⟩ := List.forall_mem_append.1 noSign
      obtain ⟨firstSame, restSame⟩ := SameAt.append.1 same
      have head := condition_alike first ownCompiled firstSigns firstSame
      obtain ⟨conjunction, disjunction, -⟩ := conditions_alike rest othersCompiled restSigns restSame
      have members := members_alike head conjunction disjunction
      exact ⟨members.1, members.2, fun _ => List.cons_ne_nil _ _⟩
termination_by structural conditions

end

/-- A conjunction of conditions reads their paths only. -/
theorem conjunction_alike {c : Compiler} {conditions : List Condition} {filter : Json}
    {degradations : List Degradation}
    (compiled : c.conjunction false conditions = .ok (filter, degradations))
    (noSign : ∀ p ∈ predicatesOfAll conditions, p.field.toList.head? ≠ some '$')
    (same : SameAt (c.pathsOfAll conditions) doc other) :
    matchesFilter doc filter = matchesFilter other filter := by
  match conditions with
  | [] =>
      cases compiled
      rfl
  | [single] =>
      exact condition_alike single compiled
        (fun p member => noSign p (List.mem_append_left _ member))
        (SameAt.append.1 same).1
  | first :: second :: rest =>
      obtain ⟨filters, membersCompiled, compiled⟩ := exists_of_bind compiled
      cases compiled
      obtain ⟨conjunction, disjunction, notEmpty⟩ :=
        conditions_alike (first :: second :: rest) membersCompiled noSign same
      exact group_alike .and conjunction disjunction (notEmpty (by simp))

end Alike

end Recordkeeper.Document
