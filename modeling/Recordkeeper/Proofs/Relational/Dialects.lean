import Recordkeeper.Proofs.Relational.Phrases

/-!
Contract: one condition in the dialects of a compiler.

Owns:
- fragments respelled with the quotes that a dialect puts around names;
- that conditions on memberships are written alike in every dialect, but for these quotes.

Does not own: how a place is written, which is left to rendering.

Patterns and expressions are not written alike: their escapes and operators differ.
-/

set_option autoImplicit false

namespace Recordkeeper

namespace Relational

/-! ### Respelling -/

/-- A text with the quotes of a dialect in place of double quotes. -/
def respell (dialect : Dialect) (s : String) : String :=
  String.ofList (s.toList.map fun c => if c = '"' then quoteMark dialect else c)

def Fragment.respelled (dialect : Dialect) : Fragment → Fragment
  | .text s => .text (respell dialect s)
  | .bound v => .bound v

variable (dialect : Dialect)

theorem respell_append (s t : String) :
    respell dialect (s ++ t) = respell dialect s ++ respell dialect t := by
  unfold respell
  rw [String.toList_append, List.map_append, String.ofList_append]

theorem respell_clean {s : String} (clean : '"' ∉ s.toList) : respell dialect s = s := by
  unfold respell
  rw [List.map_congr_left (g := id), List.map_id, String.ofList_toList]
  rintro c member
  exact if_neg (ne_of_mem_of_not_mem member clean)

theorem boundValues_respelled (fs : List Fragment) :
    boundValues (fs.map (Fragment.respelled dialect)) = boundValues fs := by
  induction fs with
  | nil => rfl
  | cons f rest inductionHypothesis =>
      cases f with
      | text s => exact inductionHypothesis
      | bound v => exact congrArg (v :: ·) inductionHypothesis

/-- For SQLite nothing is respelled. -/
theorem respelled_sqlite (fs : List Fragment) : fs.map (Fragment.respelled .sqlite) = fs := by
  have kept (s : String) : respell .sqlite s = s := by
    unfold respell
    rw [List.map_congr_left (g := id), List.map_id, String.ofList_toList]
    intro c _
    show (if c = '"' then '"' else c) = c
    split
    next same => exact same.symm
    next => rfl
  induction fs with
  | nil => rfl
  | cons f rest inductionHypothesis =>
      cases f with
      | text s => rw [List.map_cons, inductionHypothesis, Fragment.respelled, kept]
      | bound v => rw [List.map_cons, inductionHypothesis, Fragment.respelled]

theorem boundList_respelled (vs : List Value) :
    (Compiler.boundList vs).map (Fragment.respelled dialect) = Compiler.boundList vs := by
  fun_induction Compiler.boundList vs with
  | case1 => rfl
  | case2 v => rfl
  | case3 v w rest inductionHypothesis =>
      have comma : respell dialect ", " = ", " := respell_clean dialect (by decide)
      rw [List.map_cons, List.map_cons, inductionHypothesis, Fragment.respelled, Fragment.respelled,
        comma]

/-! ### Names -/

theorem respell_quoted {name : List Char} (clean : '"' ∉ name) :
    respell dialect (String.ofList (['"'] ++ name ++ ['"']))
      = String.ofList ([quoteMark dialect] ++ name ++ [quoteMark dialect]) := by
  have inside := respell_clean dialect (s := String.ofList name) (by rwa [String.toList_ofList])
  rw [String.ofList_append, String.ofList_append, respell_append, respell_append, inside,
    String.ofList_append, String.ofList_append]
  rfl

/-- A name is refused alike in every dialect, and quoted alike but for the quotes. -/
theorem quoteIdentifier_respelled (ident : String) :
    quoteIdentifier dialect ident = (quoteIdentifier .sqlite ident).map (respell dialect) := by
  unfold quoteIdentifier
  cases read : nameParts? ident with
  | none => rfl
  | some parts =>
      have point : respell dialect "." = "." := respell_clean dialect (by decide)
      rcases nameParts?_cases read with ⟨name, rfl, clean⟩ | ⟨table, name, rfl, tableClean, clean⟩
      · exact congrArg Except.ok (respell_quoted dialect clean).symm
      · have joined (first second : String) :
            String.intercalate "." [first, second] = first ++ "." ++ second := rfl
        refine congrArg Except.ok ?_
        rw [List.map_cons, List.map_cons, List.map_nil, joined, List.map_cons, List.map_cons,
          List.map_nil, joined, respell_append, respell_append, point]
        exact (congrArg₂ (· ++ "." ++ ·) (respell_quoted dialect tableClean)
          (respell_quoted dialect clean)).symm

/-! ### Conditions -/

namespace Compiler

variable (c : Compiler)

def onSqlite : Compiler := { c with dialect := .sqlite }

theorem column_respelled (field : String) :
    c.column field = (c.onSqlite.column field).map (respell c.dialect) :=
  quoteIdentifier_respelled c.dialect (c.ident field)

theorem respelled_text {s : String} (clean : '"' ∉ s.toList) :
    Fragment.respelled c.dialect (.text s) = .text s := by
  rw [Fragment.respelled, respell_clean c.dialect clean]

/-- A test on memberships is written alike behind its column. -/
theorem predicateOn_respelled {p : Predicate} (membership : p.IsMembership) (col : String) :
    c.predicateOn p (respell c.dialect col)
      = (c.onSqlite.predicateOn p col).map (List.map (Fragment.respelled c.dialect)) := by
  have behind (s : String) (clean : '"' ∉ s.toList) :
      Fragment.respelled c.dialect (.text (col ++ s)) = .text (respell c.dialect col ++ s) := by
    rw [Fragment.respelled, respell_append, respell_clean c.dialect clean]
  have listed (head : String) (clean : '"' ∉ head.toList) (vs : List Value) :
      (Fragment.text (col ++ head) :: boundList vs ++ [Fragment.text ")"]).map
          (Fragment.respelled c.dialect)
        = .text (respell c.dialect col ++ head) :: boundList vs ++ [.text ")"] := by
    rw [List.map_append, List.map_cons, behind head clean, boundList_respelled, List.map_singleton,
      respelled_text c (by decide)]
  unfold predicateOn
  rcases membership with op | op | op | op <;> rw [op] <;> dsimp only
  · cases p.value.list?.getD [] with
    | nil => exact congrArg (fun f => Except.ok [f]) (respelled_text c (by decide)).symm
    | cons v more => exact congrArg Except.ok (listed " IN (" (by decide) (v :: more)).symm
  · cases p.value.list?.getD [] with
    | nil => exact congrArg (fun f => Except.ok [f]) (behind " IS NOT NULL" (by decide)).symm
    | cons v more => exact congrArg Except.ok (listed " NOT IN (" (by decide) (v :: more)).symm
  · exact congrArg (fun f => Except.ok [f]) (behind " IS NULL" (by decide)).symm
  · exact congrArg (fun f => Except.ok [f]) (behind " IS NOT NULL" (by decide)).symm

theorem predicate_respelled {p : Predicate} (membership : p.IsMembership) :
    c.predicate false p
      = (c.onSqlite.predicate false p).map (List.map (Fragment.respelled c.dialect)) := by
  show (p.validate >>= fun _ => c.column p.field >>= c.predicateOn p)
    = (p.validate >>= fun _ => c.onSqlite.column p.field >>= c.onSqlite.predicateOn p).map _
  cases p.validate with
  | error e => rfl
  | ok passed =>
      show c.column p.field >>= c.predicateOn p
        = (c.onSqlite.column p.field >>= c.onSqlite.predicateOn p).map _
      rw [column_respelled]
      cases c.onSqlite.column p.field with
      | error e => rfl
      | ok col => exact predicateOn_respelled c membership col

mutual

/-- Conditions on memberships are written alike in every dialect but for the quotes. -/
theorem condition_respelled (x : Condition) (closed : x.hasSubquery = false)
    (memberships : ∀ p ∈ x.predicates, p.IsMembership) :
    c.condition false x
      = (c.onSqlite.condition false x).map (List.map (Fragment.respelled c.dialect)) := by
  match x with
  | .basic p => exact predicate_respelled c (memberships p List.mem_cons_self)
  | .group logic [] =>
      cases logic <;>
        exact congrArg (fun f => Except.ok [f]) (respelled_text c (by decide)).symm
  | .group logic (child :: rest) =>
      have inner := members_respelled (joiner logic) (by cases logic <;> decide) (child :: rest)
        closed memberships
      show (c.members false (joiner logic) (child :: rest) >>= _)
        = (c.onSqlite.members false (joiner logic) (child :: rest) >>= _).map _
      rw [inner]
      cases c.onSqlite.members false (joiner logic) (child :: rest) with
      | error e => rfl
      | ok body =>
          have opened : Fragment.respelled c.dialect (.text (head logic)) = .text (head logic) :=
            respelled_text c (by cases logic <;> decide)
          have closing : Fragment.respelled c.dialect (.text ")") = .text ")" :=
            respelled_text c (by decide)
          show Except.ok (.text (head logic) :: body.map (Fragment.respelled c.dialect)
              ++ [.text ")"])
            = Except.ok ((Fragment.text (head logic) :: body ++ [Fragment.text ")"]).map
              (Fragment.respelled c.dialect))
          rw [List.map_append, List.map_cons, List.map_singleton, opened, closing]
  | .sub q => cases closed

theorem members_respelled (between : String) (clean : '"' ∉ between.toList) (xs : List Condition)
    (closed : Condition.anySubquery xs = false)
    (memberships : ∀ p ∈ Condition.predicatesOfAll xs, p.IsMembership) :
    c.members false between xs
      = (c.onSqlite.members false between xs).map (List.map (Fragment.respelled c.dialect)) := by
  match xs with
  | [] => rfl
  | [child] =>
      exact condition_respelled child (Bool.or_eq_false_iff.1 closed).1 fun p member =>
        memberships p (List.mem_append_left _ member)
  | child :: next :: rest =>
      obtain ⟨childClosed, restClosed⟩ := Bool.or_eq_false_iff.1 closed
      obtain ⟨first, others⟩ := List.forall_mem_append.1 memberships
      have front := condition_respelled child childClosed first
      have later := members_respelled between clean (next :: rest) restClosed others
      show (c.condition false child >>= fun f => c.members false between (next :: rest) >>= _)
        = (c.onSqlite.condition false child >>= fun f =>
            c.onSqlite.members false between (next :: rest) >>= _).map _
      rw [front, later]
      cases c.onSqlite.condition false child with
      | error e => rfl
      | ok fs =>
          cases c.onSqlite.members false between (next :: rest) with
          | error e => rfl
          | ok gs =>
              refine congrArg Except.ok ?_
              rw [List.map_append, List.map_cons, respelled_text c clean]

end

/-- The statement of conditions on memberships, from the fragments that are written for SQLite. -/
theorem compilePredicate_respelled {cs : List Condition} (closed : Condition.anySubquery cs = false)
    (memberships : ∀ p ∈ Condition.predicatesOfAll cs, p.IsMembership) {statement : Statement}
    (compiled : c.compilePredicate cs = .ok statement) :
    ∃ fs, c.onSqlite.conjunction false cs = .ok fs ∧
      statement = .ofFragments c.dialect (fs.map (Fragment.respelled c.dialect)) [] := by
  obtain ⟨gs, body, rendered⟩ := exists_of_bind compiled
  obtain rfl := Except.ok.inj rendered
  have respelled : c.conjunction false cs
      = (c.onSqlite.conjunction false cs).map (List.map (Fragment.respelled c.dialect)) := by
    cases cs with
    | nil => exact congrArg (fun f => Except.ok [f]) (respelled_text c (by decide)).symm
    | cons child rest => exact members_respelled c " AND " (by decide) (child :: rest) closed memberships
  rw [body] at respelled
  cases written : c.onSqlite.conjunction false cs with
  | error e =>
      rw [written] at respelled
      cases respelled
  | ok fs =>
      rw [written] at respelled
      obtain rfl := Except.ok.inj respelled
      exact ⟨fs, rfl, rfl⟩

end Compiler

end Relational

end Recordkeeper
