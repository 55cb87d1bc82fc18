import Recordkeeper.Proofs.Relational.Fragments
import Recordkeeper.Proofs.Relational.Phrases

/-!
Contract: the values of conditions stand in the text where they belong.

Owns:
- the text of a condition with the values written in it, in any dialect;
- the values of a condition in the order of the tree, the arguments of subqueries among them;
- that compiled conditions are this text with these values at its places.

Does not own: the statements around conditions.

The text is written with any function on values, so a value that stood at another place would be
seen.
-/

set_option autoImplicit false

namespace Recordkeeper

/-- The text of a subquery has closed quotes and no sign of a numbered placeholder. -/
structure Subquery.IsClean (q : Subquery) : Prop where
  noDollar : '$' ∉ q.raw.toList
  evenQuotes : q.raw.toList.count '\'' % 2 = 0

/-- A placeholder of a subquery has a digit directly behind it. -/
def Subquery.Fuses (q : Subquery) : Prop := Relational.fuses false q.raw.toList = true

namespace Condition

/-- The values of a condition in the order of the tree, as they are bound. -/
def params : Condition → List Value := collect Predicate.bound Subquery.args

def paramsOfAll : List Condition → List Value := collectAll Predicate.bound Subquery.args

def subqueries : Condition → List Subquery := collect (fun _ => []) fun q => [q]

def subqueriesOfAll : List Condition → List Subquery := collectAll (fun _ => []) fun q => [q]

end Condition

namespace Relational

/-! ### Texts with values -/

/-- The text that was compiled, and none if it was refused. -/
def textOf : Except Error String → String
  | .ok s => s
  | .error _ => ""

namespace Compiler

variable (c : Compiler) (write : Value → String)

def columnText (onGroups : Bool) (field : String) : String :=
  if onGroups && field = Query.countField then "COUNT(*)" else textOf (c.column field)

/-- The text of a predicate on a column. -/
def predicateText (p : Predicate) (col : String) : String :=
  let binary (sign : String) : String := col ++ " " ++ sign ++ " " ++ write p.value
  let membership (word empty : String) : String :=
    match p.operands with
    | [] => empty
    | items => col ++ word ++ String.intercalate ", " (items.map write) ++ ")"
  let range (word : String) : String :=
    match p.operands with
    | [low, high] => col ++ word ++ write low ++ " AND " ++ write high
    | _ => ""
  match p.effectiveOp with
  | .equal => binary "="
  | .notEqual => binary "<>"
  | .greaterThan => binary ">"
  | .greaterThanOrEqual => binary ">="
  | .lessThan => binary "<"
  | .lessThanOrEqual => binary "<="
  | .like => binary "LIKE"
  | .notLike => binary "NOT LIKE"
  | .regex => binary (regexOperator c.dialect)
  | .isIn => membership " IN (" "1 = 0"
  | .notIn => membership " NOT IN (" (col ++ " IS NOT NULL")
  | .isNull => col ++ " IS NULL"
  | .isNotNull => col ++ " IS NOT NULL"
  | .between => range " BETWEEN "
  | .notBetween => range " NOT BETWEEN "
  | .contains | .startsWith | .endsWith =>
    col ++ " LIKE " ++ write (.text (partPattern p.effectiveOp p.pattern)) ++ escapeClause c.dialect
  | .existsRow | .notExists | .inSubquery | .notInSubquery => ""

/-- The text of a subquery, whose question marks are its places. -/
def subqueryText (q : Subquery) : String :=
  textOf (c.subqueryHead q) ++ String.ofList (fill .sqlite write 0 false q.raw.toList q.args) ++ ")"

mutual

def conditionText (onGroups : Bool) : Condition → String
  | .basic p => c.predicateText write p (c.columnText onGroups p.field)
  | .group logic [] => if logic = .or then "1 = 0" else "1 = 1"
  | .group logic (child :: rest) =>
    head logic
      ++ String.intercalate (joiner logic)
        (conditionText onGroups child :: conditionTexts onGroups rest)
      ++ ")"
  | .sub q => c.subqueryText write q
termination_by structural x => x

def conditionTexts (onGroups : Bool) : List Condition → List String
  | [] => []
  | child :: rest => conditionText onGroups child :: conditionTexts onGroups rest
termination_by structural x => x

end

end Compiler

/-! ### Fragments that show their values -/

/-- The fragments bind the values, show them in their places, and hold nothing else that reads as a
placeholder; no digit is behind a place exactly if `apart` holds. -/
structure Faithful (dialect : Dialect) (fs : List Fragment) (values : List Value)
    (shown : (Value → String) → String) (apart : Prop) : Prop where
  quiet : AllQuiet dialect fs
  values : boundValues fs = values
  shown : ∀ write, inline write fs = shown write
  parted : Parted fs ↔ apart

section Faithful

variable {dialect : Dialect} {fs gs : List Fragment} {values others : List Value}
  {shown next : (Value → String) → String} {apart more : Prop}

theorem Faithful.append (first : Faithful dialect fs values shown apart)
    (second : Faithful dialect gs others next more) (noDigit : opensWithDigit gs = false) :
    Faithful dialect (fs ++ gs) (values ++ others) (fun write => shown write ++ next write)
      (apart ∧ more) where
  quiet s member := (List.mem_append.1 member).elim (first.quiet s) (second.quiet s)
  values := by rw [boundValues_append, first.values, second.values]
  shown write := by rw [inline_append, first.shown, second.shown]
  parted := by rw [parted_append fs noDigit, first.parted, second.parted]

theorem faithful_nil : Faithful dialect [] [] (fun _ => "") True where
  quiet _ member := nomatch member
  values := rfl
  shown _ := rfl
  parted := Iff.rfl

theorem Faithful.behind (inner : Faithful dialect fs values shown apart) {s : String}
    (quiet : Quiet dialect s) :
    Faithful dialect (.text s :: fs) values (fun write => s ++ shown write) apart where
  quiet t member := by
    rcases List.mem_cons.1 member with same | later
    · obtain rfl := Fragment.text.inj same
      exact quiet
    · exact inner.quiet t later
  values := inner.values
  shown write := congrArg (s ++ ·) (inner.shown write)
  parted := inner.parted

theorem Faithful.place (inner : Faithful dialect fs values shown apart) (v : Value)
    (noDigit : opensWithDigit fs = false) :
    Faithful dialect (.bound v :: fs) (v :: values) (fun write => write v ++ shown write)
      apart where
  quiet s member := inner.quiet s ((List.mem_cons.1 member).resolve_left nofun)
  values := congrArg (v :: ·) inner.values
  shown write := congrArg (write v ++ ·) (inner.shown write)
  parted := (and_iff_right noDigit).trans inner.parted

theorem faithful_text {s : String} (quiet : Quiet dialect s) :
    Faithful dialect [.text s] [] (fun _ => s) True := by
  have alone := faithful_nil.behind quiet
  simp only [String.append_empty] at alone
  exact alone

/-- A text and a value at its end. -/
theorem faithful_ending {s : String} (quiet : Quiet dialect s) (v : Value) :
    Faithful dialect [.text s, .bound v] [v] (fun write => s ++ write v) True := by
  have pair := (faithful_nil.place v rfl).behind quiet
  simp only [String.append_empty] at pair
  exact pair

theorem Faithful.congr (inner : Faithful dialect fs values shown apart)
    (same : ∀ write, shown write = next write) (iff : apart ↔ more) :
    Faithful dialect fs values next more where
  quiet := inner.quiet
  values := inner.values
  shown write := (inner.shown write).trans (same write)
  parted := inner.parted.trans iff

theorem faithful_boundList (items : List Value) :
    Faithful dialect (Compiler.boundList items) items
      (fun write => String.intercalate ", " (items.map write)) True := by
  match items with
  | [] => exact faithful_nil
  | [v] =>
      exact (faithful_nil.place v rfl).congr (fun write => String.append_empty) Iff.rfl
  | v :: w :: rest =>
      have comma : Quiet dialect ", " := Bare.quiet (by decide) dialect
      have others := (faithful_boundList (w :: rest)).behind comma
      refine (others.place v rfl).congr (fun write => ?_) Iff.rfl
      show write v ++ (", " ++ String.intercalate ", " (write w :: rest.map write))
        = String.intercalate ", " (write v :: write w :: rest.map write)
      rw [String.intercalate_cons_of_ne_nil (List.cons_ne_nil _ _), String.append_assoc]

end Faithful

/-! ### Predicates -/

section Predicates

variable {dialect : Dialect} {col : String}

theorem faithful_binary (bare : Bare col) {sign : String} (bareSign : Bare sign) (v : Value) :
    Faithful dialect [.text (col ++ " " ++ sign ++ " "), .bound v] [v]
      (fun write => col ++ " " ++ sign ++ " " ++ write v) True := by
  have front : Bare (col ++ " " ++ sign ++ " ") :=
    ((bare.append (by decide)).append bareSign).append (by decide)
  exact faithful_ending (front.quiet dialect) v

theorem faithful_membership (bare : Bare col) {word : String} (bareWord : Bare word)
    (items : List Value) :
    Faithful dialect (.text (col ++ word) :: Compiler.boundList items ++ [.text ")"]) items
      (fun write => col ++ word ++ String.intercalate ", " (items.map write) ++ ")") True := by
  have front := (faithful_boundList items).behind ((bare.append bareWord).quiet dialect)
  have back := faithful_text (Bare.quiet (s := ")") (by decide) dialect)
  have whole := front.append back rfl
  rw [List.append_nil, true_and] at whole
  exact whole

theorem faithful_range (bare : Bare col) {word : String} (bareWord : Bare word) (low high : Value) :
    Faithful dialect [.text (col ++ word), .bound low, .text " AND ", .bound high] [low, high]
      (fun write => col ++ word ++ write low ++ " AND " ++ write high) True := by
  have back := faithful_ending (Bare.quiet (s := " AND ") (by decide) dialect) high
  have whole := (back.place low rfl).behind ((bare.append bareWord).quiet dialect)
  exact whole.congr (fun write => by simp only [String.append_assoc]) Iff.rfl

theorem faithful_part (bare : Bare col) (pattern : Value) :
    Faithful dialect
      [.text (col ++ " LIKE "), .bound pattern, .text (Compiler.escapeClause dialect)] [pattern]
      (fun write => col ++ " LIKE " ++ write pattern ++ Compiler.escapeClause dialect) True := by
  have closed : Quiet dialect (Compiler.escapeClause dialect) := by cases dialect <;> rfl
  have apart : opensWithDigit [.text (Compiler.escapeClause dialect)] = false := by
    cases dialect <;> rfl
  have whole := ((faithful_text closed).place pattern apart).behind
    ((bare.append (t := " LIKE ") (by decide)).quiet dialect)
  exact whole.congr (fun write => by simp only [String.append_assoc]) Iff.rfl

theorem bare_regexOperator (dialect : Dialect) : Bare (Compiler.regexOperator dialect) := by
  cases dialect <;> decide

theorem predicateOn_faithful {c : Compiler} {p : Predicate} (valid : p.validate = .ok ())
    (bare : Bare col) {fs : List Fragment} (compiled : c.predicateOn p col = .ok fs) :
    Faithful c.dialect fs p.bound (fun write => c.predicateText write p col) True := by
  have shape := Predicate.validate_cases valid
  cases op : p.effectiveOp <;> rw [op] at shape <;> dsimp only at shape <;>
    simp only [Compiler.predicateOn, op] at compiled <;>
    simp only [Predicate.bound, Compiler.predicateText, op]
  case equal | notEqual | greaterThan | greaterThanOrEqual | lessThan | lessThanOrEqual =>
    obtain rfl := Except.ok.inj compiled
    rw [shape]
    exact faithful_binary bare (by decide) p.value
  case like | notLike =>
    obtain rfl := Except.ok.inj compiled
    obtain ⟨t, text, operands⟩ := shape
    rw [operands, text]
    exact faithful_binary bare (by decide) (.text t)
  case regex =>
    obtain rfl := Except.ok.inj compiled
    obtain ⟨t, text, operands, -⟩ := shape
    rw [operands, text]
    exact faithful_binary bare (bare_regexOperator c.dialect) (.text t)
  case isIn =>
    obtain ⟨items, list, operands⟩ := shape
    rw [operands]
    simp only [list, Value.list?, Option.getD_some] at compiled
    cases items with
    | nil =>
        obtain rfl := Except.ok.inj compiled
        exact faithful_text (Bare.quiet (by decide) _)
    | cons v more =>
        obtain rfl := Except.ok.inj compiled
        exact faithful_membership bare (by decide) (v :: more)
  case notIn =>
    obtain ⟨items, list, operands⟩ := shape
    rw [operands]
    simp only [list, Value.list?, Option.getD_some] at compiled
    cases items with
    | nil =>
        obtain rfl := Except.ok.inj compiled
        exact faithful_text ((bare.append (by decide)).quiet _)
    | cons v more =>
        obtain rfl := Except.ok.inj compiled
        exact faithful_membership bare (by decide) (v :: more)
  case isNull | isNotNull =>
    obtain rfl := Except.ok.inj compiled
    rw [shape]
    exact faithful_text ((bare.append (by decide)).quiet _)
  case between | notBetween =>
    obtain ⟨low, high, list, operands, bounds⟩ := shape
    rw [bounds] at compiled
    obtain rfl := Except.ok.inj compiled
    rw [operands]
    exact faithful_range bare (by decide) low high
  case contains | startsWith | endsWith =>
    obtain rfl := Except.ok.inj compiled
    exact faithful_part bare _

theorem predicate_faithful {c : Compiler} {onGroups : Bool} {p : Predicate} {fs : List Fragment}
    (compiled : c.predicate onGroups p = .ok fs) :
    Faithful c.dialect fs p.bound
      (fun write => c.predicateText write p (c.columnText onGroups p.field)) True := by
  obtain ⟨valid, col, column, compiled⟩ := Compiler.exists_of_predicate compiled
  unfold Compiler.columnText
  split at column
  next counted =>
    obtain rfl := Except.ok.inj column
    rw [if_pos counted]
    exact predicateOn_faithful valid (by decide) compiled
  next named =>
    rw [if_neg named, column]
    exact predicateOn_faithful valid (bare_of_quoted column) compiled

end Predicates

/-! ### Subqueries -/

theorem bare_display (op : Operator) : Bare op.display := by
  cases op <;> decide

theorem bare_subqueryHead {c : Compiler} {q : Subquery} {head : String}
    (compiled : c.subqueryHead q = .ok head) : Bare head := by
  have onField {field op : String} (bareOp : Bare op)
      (named : (do let col ← c.column field; return col ++ " " ++ op ++ " (") = .ok head) :
      Bare head := by
    obtain ⟨col, quoted, same⟩ := exists_of_bind (x := c.column field) named
    obtain rfl := Except.ok.inj same
    exact (((bare_of_quoted quoted).append (by decide)).append bareOp).append (by decide)
  unfold Compiler.subqueryHead at compiled
  dsimp only at compiled
  split at compiled
  next =>
    obtain rfl := Except.ok.inj compiled
    decide
  next =>
    obtain rfl := Except.ok.inj compiled
    decide
  next => exact onField (by decide) compiled
  next => exact onField (by decide) compiled
  next =>
    split at compiled
    next => exact onField (bare_display _) compiled
    next => cases compiled
  next => cases compiled

theorem foreign_faithful {dialect : Dialect} {q : Subquery} (clean : q.IsClean)
    {fs : List Fragment} (compiled : foreign q.raw q.args = .ok fs) :
    Faithful dialect fs q.args
      (fun write => String.ofList (fill .sqlite write 0 false q.raw.toList q.args)) ¬q.Fuses := by
  obtain ⟨all, rfl⟩ := of_foreign compiled
  have cut : Cut false q.raw.toList q.args [] _ := cut_bindPlaceholders all
  refine ⟨cut.allQuiet clean.noDollar clean.evenQuotes rfl, cut.boundValues, fun write => ?_, ?_⟩
  · rw [← String.toList_inj, cut.inline, String.toList_ofList]
    rfl
  · rw [cut.parted, Subquery.Fuses, Bool.not_eq_true]

theorem subquery_faithful {c : Compiler} {q : Subquery} (clean : q.IsClean) {fs : List Fragment}
    (compiled : c.subquery q = .ok fs) :
    Faithful c.dialect fs q.args (fun write => c.subqueryText write q) ¬q.Fuses := by
  obtain ⟨head, body, headed, bound, rfl⟩ := Compiler.exists_of_subquery compiled
  have front := (foreign_faithful clean bound).behind ((bare_subqueryHead headed).quiet c.dialect)
  have whole := front.append (faithful_text (Bare.quiet (s := ")") (by decide) c.dialect)) rfl
  rw [List.append_nil, and_true] at whole
  refine whole.congr (fun write => ?_) Iff.rfl
  rw [Compiler.subqueryText, headed]
  rfl

/-! ### Conditions -/

theorem bare_head (logic : Logic) : Bare (head logic) := by
  cases logic <;> decide

theorem bare_joiner (logic : Logic) : Bare (Compiler.joiner logic) := by
  cases logic <;> decide

theorem joiner_noDigit (logic : Logic) (fs : List Fragment) :
    opensWithDigit (.text (Compiler.joiner logic) :: fs) = false := by
  cases logic <;> rfl

mutual

theorem condition_faithful {c : Compiler} {onGroups : Bool} (x : Condition)
    (clean : ∀ q ∈ x.subqueries, q.IsClean) {fs : List Fragment}
    (compiled : c.condition onGroups x = .ok fs) :
    Faithful c.dialect fs x.params (fun write => c.conditionText write onGroups x)
      (∀ q ∈ x.subqueries, ¬q.Fuses) := by
  match x with
  | .basic p =>
      exact (predicate_faithful compiled).congr (fun _ => rfl)
        (iff_of_true trivial (List.forall_mem_nil _))
  | .group logic [] =>
      have constant : Bare (if logic = .or then "1 = 0" else "1 = 1") := by cases logic <;> decide
      have same : fs = [.text (if logic = .or then "1 = 0" else "1 = 1")] := by
        cases logic <;> exact (Except.ok.inj compiled).symm
      rw [same]
      exact (faithful_text (constant.quiet _)).congr (fun _ => rfl)
        (iff_of_true trivial (List.forall_mem_nil _))
  | .group logic (child :: rest) =>
      obtain ⟨body, written, rfl⟩ := Compiler.exists_of_group compiled
      have inner := members_faithful (bare_joiner logic) (joiner_noDigit logic) (child :: rest)
        clean written
      have whole := (inner.behind ((bare_head logic).quiet _)).append
        (faithful_text (Bare.quiet (s := ")") (by decide) c.dialect)) rfl
      rw [List.append_nil] at whole
      exact whole.congr (fun _ => rfl) (and_iff_left trivial)
  | .sub q =>
      refine (subquery_faithful (clean q List.mem_cons_self) compiled).congr (fun _ => rfl) ?_
      exact (List.forall_mem_singleton (p := fun other : Subquery => ¬other.Fuses)).symm

theorem members_faithful {c : Compiler} {onGroups : Bool} {between : String}
    (bare : Bare between) (apart : ∀ others, opensWithDigit (.text between :: others) = false)
    (cs : List Condition) (clean : ∀ q ∈ Condition.subqueriesOfAll cs, q.IsClean)
    {fs : List Fragment} (compiled : c.members onGroups between cs = .ok fs) :
    Faithful c.dialect fs (Condition.paramsOfAll cs)
      (fun write => String.intercalate between (c.conditionTexts write onGroups cs))
      (∀ q ∈ Condition.subqueriesOfAll cs, ¬q.Fuses) := by
  match cs with
  | [] =>
      obtain rfl := Except.ok.inj compiled
      exact faithful_nil.congr (fun _ => rfl) (iff_of_true trivial (List.forall_mem_nil _))
  | [child] =>
      have only := condition_faithful child
        (fun q member => clean q (List.mem_append_left _ member)) compiled
      rw [Condition.paramsOfAll, Condition.subqueriesOfAll, Condition.collectAll_singleton,
        Condition.collectAll_singleton]
      exact only.congr (fun write => (String.intercalate_singleton).symm) Iff.rfl
  | child :: next :: rest =>
      obtain ⟨front, others, firstCompiled, othersCompiled, rfl⟩ := Compiler.exists_of_members compiled
      have first := condition_faithful child
        (fun q member => clean q (List.mem_append_left _ member)) firstCompiled
      have later := members_faithful bare apart (next :: rest)
        (fun q member => clean q (List.mem_append_right _ member)) othersCompiled
      refine (first.append (later.behind (bare.quiet _)) (apart others)).congr (fun write => ?_)
        List.forall_mem_append.symm
      have more : c.conditionTexts write onGroups (next :: rest) ≠ [] := List.cons_ne_nil _ _
      exact ((String.intercalate_cons_of_ne_nil more).trans String.append_assoc).symm

end

end Relational

end Recordkeeper
