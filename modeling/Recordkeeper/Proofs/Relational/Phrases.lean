import Recordkeeper.Proofs.Action
import Recordkeeper.Proofs.Condition
import Recordkeeper.Proofs.Predicate
import Recordkeeper.Proofs.Relational.Inversion
import Recordkeeper.Proofs.Sql.Phrase
import Recordkeeper.Relational.Compiler

/-!
Contract: conditions are compiled to the texts of phrases.

Owns:
- the phrase of a condition, with the values bound at its places;
- that the compiler writes this phrase and binds these values, in this order.

Does not own: what a phrase means.
-/

set_option autoImplicit false

namespace Recordkeeper

open Sql (ColumnName Form Phrase)

/-- Predicates that are written with the engine's own tests: no expression, no empty list, and no
pattern in which an escape of the query language could stand. -/
structure Predicate.IsOrdinary (p : Predicate) : Prop where
  noRegex : p.effectiveOp ≠ .regex
  listed : p.effectiveOp = .isIn ∨ p.effectiveOp = .notIn → p.operands ≠ []
  noEscape : p.effectiveOp = .like ∨ p.effectiveOp = .notLike → '\\' ∉ p.pattern.toList

/-- Predicates that are written as one of the forms of a test: no expression and no empty list. -/
structure Predicate.HasForm (p : Predicate) : Prop where
  noRegex : p.effectiveOp ≠ .regex
  listed : p.effectiveOp = .isIn ∨ p.effectiveOp = .notIn → p.operands ≠ []

/-- Predicates that ask for a member of a list or for null. -/
def Predicate.IsMembership (p : Predicate) : Prop :=
  p.effectiveOp = .isIn ∨ p.effectiveOp = .notIn ∨ p.effectiveOp = .isNull ∨
    p.effectiveOp = .isNotNull

instance (p : Predicate) : Decidable p.IsMembership :=
  inferInstanceAs (Decidable (_ ∨ _ ∨ _ ∨ _))

theorem Predicate.IsOrdinary.hasForm {p : Predicate} (ordinary : p.IsOrdinary) : p.HasForm where
  noRegex := ordinary.noRegex
  listed := ordinary.listed

namespace Predicate

def form (p : Predicate) : Form :=
  match p.effectiveOp with
  | .equal => .compare .eq
  | .notEqual => .compare .ne
  | .greaterThan => .compare .gt
  | .greaterThanOrEqual => .compare .ge
  | .lessThan => .compare .lt
  | .lessThanOrEqual => .compare .le
  | .like => .like false
  | .notLike => .like true
  | .isIn => .member false (p.operands.length - 1)
  | .notIn => .member true (p.operands.length - 1)
  | .isNull => .null false
  | .isNotNull => .null true
  | .between => .between false
  | .notBetween => .between true
  | _ => .part

/-- The values at the places of a predicate: its operands, or the pattern made of a part. -/
def bound (p : Predicate) : List Value :=
  match p.effectiveOp with
  | .contains | .startsWith | .endsWith =>
    [.text (Relational.Compiler.partPattern p.effectiveOp p.pattern)]
  | _ => p.operands

theorem length_bound {p : Predicate} (valid : p.validate = .ok ()) (ordinary : p.IsOrdinary) :
    p.bound.length = p.form.places := by
  have shape := validate_cases valid
  cases op : p.effectiveOp <;> rw [op] at shape <;> dsimp only at shape <;>
    simp only [bound, form, op]
  case equal | notEqual | greaterThan | greaterThanOrEqual | lessThan | lessThanOrEqual =>
    rw [shape]
    rfl
  case like | notLike =>
    obtain ⟨t, text, operands⟩ := shape
    rw [operands]
    rfl
  case isIn | notIn =>
    exact (Nat.sub_add_cancel (List.length_pos_iff.2 (ordinary.listed (by simp [op])))).symm
  case isNull | isNotNull =>
    rw [shape]
    rfl
  case between | notBetween =>
    obtain ⟨low, high, list, operands, bounds⟩ := shape
    rw [operands]
    rfl
  case contains | startsWith | endsWith => rfl
  case regex => exact absurd op ordinary.noRegex

end Predicate

namespace Relational

/-! ### Fragments -/

/-- The text of fragments with a question mark for every value. -/
def written : List Fragment → List Char
  | [] => []
  | .text s :: rest => s.toList ++ written rest
  | .bound _ :: rest => '?' :: written rest

theorem toList_renderFrom (fs : List Fragment) (before : Nat) :
    (renderFrom .sqlite before fs).toList = written fs := by
  induction fs generalizing before with
  | nil => rfl
  | cons f rest inductionHypothesis =>
      cases f with
      | text s => rw [renderFrom, String.toList_append, inductionHypothesis, written]
      | bound v =>
          have mark : placeholder .sqlite (before + 1) = "?" := rfl
          rw [renderFrom, mark, String.toList_append, inductionHypothesis]
          rfl

theorem written_append (fs gs : List Fragment) : written (fs ++ gs) = written fs ++ written gs := by
  induction fs with
  | nil => rfl
  | cons f rest inductionHypothesis => cases f <;> simp [written, inductionHypothesis]

theorem boundValues_append (fs gs : List Fragment) :
    boundValues (fs ++ gs) = boundValues fs ++ boundValues gs := by
  induction fs with
  | nil => rfl
  | cons f rest inductionHypothesis => cases f <;> simp [boundValues, inductionHypothesis]

/-- What fragments have to be: a text with values for its places. -/
def Writes (fs : List Fragment) (text : List Char) (values : List Value) : Prop :=
  written fs = text ∧ boundValues fs = values

theorem Writes.append {fs gs : List Fragment} {text more : List Char} {values others : List Value}
    (first : Writes fs text values) (second : Writes gs more others) :
    Writes (fs ++ gs) (text ++ more) (values ++ others) := by
  obtain ⟨rfl, rfl⟩ := first
  obtain ⟨rfl, rfl⟩ := second
  exact ⟨written_append fs gs, boundValues_append fs gs⟩

theorem writes_text (s : String) : Writes [.text s] s.toList [] :=
  ⟨List.append_nil _, rfl⟩

theorem writes_places (v : Value) (more : List Value) :
    Writes (Compiler.boundList (v :: more)) ('?' :: Sql.morePlaces more.length) (v :: more) := by
  induction more generalizing v with
  | nil => exact ⟨rfl, rfl⟩
  | cons w more inductionHypothesis =>
      obtain ⟨text, values⟩ := inductionHypothesis w
      refine ⟨?_, ?_⟩
      · show '?' :: (", ".toList ++ written (Compiler.boundList (w :: more))) = _
        rw [text]
        rfl
      · show v :: boundValues (Compiler.boundList (w :: more)) = _
        rw [values]

/-! ### Columns -/

namespace Compiler

variable (c : Compiler)

/-- The name a field has in the table. -/
def ident (field : String) : String :=
  match c.schema with
  | some s => s.columnFor field
  | none => field

def columnName (field : String) : ColumnName :=
  match nameParts? (c.ident field) with
  | some [table, name] => ⟨some table, name⟩
  | some parts => ⟨none, parts.flatten⟩
  | none => ⟨none, []⟩

end Compiler

theorem isName_clean {name : List Char} (valid : isName name) : '"' ∉ name := by
  intro member
  cases name with
  | nil => cases member
  | cons c rest =>
      obtain ⟨first, others⟩ := (Bool.and_eq_true _ _).mp valid
      rcases List.mem_cons.1 member with rfl | later
      · exact absurd first (by decide)
      · exact absurd (List.all_eq_true.1 others _ later) (by decide)

theorem splitPoints_ne_nil (cs : List Char) : splitPoints cs ≠ [] := by
  cases cs with
  | nil => exact List.cons_ne_nil _ _
  | cons c rest =>
      unfold splitPoints
      split
      · exact List.cons_ne_nil _ _
      · split <;> exact List.cons_ne_nil _ _

/-- The parts of an identifier are one name or two. -/
theorem nameParts?_cases {ident : String} {parts : List (List Char)}
    (read : nameParts? ident = some parts) :
    (∃ name, parts = [name] ∧ '"' ∉ name) ∨
      ∃ table name, parts = [table, name] ∧ '"' ∉ table ∧ '"' ∉ name := by
  unfold nameParts? at read
  dsimp only at read
  split at read
  next valid =>
    obtain rfl := Option.some.inj read
    obtain ⟨short, named⟩ := valid
    have clean : ∀ part ∈ splitPoints ident.toList, '"' ∉ part := fun part member =>
      isName_clean (List.all_eq_true.1 named part member)
    generalize split : splitPoints ident.toList = parts at short clean
    rcases parts with _ | ⟨first, _ | ⟨second, _ | ⟨third, more⟩⟩⟩
    · exact absurd split (splitPoints_ne_nil _)
    · exact Or.inl ⟨first, rfl, clean _ List.mem_cons_self⟩
    · exact Or.inr ⟨first, second, rfl, clean _ List.mem_cons_self,
        clean _ (List.mem_cons_of_mem _ List.mem_cons_self)⟩
    · simp at short
  next => cases read

/-- A column is written as its quoted names, in which there are no quotes. -/
theorem column_written {c : Compiler} (sqlite : c.dialect = .sqlite) {field col : String}
    (quoted : c.column field = .ok col) :
    col.toList = (c.columnName field).text ∧ (c.columnName field).IsClean := by
  have own : c.column field = quoteIdentifier c.dialect (c.ident field) := rfl
  rw [own, sqlite, quoteIdentifier] at quoted
  unfold Compiler.columnName
  split at quoted
  next parts read =>
    obtain rfl := Except.ok.inj quoted
    rw [read]
    have alone (name : String) : String.intercalate "." [name] = name := rfl
    have joined (table name : String) :
        String.intercalate "." [table, name] = table ++ "." ++ name := rfl
    rcases nameParts?_cases read with ⟨name, rfl, clean⟩ | ⟨table, name, rfl, tableClean, clean⟩
    · refine ⟨?_, by simpa using clean, fun table member => nomatch member⟩
      simp [alone, ColumnName.text, ColumnName.quoted, quoteMark]
    · refine ⟨?_, clean, ?_⟩
      · simp [joined, ColumnName.text, ColumnName.quoted, quoteMark]
      · rintro t ⟨⟩
        exact tableClean
  next => cases quoted

/-! ### Predicates -/

section Predicates

variable (col : String)

theorem writes_binary (sign : String) (v : Value) :
    Writes [.text (col ++ " " ++ sign ++ " "), .bound v]
      (col.toList ++ (' ' :: sign.toList ++ " ?".toList)) [v] := by
  refine ⟨?_, rfl⟩
  simp [written, String.toList_append]

theorem writes_membership (head : String) (v : Value) (more : List Value) :
    Writes (.text (col ++ head) :: Compiler.boundList (v :: more) ++ [.text ")"])
      (col.toList ++ (head.toList ++ '?' :: Sql.morePlaces more.length ++ [')'])) (v :: more) := by
  obtain ⟨text, values⟩ :=
    ((writes_text (col ++ head)).append (writes_places v more)).append (writes_text ")")
  refine ⟨text.trans ?_, values.trans (List.append_nil _)⟩
  rw [String.toList_append, List.append_assoc, List.append_assoc, List.append_assoc]
  rfl

theorem writes_range (between : String) (low high : Value) :
    Writes [.text (col ++ between), .bound low, .text " AND ", .bound high]
      (col.toList ++ (between.toList ++ "? AND ?".toList)) [low, high] := by
  refine ⟨?_, rfl⟩
  simp [written, String.toList_append]

theorem writes_part (pattern : Value) :
    Writes [.text (col ++ " LIKE "), .bound pattern, .text (Compiler.escapeClause .sqlite)]
      (col.toList ++ Form.part.text) [pattern] := by
  refine ⟨?_, rfl⟩
  show (col ++ " LIKE ").toList ++ '?' :: (" ESCAPE '\\'".toList ++ []) = _
  rw [String.toList_append, List.append_assoc, List.append_nil]
  rfl

theorem writes_null (test : String) :
    Writes [.text (col ++ test)] (col.toList ++ test.toList) [] := by
  refine ⟨?_, rfl⟩
  simp [written, String.toList_append]

/-- A predicate is written as the form of its test behind its column. -/
theorem predicateOn_writes {c : Compiler} (sqlite : c.dialect = .sqlite) {p : Predicate}
    (valid : p.validate = .ok ()) (formed : p.HasForm) :
    ∃ fs, c.predicateOn p col = .ok fs ∧ Writes fs (col.toList ++ p.form.text) p.bound := by
  have shape := Predicate.validate_cases valid
  cases op : p.effectiveOp <;> rw [op] at shape <;> dsimp only at shape
  case equal | notEqual | greaterThan | greaterThanOrEqual | lessThan | lessThanOrEqual =>
    refine ⟨_, by simp only [Compiler.predicateOn, op]; rfl, ?_⟩
    simp only [Predicate.form, Predicate.bound, op, shape]
    exact writes_binary col _ p.value
  case like | notLike =>
    obtain ⟨t, text, operands⟩ := shape
    refine ⟨_, by simp only [Compiler.predicateOn, op, text]; rfl, ?_⟩
    simp only [Predicate.form, Predicate.bound, op, operands]
    exact writes_binary col _ (.text t)
  case isIn | notIn =>
    obtain ⟨items, list, operands⟩ := shape
    have listed := formed.listed (by simp [op])
    rw [operands] at listed
    obtain ⟨v, more, rfl⟩ := List.exists_cons_of_ne_nil listed
    refine ⟨_,
      by simp only [Compiler.predicateOn, op, list, Value.list?, Option.getD_some]; rfl, ?_⟩
    simp only [Predicate.form, Predicate.bound, op, operands]
    exact writes_membership col _ v more
  case isNull | isNotNull =>
    refine ⟨_, by simp only [Compiler.predicateOn, op]; rfl, ?_⟩
    simp only [Predicate.form, Predicate.bound, op, shape]
    exact writes_null col _
  case between | notBetween =>
    obtain ⟨low, high, list, operands, bounds⟩ := shape
    refine ⟨_, by simp only [Compiler.predicateOn, op, bounds]; rfl, ?_⟩
    simp only [Predicate.form, Predicate.bound, op, operands]
    exact writes_range col _ low high
  case contains | startsWith | endsWith =>
    refine ⟨_, by simp only [Compiler.predicateOn, op, sqlite]; rfl, ?_⟩
    simp only [Predicate.form, Predicate.bound, op]
    exact writes_part col _
  case regex => exact absurd op formed.noRegex

end Predicates

/-! ### Conditions -/

namespace Compiler

variable (c : Compiler)

mutual

/-- The phrase of a condition.  A subquery has none; any will do. -/
def phrase : Condition → Phrase
  | .basic p => .test (c.columnName p.field) p.form
  | .group logic [] => .constant (logic != .or)
  | .group logic (child :: rest) => .group logic (phrase child) (phrases rest)
  | .sub _ => .constant false
termination_by structural x => x

def phrases : List Condition → List Phrase
  | [] => []
  | child :: rest => phrase child :: phrases rest
termination_by structural x => x

end

end Compiler

end Relational

namespace Condition

mutual

/-- The values bound by a condition, in the order of their places. -/
def bound : Condition → List Value
  | .basic p => p.bound
  | .group _ children => boundByAll children
  | .sub _ => []
termination_by structural x => x

def boundByAll : List Condition → List Value
  | [] => []
  | child :: rest => bound child ++ boundByAll rest
termination_by structural x => x

end

end Condition

namespace Relational

mutual

theorem length_bound (c : Compiler) (x : Condition)
    (suits : ∀ p ∈ x.predicates, p.validate = .ok () ∧ p.IsOrdinary) :
    x.bound.length = (c.phrase x).places := by
  match x with
  | .basic p =>
      obtain ⟨valid, ordinary⟩ := suits p List.mem_cons_self
      exact Predicate.length_bound valid ordinary
  | .group logic [] => rfl
  | .group logic (child :: rest) =>
      obtain ⟨first, others⟩ := List.forall_mem_append.1 suits
      show (child.bound ++ Condition.boundByAll rest).length = _
      rw [List.length_append, length_bound c child first, length_boundByAll c rest others]
      rfl
  | .sub q => rfl

theorem length_boundByAll (c : Compiler) (xs : List Condition)
    (suits : ∀ p ∈ Condition.predicatesOfAll xs, p.validate = .ok () ∧ p.IsOrdinary) :
    (Condition.boundByAll xs).length = Phrase.placesAll (c.phrases xs) := by
  match xs with
  | [] => rfl
  | child :: rest =>
      obtain ⟨first, others⟩ := List.forall_mem_append.1 suits
      show (child.bound ++ Condition.boundByAll rest).length = _
      rw [List.length_append, length_bound c child first, length_boundByAll c rest others]
      rfl

end

/-- What compilation gives: the text is written with its values, its names are clean, and what it is
compiled from is valid. -/
structure Compiled (fs : List Fragment) (text : List Char) (values : List Value) (clean : Prop)
    (valid : Except Error Unit) : Prop where
  writes : Writes fs text values
  clean : clean
  valid : valid = .ok ()

theorem predicate_compiled {c : Compiler} (sqlite : c.dialect = .sqlite) {p : Predicate}
    (formed : p.HasForm) {fs : List Fragment} (compiled : c.predicate false p = .ok fs) :
    Compiled fs (Phrase.test (c.columnName p.field) p.form).text p.bound
      (c.columnName p.field).IsClean p.validate := by
  obtain ⟨valid, col, column, tested⟩ := Compiler.exists_of_predicate compiled
  obtain ⟨gs, same, writes⟩ := predicateOn_writes col sqlite valid formed
  obtain rfl : gs = fs := Except.ok.inj (same.symm.trans tested)
  obtain ⟨text, clean⟩ := column_written sqlite column
  rw [text] at writes
  exact ⟨writes, clean, valid⟩

theorem writes_head (logic : Logic) : (head logic).toList = Phrase.opening logic := by
  cases logic <;> rfl

theorem writes_joiner (logic : Logic) :
    (Compiler.joiner logic).toList = ' ' :: (Phrase.joiner logic).toList ++ [' '] := by
  cases logic <;> rfl

mutual

theorem condition_compiled {c : Compiler} (sqlite : c.dialect = .sqlite) (x : Condition)
    (closed : x.hasSubquery = false) (ordinary : ∀ p ∈ x.predicates, p.IsOrdinary)
    {fs : List Fragment} (compiled : c.condition false x = .ok fs) :
    Compiled fs (c.phrase x).text x.bound (c.phrase x).IsClean x.validate := by
  match x with
  | .basic p => exact predicate_compiled sqlite (ordinary p List.mem_cons_self).hasForm compiled
  | .group logic [] =>
      cases logic <;> cases compiled <;> exact ⟨⟨rfl, rfl⟩, trivial, rfl⟩
  | .group logic (child :: rest) =>
      obtain ⟨body, written, rfl⟩ := Compiler.exists_of_group compiled
      have inner := members_compiled sqlite logic (child :: rest) closed ordinary child rest rfl
        written
      refine ⟨?_, inner.clean, inner.valid⟩
      obtain ⟨text, values⟩ :=
        ((writes_text (head logic)).append inner.writes).append (writes_text ")")
      refine ⟨?_, values.trans (List.append_nil _)⟩
      rw [Compiler.phrase, Phrase.text, ← writes_head]
      refine Eq.trans ?_ (text.trans ?_)
      · cases logic <;> rfl
      · simp only [List.append_assoc]
        rfl
  | .sub q => cases closed

theorem members_compiled {c : Compiler} (sqlite : c.dialect = .sqlite) (logic : Logic)
    (cs : List Condition) (closed : Condition.anySubquery cs = false)
    (ordinary : ∀ p ∈ Condition.predicatesOfAll cs, p.IsOrdinary) (child : Condition)
    (rest : List Condition) (split : cs = child :: rest) {fs : List Fragment}
    (compiled : c.members false (Compiler.joiner logic) cs = .ok fs) :
    Compiled fs ((c.phrase child).text ++ Phrase.textAll (Phrase.joiner logic) (c.phrases rest))
      (Condition.boundByAll cs)
      ((c.phrase child).IsClean ∧ Phrase.AllClean (c.phrases rest))
      (Condition.validateAll cs) := by
  match cs with
  | [] => cases split
  | [first] =>
      obtain ⟨rfl, rfl⟩ := List.cons.inj split
      have inner := condition_compiled sqlite first (Bool.or_eq_false_iff.1 closed).1
        (fun p member => ordinary p (List.mem_append_left _ member)) compiled
      refine ⟨?_, ⟨inner.clean, trivial⟩, ?_⟩
      · rw [Compiler.phrases, Phrase.textAll, List.append_nil, Condition.boundByAll,
          Condition.boundByAll, List.append_nil]
        exact inner.writes
      · rw [Condition.validateAll, inner.valid]
        rfl
  | first :: next :: more =>
      obtain ⟨rfl, rfl⟩ := List.cons.inj split
      obtain ⟨front, others, firstCompiled, othersCompiled, rfl⟩ := Compiler.exists_of_members compiled
      obtain ⟨childClosed, restClosed⟩ := Bool.or_eq_false_iff.1 closed
      have inner := condition_compiled sqlite first childClosed
        (fun p member => ordinary p (List.mem_append_left _ member)) firstCompiled
      have later := members_compiled sqlite logic (next :: more) restClosed
        (fun p member => ordinary p (List.mem_append_right _ member)) next more rfl othersCompiled
      refine ⟨?_, ⟨inner.clean, later.clean⟩, ?_⟩
      · obtain ⟨text, values⟩ :=
          inner.writes.append ((writes_text (Compiler.joiner logic)).append later.writes)
        refine ⟨text.trans ?_, values⟩
        rw [writes_joiner, Compiler.phrases, Phrase.textAll]
        simp
      · rw [Condition.validateAll, inner.valid]
        exact later.valid

end

end Relational

end Recordkeeper
