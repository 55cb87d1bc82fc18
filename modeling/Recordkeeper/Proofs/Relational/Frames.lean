import Recordkeeper.Proofs.Relational.Fragments
import Recordkeeper.Proofs.Relational.Inversion

/-!
Contract: the statements of a query, apart from its conditions.

Owns:
- what a query is compiled for;
- the frame of a statement, which is everything around the conditions and is read off the rest of
  the query;
- that a compiled statement is its frame with the compiled conditions in it;
- that a frame holds no values, and neither quotes nor anything that reads as a placeholder as far
  as the texts of its joins do not.

Does not own: the text of conditions.
-/

set_option autoImplicit false

namespace Recordkeeper

/-- The conditions on groups that have a place in a statement: without groups there is none. -/
def Query.groupConditions (q : Query) : List Condition := if q.isGrouped then q.having else []

namespace Relational

inductive Purpose where
  | select
  | count
  | existsAny
  | delete
  deriving DecidableEq, Repr

def Purpose.compile (purpose : Purpose) (c : Compiler) (table : String) (q : Query) :
    Except Error Statement :=
  match purpose with
  | .select => c.compileSelect table q
  | .count => c.compileCount table q
  | .existsAny => c.compileExists table q
  | .delete => c.compileDelete table q

def Purpose.preloads (purpose : Purpose) (q : Query) : List String :=
  match purpose with
  | .select => q.preloads
  | .count | .existsAny | .delete => []

/-- A statement without the conditions on its rows and on its groups. -/
structure Frame where
  head : List Fragment
  middle : List Fragment := []
  tail : List Fragment := []

def Frame.around (frame : Frame) (rows groups : List Fragment) : List Fragment :=
  frame.head ++ rows ++ frame.middle ++ groups ++ frame.tail

/-- A frame as part of a larger statement. -/
def Frame.within (frame : Frame) (front back : List Fragment) : Frame :=
  { frame with head := front ++ frame.head, tail := frame.tail ++ back }

theorem Frame.around_within (frame : Frame) (front back rows groups : List Fragment) :
    (frame.within front back).around rows groups = front ++ frame.around rows groups ++ back := by
  simp only [Frame.around, Frame.within, List.append_assoc]

namespace Compiler

variable (c : Compiler)

/-- A clause of conditions, left out if there are none. -/
def clause (word : String) (onGroups : Bool) : List Condition → Written
  | [] => .ok []
  | conditions => do
    let body ← c.members onGroups " AND " conditions
    return .text word :: body

variable {c} in
theorem exists_of_clause {word : String} {onGroups : Bool} {x : Condition} {rest : List Condition}
    {fs : List Fragment} (compiled : c.clause word onGroups (x :: rest) = .ok fs) :
    ∃ body, c.members onGroups " AND " (x :: rest) = .ok body ∧ fs = .text word :: body := by
  obtain ⟨body, written, same⟩ := exists_of_bind
    (x := c.members onGroups " AND " (x :: rest)) compiled
  exact ⟨body, written, (Except.ok.inj same).symm⟩

def selectionFrame (table : String) (q : Query) (paged : Bool) : Except Error Frame := do
  let cols ← c.projection q
  let source ← c.quote table
  let joins ← c.joinClauses q
  let groups ← c.groupClause q
  let order ← c.sortClause q
  let lock ← if paged then c.lockClause q.lock else .ok []
  let head := if q.isDistinct then "SELECT DISTINCT " else "SELECT "
  return {
    head := .text head :: cols ++ .text (" FROM " ++ source) :: joins
    middle := groups
    tail := order ++ (if paged then c.pageClause q else []) ++ lock }

def plainFrame (head table : String) (q : Query) : Except Error Frame := do
  let source ← c.quote table
  let joins ← c.joinClauses q
  return { head := .text (head ++ source) :: joins }

end Compiler

/-- The frame of a statement.  Of the conditions it asks at most whether there are any on groups. -/
def Purpose.frame (purpose : Purpose) (c : Compiler) (table : String) (q : Query) :
    Except Error Frame :=
  match purpose with
  | .select => c.selectionFrame table q true
  | .count =>
    if q.isGrouped || q.isDistinct then
      (c.selectionFrame table q.unpaged false).map
        (·.within [.text "SELECT COUNT(*) FROM ("] [.text ") AS counted"])
    else c.plainFrame "SELECT COUNT(*) FROM " table q
  | .existsAny =>
    let page := match q.offset with
      | some offset => " LIMIT 1 OFFSET " ++ toString offset
      | none => " LIMIT 1"
    if q.isGrouped || !q.having.isEmpty || q.offset.isSome || q.isDistinct then
      (c.selectionFrame table q.unpaged false).map
        (·.within [.text "SELECT 1 FROM ("] [.text ") AS matched", .text page])
    else (c.plainFrame "SELECT 1 FROM " table q).map (·.within [] [.text page])
  | .delete => (c.quote table).map fun source => { head := [.text ("DELETE FROM " ++ source)] }

/-! ### Compiled statements -/

section Compiled

variable {c : Compiler} {table : String} {q : Query}

/-- What compilation gives: a frame with the conditions in it. -/
def Framed (c : Compiler) (q : Query) (framed : Except Error Frame) (fs : List Fragment) : Prop :=
  ∃ frame rows groups, framed = .ok frame ∧ c.clause " WHERE " false q.conditions = .ok rows
    ∧ c.clause " HAVING " true q.groupConditions = .ok groups ∧ fs = frame.around rows groups

theorem whereClause_eq (conditions : List Condition) :
    c.whereClause conditions = c.clause " WHERE " false conditions := by
  cases conditions <;> rfl

theorem havingClause_eq {having : List Fragment} (compiled : c.havingClause q = .ok having) :
    c.clause " HAVING " true q.groupConditions = .ok having := by
  unfold Compiler.havingClause at compiled
  unfold Query.groupConditions
  split at compiled
  next none =>
    rw [List.isEmpty_iff.1 none, ite_self]
    exact compiled
  next some =>
    split at compiled
    next => cases compiled
    next grouped =>
      rw [if_pos (by simpa using grouped)]
      cases conditions : q.having with
      | nil => simp [conditions] at some
      | cons x rest =>
          rw [conditions] at compiled
          exact compiled

theorem clause_ungrouped (flat : q.isGrouped = false) :
    c.clause " HAVING " true q.groupConditions = .ok [] := by
  simp only [Query.groupConditions, flat, Bool.false_eq_true, if_false]
  rfl

theorem selection_framed {paged : Bool} {fs : List Fragment}
    (compiled : c.selection table q paged = .ok fs) :
    Framed c q (c.selectionFrame table q paged) fs := by
  obtain ⟨cols, projected, compiled⟩ := exists_of_bind compiled
  obtain ⟨source, quoted, compiled⟩ := exists_of_bind compiled
  obtain ⟨joins, joined, compiled⟩ := exists_of_bind compiled
  obtain ⟨rows, restricted, compiled⟩ := exists_of_bind compiled
  obtain ⟨groups, grouped, compiled⟩ := exists_of_bind compiled
  obtain ⟨having, filtered, compiled⟩ := exists_of_bind compiled
  obtain ⟨order, sorted, compiled⟩ := exists_of_bind compiled
  have inside := (whereClause_eq q.conditions).symm.trans restricted
  let head := Fragment.text (if q.isDistinct then "SELECT DISTINCT " else "SELECT ") :: cols
    ++ .text (" FROM " ++ source) :: joins
  cases paged with
  | false =>
      obtain rfl := Except.ok.inj compiled
      have framed : c.selectionFrame table q false = .ok ⟨head, groups, order ++ [] ++ []⟩ := by
        simp only [Compiler.selectionFrame, projected, quoted, joined, grouped, sorted]
        rfl
      refine ⟨_, rows, having, framed, inside, havingClause_eq filtered, ?_⟩
      simp [Frame.around, head]
  | true =>
      obtain ⟨lock, locked, compiled⟩ := exists_of_bind (x := c.lockClause q.lock) compiled
      obtain rfl := Except.ok.inj compiled
      have framed : c.selectionFrame table q true
          = .ok ⟨head, groups, order ++ c.pageClause q ++ lock⟩ := by
        simp only [Compiler.selectionFrame, projected, quoted, joined, grouped, sorted, locked]
        rfl
      refine ⟨_, rows, having, framed, inside, havingClause_eq filtered, ?_⟩
      simp [Frame.around, head]

theorem plainRows_framed {head : String} {fs : List Fragment} (flat : q.isGrouped = false)
    (compiled : c.plainRows head table q = .ok fs) :
    Framed c q (c.plainFrame head table q) fs := by
  obtain ⟨source, quoted, compiled⟩ := exists_of_bind compiled
  obtain ⟨joins, joined, compiled⟩ := exists_of_bind compiled
  obtain ⟨rows, restricted, compiled⟩ := exists_of_bind compiled
  obtain rfl := Except.ok.inj compiled
  have framed : c.plainFrame head table q = .ok { head := .text (head ++ source) :: joins } := by
    simp only [Compiler.plainFrame, quoted, joined]
    rfl
  refine ⟨_, rows, [], framed, (whereClause_eq q.conditions).symm.trans restricted,
    clause_ungrouped flat, ?_⟩
  simp only [Frame.around, List.append_nil]

theorem Framed.within {framed : Except Error Frame} {fs : List Fragment}
    (whole : Framed c q framed fs) (front back : List Fragment) :
    Framed c q (framed.map (·.within front back)) (front ++ fs ++ back) := by
  obtain ⟨frame, rows, groups, rfl, rowsOk, groupsOk, rfl⟩ := whole
  exact ⟨frame.within front back, rows, groups, rfl, rowsOk, groupsOk,
    (frame.around_within front back rows groups).symm⟩

theorem compileSelect_framed {s : Statement} (compiled : c.compileSelect table q = .ok s) :
    ∃ fs, Framed c q (Purpose.select.frame c table q) fs ∧ s = c.finish fs q.preloads := by
  obtain ⟨_, -, compiled⟩ := exists_of_bind compiled
  obtain ⟨fs, selected, compiled⟩ := exists_of_bind compiled
  obtain rfl := Except.ok.inj compiled
  exact ⟨fs, selection_framed selected, rfl⟩

theorem compileCount_framed {s : Statement} (compiled : c.compileCount table q = .ok s) :
    ∃ fs, Framed c q (Purpose.count.frame c table q) fs ∧ s = c.finish fs [] := by
  obtain ⟨_, -, compiled⟩ := exists_of_bind compiled
  dsimp only at compiled
  unfold Purpose.frame
  split at compiled
  next merged =>
    obtain ⟨fs, selected, compiled⟩ := exists_of_bind compiled
    obtain rfl := Except.ok.inj compiled
    have merges : (q.isGrouped || q.isDistinct) = true := merged
    rw [if_pos merges]
    exact ⟨_, (selection_framed (q := q.unpaged) selected).within _ _, rfl⟩
  next plain =>
    obtain ⟨fs, listed, compiled⟩ := exists_of_bind compiled
    obtain rfl := Except.ok.inj compiled
    have flat : ¬(q.isGrouped || q.isDistinct) = true := plain
    rw [if_neg flat]
    have ungrouped : q.isGrouped = false := by
      simp only [Bool.or_eq_true, not_or, Bool.not_eq_true] at flat
      exact flat.1
    exact ⟨_, plainRows_framed (q := q.unpaged) ungrouped listed, rfl⟩

theorem compileExists_framed {s : Statement} (compiled : c.compileExists table q = .ok s) :
    ∃ fs, Framed c q (Purpose.existsAny.frame c table q) fs ∧ s = c.finish fs [] := by
  obtain ⟨_, -, compiled⟩ := exists_of_bind compiled
  dsimp only at compiled
  unfold Purpose.frame
  dsimp only
  split at compiled
  next wrapped =>
    obtain ⟨fs, selected, compiled⟩ := exists_of_bind compiled
    obtain rfl := Except.ok.inj compiled
    have whole := (selection_framed (q := q.unpaged) selected).within [.text "SELECT 1 FROM ("]
    rw [if_pos wrapped]
    exact ⟨_, whole _, congrArg (c.finish · [])
      (List.append_assoc (.text "SELECT 1 FROM (" :: fs) [.text ") AS matched"] _)⟩
  next plain =>
    obtain ⟨fs, listed, compiled⟩ := exists_of_bind compiled
    obtain rfl := Except.ok.inj compiled
    rw [if_neg plain]
    have ungrouped : q.isGrouped = false := by
      simp only [Bool.or_eq_true, not_or, Bool.not_eq_true] at plain
      exact plain.1.1.1
    exact ⟨_, (plainRows_framed ungrouped listed).within [] _, rfl⟩

theorem compileDelete_framed {s : Statement} (compiled : c.compileDelete table q = .ok s) :
    ∃ fs, Framed c q (Purpose.delete.frame c table q) fs ∧ s = c.finish fs [] := by
  obtain ⟨_, -, compiled⟩ := exists_of_bind compiled
  obtain ⟨_, allowed, compiled⟩ := exists_of_bind compiled
  obtain ⟨source, quoted, compiled⟩ := exists_of_bind compiled
  obtain ⟨rows, restricted, compiled⟩ := exists_of_bind compiled
  obtain rfl := Except.ok.inj compiled
  have flat : q.isGrouped = false := by
    unfold Query.checkDelete at allowed
    split at allowed
    next => cases allowed
    next free =>
      simp only [Bool.or_eq_true, not_or, Bool.not_eq_true] at free
      exact free.1.2
  have framed : Purpose.delete.frame c table q
      = .ok { head := [.text ("DELETE FROM " ++ source)] } := by
    rw [Purpose.frame, quoted]
    rfl
  refine ⟨_, ⟨_, rows, [], framed, (whereClause_eq q.conditions).symm.trans restricted,
    clause_ungrouped flat, ?_⟩, rfl⟩
  simp [Frame.around]

/-- A compiled statement is its frame with the compiled conditions in it. -/
theorem Purpose.compile_framed {purpose : Purpose} {s : Statement}
    (compiled : purpose.compile c table q = .ok s) :
    ∃ fs, Framed c q (purpose.frame c table q) fs ∧ s = c.finish fs (purpose.preloads q) := by
  cases purpose with
  | select => exact compileSelect_framed compiled
  | count => exact compileCount_framed compiled
  | existsAny => exact compileExists_framed compiled
  | delete => exact compileDelete_framed compiled

end Compiled

/-! ### Texts without placeholders -/

/-- Texts only, without quotes and signs of placeholders as far as something is provided. -/
def Plain (provided : Prop) (fs : List Fragment) : Prop :=
  ∀ f ∈ fs, ∃ s, f = .text s ∧ (provided → Bare s)

/-- The text begins with another character than a digit. -/
def Led (s : String) : Prop := s.toList.head?.map Char.isDigit = some false

instance (s : String) : Decidable (Led s) :=
  inferInstanceAs (Decidable (s.toList.head?.map Char.isDigit = some false))

/-- Plain texts that may stand behind a value. -/
structure Trailing (fs : List Fragment) : Prop where
  plain : Plain True fs
  apart : opensWithDigit fs = false

section Plain

variable {provided : Prop} {fs gs : List Fragment}

theorem plain_nil : Plain provided [] := List.forall_mem_nil _

theorem Plain.cons (rest : Plain provided fs) {s : String} (bare : provided → Bare s) :
    Plain provided (.text s :: fs) := by
  intro f member
  rcases List.mem_cons.1 member with rfl | later
  · exact ⟨s, rfl, bare⟩
  · exact rest f later

theorem Plain.append (first : Plain provided fs) (second : Plain provided gs) :
    Plain provided (fs ++ gs) :=
  fun f member => (List.mem_append.1 member).elim (first f) (second f)

theorem Plain.weaken (plain : Plain True fs) : Plain provided fs := fun f member =>
  let ⟨s, same, bare⟩ := plain f member
  ⟨s, same, fun _ => bare trivial⟩

theorem Led.append {s : String} (led : Led s) (t : String) : Led (s ++ t) := by
  unfold Led at led ⊢
  rw [String.toList_append]
  cases front : s.toList with
  | nil =>
      rw [front] at led
      cases led
  | cons c rest =>
      rw [front] at led
      exact led

theorem Led.apart {s : String} (led : Led s) (fs : List Fragment) :
    opensWithDigit (.text s :: fs) = false := by
  unfold Led at led
  rw [opensWithDigit]
  cases front : s.toList with
  | nil =>
      rw [front] at led
      cases led
  | cons c rest =>
      rw [front] at led
      exact Option.some.inj led

theorem trailing_nil : Trailing [] := ⟨plain_nil, rfl⟩

theorem trailing_text {s : String} (led : Led s) (bare : Bare s) : Trailing [.text s] :=
  ⟨plain_nil.cons fun _ => bare, led.apart []⟩

theorem Trailing.append (first : Trailing fs) (second : Trailing gs) : Trailing (fs ++ gs) :=
  ⟨first.plain.append second.plain, (opensWithDigit_append fs second.apart).trans first.apart⟩

end Plain

/-! ### Clauses -/

theorem Bare.join {parts : List String} (all : ∀ part ∈ parts, Bare part) :
    Bare (String.join parts) := by
  intro c member
  rw [String.toList_join] at member
  obtain ⟨part, listed, inside⟩ := List.mem_flatMap.1 member
  exact all part listed c inside

section Clauses

variable {c : Compiler} {q : Query} {fs : List Fragment}

theorem bare_columns {fields : List String} {cols : String}
    (quoted : c.columns fields = .ok cols) : Bare cols := by
  obtain ⟨names, mapped, same⟩ := exists_of_bind quoted
  obtain rfl := Except.ok.inj same
  exact Bare.intercalate (by decide) (forall_of_mapM (fun _ _ _ => bare_of_quoted) mapped)

theorem projection_plain (compiled : c.projection q = .ok fs) : Plain True fs := by
  unfold Compiler.projection at compiled
  split at compiled
  next =>
    split at compiled
    next => cases compiled
    next =>
      obtain ⟨cols, mapped, compiled⟩ := exists_of_bind compiled
      obtain ⟨count, quoted, compiled⟩ := exists_of_bind compiled
      obtain rfl := Except.ok.inj compiled
      have names := forall_of_mapM (P := Bare) (fun _ _ _ => bare_of_quoted) mapped
      refine plain_nil.cons fun _ => (Bare.append (Bare.join fun part listed => ?_)
        (by decide)).append (bare_of_quoted quoted)
      obtain ⟨col, named, rfl⟩ := List.mem_map.1 listed
      exact (names col named).append (by decide)
  next =>
    split at compiled
    next =>
      obtain rfl := Except.ok.inj compiled
      exact plain_nil.cons fun _ => by decide
    next =>
      obtain ⟨cols, quoted, compiled⟩ := exists_of_bind compiled
      obtain rfl := Except.ok.inj compiled
      exact plain_nil.cons fun _ => bare_columns quoted

theorem bare_joinWords (kind : JoinKind) : Bare (Compiler.joinWords kind) := by
  cases kind <;> decide

theorem joinClauses_plain (compiled : c.joinClauses q = .ok fs) :
    Plain (∀ j ∈ q.joins, Bare j.on) fs := by
  obtain ⟨clauses, mapped, same⟩ := exists_of_bind compiled
  obtain rfl := Except.ok.inj same
  have each : ∀ clause ∈ clauses, Plain (∀ j ∈ q.joins, Bare j.on) clause := by
    refine forall_of_mapM (fun j listed clause joined => ?_) mapped
    unfold Compiler.joinClause at joined
    split at joined
    next => cases joined
    next =>
      obtain ⟨table, quoted, joined⟩ := exists_of_bind joined
      obtain rfl := Except.ok.inj joined
      exact plain_nil.cons fun bare => (((bare_joinWords j.kind).append
        (bare_of_quoted quoted)).append (by decide)).append (bare j listed)
  intro f member
  obtain ⟨clause, listed, inside⟩ := List.mem_flatten.1 member
  exact each clause listed f inside

theorem groupClause_trailing (compiled : c.groupClause q = .ok fs) : Trailing fs := by
  unfold Compiler.groupClause at compiled
  split at compiled
  next =>
    obtain ⟨cols, quoted, compiled⟩ := exists_of_bind compiled
    obtain rfl := Except.ok.inj compiled
    exact trailing_text (Led.append (by decide) cols)
      (Bare.append (by decide) (bare_columns quoted))
  next =>
    obtain rfl := Except.ok.inj compiled
    exact trailing_nil

theorem bare_sortTerm {key : SortKey} {term : String} (compiled : c.sortTerm q key = .ok term) :
    Bare term := by
  unfold Compiler.sortTerm at compiled
  split at compiled <;> dsimp only at compiled <;> split at compiled
  case h_1.isTrue | h_2.isTrue =>
    obtain rfl := Except.ok.inj compiled
    decide
  case h_1.isFalse | h_2.isFalse =>
    obtain ⟨col, quoted, compiled⟩ := exists_of_bind compiled
    obtain rfl := Except.ok.inj compiled
    exact (bare_of_quoted quoted).append (by decide)

theorem sortClause_trailing (compiled : c.sortClause q = .ok fs) : Trailing fs := by
  unfold Compiler.sortClause at compiled
  split at compiled
  next =>
    obtain rfl := Except.ok.inj compiled
    exact trailing_nil
  next =>
    obtain ⟨terms, mapped, compiled⟩ := exists_of_bind compiled
    obtain rfl := Except.ok.inj compiled
    have bareTerms : ∀ term ∈ terms, Bare term :=
      forall_of_mapM (fun _ _ _ => bare_sortTerm) mapped
    exact trailing_text (Led.append (by decide) _) (Bare.append (by decide)
      (Bare.intercalate (by decide) bareTerms))

theorem pageClause_trailing (c : Compiler) (q : Query) : Trailing (c.pageClause q) := by
  unfold Compiler.pageClause
  split
  next => exact trailing_nil
  next =>
    exact trailing_text (Led.append (by decide) _) (Bare.append (by decide) (bare_of_nat _))
  next =>
    exact trailing_text (((Led.append (by decide) _).append _).append _)
      (((Bare.append (by decide) (bare_of_nat _)).append (by decide)).append (bare_of_nat _))
  next =>
    cases c.dialect
    · exact trailing_text (Led.append (by decide) _) (Bare.append (by decide) (bare_of_nat _))
    · exact trailing_text (Led.append (by decide) _) (Bare.append (by decide) (bare_of_nat _))
    · exact trailing_text (Led.append (by decide) _) (Bare.append (by decide) (bare_of_nat _))

theorem lockClause_trailing {mode : LockMode} (compiled : c.lockClause mode = .ok fs) :
    Trailing fs := by
  unfold Compiler.lockClause at compiled
  split at compiled
  case h_1 =>
    obtain rfl := Except.ok.inj compiled
    exact trailing_nil
  case h_6 => cases compiled
  all_goals
    obtain rfl := Except.ok.inj compiled
    exact trailing_text (by decide) (by decide)

end Clauses

/-! ### Plain frames -/

structure Frame.IsPlain (provided : Prop) (frame : Frame) : Prop where
  head : Plain provided frame.head
  middle : Trailing frame.middle
  tail : Trailing frame.tail

section Frames

variable {c : Compiler} {table : String} {q : Query} {frame : Frame}

theorem Frame.IsPlain.within {provided : Prop} (inner : frame.IsPlain provided)
    {front back : List Fragment} (plain : Plain True front) (trailing : Trailing back) :
    (frame.within front back).IsPlain provided :=
  ⟨plain.weaken.append inner.head, inner.middle, inner.tail.append trailing⟩

theorem selectionFrame_plain {paged : Bool}
    (framed : c.selectionFrame table q paged = .ok frame) :
    frame.IsPlain (∀ j ∈ q.joins, Bare j.on) := by
  obtain ⟨cols, projected, framed⟩ := exists_of_bind framed
  obtain ⟨source, quoted, framed⟩ := exists_of_bind framed
  obtain ⟨joins, joined, framed⟩ := exists_of_bind framed
  obtain ⟨groups, grouped, framed⟩ := exists_of_bind framed
  obtain ⟨order, sorted, framed⟩ := exists_of_bind framed
  have front : Bare (if q.isDistinct then "SELECT DISTINCT " else "SELECT ") := by
    split <;> decide
  have target : Bare (" FROM " ++ source) := Bare.append (by decide) (bare_of_quoted quoted)
  have head := ((projection_plain projected).cons fun _ => front).weaken.append
    ((joinClauses_plain joined).cons fun _ => target)
  have middle := groupClause_trailing grouped
  have ordered := sortClause_trailing sorted
  cases paged with
  | false =>
      obtain rfl := Except.ok.inj framed
      exact ⟨head, middle, (ordered.append trailing_nil).append trailing_nil⟩
  | true =>
      obtain ⟨lock, locked, framed⟩ := exists_of_bind (x := c.lockClause q.lock) framed
      obtain rfl := Except.ok.inj framed
      exact ⟨head, middle,
        (ordered.append (pageClause_trailing c q)).append (lockClause_trailing locked)⟩

theorem plainFrame_plain {head : String} (bare : Bare head)
    (framed : c.plainFrame head table q = .ok frame) :
    frame.IsPlain (∀ j ∈ q.joins, Bare j.on) := by
  obtain ⟨source, quoted, framed⟩ := exists_of_bind framed
  obtain ⟨joins, joined, framed⟩ := exists_of_bind framed
  obtain rfl := Except.ok.inj framed
  exact ⟨(joinClauses_plain joined).cons fun _ => bare.append (bare_of_quoted quoted),
    trailing_nil, trailing_nil⟩

theorem exists_of_map {E A B : Type} {x : Except E A} {f : A → B} {b : B}
    (done : x.map f = .ok b) : ∃ a, x = .ok a ∧ f a = b := by
  cases x with
  | error e => cases done
  | ok a => exact ⟨a, rfl, Except.ok.inj done⟩

/-- A frame holds no values, and nothing that reads as a placeholder unless a join does. -/
theorem Purpose.frame_plain {purpose : Purpose} (framed : purpose.frame c table q = .ok frame) :
    frame.IsPlain (∀ j ∈ q.joins, Bare j.on) := by
  cases purpose with
  | select => exact selectionFrame_plain framed
  | count =>
      unfold Purpose.frame at framed
      dsimp only at framed
      split at framed
      next =>
        obtain ⟨inner, selected, rfl⟩ := exists_of_map framed
        exact (selectionFrame_plain (q := q.unpaged) selected).within
          (plain_nil.cons fun _ => by decide) (trailing_text (by decide) (by decide))
      next => exact plainFrame_plain (by decide) framed
  | existsAny =>
      unfold Purpose.frame at framed
      dsimp only at framed
      have page : Trailing [.text (match q.offset with
          | some offset => " LIMIT 1 OFFSET " ++ toString offset
          | none => " LIMIT 1")] := by
        cases q.offset with
        | none => exact trailing_text (by decide) (by decide)
        | some offset =>
            exact trailing_text (Led.append (by decide) _)
              (Bare.append (by decide) (bare_of_nat offset))
      split at framed
      next =>
        obtain ⟨inner, selected, rfl⟩ := exists_of_map framed
        exact (selectionFrame_plain (q := q.unpaged) selected).within
          (plain_nil.cons fun _ => by decide)
          ((trailing_text (s := ") AS matched") (by decide) (by decide)).append page)
      next =>
        obtain ⟨inner, listed, rfl⟩ := exists_of_map framed
        exact (plainFrame_plain (by decide) listed).within plain_nil page
  | delete =>
      obtain ⟨source, quoted, rfl⟩ := exists_of_map framed
      exact ⟨plain_nil.cons fun _ => Bare.append (by decide) (bare_of_quoted quoted), trailing_nil,
        trailing_nil⟩

end Frames

end Relational

end Recordkeeper
