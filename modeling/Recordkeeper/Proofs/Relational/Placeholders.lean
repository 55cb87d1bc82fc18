import Recordkeeper.Proofs.Relational.Frames
import Recordkeeper.Proofs.Relational.Places

/-!
Contract: placeholders and parameters of a statement line up.

Owns:
- the statements that are compiled and what each of them says with the values written in it;
- that the parameters are the values of the source in order, one for each placeholder, and each
  where its value belongs;
- that the placeholders are numbered from the left, unless a subquery has a digit behind one of its
  own.

Does not own: running a statement.
-/

set_option autoImplicit false

namespace Recordkeeper.Relational

/-! ### Sources -/

/-- What a statement is compiled from. -/
inductive Source where
  | predicate (conditions : List Condition)
  | query (purpose : Purpose) (table : String) (q : Query)
  | insert (table : String) (fields : List String) (r : Record)
  | update (table keyField : String) (id : Value) (fields : List (String × Value))

namespace Compiler

variable (c : Compiler) (write : Value → String)

/-- The text of the clause of some conditions. -/
def clauseText (word : String) (onGroups : Bool) : List Condition → String
  | [] => ""
  | conditions => word ++ String.intercalate " AND " (c.conditionTexts write onGroups conditions)

end Compiler

namespace Source

def compile (c : Compiler) : Source → Except Error Statement
  | .predicate conditions => c.compilePredicate conditions
  | .query purpose table q => purpose.compile c table q
  | .insert table fields r => c.compileInsert table fields r
  | .update table keyField id fields => c.compileUpdate table keyField id fields

/-- The conditions that have a place in the statement, in the order of their places. -/
def conditions : Source → List Condition
  | .predicate conditions => conditions
  | .query _ _ q => q.conditions ++ q.groupConditions
  | .insert .. | .update .. => []

/-- The values of a source, in the order of their places. -/
def params : Source → List Value
  | .predicate conditions => Condition.paramsOfAll conditions
  | .query _ _ q => Condition.paramsOfAll (q.conditions ++ q.groupConditions)
  | .insert _ fields r => fields.map r.valueAt
  | .update _ _ id fields => fields.map (·.2) ++ [id]

def joins : Source → List Join
  | .query _ _ q => q.joins
  | .predicate .. | .insert .. | .update .. => []

/-- What a statement says when its values are written in it: conditions are in their clauses, and
around them nothing depends on a value; inserted values are in the order of their columns, and
assigned ones are behind their columns. -/
def Says (c : Compiler) (text : (Value → String) → String) : Source → Prop
  | .predicate [] => ∀ write, text write = "1 = 1"
  | .predicate conditions => ∀ write,
    text write = String.intercalate " AND " (c.conditionTexts write false conditions)
  | .query _ _ q => ∃ head middle tail, ∀ write,
    text write = head ++ c.clauseText write " WHERE " false q.conditions ++ middle
      ++ c.clauseText write " HAVING " true q.groupConditions ++ tail
  | .insert table fields r => ∀ write,
    text write = "INSERT INTO " ++ textOf (c.quote table) ++ " ("
      ++ String.intercalate ", " (fields.map fun field => textOf (c.column field)) ++ ") VALUES ("
      ++ String.intercalate ", " (fields.map fun field => write (r.valueAt field)) ++ ")"
  | .update table keyField id fields => ∀ write,
    text write = "UPDATE " ++ textOf (c.quote table) ++ " SET "
      ++ String.intercalate ", "
        (fields.map fun assigned => textOf (c.column assigned.1) ++ " = " ++ write assigned.2)
      ++ " WHERE " ++ textOf (c.column keyField) ++ " = " ++ write id

end Source

/-! ### Clauses -/

theorem Plain.faithful {dialect : Dialect} {provided : Prop} {fs : List Fragment}
    (plain : Plain provided fs) (holds : provided) :
    Faithful dialect fs [] (fun _ => inline (fun _ => "") fs) True := by
  induction fs with
  | nil => exact faithful_nil
  | cons f rest inductionHypothesis =>
      obtain ⟨s, rfl, bare⟩ := plain f List.mem_cons_self
      exact (inductionHypothesis fun g member => plain g (List.mem_cons_of_mem _ member)).behind
        ((bare holds).quiet dialect)

section Clauses

variable {c : Compiler} {onGroups : Bool} {conditions : List Condition} {fs : List Fragment}

theorem conjuncts_faithful (clean : ∀ q ∈ Condition.subqueriesOfAll conditions, q.IsClean)
    (compiled : c.members onGroups " AND " conditions = .ok fs) :
    Faithful c.dialect fs (Condition.paramsOfAll conditions)
      (fun write => String.intercalate " AND " (c.conditionTexts write onGroups conditions))
      (∀ q ∈ Condition.subqueriesOfAll conditions, ¬q.Fuses) :=
  members_faithful (bare_joiner .and) (joiner_noDigit .and) conditions clean compiled

theorem clause_faithful {word : String} (bare : Bare word) (led : Led word)
    (clean : ∀ q ∈ Condition.subqueriesOfAll conditions, q.IsClean)
    (compiled : c.clause word onGroups conditions = .ok fs) :
    Faithful c.dialect fs (Condition.paramsOfAll conditions)
        (fun write => c.clauseText write word onGroups conditions)
        (∀ q ∈ Condition.subqueriesOfAll conditions, ¬q.Fuses)
      ∧ opensWithDigit fs = false := by
  cases conditions with
  | nil =>
      obtain rfl := Except.ok.inj compiled
      exact ⟨faithful_nil.congr (fun _ => rfl) (iff_of_true trivial (List.forall_mem_nil _)), rfl⟩
  | cons x rest =>
      obtain ⟨body, written, rfl⟩ := Compiler.exists_of_clause compiled
      exact ⟨(conjuncts_faithful clean written).behind (bare.quiet _), led.apart body⟩

/-- A framed statement shows the values of its conditions in their clauses. -/
theorem framed_faithful {q : Query} {framed : Except Error Frame} (whole : Framed c q framed fs)
    (plain : ∀ frame, framed = .ok frame → frame.IsPlain (∀ j ∈ q.joins, Bare j.on))
    (bare : ∀ j ∈ q.joins, Bare j.on)
    (clean : ∀ s ∈ Condition.subqueriesOfAll (q.conditions ++ q.groupConditions), s.IsClean) :
    ∃ head middle tail,
      Faithful c.dialect fs (Condition.paramsOfAll (q.conditions ++ q.groupConditions))
        (fun write => head ++ c.clauseText write " WHERE " false q.conditions ++ middle
          ++ c.clauseText write " HAVING " true q.groupConditions ++ tail)
        (∀ s ∈ Condition.subqueriesOfAll (q.conditions ++ q.groupConditions), ¬s.Fuses) := by
  obtain ⟨frame, rows, groups, rfl, rowsOk, groupsOk, rfl⟩ := whole
  rw [Condition.subqueriesOfAll, Condition.collectAll_append] at clean ⊢
  rw [Condition.paramsOfAll, Condition.collectAll_append]
  obtain ⟨rowsClean, groupsClean⟩ := List.forall_mem_append.1 clean
  obtain ⟨rowsShown, rowsApart⟩ := clause_faithful (by decide) (by decide) rowsClean rowsOk
  obtain ⟨groupsShown, groupsApart⟩ :=
    clause_faithful (by decide) (by decide) groupsClean groupsOk
  obtain ⟨head, middle, tail⟩ := plain frame rfl
  have shown := ((((head.faithful bare).append rowsShown rowsApart).append
    (middle.plain.faithful trivial) middle.apart).append groupsShown groupsApart).append
    (tail.plain.faithful trivial) tail.apart
  rw [List.nil_append, List.append_nil, List.append_nil] at shown
  refine ⟨_, _, _, shown.congr (fun _ => rfl) ?_⟩
  rw [List.forall_mem_append]
  simp only [true_and, and_true]
  exact Iff.rfl

end Clauses

/-! ### Statements -/

section Statements

variable {c : Compiler} {s : Statement}

theorem texts_of_mapM {α : Type} {f : α → Except Error String} {as : List α} {bs : List String}
    (mapped : as.mapM f = .ok bs) : (as.map fun a => textOf (f a)) = bs := by
  induction as generalizing bs with
  | nil => exact Except.ok.inj mapped
  | cons a rest inductionHypothesis =>
      rw [List.mapM_cons] at mapped
      obtain ⟨b, first, mapped⟩ := exists_of_bind mapped
      obtain ⟨others, later, mapped⟩ := exists_of_bind mapped
      obtain rfl := Except.ok.inj mapped
      rw [List.map_cons, first, inductionHypothesis later]
      rfl

theorem predicate_statement {conditions : List Condition}
    (clean : ∀ q ∈ Condition.subqueriesOfAll conditions, q.IsClean)
    (compiled : c.compilePredicate conditions = .ok s) :
    ∃ fs shown, s = c.finish fs [] ∧ (Source.predicate conditions).Says c shown
      ∧ Faithful c.dialect fs (Condition.paramsOfAll conditions) shown
        (∀ q ∈ Condition.subqueriesOfAll conditions, ¬q.Fuses) := by
  obtain ⟨fs, joined, same⟩ := exists_of_bind compiled
  obtain rfl := Except.ok.inj same
  cases conditions with
  | nil =>
      obtain rfl := Except.ok.inj joined
      have constant := faithful_text (Bare.quiet (s := "1 = 1") (by decide) c.dialect)
      exact ⟨_, _, rfl, fun _ => rfl,
        constant.congr (fun _ => rfl) (iff_of_true trivial (List.forall_mem_nil _))⟩
  | cons x rest => exact ⟨fs, _, rfl, fun _ => rfl, conjuncts_faithful clean joined⟩

theorem query_statement {purpose : Purpose} {table : String} {q : Query}
    (bare : ∀ j ∈ q.joins, Bare j.on)
    (clean : ∀ s ∈ Condition.subqueriesOfAll (q.conditions ++ q.groupConditions), s.IsClean)
    (compiled : purpose.compile c table q = .ok s) :
    ∃ fs shown, s = c.finish fs (purpose.preloads q)
      ∧ (Source.query purpose table q).Says c shown
      ∧ Faithful c.dialect fs (Condition.paramsOfAll (q.conditions ++ q.groupConditions)) shown
        (∀ s ∈ Condition.subqueriesOfAll (q.conditions ++ q.groupConditions), ¬s.Fuses) := by
  obtain ⟨fs, whole, same⟩ := Purpose.compile_framed compiled
  obtain ⟨head, middle, tail, shown⟩ :=
    framed_faithful whole (fun _ => Purpose.frame_plain) bare clean
  exact ⟨fs, _, same, ⟨head, middle, tail, fun _ => rfl⟩, shown⟩

theorem insert_statement {table : String} {fields : List String} {r : Record}
    (compiled : c.compileInsert table fields r = .ok s) :
    ∃ fs shown, s = c.finish fs [] ∧ (Source.insert table fields r).Says c shown
      ∧ Faithful c.dialect fs (fields.map r.valueAt) shown True := by
  unfold Compiler.compileInsert at compiled
  split at compiled
  next => cases compiled
  next =>
    obtain ⟨target, quoted, compiled⟩ := exists_of_bind compiled
    obtain ⟨cols, named, compiled⟩ := exists_of_bind compiled
    obtain rfl := Except.ok.inj compiled
    obtain ⟨names, mapped, same⟩ := exists_of_bind named
    have front : Bare ("INSERT INTO " ++ target ++ " (" ++ cols ++ ") VALUES (") :=
      (((Bare.append (by decide) (bare_of_quoted quoted)).append (by decide)).append
        (bare_columns named)).append (by decide)
    have listed := (faithful_boundList (fields.map r.valueAt)).behind (front.quiet c.dialect)
    have whole := listed.append (faithful_text (Bare.quiet (s := ")") (by decide) c.dialect)) rfl
    rw [List.append_nil] at whole
    refine ⟨_, _, rfl, fun write => ?_, whole.congr (fun _ => rfl) (and_iff_left trivial)⟩
    rw [quoted, texts_of_mapM mapped, ← Except.ok.inj same, List.map_map]
    rfl

theorem assignments_apart {between : String} (led : Led between)
    {fields : List (String × Value)} {fs : List Fragment}
    (compiled : c.assignments between fields = .ok fs) : opensWithDigit fs = false := by
  cases fields with
  | nil =>
      obtain rfl := Except.ok.inj compiled
      rfl
  | cons assigned rest =>
      obtain ⟨col, quoted, compiled⟩ := exists_of_bind compiled
      obtain ⟨others, later, compiled⟩ := exists_of_bind compiled
      obtain rfl := Except.ok.inj compiled
      exact ((led.append col).append " = ").apart _

/-- Assigned values are behind their columns; a text stands before the first of them. -/
theorem assignments_faithful {between : String} (bare : Bare between)
    (fields : List (String × Value)) {fs : List Fragment}
    (compiled : c.assignments between fields = .ok fs) :
    Faithful c.dialect fs (fields.map (·.2))
      (fun write => if fields.isEmpty then "" else
        between ++ String.intercalate ", "
          (fields.map fun assigned => textOf (c.column assigned.1) ++ " = " ++ write assigned.2))
      True := by
  induction fields generalizing between fs with
  | nil =>
      obtain rfl := Except.ok.inj compiled
      exact faithful_nil
  | cons assigned rest inductionHypothesis =>
      obtain ⟨col, quoted, compiled⟩ := exists_of_bind (x := c.column assigned.1) compiled
      obtain ⟨others, later, same⟩ := exists_of_bind (x := c.assignments ", " rest) compiled
      obtain rfl := Except.ok.inj same
      have front : Bare (between ++ col ++ " = ") :=
        (bare.append (bare_of_quoted quoted)).append (by decide)
      have behind := (inductionHypothesis (by decide) later).place assigned.2
        (assignments_apart (by decide) later)
      refine (behind.behind (front.quiet c.dialect)).congr (fun write => ?_) Iff.rfl
      rw [List.map_cons, quoted, List.isEmpty_cons, if_neg Bool.false_ne_true]
      cases rest with
      | nil => simp only [List.map_nil, String.intercalate_singleton, List.isEmpty_nil, if_true,
          String.append_empty, String.append_assoc, textOf]
      | cons next more =>
          rw [List.map_cons (l := more), String.intercalate_cons_of_ne_nil (List.cons_ne_nil _ _)]
          simp only [List.isEmpty_cons, Bool.false_eq_true, if_false, String.append_assoc, textOf]

theorem update_statement {table keyField : String} {id : Value} {fields : List (String × Value)}
    (compiled : c.compileUpdate table keyField id fields = .ok s) :
    ∃ fs shown, s = c.finish fs [] ∧ (Source.update table keyField id fields).Says c shown
      ∧ Faithful c.dialect fs (fields.map (·.2) ++ [id]) shown True := by
  unfold Compiler.compileUpdate at compiled
  split at compiled
  next => cases compiled
  next some =>
    obtain ⟨target, quoted, compiled⟩ := exists_of_bind compiled
    obtain ⟨sets, assigned, compiled⟩ := exists_of_bind compiled
    obtain ⟨key, named, compiled⟩ := exists_of_bind compiled
    obtain rfl := Except.ok.inj compiled
    have front : Bare ("UPDATE " ++ target ++ " SET ") :=
      (Bare.append (by decide) (bare_of_quoted quoted)).append (by decide)
    have back : Bare (" WHERE " ++ key ++ " = ") :=
      (Bare.append (by decide) (bare_of_quoted named)).append (by decide)
    have last : Led (" WHERE " ++ key ++ " = ") := (Led.append (by decide) key).append " = "
    have whole := ((assignments_faithful (by decide) fields assigned).behind
      (front.quiet c.dialect)).append (faithful_ending (back.quiet c.dialect) id) (last.apart _)
    refine ⟨_, _, rfl, fun write => ?_, whole.congr (fun _ => rfl) (and_iff_left trivial)⟩
    rw [quoted, named, if_neg some]
    simp only [textOf, String.empty_append, String.append_assoc]

/-- A compiled statement says what its source does, with the values in order. -/
theorem Source.compile_faithful {source : Source}
    (bare : ∀ j ∈ source.joins, Bare j.on)
    (clean : ∀ q ∈ Condition.subqueriesOfAll source.conditions, q.IsClean)
    (compiled : source.compile c = .ok s) :
    ∃ fs shown preloads, s = c.finish fs preloads ∧ source.Says c shown
      ∧ Faithful c.dialect fs source.params shown
        (∀ q ∈ Condition.subqueriesOfAll source.conditions, ¬q.Fuses) := by
  cases source with
  | predicate conditions =>
      obtain ⟨fs, shown, same, stated, whole⟩ := predicate_statement clean compiled
      exact ⟨fs, shown, _, same, stated, whole⟩
  | query purpose table q =>
      obtain ⟨fs, shown, same, stated, whole⟩ := query_statement bare clean compiled
      exact ⟨fs, shown, _, same, stated, whole⟩
  | insert table fields r =>
      obtain ⟨fs, shown, same, stated, whole⟩ := insert_statement compiled
      exact ⟨fs, shown, _, same, stated, whole.congr (fun _ => rfl)
        (iff_of_true trivial (List.forall_mem_nil _))⟩
  | update table keyField id fields =>
      obtain ⟨fs, shown, same, stated, whole⟩ := update_statement compiled
      exact ⟨fs, shown, _, same, stated, whole.congr (fun _ => rfl)
        (iff_of_true trivial (List.forall_mem_nil _))⟩

/-- Placeholders and parameters line up.  The parameters are the values of the source in order, one
for each placeholder; the placeholders are numbered from the left exactly if no digit is behind a
placeholder of a subquery, which matters to numbers only; and then each parameter stands where its
value belongs. -/
theorem Source.placeholders_line_up {source : Source} (compiled : source.compile c = .ok s)
    (bare : ∀ j ∈ source.joins, Bare j.on)
    (clean : ∀ q ∈ Condition.subqueriesOfAll source.conditions, q.IsClean) :
    s.params = source.params
      ∧ (placeholders c.dialect false s.sql.toList).length = s.params.length
      ∧ (placeholders c.dialect false s.sql.toList = numbered c.dialect 1 s.params.length
        ↔ (c.dialect = .postgres →
          ∀ q ∈ Condition.subqueriesOfAll source.conditions, ¬q.Fuses))
      ∧ ((c.dialect = .postgres → ∀ q ∈ Condition.subqueriesOfAll source.conditions, ¬q.Fuses) →
        source.Says c fun write =>
          String.ofList (fill c.dialect write 0 false s.sql.toList s.params)) := by
  obtain ⟨fs, shown, preloads, rfl, stated, whole⟩ := source.compile_faithful bare clean compiled
  refine ⟨whole.values, length_placeholders whole.quiet 0, ?_, fun apart => ?_⟩
  · exact (placeholders_rendered whole.quiet 0).trans (imp_congr_right fun _ => whole.parted)
  · have filled : (fun write => String.ofList (fill c.dialect write 0 false
        (renderFrom c.dialect 0 fs).toList (boundValues fs))) = shown := by
      funext write
      rw [fill_rendered whole.quiet (fun postgres => whole.parted.2 (apart postgres)),
        String.ofList_toList, whole.shown]
    exact filled ▸ stated

/-- A selection with values in all of its clauses, and a question mark in a literal. -/
def groupedMembers : Source :=
  .query .select "members" {
    conditions := [.group .or [.on "team" .isIn (.list [.text "red", .text "blue"]),
      .existsSubquery "SELECT 1 FROM notes WHERE text = '?' OR id = ?" [.int 3]]]
    groupBy := ["team"]
    having := [.on "count" .between (.list [.int 2, .int 9])] }

set_option maxRecDepth 2000 in
theorem groupedMembers_line_up :
    ∃ s, groupedMembers.compile { dialect := .postgres } = .ok s
      ∧ s.params = groupedMembers.params ∧ s.params.length = 5
      ∧ placeholders .postgres false s.sql.toList = numbered .postgres 1 s.params.length
      ∧ groupedMembers.Says { dialect := .postgres } fun write =>
        String.ofList (fill .postgres write 0 false s.sql.toList s.params) := by
  have compiled : groupedMembers.compile { dialect := .postgres } = .ok ⟨
      "SELECT \"team\", COUNT(*) AS \"count\" FROM \"members\""
        ++ " WHERE (\"team\" IN ($1, $2)"
        ++ " OR EXISTS (SELECT 1 FROM notes WHERE text = '?' OR id = $3))"
        ++ " GROUP BY \"team\" HAVING COUNT(*) BETWEEN $4 AND $5",
      [.text "red", .text "blue", .int 3, .int 2, .int 9], []⟩ := by
    with_unfolding_all rfl
  have single (q) (member : q ∈ Condition.subqueriesOfAll groupedMembers.conditions) :
      q.IsClean ∧ ¬q.Fuses := by
    obtain rfl := List.mem_singleton.1 member
    exact ⟨⟨by decide, by decide⟩, by unfold Subquery.Fuses; decide⟩
  obtain ⟨params, -, numbers, stated⟩ := Source.placeholders_line_up compiled
    (List.forall_mem_nil _) fun q member => (single q member).1
  exact ⟨_, compiled, params, rfl, numbers.2 fun _ q member => (single q member).2,
    stated fun _ q member => (single q member).2⟩

/-- A placeholder with a digit behind it, as numbered ones have in another dialect. -/
def digitBehindPlace : Source := .predicate [.existsSubquery "SELECT 1 WHERE 1 = ?1" [.int 5]]

theorem digitBehindPlace_misread :
    ∃ s, digitBehindPlace.compile { dialect := .postgres } = .ok s
      ∧ (∀ j ∈ digitBehindPlace.joins, Bare j.on)
      ∧ (∀ q ∈ Condition.subqueriesOfAll digitBehindPlace.conditions, q.IsClean)
      ∧ s.sql = "EXISTS (SELECT 1 WHERE 1 = $11)" ∧ s.params.length = 1
      ∧ placeholders .postgres false s.sql.toList ≠ numbered .postgres 1 s.params.length := by
  refine ⟨⟨"EXISTS (SELECT 1 WHERE 1 = $11)", [.int 5], []⟩, by with_unfolding_all rfl,
    List.forall_mem_nil _, fun q member => ?_, rfl, rfl, by decide⟩
  obtain rfl := List.mem_singleton.1 member
  exact ⟨by decide, by decide⟩

end Statements

end Recordkeeper.Relational
