import Recordkeeper.Proofs.Engine.Insertion
import Recordkeeper.Proofs.Relational.Phrases
import Recordkeeper.Relational.Binding

/-!
Contract: a compiled insertion stores the values of its record.

Owns:
- that the statement of an insertion is the text of one, with the values of the fields as its
  parameters;
- the names of tables and columns behind their quotes;
- the row that the engine gains by the statement.

Does not own: which fields a repository inserts.
-/

set_option autoImplicit false

namespace Recordkeeper.Relational

open Sql Engine

/-! ### Names -/

/-- A name without a point is the only part of itself. -/
theorem splitPoints_single {cs name : List Char} (single : splitPoints cs = [name]) :
    name = cs := by
  induction cs generalizing name with
  | nil => exact (List.singleton_inj.1 single).symm
  | cons c rest inductionHypothesis =>
      unfold splitPoints at single
      split at single
      · exact absurd (List.cons.inj single).2 (splitPoints_ne_nil rest)
      · split at single
        next none => exact absurd none (splitPoints_ne_nil rest)
        next part more split =>
          obtain ⟨rfl, rfl⟩ := List.cons.inj single
          rw [inductionHypothesis split]

/-- A column whose name has no table in front is written with the name it has in the table. -/
theorem columnName_plain {c : Compiler} {field col : String} (quoted : c.column field = .ok col)
    (plain : (c.columnName field).table = none) :
    String.ofList (c.columnName field).name = c.ident field := by
  have own : c.column field = quoteIdentifier c.dialect (c.ident field) := rfl
  rw [own, quoteIdentifier] at quoted
  unfold Compiler.columnName at plain ⊢
  split at quoted
  next parts read =>
    rw [read] at plain ⊢
    rcases nameParts?_cases read with ⟨name, rfl, -⟩ | ⟨table, name, rfl, -, -⟩
    · have single : splitPoints (c.ident field).toList = [name] := by
        unfold nameParts? at read
        dsimp only at read
        split at read
        · exact Option.some.inj read
        · cases read
      show String.ofList [name].flatten = _
      rw [List.flatten_singleton, splitPoints_single single, String.ofList_toList]
    · cases plain
  next => cases quoted

theorem columnNames_plain {c : Compiler} {fields : List String}
    (quoted : ∀ field ∈ fields, ∃ col, c.column field = .ok col)
    (plain : ∀ name ∈ fields.map c.columnName, name.table = none) :
    (fields.map c.columnName).map (fun column => String.ofList column.name)
      = fields.map c.ident := by
  rw [List.map_map]
  refine List.map_congr_left fun field member => ?_
  obtain ⟨_, own⟩ := quoted field member
  exact columnName_plain own (plain _ (List.mem_map_of_mem member))

/-! ### Statements -/

theorem moreNames_written {c : Compiler} (sqlite : c.dialect = .sqlite) {fields cols : List String}
    (quoted : fields.mapM c.column = .ok cols) (first : String) :
    (String.intercalate ", " (first :: cols)).toList
        = first.toList ++ InsertText.moreNames (fields.map c.columnName) ∧
      ∀ field ∈ fields, ∃ col, c.column field = .ok col := by
  induction fields generalizing first cols with
  | nil =>
      obtain rfl := Except.ok.inj quoted
      exact ⟨(List.append_nil _).symm, List.forall_mem_nil _⟩
  | cons field rest inductionHypothesis =>
      rw [List.mapM_cons] at quoted
      obtain ⟨col, own, quoted⟩ := exists_of_bind quoted
      obtain ⟨others, later, same⟩ := exists_of_bind quoted
      obtain rfl := Except.ok.inj same
      obtain ⟨more, named⟩ := inductionHypothesis later col
      refine ⟨?_, List.forall_mem_cons.2 ⟨⟨col, own⟩, named⟩⟩
      rw [String.intercalate_cons_of_ne_nil (List.cons_ne_nil _ _), String.toList_append,
        String.toList_append, more, (column_written sqlite own).1, List.append_assoc]
      rfl

theorem names_written {c : Compiler} (sqlite : c.dialect = .sqlite) {field : String}
    {rest cols : List String} (quoted : (field :: rest).mapM c.column = .ok cols) :
    (String.intercalate ", " cols).toList
        = (c.columnName field).text ++ InsertText.moreNames (rest.map c.columnName) ∧
      ∀ name ∈ field :: rest, ∃ col, c.column name = .ok col := by
  rw [List.mapM_cons] at quoted
  obtain ⟨col, own, quoted⟩ := exists_of_bind quoted
  obtain ⟨others, later, same⟩ := exists_of_bind quoted
  obtain rfl := Except.ok.inj same
  obtain ⟨listed, restQuoted⟩ := moreNames_written sqlite later col
  rw [listed, (column_written sqlite own).1]
  exact ⟨rfl, List.forall_mem_cons.2 ⟨⟨col, own⟩, restQuoted⟩⟩

/-- A compiled insertion is written as one, with the values of its fields as parameters.  Unless a
name in it has another one in front, its names are those of the table and the columns. -/
theorem compileInsert_writes {c : Compiler} (sqlite : c.dialect = .sqlite) {table : String}
    {fields : List String} {r : Record} {statement : Statement}
    (compiled : c.compileInsert table fields r = .ok statement) :
    ∃ i : InsertText, i.IsClean ∧ statement.sql.toList = i.text ∧
      statement.params = fields.map r.valueAt ∧
      (i.IsPlain → String.ofList i.table.name = table ∧
        i.columns.map (fun column => String.ofList column.name) = fields.map c.ident) := by
  unfold Compiler.compileInsert at compiled
  split at compiled
  next => cases compiled
  next present =>
    obtain ⟨target, tableQuoted, compiled⟩ := exists_of_bind compiled
    obtain ⟨names, named, compiled⟩ := exists_of_bind compiled
    obtain rfl := Except.ok.inj compiled
    obtain ⟨cols, quoted, same⟩ := exists_of_bind named
    obtain rfl := Except.ok.inj same
    cases fields with
    | nil => exact absurd rfl present
    | cons field rest =>
        obtain ⟨listed, allQuoted⟩ := names_written sqlite quoted
        -- A table is quoted as a column without a schema is.
        let unmapped : Compiler := { c with schema := none }
        have tableOwn : unmapped.column table = .ok target := tableQuoted
        obtain ⟨tableText, tableClean⟩ := column_written (c := unmapped) sqlite tableOwn
        obtain ⟨text, values⟩ := (writes_text ("INSERT INTO " ++ target ++ " ("
          ++ String.intercalate ", " cols ++ ") VALUES (")).append
            ((writes_places (r.valueAt field) (rest.map r.valueAt)).append (writes_text ")"))
        refine ⟨⟨unmapped.columnName table, c.columnName field, rest.map c.columnName⟩,
          ⟨tableClean, ?_⟩, ?_, ?_, ?_⟩
        · have cleans : ∀ name ∈ (field :: rest).map c.columnName, name.IsClean :=
            List.forall_mem_map.2 fun f member => by
              obtain ⟨_, quoted⟩ := allQuoted f member
              exact (column_written sqlite quoted).2
          exact cleans
        · show (renderFrom c.dialect 0 _).toList = _
          rw [sqlite, toList_renderFrom]
          refine text.trans ?_
          have close : ")".toList = [')'] := rfl
          rw [String.toList_append, String.toList_append, String.toList_append,
            String.toList_append, listed, tableText, close]
          unfold InsertText.text
          dsimp only
          simp only [List.length_map, List.append_assoc, List.cons_append]
        · exact values.trans (List.append_nil _)
        · intro plain
          obtain ⟨tablePlain, columnsPlain⟩ := List.forall_mem_cons.1 plain
          exact ⟨columnName_plain tableOwn tablePlain, columnNames_plain allQuoted columnsPlain⟩

/-- A compiled insertion that the engine runs adds a row with the values of the record. -/
theorem execute_compiled {c : Compiler} (sqlite : c.dialect = .sqlite) {table : String}
    {fields : List String} {r : Record} {statement : Statement}
    (compiled : c.compileInsert table fields r = .ok statement) {connection : Connection}
    {changes : Nat}
    (ran : (Connection.execute statement.sql (statement.params.map bind) connection).1
      = .ok changes) :
    ∃ row,
      Database.Gains table (fields.map c.ident) ((fields.map r.valueAt).map bind) row
        connection.database
        (Connection.execute statement.sql (statement.params.map bind) connection).2.database ∧
      (Connection.execute statement.sql (statement.params.map bind) connection).2.marks
        = connection.marks ∧
      (Connection.execute statement.sql (statement.params.map bind) connection).2.lastRow
        = row.number := by
  obtain ⟨i, clean, text, params, named⟩ := compileInsert_writes sqlite compiled
  obtain ⟨plain, row, gains, after⟩ := Connection.execute_insertion clean text ran
  obtain ⟨tableNamed, columnsNamed⟩ := named plain
  rw [tableNamed, columnsNamed] at gains
  rw [params] at gains after ⊢
  have marks := congrArg Connection.marks after
  have lastRow := congrArg Connection.lastRow after
  exact ⟨row, gains, marks, lastRow⟩

end Recordkeeper.Relational
