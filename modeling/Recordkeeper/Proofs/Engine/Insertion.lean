import Recordkeeper.Engine.Connection
import Recordkeeper.Proofs.Engine.Terms
import Recordkeeper.Proofs.Sql.Insertion

/-!
Contract: an insertion of one row that succeeds adds this row and nothing else.

Owns:
- the cells of a new row, from the values for the columns that are named;
- the row of some cells with its number, and the table that has gained it;
- texts of insertions that are run on a connection.

Does not own: where the values come from, and insertions that fail.
-/

set_option autoImplicit false

namespace Recordkeeper.Engine

open Sql

namespace Table

/-! ### Cells -/

/-- The cells of a new row with values for some columns.  Every column is one of the table; of
several values for one column the first counts. -/
structure Fills (t : Table) (names : List String) (given cells : Row) : Prop where
  width : cells.length = t.columns.length
  supplied : given.length = names.length
  placed : ∀ (k : Nat) name, names[k]? = some name → ∃ place, t.place? name = some place ∧
    ((∀ j < k, ∀ other, names[j]? = some other → t.place? other ≠ some place) →
      cells[place]? = given[k]?)

theorem place?_lt {t : Table} {name : String} {place : Nat} (found : t.place? name = some place) :
    place < t.columns.length :=
  (List.findIdx?_eq_some_iff_getElem.1 found).1

theorem fills_of_newCells {t : Table} {env : Env} {names : List String} {places : List Nat}
    {given cells : Row} (present : names ≠ []) (named : insertPlaces t names = .ok places)
    (supplied : given.length = names.length) (made : newCells env t places given = .ok cells) :
    t.Fills names given cells := by
  unfold insertPlaces at named
  rw [if_neg (by simpa using present)] at named
  obtain ⟨size, placeOf⟩ := getElem?_of_mapM named
  obtain ⟨width, cellOf⟩ := getElem?_of_mapM made
  rw [List.length_range] at width
  have placed (k : Nat) (name : String) (member : names[k]? = some name) :
      ∃ place, t.place? name = some place ∧ places[k]? = some place := by
    obtain ⟨place, listed, found⟩ := placeOf k name member
    cases known : t.place? name with
    | none =>
        rw [known] at found
        cases found
    | some other =>
        rw [known] at found
        cases found
        exact ⟨_, rfl, listed⟩
  refine ⟨width, supplied, fun k name member => ?_⟩
  obtain ⟨place, found, listed⟩ := placed k name member
  refine ⟨place, found, fun first => ?_⟩
  obtain ⟨cell, stored, computed⟩ := cellOf place place
    (List.getElem?_range (place?_lt found))
  have index : places.findIdx? (· == place) = some k := by
    obtain ⟨inside, same⟩ := List.getElem?_eq_some_iff.1 listed
    refine List.findIdx?_eq_some_iff_getElem.2 ⟨inside, by simp [same], fun j before => ?_⟩
    obtain ⟨inNames, -⟩ := List.getElem?_eq_some_iff.1 member
    obtain ⟨other, otherFound, otherListed⟩ := placed j _
      (List.getElem?_eq_getElem (Nat.lt_trans before inNames))
    have differs := first j before _ (List.getElem?_eq_getElem (Nat.lt_trans before inNames))
    rw [otherFound] at differs
    obtain ⟨_, value⟩ := List.getElem?_eq_some_iff.1 otherListed
    rw [value]
    simpa using differs
  rw [index] at computed
  have inGiven : k < given.length := by
    rw [supplied]
    exact (List.getElem?_eq_some_iff.1 member).1
  rw [stored, ← Except.ok.inj computed, List.getElem?_eq_getElem inGiven]
  rfl

/-! ### Rows -/

/-- A row made of some cells, with a number that no other row has: the one the cells bring along, or
the next one. -/
structure Admits (t : Table) (cells : Row) (row : StoredRow) : Prop where
  made : row = t.rowOf row.number cells
  numbered : t.givenNumber cells = .ok (some row.number) ∨
    t.givenNumber cells = .ok none ∧ t.freshNumber = .ok row.number
  fresh : ∀ other ∈ t.rows, other.number ≠ row.number

def withRow (t : Table) (row : StoredRow) : Table :=
  { t with rows := putRow row t.rows, highest := max t.highest row.number.toInt }

theorem fresh_of_check {t : Table} {settings : Settings} {others : List StoredRow}
    {row : StoredRow} (checked : t.check settings others row = .ok ()) :
    ∀ other ∈ others, other.number ≠ row.number := by
  obtain ⟨⟨⟩, -, checked⟩ := exists_of_bind checked
  obtain ⟨⟨⟩, -, checked⟩ := exists_of_bind checked
  obtain ⟨⟨⟩, single, -⟩ := exists_of_bind checked
  intro other member same
  have repeated : (others.any fun o => o.number == row.number) = true :=
    List.any_eq_true.2 ⟨other, member, beq_iff_eq.2 same⟩
  unfold checkNumber at single
  rw [if_pos repeated] at single
  cases known : t.numberColumn <;> rw [known] at single <;> cases single

theorem admits_of_insert {t after : Table} {settings : Settings} {cells : Row} {number : Int64}
    (inserted : t.insert settings cells = .ok (after, number)) :
    ∃ row : StoredRow, row.number = number ∧ t.Admits cells row ∧ after = t.withRow row := by
  unfold insert at inserted
  obtain ⟨given, numbered, inserted⟩ := exists_of_bind inserted
  have stored (number' : Int64) (checked : (t.check settings t.rows (t.rowOf number' cells) >>=
        fun _ => pure (t.withRow (t.rowOf number' cells), number')) = .ok (after, number)) :
      number' = number ∧ (∀ other ∈ t.rows, other.number ≠ number) ∧
        after = t.withRow (t.rowOf number cells) := by
    obtain ⟨⟨⟩, obeyed, same⟩ := exists_of_bind checked
    cases same
    exact ⟨rfl, fresh_of_check obeyed, rfl⟩
  cases given with
  | some n =>
      obtain ⟨rfl, fresh, same⟩ := stored n inserted
      exact ⟨t.rowOf n cells, rfl, ⟨rfl, .inl numbered, fresh⟩, same⟩
  | none =>
      obtain ⟨n, next, inserted⟩ := exists_of_bind inserted
      obtain ⟨rfl, fresh, same⟩ := stored n inserted
      exact ⟨t.rowOf n cells, rfl, ⟨rfl, .inr ⟨numbered, next⟩, fresh⟩, same⟩

end Table

/-! ### Commands and texts -/

/-- A database with one more row in a table, which has the values given for some columns. -/
def Database.Gains (name : String) (names : List String) (given : Row) (row : StoredRow)
    (before after : Database) : Prop :=
  ∃ t cells, before.table? name = some t ∧ t.Fills names given cells ∧ t.Admits cells row ∧
    after = before.put (t.withRow row)

theorem resolveSupply_row {cat : Catalog} {t : Table} {names : List String} {places : List Nat}
    {supply : Supply}
    (resolved : resolveSupply cat t names (.values [places.map Expr.parameter]) = .ok supply) :
    supply = .values [places.map Term.parameter] := by
  have terms : [places.map Expr.parameter].mapM (resolveAll cat [])
      = .ok [places.map fun i => ({ term := .parameter i } : Typed)] := by
    rw [List.mapM_cons, resolveAll_parameters]
    rfl
  unfold resolveSupply at resolved
  dsimp only at resolved
  split at resolved
  · cases resolved
  · rw [terms] at resolved
    obtain ⟨rows, same, resolved⟩ := exists_of_bind resolved
    obtain rfl := Except.ok.inj same
    obtain ⟨⟨⟩, -, same⟩ := exists_of_bind resolved
    rw [← Except.ok.inj same, List.map_singleton, List.map_map]
    rfl

theorem run_insertRow {db : Database} {settings : Settings} {t : Table} {places : List Nat}
    {params : List Cell} {effect : Effect}
    (ran : (Command.insert t places
      (.values [(List.range params.length).map Term.parameter])).run db settings params
        = .ok effect) :
    ∃ cells after number, newCells (db.env settings params) t places params = .ok cells ∧
      t.insert settings cells = .ok (after, number) ∧
      effect = { database := db.put after, changes := some 1, lastRow := some number } := by
  have row : evalAll (db.env settings params) ((List.range params.length).map Term.parameter)
      = .ok params := evalAll_parameters (List.ext_getElem? fun i => by
        rcases Nat.lt_or_ge i params.length with inside | beyond
        · simp [inside, Database.env]
        · simp [beyond])
  obtain ⟨made, inserted, checked⟩ := exists_of_bind ran
  have same : made = effect := by
    dsimp only at checked
    split at checked
    · obtain ⟨⟨⟩, -, same⟩ := exists_of_bind checked
      exact Except.ok.inj same
    · exact Except.ok.inj checked
  subst same
  unfold runInsert at inserted
  dsimp only at inserted
  rw [List.mapM_cons, row, List.mapM_nil] at inserted
  obtain ⟨given, single, inserted⟩ := exists_of_bind inserted
  obtain rfl : [params] = given := Except.ok.inj single
  obtain ⟨⟨after, last⟩, folded, same⟩ := exists_of_bind inserted
  rw [List.foldlM_cons] at folded
  obtain ⟨reached, folded, finished⟩ := exists_of_bind folded
  obtain rfl : reached = (after, last) := Except.ok.inj finished
  obtain ⟨cells, filled, folded⟩ := exists_of_bind folded
  obtain ⟨⟨after, number⟩, stored, folded⟩ := exists_of_bind folded
  cases folded
  cases same
  exact ⟨cells, _, number, filled, stored, rfl⟩

namespace Connection

/-- A text that is run without failing has a statement, with a parameter for each of its places. -/
theorem exists_of_execute {sql : String} {params : List Cell} {c : Connection} {changes : Nat}
    (ran : (execute sql params c).1 = .ok changes) :
    ∃ prepared rest answer, c.prepare sql.toList = .ok (some prepared, rest) ∧
      params.length = prepared.parsed.places ∧ (step prepared params c).1 = .ok answer ∧
      (execute sql params c).2 = (step prepared params c).2 := by
  unfold execute query at ran ⊢
  rcases read : c.prepare sql.toList with fault | ⟨prepared, rest⟩
  · rw [read] at ran
    cases ran
  · rw [read] at ran
    dsimp only at ran ⊢
    cases counted : checkCount prepared params with
    | error failure =>
        rw [counted] at ran
        cases ran
    | ok fits =>
        rw [counted] at ran
        cases prepared with
        | none => cases ran
        | some prepared =>
            have fitting : params.length = prepared.parsed.places := by
              unfold checkCount at counted
              dsimp only [Option.map_some, Option.getD_some] at counted
              split at counted
              · omega
              · cases counted
            dsimp only at ran ⊢
            rcases done : step prepared params c with ⟨answer, after⟩
            rw [done] at ran
            cases answer with
            | error failure => cases ran
            | ok answer =>
                refine ⟨prepared, rest, answer, rfl, fitting, congrArg Prod.fst done, ?_⟩
                rw [done]
                dsimp only
                split <;> rfl

/-- The text of an insertion that is run without failing was read as the insertion, and its table
has gained the row. -/
theorem execute_insertion {i : InsertText} (clean : i.IsClean) {sql : String}
    (text : sql.toList = i.text) {params : List Cell} {c : Connection} {changes : Nat}
    (ran : (execute sql params c).1 = .ok changes) :
    i.IsPlain ∧ ∃ row,
      Database.Gains (String.ofList i.table.name)
        (i.columns.map fun column => String.ofList column.name) params row c.database
        (execute sql params c).2.database ∧
      (execute sql params c).2
        = { c with
            database := (execute sql params c).2.database
            changes := 1
            lastRow := row.number } := by
  obtain ⟨prepared, rest, answer, read, fitting, done, same⟩ := exists_of_execute ran
  rw [same]
  obtain ⟨⟨parsed, more⟩, first, read⟩ := exists_of_bind read
  rw [text] at first
  obtain ⟨plain, rfl⟩ := Parser.first_insert i clean first
  obtain ⟨command, resolved, finished⟩ := exists_of_bind read
  cases finished
  refine ⟨plain, ?_⟩
  obtain ⟨t, known, resolved⟩ := exists_of_bind resolved
  obtain ⟨places, named, resolved⟩ := exists_of_bind resolved
  obtain ⟨supply, supplied, finished⟩ := exists_of_bind resolved
  cases finished
  obtain rfl := resolveSupply_row supplied
  have fitting : params.length = i.columns.length := fitting
  rw [← fitting] at done ⊢
  have found : c.database.table? (String.ofList i.table.name) = some t := by
    unfold Database.find at known
    split at known
    next u same =>
      cases known
      exact same
    next => cases known
  unfold step perform at done ⊢
  dsimp only at done ⊢
  rcases ran : Command.run c.database c.settings params (.insert t places
    (.values [(List.range params.length).map Term.parameter])) with fault | effect
  · rw [ran] at done
    cases done
  · obtain ⟨cells, after, number, filled, stored, rfl⟩ := run_insertRow ran
    obtain ⟨row, rfl, admitted, rfl⟩ := Table.admits_of_insert stored
    have fills := Table.fills_of_newCells (List.cons_ne_nil _ _) named
      (fitting.trans (List.length_map _).symm) filled
    exact ⟨row, ⟨t, cells, found, fills, admitted, rfl⟩, rfl⟩

end Connection

end Recordkeeper.Engine
