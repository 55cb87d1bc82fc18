import Recordkeeper.Proofs.Document.Rows
import Recordkeeper.Proofs.KeyValue.Groups
import Recordkeeper.Proofs.Projection

/-!
Contract: the rows of a grouped query that selects fields.

Owns:
- the fields that rows lose by a selection;
- that a selection restricts the rows of the query without it, on keys and values and on documents
  in memory.

Does not own: which groups there are.

Conditions on groups and the order of rows are evaluated on rows from which the other fields are
gone already.  A condition or an order on one of them then reads a missing field.  The statement
leaves such queries out.
-/

set_option autoImplicit false

namespace Recordkeeper

variable {σ E : Type}

namespace Query

/-- A grouped query that selects some of the fields that it is grouped by. -/
structure SelectsKeys (q : Query) : Prop where
  fields : q.select ≠ []
  covered : q.select ⊆ q.groupBy

/-- A field of groups that their rows lose by the selection. -/
def Drops (q : Query) (name : String) : Prop :=
  name ∈ q.groupBy ∧ name ∉ q.select ∧ name ≠ countField

instance (q : Query) : DecidablePred q.Drops := fun _ => inferInstanceAs (Decidable (_ ∧ _ ∧ _))

/-- The fields of rows that stay: the selected ones and the count. -/
def keeps (q : Query) (name : String) : Bool := q.select.contains name || name == countField

namespace SelectsKeys

variable {q : Query}

theorem grouped (selects : q.SelectsKeys) : q.groupBy ≠ [] := by
  intro none
  exact selects.fields (List.subset_nil.1 (none ▸ selects.covered))

theorem isGrouped (selects : q.SelectsKeys) : q.isGrouped = true := by
  simpa [Query.isGrouped] using selects.grouped

theorem ungroupedField?_eq (selects : q.SelectsKeys) : q.ungroupedField? = none :=
  List.find?_eq_none.2 fun name member => by simpa using selects.covered member

theorem rowFields_eq (selects : q.SelectsKeys) : q.rowFields = q.select :=
  if_neg (by simpa using selects.fields)

end SelectsKeys

end Query

/-! ### Keys and values -/

namespace KeyValue

variable {q : Query}

theorem Plan.get?_groupRow_select (selects : q.SelectsKeys) (group : List Value × Nat)
    (name : String) :
    ((ofQuery q).groupRow group).get? name
      = if q.keeps name then ((ofQuery { q with select := [] }).groupRow group).get? name
        else none := by
  have output : (ofQuery q).groupOutput = q.select := selects.rowFields_eq
  have all : (ofQuery { q with select := [] }).groupOutput = q.groupBy := rfl
  have same : (ofQuery q).groupField? group name
      = (ofQuery { q with select := [] }).groupField? group name := rfl
  rw [get?_groupRow, get?_groupRow, output, all, same]
  by_cases isCount : name = Query.countField
  · rw [if_pos (Or.inl isCount), if_pos (Or.inl isCount), if_pos (by simp [Query.keeps, isCount])]
  · by_cases selected : name ∈ q.select
    · rw [if_pos (Or.inr selected), if_pos (Or.inr (selects.covered selected)),
        if_pos (by simp [Query.keeps, selected])]
    · rw [if_neg (by simp [isCount, selected]), if_neg (by simp [Query.keeps, isCount, selected])]

theorem Plan.groupRow_select (selects : q.SelectsKeys) (group : List Value × Nat) :
    (ofQuery q).groupRow group
      = ((ofQuery { q with select := [] }).groupRow group).restrict q.keeps := by
  refine NameMap.ext_get? fun name => ?_
  rw [get?_groupRow_select selects, Record.restrict, NameMap.get?_filter]
  generalize q.keeps name = kept
  cases ((ofQuery { q with select := [] }).groupRow group).get? name <;> cases kept <;> rfl

theorem Plan.valueAt_groupRow_select (selects : q.SelectsKeys) {name : String}
    (stays : ¬ q.Drops name) (group : List Value × Nat) :
    ((ofQuery q).groupRow group).valueAt name
      = ((ofQuery { q with select := [] }).groupRow group).valueAt name := by
  have field : ((ofQuery q).groupRow group).get? name
      = ((ofQuery { q with select := [] }).groupRow group).get? name := by
    rw [get?_groupRow_select selects]
    split
    · rfl
    next gone =>
      rw [get?_groupRow, if_neg]
      rintro (isCount | member)
      · exact gone (by simp [Query.keeps, isCount])
      · refine stays ⟨member, fun selected => gone ?_, fun isCount => gone ?_⟩
        · simp [Query.keeps, selected]
        · simp [Query.keeps, isCount]
  rw [Record.valueAt, Record.valueAt, field]

/-- Conditions on groups and the order of rows that read no field that is dropped. -/
theorem Plan.groupsOut_select (selects : q.SelectsKeys)
    (having : ∀ name ∈ Condition.fieldsOfAll q.having, ¬ q.Drops name)
    (sort : ∀ key ∈ q.sort, ¬ q.Drops key.field) (records : List Record) :
    (ofQuery q).groupsOut records = (ofQuery { q with select := [] }).groupsOut records := by
  have tests (group : List Value × Nat) :
      Condition.truths ((ofQuery q).groupRow group) q.having
        = Condition.truths ((ofQuery { q with select := [] }).groupRow group) q.having :=
    Condition.truths_congr _ fun name member =>
      valueAt_groupRow_select selects (having name member) group
  have order (a b : List Value × Nat) :
      SortKey.orderAll q.sort ((ofQuery q).groupRow a) ((ofQuery q).groupRow b)
        = SortKey.orderAll q.sort ((ofQuery { q with select := [] }).groupRow a)
          ((ofQuery { q with select := [] }).groupRow b) :=
    SortKey.orderAll_congr
      (fun key member => valueAt_groupRow_select selects (sort key member) a)
      fun key member => valueAt_groupRow_select selects (sort key member) b
  show cut q.offset q.limit (if q.sort.isEmpty then
        (tally _ _).filter fun group => (Truth.all (Condition.truths _ q.having)).isTrue
      else ((tally _ _).filter fun group =>
        (Truth.all (Condition.truths _ q.having)).isTrue).mergeSort fun a b =>
          SortKey.orderAll q.sort _ _ != .gt) = _
  simp only [tests, order]
  rfl

theorem Records.query_selectsKeys (k : Records σ E) (selects : q.SelectsKeys)
    (having : ∀ name ∈ Condition.fieldsOfAll q.having, ¬ q.Drops name)
    (sort : ∀ key ∈ q.sort, ¬ q.Drops key.field) (ctx : Context) :
    k.query ctx q = List.map (fun r => Record.restrict r q.keeps) <$>
      k.query ctx { q with select := [] } := by
  have rows (records : List Record) : (Plan.ofQuery q).execute records
      = ((Plan.ofQuery { q with select := [] }).execute records).map fun r =>
        Record.restrict r q.keeps := by
    rw [Plan.execute_grouped selects.grouped, Plan.execute_grouped selects.grouped, List.map_map,
      Plan.groupsOut_select selects having sort]
    exact List.map_congr_left fun group _ => Plan.groupRow_select selects group
  have sameRefusals := Plan.compile_congr (p := q) (q := { q with select := [] }) rfl rfl rfl rfl rfl
    rfl fun _ => selects.ungroupedField?_eq
  unfold query
  rw [sameRefusals]
  cases planned : Plan.compile { q with select := [] } with
  | error e => rfl
  | ok plan =>
      have parts := Plan.eq_ofQuery planned
      subst parts
      show (k.effective ctx >>= fun ctx => k.all ctx >>= fun records =>
          pure ((Plan.ofQuery q).execute records) : Action σ (List Record))
        = List.map _ <$> (k.effective ctx >>= fun ctx => k.all ctx >>= fun records =>
          pure ((Plan.ofQuery { q with select := [] }).execute records) : Action σ (List Record))
      simp only [map_bind, map_pure, rows]

end KeyValue

/-! ### Documents -/

namespace Document

/-- The name under which a path begins. -/
def firstName (path : String) : String := .ofList ((segments path.toList).headD [])

theorem lookup_firstName {small big : Fields} {path : String}
    (same : small.get? (firstName path) = big.get? (firstName path)) :
    lookup (.object small) path = lookup (.object big) path := by
  unfold firstName at same
  unfold lookup
  cases split : segments path.toList with
  | nil => exact absurd split (segments_ne_nil _)
  | cons first rest =>
      rw [split] at same
      rw [List.foldlM_cons, List.foldlM_cons]
      show (Fields.get? small (.ofList first) >>= _) = (Fields.get? big (.ofList first) >>= _)
      exact congrArg (· >>= _) same

variable {q : Query}

theorem rowField?_select (selects : q.SelectsKeys) (group : Json) (name : String) :
    rowField? q.select group name
      = if q.keeps name then rowField? q.groupBy group name else none := by
  unfold rowField?
  by_cases isCount : name = Query.countField
  · rw [if_pos isCount, if_pos isCount, if_pos (by simp [Query.keeps, isCount])]
  · rw [if_neg isCount, if_neg isCount]
    by_cases selected : name ∈ q.select
    · rw [if_pos selected, if_pos (selects.covered selected),
        if_pos (by simp [Query.keeps, selected])]
    · rw [if_neg selected, if_neg (by simp [Query.keeps, isCount, selected])]

theorem lookup_rowOf_select (selects : q.SelectsKeys) {path : String}
    (stays : ¬ q.Drops (firstName path)) (group : Json) :
    lookup (rowOf q.select group) path = lookup (rowOf q.groupBy group) path := by
  obtain ⟨small, smallRow, -, smallFields⟩ := rowOf_fields q.select group
  obtain ⟨big, bigRow, -, bigFields⟩ := rowOf_fields q.groupBy group
  rw [smallRow, bigRow]
  refine lookup_firstName ?_
  rw [smallFields, bigFields, rowField?_select selects]
  split
  · rfl
  next gone =>
    have notCount : firstName path ≠ Query.countField := fun isCount =>
      gone (by simp [Query.keeps, isCount])
    rw [rowField?, if_neg notCount, if_neg]
    exact fun member =>
      stays ⟨member, fun selected => gone (by simp [Query.keeps, selected]), notCount⟩

theorem Records.ofDoc_rowOf_select {d : Records σ E} (selects : q.SelectsKeys)
    (names : ∀ name ∈ Query.countField :: q.groupBy, d.nameOf name = name) (group : Json) :
    d.ofDoc (rowOf q.select group) = (d.ofDoc (rowOf q.groupBy group)).restrict q.keeps := by
  obtain ⟨small, smallRow, smallOnce, smallFields⟩ := rowOf_fields q.select group
  obtain ⟨big, bigRow, bigOnce, bigFields⟩ := rowOf_fields q.groupBy group
  have restricted : Record.ofJson (.object small) = (Record.ofJson (.object big)).restrict q.keeps :=
    Record.ofJson_restrict smallOnce bigOnce fun name => by
      rw [smallFields, bigFields, rowField?_select selects]
  have renamed : (Record.ofJson (.object big)).restrict q.keeps
      = (Record.ofJson (.object big)).restrict fun name => q.keeps (d.nameOf name) := by
    refine Record.restrict_congr fun name held => ?_
    rw [Record.get?_ofJson bigOnce, bigFields, Option.isSome_map, rowField?] at held
    have own : d.nameOf name = name := by
      refine names name (List.mem_cons.2 ?_)
      split at held
      next isCount => exact Or.inl isCount
      next =>
        split at held
        next member => exact Or.inr member
        next => cases held
    rw [own]
  rw [smallRow, bigRow, ofDoc, ofDoc, restricted, renamed, Record.rename_restrict]

theorem Compiler.compileQuery_grouped (c : Compiler) (grouped : q.isGrouped = true)
    (covered : q.ungroupedField? = none) :
    c.compileQuery q = checkSupported q >>= fun _ => c.compileFilter q.conditions >>= fun filter =>
      (c.havingStages q).map fun tests =>
        (.aggregate (c.groupingStages q filter.1
          ++ (rowStage true q.rowFields :: (tests.1 ++ pageStages q))), filter.2 ++ tests.2) := by
  have staged : needsPipeline q = true := by rw [needsPipeline, grouped, Bool.true_or]
  unfold compileQuery
  rw [staged]
  simp only [if_true, pipeline_grouped grouped covered]
  refine bind_congr fun passed => bind_congr fun filter => ?_
  cases c.havingStages q <;> rfl

/-- Pipelines that differ in the rows that they make, from which the other stages read the same. -/
theorem Store.aggregate_rows {f : Json → Record} {g : Record → Record} {small big : List String}
    {back : List Json} (parallel : Parallel (rowOf small) (rowOf big) back)
    (rows : ∀ group, f (rowOf small group) = g (f (rowOf big group)))
    (session : Option SessionId) (name : String) (front : List Json) (s : Store) :
    (Store.aggregate session name (front ++ (Compiler.rowStage true small :: back)) s).1.map
        (List.map f)
      = (Store.aggregate session name (front ++ (Compiler.rowStage true big :: back)) s).1.map
        fun docs => (docs.map f).map g := by
  unfold aggregate read
  dsimp only
  cases s.visible session with
  | error e => rfl
  | ok cols =>
      show (runPipeline (docsOf cols name) _).map _ = (runPipeline (docsOf cols name) _).map _
      rw [runPipeline_append, runPipeline_append]
      cases runPipeline (docsOf cols name) front with
      | error e => rfl
      | ok groups =>
          show Except.map _ (runPipeline groups (_ :: back))
            = Except.map _ (runPipeline groups (_ :: back))
          obtain ⟨outcome, left, right⟩ := parallel groups
          rw [runPipeline_cons, runPipeline_cons, runStage_rows, runStage_rows]
          show Except.map _ (runPipeline (groups.map (rowOf small)) back)
            = Except.map _ (runPipeline (groups.map (rowOf big)) back)
          rw [left, right]
          cases outcome with
          | error e => rfl
          | ok kept =>
              show Except.ok ((kept.map (rowOf small)).map f)
                = Except.ok (((kept.map (rowOf big)).map f).map g)
              simp only [List.map_map]
              exact congrArg Except.ok (List.map_congr_left fun group _ => rows group)

/-- A grouped query of documents whose rows keep their names, and keep every field that is read
after they are made. -/
structure Records.KeepsRead (d : Records σ E) (q : Query) : Prop where
  names : ∀ name ∈ Query.countField :: q.groupBy, d.nameOf name = name
  noSign : ∀ p ∈ Condition.predicatesOfAll q.having, p.field.toList.head? ≠ some '$'
  having : ∀ path ∈ d.compiler.pathsOfAll q.having, ¬ q.Drops (firstName path)
  sort : ∀ key ∈ q.sort, ¬ q.Drops (firstName key.field)

theorem Records.query_selectsKeys {d : Records σ E} {p : Part σ Store} (memory : d.client = .memory p)
    (selects : q.SelectsKeys) (kept : d.KeepsRead q) (session : Option SessionId) (ctx : Context) :
    d.query session ctx q = List.map (fun r => Record.restrict r q.keeps) <$>
      d.query session ctx { q with select := [] } := by
  have all := d.compiler.compileQuery_grouped (q := { q with select := [] }) selects.isGrouped rfl
  have supported : Compiler.checkSupported { q with select := [] } = Compiler.checkSupported q := rfl
  have tests : d.compiler.havingStages { q with select := [] } = d.compiler.havingStages q := rfl
  funext s
  rw [Action.run_map]
  unfold query
  rw [d.compiler.compileQuery_grouped selects.isGrouped selects.ungroupedField?_eq, all, supported,
    tests, selects.rowFields_eq]
  cases Compiler.checkSupported q with
  | error e => rfl
  | ok passed =>
      cases d.compiler.compileFilter q.conditions with
      | error e => rfl
      | ok filter =>
          cases compiled : d.compiler.havingStages q with
          | error e => rfl
          | ok tests =>
              have parallel : Parallel (rowOf q.select) (rowOf q.groupBy)
                  (tests.1 ++ Compiler.pageStages q) :=
                .append
                  (Compiler.havingStages_parallel compiled kept.noSign fun group path member =>
                    lookup_rowOf_select selects (kept.having path member) group)
                  (.pages fun key member group =>
                    lookup_rowOf_select selects (kept.sort key member) group)
              rw [memory]
              refine Records.call_changed ?_ rfl
              exact Store.aggregate_rows parallel
                (Records.ofDoc_rowOf_select selects kept.names) session d.schema.name
                (d.compiler.groupingStages q filter.1) _

end Document

/-! ### Repositories -/

/-- The requests whose grouped queries restrict rows by a selection: those for which neither the
conditions on groups nor the order of rows reads a field that the rows lose. -/
inductive RestrictsRows (q : Query) : Operations σ E → Prop
  | keyValue (k : KeyValue.Records σ E)
      (having : ∀ name ∈ Condition.fieldsOfAll q.having, ¬ q.Drops name)
      (sort : ∀ key ∈ q.sort, ¬ q.Drops key.field) : RestrictsRows q k.repository.toOperations
  | document {d : Document.Records σ E} {p : Part σ Document.Store} (memory : d.client = .memory p)
      (kept : d.KeepsRead q) : RestrictsRows q d.repository.toOperations
  | transaction {d : Document.Records σ E} {p : Part σ Document.Store} (memory : d.client = .memory p)
      (kept : d.KeepsRead q) (id : Document.SessionId) (machine : TxState) :
      RestrictsRows q (d.handle id machine)

variable {requests : Operations σ E}

/-- A grouped query that selects fields answers, in order, the rows of the query without the
selection, restricted to the selected fields and the count; it fails where that query fails, and
leaves the state that it leaves. -/
theorem grouped_selection_restricts {q : Query} (served : RestrictsRows q requests)
    (selects : q.SelectsKeys) (ctx : Context) :
    requests.query ctx q = List.map (fun r => Record.restrict r q.keeps) <$>
      requests.query ctx { q with select := [] } := by
  have entered {d : Document.Records σ E} {p : Part σ Document.Store} (memory : d.client = .memory p)
      (kept : d.KeepsRead q) (session : Option Document.SessionId) (enter : Action σ Context) :
      (enter >>= fun ctx => d.query session ctx q : Action σ (List Record))
        = List.map (fun r => Record.restrict r q.keeps) <$>
          (enter >>= fun ctx => d.query session ctx { q with select := [] } :
            Action σ (List Record)) := by
    rw [map_bind]
    exact bind_congr fun ctx => Document.Records.query_selectsKeys memory selects kept session ctx
  cases served with
  | keyValue k having sort => exact k.query_selectsKeys selects having sort ctx
  | document memory kept => exact entered memory kept none _
  | transaction memory kept id machine => exact entered memory kept (some id) _

namespace Document

theorem agesOfPeople_restricts :
    let q : Query := {
      groupBy := ["name", "age"]
      select := ["age"]
      having := [.basic ⟨"age", .greaterThan, .int 30⟩]
      sort := [⟨"count", .desc⟩] }
    RestrictsRows q people.repository.toOperations ∧ q.SelectsKeys ∧
      answeredNames { q with select := [] } = some [["age", "count", "name"]] ∧
      answeredNames q = some [["age", "count"]] ∧
      people.repository.query .background q
        = List.map (fun r => Record.restrict r q.keeps) <$>
          people.repository.query .background { q with select := [] } := by
  intro q
  have served : RestrictsRows q people.repository.toOperations :=
    .document rfl ⟨by decide +kernel, by decide, by decide, by decide⟩
  have selects : q.SelectsKeys := ⟨by decide, by decide⟩
  exact ⟨served, selects, by decide +kernel, by decide +kernel,
    grouped_selection_restricts served selects .background⟩

/-- A condition on a group reads nothing under a name that is not selected. -/
theorem nameOfGroup_lost :
    let q : Query := {
      groupBy := ["name", "age"]
      having := [.basic ⟨"name", .equal, .text "Ada"⟩] }
    answeredNames q = some [["age", "count", "name"]] ∧
      answeredNames { q with select := ["age"] } = some [] ∧
      ((KeyValue.Plan.ofQuery q).execute [.ofList [("name", .text "Ada")]]).length = 1 ∧
      (KeyValue.Plan.ofQuery { q with select := ["age"] }).execute [.ofList [("name", .text "Ada")]]
        = [] := by
  decide +kernel

end Document

end Recordkeeper
