import Recordkeeper.Proofs.Creation
import Recordkeeper.Proofs.Document.Projection
import Recordkeeper.Proofs.KeyValue.Planning

/-!
Contract: pages of the rows that a query selects.

Owns:
- cuts of a list, and that the pages of a size make up the list;
- that offset and limit cut the rows of the query without them: in plans, in the options of a
  look-up and in the last stages of a pipeline;
- the same of the queries of repositories on keys and values and on documents in memory.

Does not own: the rows without paging, and paging by the engine of a relational store.
-/

set_option autoImplicit false

namespace Recordkeeper

variable {σ α β ε E : Type}

/-! ### Cuts -/

/-- The rows after an offset, up to a limit if there is one. -/
def cut (offset limit : Option Nat) (rows : List α) : List α :=
  match limit with
  | some n => (rows.drop (offset.getD 0)).take n
  | none => rows.drop (offset.getD 0)

/-- Offset and limit are numbers of 64 bits, where there are any. -/
def AreWords (offset limit : Option Nat) : Prop :=
  ∀ n ∈ offset.toList ++ limit.toList, n ≤ 0xFFFFFFFFFFFFFFFF

theorem map_cut (f : α → β) (offset limit : Option Nat) (rows : List α) :
    (cut offset limit rows).map f = cut offset limit (rows.map f) := by
  cases limit with
  | none => exact List.map_drop
  | some n => rw [cut, cut, List.map_take, List.map_drop]

theorem cut_sublist (offset limit : Option Nat) (rows : List α) :
    (cut offset limit rows).Sublist rows := by
  cases limit with
  | none => exact List.drop_sublist _ _
  | some n => exact (List.take_sublist _ _).trans (List.drop_sublist _ _)

theorem cut_whole (rows : List α) : cut none none rows = rows := List.drop_zero

/-- Pages of one size, as many as hold all rows, are the rows. -/
theorem pages_flatten (size : Nat) (count : Nat) (rows : List α)
    (enough : rows.length ≤ count * size) :
    ((List.range count).map fun i => cut (some (i * size)) (some size) rows).flatten = rows := by
  induction count generalizing rows with
  | zero =>
      have none : rows = [] := List.length_eq_zero_iff.1 (by omega)
      rw [none]
      rfl
  | succ count inductionHypothesis =>
      have later (i : Nat) : cut (some ((i + 1) * size)) (some size) rows
          = cut (some (i * size)) (some size) (rows.drop size) := by
        simp only [cut, Option.getD_some, List.drop_drop, Nat.add_mul, Nat.one_mul, Nat.add_comm]
      rw [List.range_succ_eq_map, List.map_cons, List.map_map, List.flatten_cons]
      have rest := inductionHypothesis (rows.drop size) (by
        rw [List.length_drop]
        rw [Nat.add_mul, Nat.one_mul] at enough
        omega)
      have same : ((fun i => cut (some (i * size)) (some size) rows) ∘ Nat.succ)
          = fun i => cut (some (i * size)) (some size) (rows.drop size) := funext later
      rw [same, rest, Nat.zero_mul]
      exact List.take_append_drop size rows

/-- The query with an offset and a limit in the place of its own. -/
def Query.paged (q : Query) (offset limit : Option Nat) : Query := { q with offset, limit }

/-! ### Actions -/

theorem Action.run_map (f : α → β) (action : Action σ α) (s : σ) :
    (f <$> action) s = ((action s).1.map f, (action s).2) := by
  rw [map_eq_pure_bind, Action.run_bind]
  rcases action s with ⟨answer, after⟩
  cases answer <;> rfl

/-- A request answers what is read off the answer of another one, and does the same to the
state. -/
def Reads (f : α → β) (reading : σ → Except ε β × σ) (request : σ → Except ε α × σ) : Prop :=
  ∀ s, reading s = ((request s).1.map f, (request s).2)

theorem Reads.run {τ : Type} {f : α → β} {reading : τ → Except ε β × τ}
    {request : τ → Except ε α × τ} (reads : Reads f reading request) (p : Part σ τ) :
    Reads f (p.run reading) (p.run request) := by
  intro s
  unfold Part.run
  rw [reads]

theorem Reads.call {f : α → β} {reading : σ → Except ε β × σ} {request : σ → Except ε α × σ}
    (reads : Reads f reading request) (env : Environment σ) (ctx : Context) (wrap : ε → Error) :
    Action.call env ctx wrap reading = f <$> Action.call env ctx wrap request := by
  funext s
  rw [Action.run_map, Action.run_call, Action.run_call]
  cases ctx.check (env.observe s).1 with
  | error e => rfl
  | ok passed =>
      dsimp only
      rw [reads]
      cases (request (env.observe s).2).1 <;> rfl

/-- A request answers what another one answers, cut, and does the same to the state. -/
def Cuts (offset limit : Option Nat) (paged unpaged : σ → Except ε (List α) × σ) : Prop :=
  Reads (cut offset limit) paged unpaged

/-! ### Plans -/

namespace KeyValue

theorem Plan.execute_paged (plan : Plan) (offset limit : Option Nat) (records : List Record) :
    { plan with offset, limit }.execute records
      = cut offset limit ({ plan with offset := none, limit := none }.execute records) := by
  unfold execute
  dsimp only
  split
  · rfl
  · split
    · rfl
    · split
      · rfl
      · exact map_cut _ _ _ _

theorem Plan.compile_paged (q : Query) (offset limit : Option Nat) :
    compile (q.paged offset limit)
      = (compile (q.paged none none)).map fun _ => ofQuery (q.paged offset limit) :=
  compile_congr rfl rfl rfl rfl rfl rfl fun _ => rfl

theorem Records.query_paged (k : Records σ E) (ctx : Context) (q : Query)
    (offset limit : Option Nat) :
    k.query ctx (q.paged offset limit) = cut offset limit <$> k.query ctx (q.paged none none) := by
  unfold query
  rw [Plan.compile_paged]
  cases planned : Plan.compile (q.paged none none) with
  | error e => rfl
  | ok plan =>
      have parts := Plan.eq_ofQuery planned
      subst parts
      have rows := (Plan.ofQuery (q.paged none none)).execute_paged offset limit
      show (k.effective ctx >>= fun ctx => k.all ctx >>= fun records =>
          pure ((Plan.ofQuery (q.paged offset limit)).execute records) : Action σ (List Record))
        = cut offset limit <$> (k.effective ctx >>= fun ctx => k.all ctx >>= fun records =>
          pure ((Plan.ofQuery (q.paged none none)).execute records) : Action σ (List Record))
      simp only [map_bind, map_pure]
      exact bind_congr fun ctx => bind_congr fun records => congrArg pure (rows records)

end KeyValue

/-! ### Commands of documents -/

namespace Document

/-- The last stages of a pipeline. -/
def cutStages (offset limit : Option Nat) : List Json := Compiler.pageStages { offset, limit }

def Command.paged (offset limit : Option Nat) : Command → Command
  | .find filter options => .find filter { options with skip := offset, limit }
  | .count filter => .count filter
  | .aggregate stages => .aggregate (stages ++ cutStages offset limit)

/-- What a query without offset and limit compiles to. -/
inductive Unpaged : Command → Prop
  | find (filter : Json) (sort : List (String × Bool)) (projection : Option Json)
      (flags : ∀ spec, projection = some spec → Flags spec) :
      Unpaged (.find filter { sort, projection })
  | aggregate (stages : List Json) : Unpaged (.aggregate stages)

namespace Compiler

theorem pageStages_paged (q : Query) (offset limit : Option Nat) :
    pageStages (q.paged offset limit)
      = pageStages (q.paged none none) ++ cutStages offset limit := by
  simp only [pageStages, cutStages, Query.paged, List.isEmpty_nil, if_true, List.append_nil,
    List.nil_append, List.append_assoc]
  rfl

/-- Order and paging are the last stages of a pipeline, and nothing else depends on them. -/
theorem pipeline_pages (c : Compiler) (q : Query) (filter : Json) :
    c.pipeline q filter true
      = (c.pipeline q filter false).map fun stages => (stages.1 ++ pageStages q, stages.2) := by
  have rest (front : List Json) :
      (if q.having.isEmpty then .ok (front ++ [] ++ pageStages q, [])
        else c.conjunction false q.having >>= fun having =>
          .ok (front ++ [Json.single "$match" having.1] ++ pageStages q, having.2))
        = Except.map (fun stages => (stages.1 ++ pageStages q, stages.2))
          (if q.having.isEmpty then .ok (front ++ [] ++ [], [])
          else c.conjunction false q.having >>= fun having =>
            .ok (front ++ [Json.single "$match" having.1] ++ [], having.2)) := by
    simp only [List.append_nil]
    split
    · rfl
    · cases c.conjunction false q.having <;> rfl
  unfold pipeline
  show (if q.isGrouped = true then _ else _) = Except.map _ (if q.isGrouped = true then _ else _)
  split
  · cases q.ungroupedField? with
    | some field => rfl
    | none => exact rest _
  · exact rest _

theorem pipeline_paged (c : Compiler) (q : Query) (filter : Json) (offset limit : Option Nat) :
    c.pipeline (q.paged offset limit) filter true
      = (c.pipeline (q.paged none none) filter true).map fun stages =>
        (stages.1 ++ cutStages offset limit, stages.2) := by
  have unpaged : c.pipeline (q.paged offset limit) filter false
      = c.pipeline (q.paged none none) filter false := rfl
  rw [pipeline_pages, pipeline_pages, unpaged, pageStages_paged q offset limit]
  cases c.pipeline (q.paged none none) filter false with
  | error e => rfl
  | ok stages =>
      show Except.ok (_, _) = Except.ok (_, _)
      rw [List.append_assoc]

theorem compileQuery_paged (c : Compiler) (q : Query) (offset limit : Option Nat) :
    c.compileQuery (q.paged offset limit)
      = (c.compileQuery (q.paged none none)).map fun r => (r.1.paged offset limit, r.2) := by
  unfold compileQuery
  have supported : checkSupported (q.paged offset limit) = checkSupported (q.paged none none) := rfl
  rw [supported]
  cases checkSupported (q.paged none none) with
  | error e => rfl
  | ok passed =>
      show (c.compileFilter q.conditions >>= _)
        = Except.map _ (c.compileFilter q.conditions >>= _)
      cases c.compileFilter q.conditions with
      | error e => rfl
      | ok compiled =>
          show (if needsPipeline q = true then _ else _)
            = Except.map _ (if needsPipeline q = true then _ else _)
          split
          · show (c.pipeline (q.paged offset limit) compiled.1 true >>= _)
              = Except.map _ (c.pipeline (q.paged none none) compiled.1 true >>= _)
            rw [pipeline_paged]
            cases c.pipeline (q.paged none none) compiled.1 true with
            | error e => rfl
            | ok stages => rfl
          · rfl

theorem compileQuery_unpaged {c : Compiler} {q : Query} {command : Command}
    {degradations : List Degradation}
    (compiled : c.compileQuery (q.paged none none) = .ok (command, degradations)) :
    Unpaged command := by
  obtain ⟨_, -, filtered⟩ := exists_of_bind compiled
  obtain ⟨filter, -, chosen⟩ := exists_of_bind filtered
  split at chosen
  split at chosen
  next =>
    obtain ⟨stages, -, same⟩ := exists_of_bind chosen
    cases same
    exact .aggregate _
  next =>
    cases chosen
    exact .find _ _ _ fun spec => projection_flags

end Compiler

/-! ### Documents in memory -/

theorem stageCount_int {n : Nat} (fits : n ≤ 0xFFFFFFFFFFFFFFFF) (name : String) :
    stageCount name (.int n) = .ok n := by
  have bounded : 0 ≤ (n : Int) ∧ (n : Int) ≤ 0xFFFFFFFFFFFFFFFF := by omega
  show (match Number.toNat? (.int n) with | some n => _ | none => _) = _
  rw [Number.toNat?, if_pos bounded]
  rfl

/-- The last stages cut what reaches them, for numbers of 64 bits. -/
theorem runPipeline_cutStages {offset limit : Option Nat}
    (fits : AreWords offset limit) (docs : List Json) :
    runPipeline docs (cutStages offset limit) = .ok (cut offset limit docs) := by
  have skip {n : Nat} (fits : n ≤ 0xFFFFFFFFFFFFFFFF) (docs : List Json) :
      runStage docs (.single "$skip" (.int n)) = .ok (docs.drop n) := by
    show (stageCount "$skip" (.int n) >>= fun n => .ok (docs.drop n)) = _
    rw [stageCount_int fits]
    rfl
  have take {n : Nat} (fits : n ≤ 0xFFFFFFFFFFFFFFFF) (docs : List Json) :
      runStage docs (.single "$limit" (.int n)) = .ok (docs.take n) := by
    show (stageCount "$limit" (.int n) >>= fun n => .ok (docs.take n)) = _
    rw [stageCount_int fits]
    rfl
  unfold runPipeline cutStages Compiler.pageStages cut
  cases offset with
  | none =>
      cases limit with
      | none => rfl
      | some n =>
          show (runStage docs (.single "$limit" (.int n)) >>= pure) = _
          rw [take (fits n (by simp))]
          rfl
  | some m =>
      cases limit with
      | none =>
          show (runStage docs (.single "$skip" (.int m)) >>= pure) = _
          rw [skip (fits m (by simp))]
          rfl
      | some n =>
          show (runStage docs (.single "$skip" (.int m)) >>= fun docs =>
            runStage docs (.single "$limit" (.int n)) >>= pure) = _
          rw [skip (fits m (by simp))]
          show (runStage (docs.drop m) (.single "$limit" (.int n)) >>= pure) = _
          rw [take (fits n (by simp))]
          rfl

theorem Store.aggregate_cutStages {offset limit : Option Nat}
    (fits : AreWords offset limit) (session : Option SessionId)
    (name : String) (stages : List Json) :
    Cuts offset limit (Store.aggregate session name (stages ++ cutStages offset limit))
      (Store.aggregate session name stages) := by
  intro s
  unfold aggregate read
  refine Prod.ext ?_ rfl
  dsimp only
  cases s.visible session with
  | error e => rfl
  | ok cols =>
      show runPipeline (docsOf cols name) (stages ++ cutStages offset limit)
        = (runPipeline (docsOf cols name) stages).map (cut offset limit)
      unfold runPipeline
      rw [List.foldlM_append]
      cases stages.foldlM runStage (docsOf cols name) with
      | error e => rfl
      | ok docs => exact runPipeline_cutStages fits docs

theorem Store.find_paged {projection : Option Json}
    (flags : ∀ spec, projection = some spec → Flags spec) (offset limit : Option Nat)
    (session : Option SessionId) (name : String) (filter : Json)
    (sort : List (String × Bool)) :
    Cuts offset limit (Store.find session name filter { sort, projection, skip := offset, limit })
      (Store.find session name filter { sort, projection }) := by
  intro s
  unfold find read
  refine Prod.ext ?_ rfl
  dsimp only
  cases s.visible session with
  | error e => rfl
  | ok cols =>
      show (select filter (docsOf cols name) >>= fun found => _)
        = Except.map (cut offset limit) (select filter (docsOf cols name) >>= fun found => _)
      cases select filter (docsOf cols name) with
      | error e => rfl
      | ok found =>
          cases projection with
          | none => rfl
          | some spec =>
              obtain ⟨kept, projected⟩ := Classical.skolem.1 (project_flags (flags spec rfl))
              have all (docs : List Json) :
                  docs.mapM (fun doc => project doc spec) = .ok (docs.map kept) := by
                rw [funext projected]
                exact List.mapM_pure
              show List.mapM _ (cut offset limit (sortDocs sort found))
                = Except.map (cut offset limit) (List.mapM _ (sortDocs sort found))
              rw [all, all, map_cut]
              rfl

theorem Records.call_paged (d : Records σ E) (ctx : Context) {offset limit : Option Nat}
    {paged unpaged : σ → Outcome (List Json) × σ} (cuts : Cuts offset limit paged unpaged) :
    (d.call ctx paged >>= fun docs => pure (docs.map d.ofDoc) : Action σ (List Record))
      = cut offset limit <$> (d.call ctx unpaged >>= fun docs => pure (docs.map d.ofDoc)) := by
  unfold call
  rw [Reads.call cuts]
  simp only [bind_map_left, map_bind, map_pure, map_cut]

theorem Records.query_paged {d : Records σ E} {p : Part σ Store} (memory : d.client = .memory p)
    (session : Option SessionId) (ctx : Context) (q : Query) {offset limit : Option Nat}
    (fits : AreWords offset limit) :
    d.query session ctx (q.paged offset limit)
      = cut offset limit <$> d.query session ctx (q.paged none none) := by
  unfold query
  rw [Compiler.compileQuery_paged, memory]
  cases compiled : d.compiler.compileQuery (q.paged none none) with
  | error e => rfl
  | ok command =>
      obtain ⟨command, degradations⟩ := command
      cases Compiler.compileQuery_unpaged compiled with
      | find filter sort projection flags =>
          exact d.call_paged ctx (Reads.run (Store.find_paged flags offset limit session _ filter sort) p)
      | aggregate stages =>
          exact d.call_paged ctx (Reads.run (Store.aggregate_cutStages fits session _ stages) p)

end Document

/-! ### Repositories -/

/-- The requests whose queries are paged outside of an engine: those on keys and values, and those
on documents in memory, also in a transaction. -/
inductive PagesRows : Operations σ E → Prop
  | keyValue (k : KeyValue.Records σ E) : PagesRows k.repository.toOperations
  | document {d : Document.Records σ E} {p : Part σ Document.Store}
      (memory : d.client = .memory p) : PagesRows d.repository.toOperations
  | transaction {d : Document.Records σ E} {p : Part σ Document.Store}
      (memory : d.client = .memory p) (id : Document.SessionId) (machine : TxState) :
      PagesRows (d.handle id machine)

variable {requests : Operations σ E}

theorem PagesRows.query_paged (served : PagesRows requests) (ctx : Context) (q : Query)
    {offset limit : Option Nat} (fits : AreWords offset limit) :
    requests.query ctx (q.paged offset limit)
      = cut offset limit <$> requests.query ctx (q.paged none none) := by
  have entered {d : Document.Records σ E} {p : Part σ Document.Store} (memory : d.client = .memory p)
      (session : Option Document.SessionId) (enter : Action σ Context) :
      (enter >>= fun ctx => d.query session ctx (q.paged offset limit) : Action σ (List Record))
        = cut offset limit <$> (enter >>= fun ctx => d.query session ctx (q.paged none none)) := by
    simp only [map_bind, Document.Records.query_paged memory session _ q fits]
  cases served with
  | keyValue k => exact k.query_paged ctx q offset limit
  | document memory => exact entered memory none _
  | transaction memory id machine => exact entered memory (some id) _

/-- A query with an offset and a limit, both of 64 bits, answers the rows without them, cut, and
leaves the same state; it fails where the query without them fails.  So the pages of one size,
taken at one state, make up all rows. -/
theorem query_pages (served : PagesRows requests) (ctx : Context) (q : Query) (s : σ) :
    (∀ offset limit : Option Nat, AreWords offset limit →
      requests.query ctx (q.paged offset limit) s
        = ((requests.query ctx (q.paged none none) s).1.map (cut offset limit),
            (requests.query ctx (q.paged none none) s).2)) ∧
      ∀ rows, (requests.query ctx (q.paged none none) s).1 = .ok rows →
        ∀ size count : Nat, rows.length ≤ count * size → count * size ≤ 0xFFFFFFFFFFFFFFFF →
          ∃ pages : Nat → List Record,
            (∀ i < count,
              (requests.query ctx (q.paged (some (i * size)) (some size)) s).1 = .ok (pages i)) ∧
              ((List.range count).map pages).flatten = rows := by
  have cuts (offset limit : Option Nat)
      (fits : AreWords offset limit) :
      requests.query ctx (q.paged offset limit) s
        = ((requests.query ctx (q.paged none none) s).1.map (cut offset limit),
            (requests.query ctx (q.paged none none) s).2) := by
    rw [served.query_paged ctx q fits, Action.run_map]
  refine ⟨cuts, fun rows answered size count enough fits => ?_⟩
  refine ⟨fun i => cut (some (i * size)) (some size) rows, fun i inside => ?_,
    pages_flatten size count rows enough⟩
  have start : i * size ≤ count * size := Nat.mul_le_mul_right size (Nat.le_of_lt inside)
  have one : 1 * size ≤ count * size := Nat.mul_le_mul_right size (by omega)
  have words : AreWords (some (i * size)) (some size) := by
    simp only [AreWords, Option.toList_some, List.cons_append, List.nil_append, List.mem_cons,
      List.not_mem_nil, or_false, forall_eq_or_imp, forall_eq]
    omega
  rw [cuts _ _ words, answered]
  rfl

/-- Three tasks, two of them with one title. -/
def titled : World Document.Store :=
  (Backing.tasks.repository.createBatch .background
    (["x", "y", "x"].mapIdx fun i title =>
      .object [("id", .int i), ("title", .text title)]) ⟨.new, {}, 0⟩).2

/-- The titles without repetition. -/
def titles : Query := { select := ["title"], distinct := true }

theorem titles_pages :
    PagesRows Backing.tasks.repository.toOperations ∧
      AreWords (some 1) (some 5) ∧
      (Backing.tasks.repository.query .background (titles.paged (some 1) (some 5)) titled).1
        = (Backing.tasks.repository.query .background titles titled).1.map (cut (some 1) (some 5)) ∧
      ∃ rows, (Backing.tasks.repository.query .background titles titled).1 = .ok rows ∧
        rows.length = 2 ∧
        ∃ pages : Nat → List Record,
          (∀ i < 2, (Backing.tasks.repository.query .background
            (titles.paged (some (i * 1)) (some 1)) titled).1 = .ok (pages i)) ∧
          ((List.range 2).map pages).flatten = rows := by
  have served : PagesRows Backing.tasks.repository.toOperations := .document rfl
  obtain ⟨cuts, pages⟩ := query_pages served .background titles titled
  have fits : AreWords (some 1) (some 5) := by simp [AreWords]
  refine ⟨served, fits, congrArg Prod.fst (cuts (some 1) (some 5) fits), ?_⟩
  have two : (Backing.tasks.repository.query .background titles titled).1.toOption.map List.length
      = some 2 := by decide +kernel
  cases answered : (Backing.tasks.repository.query .background titles titled).1 with
  | error e =>
      rw [answered] at two
      cases two
  | ok rows =>
      rw [answered] at two
      have length : rows.length = 2 := Option.some.inj two
      exact ⟨rows, rfl, length, pages rows answered 1 2 (by omega) (by omega)⟩

end Recordkeeper
