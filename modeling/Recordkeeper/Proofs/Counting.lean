import Recordkeeper.Proofs.Paging

/-!
Contract: the requests that answer less than the rows of a query.

Owns:
- that the number of rows, whether there is one, and the first one are read off the rows that a
  query itself answers.

Does not own: the rows, and counting by the engine of a relational store.

Documents are counted by commands of their own: a look-up without order and projection, or the
pipeline of the rows with one more stage.  The other two requests are the query itself with a
limit of one, so that they follow from its pages.
-/

set_option autoImplicit false

namespace Recordkeeper

variable {σ E : Type}

/-- The greatest number that a stage of a pipeline can report. -/
def greatestCount : Nat := 0xFFFFFFFFFFFFFFFF

theorem Number.toNat?_int {n : Nat} (fits : n ≤ greatestCount) :
    Number.toNat? (.int n) = some n := by
  have bounded : 0 ≤ (n : Int) ∧ (n : Int) ≤ 0xFFFFFFFFFFFFFFFF := by
    unfold greatestCount at fits
    omega
  rw [Number.toNat?, if_pos bounded]
  rfl

theorem Json.field?_single (name : String) (value : Json) :
    (Json.single name value).field? name = some value := by
  show List.lookup name [(name, value)] = some value
  rw [List.lookup_cons_self]

/-! ### Documents -/

namespace Document

/-- The stage that replaces documents by their number. -/
def countStage : Json := .single "$count" (.text Query.countField)

/-- What the counting stage leaves of so many documents. -/
def counted (n : Nat) : List Json :=
  if n = 0 then [] else [.single Query.countField (.int n)]

theorem runStage_countStage (docs : List Json) :
    runStage docs countStage = .ok (counted docs.length) := by
  cases docs <;> rfl

theorem Records.countOf_counted {n : Nat} (fits : n ≤ greatestCount) :
    countOf (counted n) = n := by
  unfold counted
  split
  next none => exact none.symm
  next =>
    rw [countOf, List.head?_cons, Option.bind_some, Json.field?_single, Option.bind_some, Json.int,
      Json.number?, Option.bind_some, Number.toNat?_int fits, Option.getD_some]

/-- A look-up is counted without its order and its projection, which never fails. -/
theorem Store.count_reads_find {projection : Option Json}
    (flags : ∀ spec, projection = some spec → Flags spec) (session : Option SessionId)
    (name : String) (filter : Json) (sort : List (String × Bool)) :
    Reads List.length (Store.count session name filter)
      (Store.find session name filter { sort, projection }) := by
  intro s
  unfold count find read
  refine Prod.ext ?_ rfl
  dsimp only
  cases s.visible session with
  | error e => rfl
  | ok cols =>
      show (select filter (docsOf cols name) >>= fun found => _)
        = Except.map List.length (select filter (docsOf cols name) >>= fun found => _)
      cases select filter (docsOf cols name) with
      | error e => rfl
      | ok found =>
          have length : (sortDocs sort found).length = found.length := List.length_mergeSort _
          cases projection with
          | none =>
              show Except.ok found.length = Except.ok (sortDocs sort found).length
              rw [length]
          | some spec =>
              obtain ⟨kept, projected⟩ := Classical.skolem.1 (project_flags (flags spec rfl))
              have all : (sortDocs sort found).mapM (fun doc => project doc spec)
                  = (.ok ((sortDocs sort found).map kept) : Outcome _) := by
                rw [funext projected]
                exact List.mapM_pure
              show Except.ok found.length
                = Except.map List.length ((sortDocs sort found).mapM fun doc => project doc spec)
              rw [all]
              show Except.ok found.length = Except.ok ((sortDocs sort found).map kept).length
              rw [List.length_map, length]

/-- A pipeline with the counting stage ends with the number of documents it ended with. -/
theorem Store.aggregate_countStage (session : Option SessionId) (name : String)
    (stages : List Json) :
    Reads (fun docs => counted docs.length)
      (Store.aggregate session name (stages ++ [countStage]))
      (Store.aggregate session name stages) := by
  intro s
  unfold aggregate read
  refine Prod.ext ?_ rfl
  dsimp only
  cases s.visible session with
  | error e => rfl
  | ok cols =>
      show runPipeline (docsOf cols name) (stages ++ [countStage])
        = (runPipeline (docsOf cols name) stages).map _
      unfold runPipeline
      rw [List.foldlM_append]
      cases stages.foldlM runStage (docsOf cols name) with
      | error e => rfl
      | ok docs =>
          show (runStage docs countStage >>= pure) = _
          rw [runStage_countStage]
          rfl

namespace Command

/-- The command that counts what a command answers. -/
def counting : Command → Command
  | .find filter _ => .count filter
  | .aggregate stages => .aggregate (stages ++ [countStage])
  | .count filter => .count filter

end Command

/-- A query is counted by the command of its rows, without their order. -/
theorem Compiler.compileCount_eq (c : Compiler) (q : Query) :
    c.compileCount q = (c.compileQuery q.unpaged).map fun r => (r.1.counting, r.2) := by
  unfold compileCount compileQuery
  have supported : checkSupported q.unpaged = checkSupported q := rfl
  rw [supported]
  cases checkSupported q with
  | error e => rfl
  | ok passed =>
      show (c.compileFilter q.conditions >>= _)
        = Except.map _ (c.compileFilter q.conditions >>= _)
      cases c.compileFilter q.conditions with
      | error e => rfl
      | ok compiled =>
          show (if needsPipeline q.unpaged = true then _ else _)
            = Except.map _ (if needsPipeline q.unpaged = true then _ else _)
          split
          · show (c.pipeline q.unpaged compiled.1 false >>= _)
              = Except.map _ (c.pipeline q.unpaged compiled.1 true >>= _)
            rw [c.pipeline_pages q.unpaged]
            cases c.pipeline q.unpaged compiled.1 false with
            | error e => rfl
            | ok stages =>
                show Except.ok (Command.aggregate (stages.1 ++ [countStage]), _)
                  = Except.ok (Command.aggregate (stages.1 ++ [] ++ [countStage]), _)
                rw [List.append_nil]
          · rfl

/-- Documents are counted as the rows of the query, up to the greatest number that a pipeline can
report. -/
theorem Records.count_eq {d : Records σ E} {p : Part σ Store} (memory : d.client = .memory p)
    (q : Query) :
    ∃ number : Nat → Nat, (∀ n ≤ greatestCount, number n = n) ∧
      ∀ session ctx,
        d.count session ctx q = (fun rows => number rows.length) <$> d.query session ctx q.unpaged := by
  unfold count query
  rw [Compiler.compileCount_eq, memory]
  cases compiled : d.compiler.compileQuery q.unpaged with
  | error e => exact ⟨id, fun _ _ => rfl, fun _ _ => rfl⟩
  | ok command =>
      obtain ⟨command, degradations⟩ := command
      have unordered : { q with sort := [] }.paged none none = q.unpaged := rfl
      rw [← unordered] at compiled
      cases Compiler.compileQuery_unpaged compiled with
      | find filter sort projection flags =>
          refine ⟨id, fun _ _ => rfl, fun session ctx => ?_⟩
          have reads := Reads.run (Store.count_reads_find flags session d.schema.name filter sort) p
          show d.call ctx (p.run (Store.count session d.schema.name filter))
            = (fun rows => rows.length) <$> (d.call ctx (p.run (Store.find session d.schema.name
              filter { sort, projection })) >>= fun docs => pure (docs.map d.ofDoc))
          unfold call
          rw [reads.call]
          simp only [map_eq_pure_bind, bind_assoc, pure_bind, List.length_map]
      | aggregate stages =>
          refine ⟨fun n => countOf (counted n), fun n fits => countOf_counted fits,
            fun session ctx => ?_⟩
          have reads := Reads.run (Store.aggregate_countStage session d.schema.name stages) p
          show (d.call ctx (p.run (Store.aggregate session d.schema.name (stages ++ [countStage])))
              >>= fun docs => pure (countOf docs))
            = (fun rows => countOf (counted rows.length)) <$> (d.call ctx (p.run (Store.aggregate
              session d.schema.name stages)) >>= fun docs => pure (docs.map d.ofDoc))
          unfold call
          rw [reads.call]
          simp only [bind_map_left, map_bind, map_pure, List.length_map]

end Document

/-! ### Repositories -/

variable {requests : Operations σ E}

namespace PagesRows

theorem count_eq (served : PagesRows requests) (ctx : Context) (q : Query) :
    ∃ number : Nat → Nat, (∀ n ≤ greatestCount, number n = n) ∧
      requests.count ctx q = (fun rows => number rows.length) <$> requests.query ctx q.unpaged := by
  have entered {d : Document.Records σ E} {p : Part σ Document.Store} (memory : d.client = .memory p)
      (session : Option Document.SessionId) (enter : Action σ Context) :
      ∃ number : Nat → Nat, (∀ n ≤ greatestCount, number n = n) ∧
        (enter >>= fun ctx => d.count session ctx q)
          = (fun rows => number rows.length) <$>
            (enter >>= fun ctx => d.query session ctx q.unpaged) := by
    obtain ⟨number, fits, same⟩ := Document.Records.count_eq memory q
    refine ⟨number, fits, ?_⟩
    simp only [map_bind, same]
  cases served with
  | keyValue k =>
      refine ⟨id, fun _ _ => rfl, ?_⟩
      show k.count ctx q = (fun rows => rows.length) <$> k.query ctx q.unpaged
      unfold KeyValue.Records.count KeyValue.Records.query
      simp only [map_bind, map_pure]
  | document memory => exact entered memory none _
  | transaction memory id machine => exact entered memory (some id) _

theorem existsAny_eq (served : PagesRows requests) (ctx : Context) (q : Query) :
    requests.existsAny ctx q = (fun rows => !rows.isEmpty) <$> requests.query ctx q.firstOnly := by
  have entered (d : Document.Records σ E) (session : Option Document.SessionId)
      (enter : Action σ Context) :
      (enter >>= fun ctx => d.existsAny session ctx q)
        = (fun rows => !rows.isEmpty) <$>
          (enter >>= fun ctx => d.query session ctx q.firstOnly) := by
    unfold Document.Records.existsAny
    simp only [map_eq_pure_bind, bind_assoc]
  cases served with
  | keyValue k => exact (map_eq_pure_bind _ _).symm
  | document memory => exact entered _ none _
  | transaction memory id machine => exact entered _ (some id) _

theorem queryOne_eq (served : PagesRows requests) :
    ∃ name, ∀ ctx q, requests.queryOne ctx q
      = requests.query ctx q.firstOnly >>= fun rows => Action.ofExcept (firstRecord name rows) := by
  have entered (d : Document.Records σ E) (session : Option Document.SessionId)
      (enter : Action σ Context) (q : Query) :
      (enter >>= fun ctx => d.queryOne session ctx q)
        = (enter >>= fun ctx => d.query session ctx q.firstOnly) >>= fun rows =>
          Action.ofExcept (firstRecord d.schema.name rows) := by
    unfold Document.Records.queryOne
    rw [bind_assoc]
  cases served with
  | keyValue k => exact ⟨k.schema.name, fun ctx q => rfl⟩
  | @document d p memory => exact ⟨d.schema.name, fun ctx q => entered d none _ q⟩
  | @transaction d p memory id machine =>
      exact ⟨d.schema.name, fun ctx q => entered d (some id) _ q⟩

/-- The query with a limit of one answers the first of the rows without a limit. -/
theorem firstOnly_eq (served : PagesRows requests) (ctx : Context) (q : Query)
    (word : ∀ n ∈ q.offset, n ≤ greatestCount) :
    requests.query ctx q.firstOnly = List.take 1 <$> requests.query ctx { q with limit := none } := by
  have words (limit : Option Nat) (fits : ∀ n ∈ limit, n ≤ greatestCount) :
      AreWords q.offset limit := by
    intro n member
    rw [List.mem_append, Option.mem_toList, Option.mem_toList] at member
    exact member.elim (word n) (fits n)
  have first := served.query_paged ctx q (words (some 1) (by simp [greatestCount]))
  have all := served.query_paged ctx q (words none nofun)
  show requests.query ctx (q.paged q.offset (some 1))
    = List.take 1 <$> requests.query ctx (q.paged q.offset none)
  rw [first, all, Functor.map_map]
  rfl

end PagesRows

/-- Counting answers the number of rows that the query answers without order and paging.  Without
its limit, the query answers a row if and only if one exists, and its first row is the one that is
asked for; if there is none, the error is of kind not found.  All of these fail where the query
fails, and leave the state that it leaves. -/
theorem count_existsAny_queryOne (served : PagesRows requests) (ctx : Context) (q : Query)
    (word : ∀ n ∈ q.offset, n ≤ greatestCount) (s : σ) :
    (match requests.query ctx q.unpaged s with
      | (.ok rows, after) =>
          rows.length ≤ greatestCount → requests.count ctx q s = (.ok rows.length, after)
      | (.error e, after) => requests.count ctx q s = (.error e, after)) ∧
    match requests.query ctx { q with limit := none } s with
      | (.ok [], after) =>
          requests.existsAny ctx q s = (.ok false, after) ∧
            ∃ e : Error, e.kind = .notFound ∧ requests.queryOne ctx q s = (.error e, after)
      | (.ok (first :: _), after) =>
          requests.existsAny ctx q s = (.ok true, after) ∧
            requests.queryOne ctx q s = (.ok first, after)
      | (.error e, after) =>
          requests.existsAny ctx q s = (.error e, after) ∧
            requests.queryOne ctx q s = (.error e, after) := by
  constructor
  · obtain ⟨number, exactly, counted⟩ := served.count_eq ctx q
    rw [counted, Action.run_map]
    rcases requests.query ctx q.unpaged s with ⟨answer, after⟩
    cases answer with
    | error e => rfl
    | ok rows =>
        intro fits
        show (Except.ok (number rows.length), after) = _
        rw [exactly _ fits]
  · obtain ⟨name, asked⟩ := served.queryOne_eq
    rw [served.existsAny_eq, asked, served.firstOnly_eq ctx q word, Functor.map_map, bind_map_left,
      Action.run_map, Action.run_bind]
    rcases requests.query ctx { q with limit := none } s with ⟨answer, after⟩
    cases answer with
    | error e => exact ⟨rfl, rfl⟩
    | ok rows =>
        cases rows with
        | nil => exact ⟨rfl, .refused (.noMatch name), rfl, rfl⟩
        | cons first rest => exact ⟨rfl, rfl⟩

/-- All but the first of the titles. -/
def laterTitles : Query := titles.paged (some 1) (some 5)

theorem laterTitles_counted :
    PagesRows Backing.tasks.repository.toOperations ∧
      (∀ n ∈ laterTitles.offset, n ≤ greatestCount) ∧
      (Backing.tasks.repository.count .background laterTitles titled).1 = .ok 2 ∧
      (Backing.tasks.repository.existsAny .background laterTitles titled).1 = .ok true ∧
      ∃ row, (Backing.tasks.repository.queryOne .background laterTitles titled).1 = .ok row ∧
        row.names = ["title"] ∧ (row.valueAt "title").text? = some "y" := by
  have served : PagesRows Backing.tasks.repository.toOperations := .document rfl
  have word : ∀ n ∈ laterTitles.offset, n ≤ greatestCount := by
    simp [laterTitles, Query.paged, greatestCount]
  obtain ⟨number, first⟩ := count_existsAny_queryOne served .background laterTitles word titled
  refine ⟨served, word, ?_, ?_⟩
  · have two : (Backing.tasks.repository.query .background laterTitles.unpaged titled).1.toOption.map
        List.length = some 2 := by decide +kernel
    generalize Backing.tasks.repository.query .background laterTitles.unpaged titled = outcome
      at number two
    obtain ⟨answer, after⟩ := outcome
    cases answer with
    | error e => cases two
    | ok rows =>
        have length : rows.length = 2 := Option.some.inj two
        have counted := number (by rw [length]; decide)
        rw [counted, length]
  · have only : (Backing.tasks.repository.query .background { laterTitles with limit := none }
        titled).1.toOption.map (List.map fun row => (row.names, (row.valueAt "title").text?))
        = some [(["title"], some "y")] := by decide +kernel
    generalize Backing.tasks.repository.query .background { laterTitles with limit := none } titled
      = outcome at first only
    obtain ⟨answer, after⟩ := outcome
    cases answer with
    | error e => cases only
    | ok rows =>
        cases rows with
        | nil => cases only
        | cons row rest =>
            rw [first.1, first.2]
            have seen := (List.cons.inj (Option.some.inj only)).1
            exact ⟨rfl, row, rfl, congrArg Prod.fst seen, congrArg Prod.snd seen⟩

end Recordkeeper
