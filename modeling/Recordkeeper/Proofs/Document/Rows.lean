import Recordkeeper.Proofs.Document.Projection
import Recordkeeper.Proofs.Document.Reading

/-!
Contract: the documents that stand for the groups of a query.

Owns:
- the fields of a row, which are those that are put out, and the count;
- stages that do the same to two images of one list;
- the stages of a grouped query.

Does not own: how documents are grouped.
-/

set_option autoImplicit false

namespace Recordkeeper

/-- The fields that the rows of a grouped query have besides the count. -/
def Query.rowFields (q : Query) : List String := if q.select.isEmpty then q.groupBy else q.select

namespace Document

/-! ### Rows -/

/-- The parts of the projection that makes the rows of groups. -/
def rowParts (output : List String) : Fields :=
  ((idField, .int 0) :: output.map (fun k => (k, Json.text ("$_id." ++ k)))
    ++ [(Query.countField, Json.int 1)]).foldl (fun acc f => acc.insert f.1 f.2) []

theorem rowParts_nodup (output : List String) : ((rowParts output).map Prod.fst).Nodup :=
  Fields.nodup_foldl_set _ List.nodup_nil

theorem get?_rowParts (output : List String) (name : String) :
    (rowParts output).get? name
      = if name = Query.countField then some (.int 1)
        else if name ∈ output then some (.text ("$_id." ++ name))
        else if name = idField then some (.int 0) else none := by
  unfold rowParts
  rw [Fields.get?_foldl_set, List.reverse_append, List.reverse_singleton, List.reverse_cons,
    List.singleton_append, lookup_cons_if, List.lookup_append, ← List.map_reverse,
    lookup_tabulated fun k => Json.text ("$_id." ++ k), lookup_cons_if]
  simp only [List.mem_reverse]
  split
  · rfl
  · split
    · rfl
    · split <;> rfl

/-- The value that a group has for one of its keys. -/
def groupValue (group : Json) (name : String) : Json := (lookup group ("_id." ++ name)).getD .null

/-- What the row of a group has under a name, if some keys of groups are put out. -/
def rowField? (output : List String) (group : Json) (name : String) : Option Json :=
  if name = Query.countField then lookup group Query.countField
  else if name ∈ output then some (groupValue group name) else none

theorem evaluate_group (group : Json) (name : String) :
    evaluate group (.text ("$_id." ++ name)) = .ok (groupValue group name) := by
  have path : "$_id." ++ name = "$" ++ ("_id." ++ name) := by
    rw [← String.append_assoc]
    rfl
  rw [path, evaluate_reference]
  rfl

theorem projectedField_row {output : List String} {group part : Json} {name : String}
    (own : (rowParts output).get? name = some part) :
    projectedField group name part = .ok (rowField? output group name) := by
  rw [get?_rowParts] at own
  unfold rowField?
  split at own
  next isCount =>
    cases own
    rw [if_pos isCount, isCount]
    rfl
  next notCount =>
    rw [if_neg notCount]
    split at own
    next put =>
      cases own
      rw [if_pos put]
      show (evaluate group (.text ("$_id." ++ name))).map some = _
      rw [evaluate_group]
      rfl
    next left =>
      rw [if_neg left]
      split at own
      next => cases own; rfl
      next => cases own

theorem rowParts_including (output : List String) :
    (rowParts output).any fun f => f.1 != idField && (flag? f.2).getD true := by
  have held : (rowParts output).get? Query.countField = some (.int 1) := by
    rw [get?_rowParts, if_pos rfl]
  rw [List.any_eq_true]
  exact ⟨_, (lookup_eq_some_iff_mem (rowParts_nodup output)).1 held, rfl⟩

theorem rowParts_noId (output : List String) :
    ((rowParts output).get? idField).all (fun v => flag? v == some true) = false := by
  rw [get?_rowParts, if_neg (by decide), if_pos rfl]
  split <;> rfl

/-- A row is made of every group, with the fields that are put out and the count. -/
theorem exists_row (output : List String) (group : Json) :
    ∃ row : Fields, project group (.object (rowParts output)) = .ok (.object row) ∧
      (row.map Prod.fst).Nodup ∧ ∀ name, row.get? name = rowField? output group name := by
  have held {part : String × Json} (member : part ∈ rowParts output) :
      (rowParts output).get? part.1 = some part.2 :=
    (lookup_eq_some_iff_mem (rowParts_nodup output)).2 member
  obtain ⟨row, included⟩ : ∃ row, includedFields group (rowParts output) (keptId group false)
      = .ok row :=
    includedFields_succeeds (fun part member => ⟨_, projectedField_row (held member)⟩) _
  refine ⟨row, ?_, includedFields_nodup included (keptId_nodup _ _), fun name => ?_⟩
  · rw [project_eq _ (rowParts_including output), rowParts_noId, included]
    rfl
  · have read := includedFields_get? included (rowParts_nodup output) name
    cases own : (rowParts output).get? name with
    | some part =>
        rw [← Fields.get?, own] at read
        obtain ⟨given, gave, read⟩ := read
        rw [projectedField_row own] at gave
        cases gave
        rw [read]
        exact Option.or_none
    | none =>
        rw [← Fields.get?, own] at read
        rw [read]
        rw [get?_rowParts] at own
        unfold rowField?
        split at own
        next => cases own
        next notCount =>
          rw [if_neg notCount]
          split at own
          next => cases own
          next left =>
            rw [if_neg left]
            rfl

/-- The document that stands for a group, if some of its keys are put out. -/
def rowOf (output : List String) (group : Json) : Json :=
  (project group (.object (rowParts output))).toOption.getD .null

theorem rowOf_fields (output : List String) (group : Json) :
    ∃ row : Fields, rowOf output group = .object row ∧ (row.map Prod.fst).Nodup ∧
      ∀ name, row.get? name = rowField? output group name := by
  obtain ⟨row, made, once, fields⟩ := exists_row output group
  refine ⟨row, ?_, once, fields⟩
  rw [rowOf, made]
  rfl

theorem runStage_rows (output : List String) (groups : List Json) :
    runStage groups (Compiler.rowStage true output) = .ok (groups.map (rowOf output)) := by
  have made (group : Json) : project group (.object (rowParts output)) = .ok (rowOf output group) := by
    obtain ⟨row, made, -⟩ := exists_row output group
    rw [rowOf, made]
    rfl
  show groups.mapM (fun group => project group (.object (rowParts output))) = _
  rw [funext made]
  exact List.mapM_pure

/-! ### Stages behind the rows -/

theorem runPipeline_append (docs : List Json) (front back : List Json) :
    runPipeline docs (front ++ back)
      = runPipeline docs front >>= fun docs => runPipeline docs back :=
  List.foldlM_append

theorem runPipeline_cons (docs : List Json) (stage : Json) (rest : List Json) :
    runPipeline docs (stage :: rest) = runStage docs stage >>= fun docs => runPipeline docs rest :=
  List.foldlM_cons

theorem runPipeline_single (docs : List Json) (stage : Json) :
    runPipeline docs [stage] = runStage docs stage :=
  (runPipeline_cons docs stage []).trans (bind_pure (runStage docs stage))

theorem select_selectAll (docs : List Json) : select selectAll docs = .ok docs := by
  induction docs with
  | nil => rfl
  | cons doc rest inductionHypothesis =>
      rw [select, matchesFilter_selectAll, inductionHypothesis]
      rfl

/-- A stage that would select everything is left out. -/
theorem runPipeline_matchStage (docs : List Json) (filter : Json) :
    runPipeline docs (if isSelectAll filter then [] else [.single "$match" filter])
      = select filter docs := by
  split
  next all =>
    have same : filter = selectAll := by
      unfold isSelectAll at all
      split at all
      · rfl
      · cases all
    rw [same, select_selectAll]
    rfl
  next => exact runPipeline_single docs _

section Parallel

variable {α : Type} {f g : α → Json}

/-- Stages that do to two images of any list what is done to the list. -/
def Parallel (f g : α → Json) (stages : List Json) : Prop :=
  ∀ items : List α, ∃ outcome : Outcome (List α),
    runPipeline (items.map f) stages = outcome.map (List.map f) ∧
      runPipeline (items.map g) stages = outcome.map (List.map g)

theorem Parallel.nil : Parallel f g [] := fun items => ⟨.ok items, rfl, rfl⟩

theorem Parallel.append {front back : List Json} (first : Parallel f g front)
    (second : Parallel f g back) : Parallel f g (front ++ back) := by
  intro items
  obtain ⟨outcome, left, right⟩ := first items
  rw [runPipeline_append, runPipeline_append, left, right]
  cases outcome with
  | error failure => exact ⟨.error failure, rfl, rfl⟩
  | ok others => exact second others

theorem Parallel.stage {stage : Json}
    (does : ∀ items : List α, ∃ outcome : Outcome (List α),
      runStage (items.map f) stage = outcome.map (List.map f) ∧
        runStage (items.map g) stage = outcome.map (List.map g)) : Parallel f g [stage] := by
  intro items
  obtain ⟨outcome, left, right⟩ := does items
  exact ⟨outcome, (runPipeline_single _ stage).trans left, (runPipeline_single _ stage).trans right⟩

/-- The members of a list that pass a test, which may fail. -/
def passing (test : α → Outcome Bool) : List α → Outcome (List α)
  | [] => .ok []
  | item :: rest => do
    let holds ← test item
    let others ← passing test rest
    return if holds then item :: others else others

theorem select_map (filter : Json) (f : α → Json) (items : List α) :
    select filter (items.map f)
      = (passing (fun item => matchesFilter (f item) filter) items).map (List.map f) := by
  induction items with
  | nil => rfl
  | cons item rest inductionHypothesis =>
      rw [List.map_cons, select, passing, inductionHypothesis]
      cases matchesFilter (f item) filter with
      | error failure => rfl
      | ok holds =>
          cases passing (fun item => matchesFilter (f item) filter) rest with
          | error failure => rfl
          | ok others => cases holds <;> rfl

theorem Parallel.select {filter : Json}
    (same : ∀ item, matchesFilter (f item) filter = matchesFilter (g item) filter) :
    Parallel f g [.single "$match" filter] := by
  refine .stage fun items => ⟨_, select_map filter f items, ?_⟩
  rw [funext same]
  exact select_map filter g items

theorem sortKeys_names {fields : List (String × Json)} {keys : List (String × Bool)}
    (read : sortKeys (.object fields) = .ok keys) : ∀ key ∈ keys, key.1 ∈ fields.map Prod.fst := by
  refine forall_of_mapM (fun field member key own => ?_) read
  split at own
  next =>
    split at own
    next =>
      cases own
      exact List.mem_map_of_mem member
    next =>
      split at own
      next =>
        cases own
        exact List.mem_map_of_mem member
      next => cases own
  next => cases own

theorem orderByPaths_alike {keys : List (String × Bool)} {a b c d : Json}
    (left : ∀ key ∈ keys, lookup a key.1 = lookup c key.1)
    (right : ∀ key ∈ keys, lookup b key.1 = lookup d key.1) :
    orderByPaths keys a b = orderByPaths keys c d := by
  refine List.foldr_ext _ _ _ fun key member rest => ?_
  rw [orderByPath, orderByPath, left key member, right key member]

theorem Parallel.sort {fields : List (String × Json)}
    (same : ∀ name ∈ fields.map Prod.fst, ∀ item, lookup (f item) name = lookup (g item) name) :
    Parallel f g [.single "$sort" (.object fields)] := by
  refine .stage fun items => ?_
  show ∃ outcome, (sortKeys (.object fields) >>= fun keys => pure (sortDocs keys (items.map f))) = _ ∧
    (sortKeys (.object fields) >>= fun keys => pure (sortDocs keys (items.map g))) = _
  cases read : sortKeys (.object fields) with
  | error failure => exact ⟨.error failure, rfl, rfl⟩
  | ok keys =>
      have names := sortKeys_names read
      have left : sortDocs keys (items.map f)
          = (items.mergeSort fun a b => orderByPaths keys (f a) (f b) != .gt).map f :=
        (List.map_mergeSort (s := fun a b => orderByPaths keys a b != .gt) fun _ _ _ _ => rfl).symm
      have right : sortDocs keys (items.map g)
          = (items.mergeSort fun a b => orderByPaths keys (f a) (f b) != .gt).map g :=
        (List.map_mergeSort (s := fun a b => orderByPaths keys a b != .gt) fun a _ b _ => by
          rw [orderByPaths_alike (fun key member => same key.1 (names key member) a)
            (fun key member => same key.1 (names key member) b)]).symm
      exact ⟨.ok _, congrArg Except.ok left, congrArg Except.ok right⟩

theorem Parallel.skip (spec : Json) : Parallel f g [.single "$skip" spec] := by
  refine .stage fun items => ?_
  show ∃ outcome, (stageCount "$skip" spec >>= fun n => pure ((items.map f).drop n)) = _ ∧
    (stageCount "$skip" spec >>= fun n => pure ((items.map g).drop n)) = _
  cases stageCount "$skip" spec with
  | error failure => exact ⟨.error failure, rfl, rfl⟩
  | ok n =>
      exact ⟨.ok (items.drop n), congrArg Except.ok List.map_drop.symm,
        congrArg Except.ok List.map_drop.symm⟩

theorem Parallel.limit (spec : Json) : Parallel f g [.single "$limit" spec] := by
  refine .stage fun items => ?_
  show ∃ outcome, (stageCount "$limit" spec >>= fun n => pure ((items.map f).take n)) = _ ∧
    (stageCount "$limit" spec >>= fun n => pure ((items.map g).take n)) = _
  cases stageCount "$limit" spec with
  | error failure => exact ⟨.error failure, rfl, rfl⟩
  | ok n =>
      exact ⟨.ok (items.take n), congrArg Except.ok List.map_take.symm,
        congrArg Except.ok List.map_take.symm⟩

/-- Order and pages are the same for images that are the same at the fields of the order. -/
theorem Parallel.pages {q : Query}
    (same : ∀ key ∈ q.sort, ∀ item, lookup (f item) key.field = lookup (g item) key.field) :
    Parallel f g (Compiler.pageStages q) := by
  have sorted : Parallel f g (if q.sort.isEmpty then []
      else [.single "$sort" (Compiler.objectOf (q.sort.map fun k =>
        (k.field, Compiler.directionNumber k.direction)))]) := by
    split
    · exact .nil
    · refine .sort fun name member item => ?_
      rcases Fields.mem_foldl_set member with old | new
      · cases old
      · rw [List.map_map] at new
        obtain ⟨key, among, rfl⟩ := List.mem_map.1 new
        exact same key among item
  unfold Compiler.pageStages
  refine .append (.append sorted ?_) ?_
  · cases q.offset with
    | none => exact .nil
    | some n => exact .skip _
  · cases q.limit with
    | none => exact .nil
    | some n => exact .limit _

end Parallel

/-! ### Grouped queries -/

namespace Compiler

variable {c : Compiler} {q : Query}

/-- The stages of a grouped query up to its groups. -/
def groupingStages (c : Compiler) (q : Query) (filter : Json) : List Json :=
  (if isSelectAll filter then [] else [.single "$match" filter]) ++ [c.groupStage true q.groupBy]

/-- The stages that test the rows of groups. -/
def havingStages (c : Compiler) (q : Query) : Except Error (Degraded (List Json)) :=
  if q.having.isEmpty then .ok ([], [])
  else (c.conjunction false q.having).map fun h => ([.single "$match" h.1], h.2)

/-- The pipeline of a grouped query makes groups, then rows, and tests, orders and cuts the rows. -/
theorem pipeline_grouped (grouped : q.isGrouped = true) (covered : q.ungroupedField? = none)
    (filter : Json) :
    c.pipeline q filter true = (c.havingStages q).map fun tests =>
      (c.groupingStages q filter ++ (rowStage true q.rowFields :: (tests.1 ++ pageStages q)),
        tests.2) := by
  have output : (if q.isGrouped && !q.select.isEmpty then q.select
      else if q.isGrouped then q.groupBy else q.select) = q.rowFields := by
    rw [Query.rowFields, grouped]
    cases q.select.isEmpty <;> rfl
  unfold pipeline havingStages groupingStages
  dsimp only
  rw [output, grouped, covered]
  cases q.having.isEmpty with
  | true => simp [Except.map, pure, Except.pure, bind, Except.bind]
  | false => cases c.conjunction false q.having <;> simp [Except.map, pure, Except.pure, bind, Except.bind]

theorem havingStages_parallel {α : Type} {f g : α → Json} {tests : List Json}
    {degradations : List Degradation} (compiled : c.havingStages q = .ok (tests, degradations))
    (noSign : ∀ p ∈ Condition.predicatesOfAll q.having, p.field.toList.head? ≠ some '$')
    (same : ∀ item, SameAt (c.pathsOfAll q.having) (f item) (g item)) : Parallel f g tests := by
  unfold havingStages at compiled
  split at compiled
  · cases compiled
    exact .nil
  · cases conjunction : c.conjunction false q.having with
    | error e =>
        rw [conjunction] at compiled
        cases compiled
    | ok own =>
        rw [conjunction] at compiled
        cases compiled
        exact .select fun item => conjunction_alike conjunction noSign (same item)

end Compiler

end Document

end Recordkeeper
