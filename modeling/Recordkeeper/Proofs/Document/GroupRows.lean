import Recordkeeper.Proofs.Creation
import Recordkeeper.Proofs.Document.Groups
import Recordkeeper.Proofs.Document.Keys
import Recordkeeper.Proofs.Grouping

/-!
Contract: the records that a grouped query of documents answers.

Owns:
- the members of the groups that the grouping stage makes, and what they leave in accumulators;
- the record that a group is answered as, and the one that it should be answered as;
- `grouped_rows_iff`, which says when they are the same.

Does not own: which documents a filter selects.

The stages put the values of a group under logical names.  The rows are then read as stored
documents are, so that a name which is the column of some field becomes the name of that field.
-/

set_option autoImplicit false

namespace Recordkeeper.Document

/-! ### Groups and their members -/

/-- The text of the key of a document, if it has a key. -/
def keyText? (idExpr doc : Json) : Option String := (evaluate doc idExpr).toOption.map Json.render

def membersOf (idExpr : Json) (docs : List Json) (text : String) : List Json :=
  docs.filter fun doc => keyText? idExpr doc == some text

/-- What documents leave in an accumulator of a field. -/
def GroupField.accumulate (f : GroupField) (start : Accumulator) (docs : List Json) : Accumulator :=
  (docs.filterMap fun doc => (evaluate doc f.arg).toOption).foldl Accumulator.add start

/-- A group has the key of the first of its members, and holds what they leave. -/
def Group.Collects (idExpr : Json) (fields : List GroupField) (start : List Accumulator)
    (docs : List Json) (g : Group) : Prop :=
  ∃ first rest, membersOf idExpr docs g.keyText = first :: rest ∧ evaluate first idExpr = .ok g.key ∧
    g.accumulators = List.zipWith (fun f s => f.accumulate s (first :: rest)) fields start

/-- Groups of documents: one for each text of a key, with what the documents that have it leave. -/
structure Collected (idExpr : Json) (fields : List GroupField) (start : List Accumulator)
    (docs : List Json) (groups : List Group) : Prop where
  once : (groups.map (·.keyText)).Nodup
  known : ∀ doc ∈ docs, ∃ g ∈ groups, keyText? idExpr doc = some g.keyText
  each : ∀ g ∈ groups, g.Collects idExpr fields start docs

/-- A group has the key of the first of its members, and counts them all. -/
def Group.Gathers (idExpr : Json) (docs : List Json) (g : Group) : Prop :=
  ∃ first rest, membersOf idExpr docs g.keyText = first :: rest ∧ evaluate first idExpr = .ok g.key ∧
    g.accumulators = [ones (rest.length + 1)]

/-- Groups of documents: one for each text of a key, with the documents that have it. -/
structure Gathered (idExpr : Json) (docs : List Json) (groups : List Group) : Prop where
  once : (groups.map (·.keyText)).Nodup
  known : ∀ doc ∈ docs, ∃ g ∈ groups, keyText? idExpr doc = some g.keyText
  each : ∀ g ∈ groups, g.Gathers idExpr docs

section Place

variable {key : Json} {start : List Accumulator} {added : List Json} {groups : List Group}

theorem texts_place (key : Json) (start : List Accumulator) (added : List Json)
    (groups : List Group) :
    (Group.place key start added groups).map (·.keyText)
      = if key.render ∈ groups.map (·.keyText) then groups.map (·.keyText)
        else groups.map (·.keyText) ++ [key.render] := by
  induction groups with
  | nil => rfl
  | cons g rest inductionHypothesis =>
      rw [Group.place]
      by_cases same : g.keyText = key.render
      · rw [if_pos same, if_pos (by simp [same])]
        rfl
      · rw [if_neg same, List.map_cons, inductionHypothesis]
        have differs : ¬ key.render = g.keyText := fun reversed => same reversed.symm
        simp only [List.map_cons, List.mem_cons, differs, false_or]
        split <;> rfl

theorem mem_texts_place {text : String} :
    text ∈ (Group.place key start added groups).map (·.keyText)
      ↔ text ∈ groups.map (·.keyText) ∨ text = key.render := by
  rw [texts_place]
  split
  next known => exact ⟨.inl, fun listed => listed.elim id fun same => same ▸ known⟩
  next => rw [List.mem_append, List.mem_singleton]

/-- A group after one more document: another one's, its own, or a new one. -/
theorem mem_place (once : (groups.map (·.keyText)).Nodup) {g : Group}
    (member : g ∈ Group.place key start added groups) :
    (g ∈ groups ∧ g.keyText ≠ key.render) ∨
      (∃ before ∈ groups, before.keyText = key.render ∧
        g = { before with accumulators := List.zipWith Accumulator.add before.accumulators added }) ∨
      (key.render ∉ groups.map (·.keyText) ∧
        g = ⟨key, key.render, List.zipWith Accumulator.add start added⟩) := by
  induction groups with
  | nil => exact .inr (.inr ⟨List.not_mem_nil, List.mem_singleton.1 member⟩)
  | cons first rest inductionHypothesis =>
      obtain ⟨new, restOnce⟩ := List.nodup_cons.1 once
      rw [Group.place] at member
      split at member
      next same =>
        rcases List.mem_cons.1 member with rfl | among
        · exact .inr (.inl ⟨first, List.mem_cons_self, same, rfl⟩)
        · refine .inl ⟨List.mem_cons_of_mem _ among, fun again => new ?_⟩
          show first.keyText ∈ _
          rw [same, ← again]
          exact List.mem_map_of_mem among
      next differs =>
        rcases List.mem_cons.1 member with rfl | among
        · exact .inl ⟨List.mem_cons_self, differs⟩
        · rcases inductionHypothesis restOnce among with ⟨old, other⟩ | ⟨before, old, same, rfl⟩ | ⟨new, rfl⟩
          · exact .inl ⟨List.mem_cons_of_mem _ old, other⟩
          · exact .inr (.inl ⟨before, List.mem_cons_of_mem _ old, same, rfl⟩)
          · refine .inr (.inr ⟨?_, rfl⟩)
            rw [List.map_cons, List.mem_cons]
            exact fun known => known.elim (fun same => differs same.symm) new

end Place

section Accumulate

variable {doc : Json} {fields : List GroupField} {values : List Json}

theorem GroupField.accumulate_append (f : GroupField) (start : Accumulator) (front back : List Json) :
    f.accumulate start (front ++ back) = f.accumulate (f.accumulate start front) back := by
  unfold accumulate
  rw [List.filterMap_append, List.foldl_append]

/-- The values of a document are what it leaves. -/
theorem zipWith_add_values (evaluated : (fields.mapM fun f => evaluate doc f.arg) = .ok values)
    (accumulators : List Accumulator) :
    List.zipWith Accumulator.add accumulators values
      = List.zipWith (fun f s => f.accumulate s [doc]) fields accumulators := by
  induction fields generalizing values accumulators with
  | nil =>
      cases evaluated
      exact List.zipWith_nil_right
  | cons f rest inductionHypothesis =>
      rw [List.mapM_cons] at evaluated
      obtain ⟨value, own, evaluated⟩ := exists_of_bind evaluated
      obtain ⟨others, later, evaluated⟩ := exists_of_bind evaluated
      cases evaluated
      cases accumulators with
      | nil => rfl
      | cons s more =>
          have one : f.accumulate s [doc] = s.add value := by
            rw [GroupField.accumulate, List.filterMap_cons, own]
            rfl
          rw [List.zipWith_cons_cons, List.zipWith_cons_cons, one, inductionHypothesis later]

/-- What documents leave after others is what all of them leave. -/
theorem zipWith_accumulate_append (fields : List GroupField) (start : List Accumulator)
    (front back : List Json) :
    List.zipWith (fun f s => f.accumulate s back) fields
        (List.zipWith (fun f s => f.accumulate s front) fields start)
      = List.zipWith (fun f s => f.accumulate s (front ++ back)) fields start := by
  induction fields generalizing start with
  | nil => rfl
  | cons f rest inductionHypothesis =>
      cases start with
      | nil => rfl
      | cons s more =>
          simp only [List.zipWith_cons_cons, GroupField.accumulate_append, inductionHypothesis]

theorem accumulate_sizeField (n : Nat) (docs : List Json) :
    sizeField.accumulate (ones n) docs = ones (n + docs.length) := by
  induction docs generalizing n with
  | nil => rfl
  | cons doc rest inductionHypothesis =>
      calc sizeField.accumulate (ones n) (doc :: rest)
          = sizeField.accumulate (ones (n + 1)) rest := rfl
        _ = ones (n + 1 + rest.length) := inductionHypothesis (n + 1)
        _ = ones (n + (doc :: rest).length) := by rw [List.length_cons, Nat.add_right_comm, Nat.add_assoc]

end Accumulate

section Gathering

variable {idExpr doc key : Json} {docs : List Json} {groups : List Group}
  {fields : List GroupField} {start : List Accumulator} {values : List Json}

theorem keyText?_of_evaluate (keyed : evaluate doc idExpr = .ok key) :
    keyText? idExpr doc = some key.render := by
  rw [keyText?, keyed]
  rfl

theorem membersOf_concat (keyed : evaluate doc idExpr = .ok key) (docs : List Json) (text : String) :
    membersOf idExpr (docs ++ [doc]) text
      = if text = key.render then membersOf idExpr docs text ++ [doc] else membersOf idExpr docs text := by
  unfold membersOf
  rw [List.filter_append, List.filter_singleton, keyText?_of_evaluate keyed]
  by_cases same : text = key.render
  · rw [if_pos same, same, beq_self_eq_true]
    rfl
  · rw [if_neg same, beq_false_of_ne fun other => same (Option.some.inj other).symm]
    exact List.append_nil _

theorem Collected.nil : Collected idExpr fields start [] [] := ⟨List.nodup_nil, nofun, nofun⟩

/-- One more document keeps the groups those of the documents so far. -/
theorem Collected.place (collected : Collected idExpr fields start docs groups)
    (keyed : evaluate doc idExpr = .ok key)
    (evaluated : (fields.mapM fun f => evaluate doc f.arg) = .ok values) :
    Collected idExpr fields start (docs ++ [doc]) (Group.place key start values groups) where
  once := by
    rw [texts_place]
    split
    next => exact collected.once
    next new =>
      refine List.nodup_append.2 ⟨collected.once, List.nodup_singleton _, fun text old other single => ?_⟩
      rw [List.mem_singleton.1 single]
      rintro rfl
      exact new old
  known other member := by
    have listed {text : String} (known : text ∈ groups.map (·.keyText) ∨ text = key.render) :
        ∃ g ∈ Group.place key start values groups, g.keyText = text :=
      List.mem_map.1 (mem_texts_place.2 known)
    rcases List.mem_append.1 member with old | new
    · obtain ⟨g, among, same⟩ := collected.known other old
      obtain ⟨kept, placed, text⟩ := listed (.inl (List.mem_map_of_mem among))
      exact ⟨kept, placed, by rw [same, text]⟩
    · obtain rfl := List.mem_singleton.1 new
      obtain ⟨g, placed, text⟩ := listed (.inr rfl)
      exact ⟨g, placed, by rw [keyText?_of_evaluate keyed, text]⟩
  each g member := by
    unfold Group.Collects
    rcases mem_place collected.once member with ⟨old, other⟩ | ⟨before, old, same, rfl⟩ | ⟨new, rfl⟩
    · rw [membersOf_concat keyed, if_neg other]
      exact collected.each g old
    · obtain ⟨first, rest, members, own, held⟩ := collected.each before old
      refine ⟨first, rest ++ [doc], ?_, own, ?_⟩
      · rw [membersOf_concat keyed, if_pos same, members]
        rfl
      · rw [held, zipWith_add_values evaluated, zipWith_accumulate_append]
        rfl
    · have none : membersOf idExpr docs key.render = [] := by
        refine List.filter_eq_nil_iff.2 fun other member found => new ?_
        obtain ⟨g, among, same⟩ := collected.known other member
        rw [same] at found
        rw [← Option.some.inj (beq_iff_eq.1 found)]
        exact List.mem_map_of_mem among
      refine ⟨doc, [], ?_, keyed, zipWith_add_values evaluated start⟩
      rw [membersOf_concat keyed, if_pos rfl, none]
      rfl

theorem groupDocs_collected {rest : List Json} {outcome : List Group}
    (collected : Collected idExpr fields start docs groups)
    (made : groupDocs idExpr fields start rest groups = .ok outcome) :
    Collected idExpr fields start (docs ++ rest) outcome := by
  induction rest generalizing docs groups with
  | nil =>
      cases made
      rwa [List.append_nil]
  | cons doc rest inductionHypothesis =>
      rw [groupDocs] at made
      obtain ⟨key, keyed, made⟩ := exists_of_bind made
      obtain ⟨values, evaluated, made⟩ := exists_of_bind made
      have next := inductionHypothesis (collected.place keyed evaluated) made
      rwa [List.append_assoc, List.singleton_append] at next

/-- What is collected with the one field of the size is the number of members. -/
theorem Collected.gathered (collected : Collected idExpr [sizeField] [ones 0] docs groups) :
    Gathered idExpr docs groups where
  once := collected.once
  known := collected.known
  each g member := by
    obtain ⟨first, rest, members, own, held⟩ := collected.each g member
    refine ⟨first, rest, members, own, held.trans ?_⟩
    rw [List.zipWith_cons_cons, accumulate_sizeField, Nat.zero_add]
    rfl

end Gathering

/-! ### The document of a group -/

/-- The document of a group: values under the names that it is grouped by, and its size. -/
def groupFrom (names : List String) (valueOf : String → Json) (size : Nat) : Json :=
  .object [(idField, Compiler.objectOf (names.map fun n => (n, valueOf n))),
    (Query.countField, .int (Int64.ofNat size).toInt)]

/-- The grouping stage makes a document of the key of a member and of the number of members. -/
theorem runStage_gathered {c : Compiler} {names : List String} {docs groups : List Json}
    (noSign : ∀ name ∈ names, name.toList.head? ≠ some '$')
    (made : runStage docs (c.groupStage true names) = .ok groups) :
    ∀ group ∈ groups, ∃ text first rest,
      membersOf (Compiler.objectOf (names.map fun k => (k, .text ("$" ++ c.key k)))) docs text
        = first :: rest ∧
      group = groupFrom names (fun k => (lookup first (c.key k)).getD .null) (rest.length + 1) := by
  have stage : (groupDocs (Compiler.objectOf (names.map fun k => (k, .text ("$" ++ c.key k))))
      [sizeField] [ones 0] docs [] >>= fun groups =>
        Except.ok (groups.map (Group.toDoc [sizeField]))) = .ok groups := made
  obtain ⟨outcome, grouped, stage⟩ := exists_of_bind stage
  cases stage
  have gathered := (groupDocs_collected .nil grouped).gathered
  rw [List.nil_append] at gathered
  intro group member
  obtain ⟨g, among, rfl⟩ := List.mem_map.1 member
  obtain ⟨first, rest, members, own, counted⟩ := gathered.each g among
  refine ⟨g.keyText, first, rest, members, ?_⟩
  rw [evaluate_references first c.key noSign] at own
  obtain ⟨key, text, accumulators⟩ := g
  dsimp only at own counted
  subst counted
  cases own
  show Json.object (Fields.insert [(idField, _)] Query.countField (ones (rest.length + 1)).finish) = _
  rw [finish_ones]
  rfl

/-! ### Rows and their names -/

/-- The record that a group should be answered as. -/
def groupRecord (q : Query) (valueOf : String → Json) (size : Nat) : Record :=
  .ofList (q.rowFields.map (fun n => (n, Value.ofJson (valueOf n)))
    ++ [(Query.countField, .int (Int64.ofNat size))])

theorem get?_groupRecord (q : Query) (valueOf : String → Json) (size : Nat) (name : String) :
    (groupRecord q valueOf size).get? name
      = if name = Query.countField then some (.int (Int64.ofNat size))
        else if name ∈ q.rowFields then some (Value.ofJson (valueOf name)) else none := by
  rw [groupRecord, NameMap.get?_ofList, List.reverse_append, List.reverse_singleton,
    List.singleton_append, lookup_cons_if, ← List.map_reverse,
    lookup_tabulated fun n => Value.ofJson (valueOf n)]
  simp only [List.mem_reverse]

variable {σ E : Type} {d : Records σ E} {q : Query}

/-- A name is the column of no other field, and is not the key of ids unless it is the key. -/
def Records.KeepsName (d : Records σ E) (name : String) : Prop :=
  if name = idField then d.schema.primaryKey = idField
  else ∀ f ∈ d.schema.fields, f.column = name → f.name = name

/-- With columns of their own, these are the names that are read as themselves. -/
theorem Records.nameOf_eq_iff (distinct : (d.schema.fields.map (·.column)).Nodup) (name : String) :
    d.nameOf name = name ↔ d.KeepsName name := by
  unfold nameOf KeepsName
  by_cases isId : name = idField
  · rw [if_pos isId, if_pos isId, isId]
  · rw [if_neg isId, if_neg isId]
    unfold Schema.fieldForColumn
    cases found : d.schema.fields.find? (·.column == name) with
    | none =>
        rw [List.find?_eq_none] at found
        refine iff_of_true rfl fun f member same => absurd ?_ (found f member)
        exact beq_iff_eq.2 same
    | some f =>
        have member := List.mem_of_find?_eq_some found
        have own : f.column = name := beq_iff_eq.1 (List.find?_some (p := fun (g : FieldDef) =>
          g.column == name) found)
        refine ⟨fun same g within column => ?_, fun all => all f member own⟩
        rw [List.inj_on_of_nodup_map distinct within member (column.trans own.symm)]
        exact same

/-- The names of rows are read as themselves, and none of them is taken for a path. -/
structure Records.NamesRows (d : Records σ E) (q : Query) : Prop where
  kept : ∀ name ∈ Query.countField :: q.rowFields, d.KeepsName name
  noDot : ∀ name ∈ q.rowFields, '.' ∉ name.toList

/-- The record of a row before its names are read as keys of stored documents. -/
theorem exists_rowRecord (d : Records σ E) (output : List String) (group : Json) :
    ∃ r : Record, d.ofDoc (rowOf output group) = r.rename d.nameOf ∧
      ∀ name, r.get? name = (rowField? output group name).map Value.ofJson := by
  obtain ⟨row, made, once, fields⟩ := rowOf_fields output group
  refine ⟨Record.ofJson (.object row), by rw [made, Records.ofDoc], fun name => ?_⟩
  rw [Record.get?_ofJson once, fields]

theorem rowField?_groupFrom {names output : List String} {name : String} (covered : output ⊆ names)
    (noDot : name ∈ output → '.' ∉ name.toList) (valueOf : String → Json) (size : Nat) :
    rowField? output (groupFrom names valueOf size) name
      = if name = Query.countField then some (.int (Int64.ofNat size).toInt)
        else if name ∈ output then some (valueOf name) else none := by
  unfold rowField?
  split
  next => rfl
  next =>
    split
    next put => rw [groupFrom, groupValue_key (covered put) (noDot put)]
    next => rfl

theorem Query.rowFields_covered (covered : q.select ⊆ q.groupBy) : q.rowFields ⊆ q.groupBy := by
  unfold Query.rowFields
  split
  next => exact List.Subset.refl _
  next => exact covered

/-- Rows with names of their own are the records that groups should be answered as. -/
theorem Records.NamesRows.ofDoc_rowOf (named : d.NamesRows q)
    (distinct : (d.schema.fields.map (·.column)).Nodup) (covered : q.select ⊆ q.groupBy)
    (valueOf : String → Json) (size : Nat) :
    d.ofDoc (rowOf q.rowFields (groupFrom q.groupBy valueOf size)) = groupRecord q valueOf size := by
  obtain ⟨r, row, fields⟩ := exists_rowRecord d q.rowFields (groupFrom q.groupBy valueOf size)
  have whole : r = groupRecord q valueOf size := by
    refine NameMap.ext_get? fun name => ?_
    rw [fields, rowField?_groupFrom (Query.rowFields_covered covered) (named.noDot name),
      get?_groupRecord]
    split
    next => exact congrArg some (Value.ofJson_int _)
    next => split <;> rfl
  have kept : ∀ name ∈ (groupRecord q valueOf size).names, d.nameOf (id name) = name := by
    intro name member
    refine (d.nameOf_eq_iff distinct name).2 (named.kept name (List.mem_cons.2 ?_))
    rw [← NameMap.isSome_get?_iff, get?_groupRecord] at member
    split at member
    next isCount => exact .inl isCount
    next =>
      split at member
      next put => exact .inr put
      next => cases member
  rw [row, whole]
  exact Record.eq_rename_back kept (fun name => by simp) fun _ _ => rfl

/-- A name that is taken for a path leads nowhere, if all values of the group are texts. -/
theorem groupValue_dotted {names : List String} {name : String} (dotted : '.' ∈ name.toList)
    (size : Nat) : groupValue (groupFrom names .text size) name = .null := by
  obtain ⟨front, back, split, noDot⟩ := List.eq_append_cons_of_mem dotted
  have path : segments ("_id." ++ name).toList = idField.toList :: front :: segments back := by
    rw [← segments_dotted front back noDot, ← split, String.toList_append]
    exact segments_dotted idField.toList name.toList (by decide)
  have parts : Fields.get? ((names.map fun n => (n, Json.text n)).foldl
      (fun (acc : Fields) f => acc.insert f.1 f.2) []) (.ofList front)
        = if .ofList front ∈ names then some (.text (.ofList front)) else none := by
    rw [Fields.get?_foldl_set, ← List.map_reverse, lookup_tabulated Json.text]
    simp only [List.mem_reverse]
    exact Option.or_none
  unfold groupValue lookup
  rw [path]
  show Option.getD ((Fields.get? ((names.map fun n => (n, Json.text n)).foldl
    (fun (acc : Fields) f => acc.insert f.1 f.2) []) (.ofList front)).bind fun part =>
      List.foldlM child? part (segments back)) .null = _
  rw [parts]
  cases segmented : segments back with
  | nil => exact absurd segmented (segments_ne_nil back)
  | cons first others => split <;> rfl

/-- In the row of a group of texts every value tells its name apart from all others. -/
theorem rowField?_texts {names output : List String} (covered : output ⊆ names) (name : String) :
    (rowField? output (groupFrom names .text 0) name).map Value.ofJson
      = if name = Query.countField then some (.int 0)
        else if name ∈ output then some (if '.' ∈ name.toList then .null else .text name)
        else none := by
  by_cases dotted : '.' ∈ name.toList
  · unfold rowField?
    rw [groupValue_dotted dotted, if_pos dotted]
    split
    next => rfl
    next => split <;> rfl
  · rw [rowField?_groupFrom covered (fun _ => dotted), if_neg dotted]
    split
    next => rfl
    next => split <;> rfl

/-- Only rows with names of their own are the records that groups should be answered as, whatever
their values are. -/
theorem Records.namesRows_of_rows
    (same : ∀ valueOf size, d.ofDoc (rowOf q.rowFields (groupFrom q.groupBy valueOf size))
      = groupRecord q valueOf size) (distinct : (d.schema.fields.map (·.column)).Nodup)
    (covered : q.select ⊆ q.groupBy) : d.NamesRows q := by
  obtain ⟨r, row, fields⟩ := exists_rowRecord d q.rowFields (groupFrom q.groupBy .text 0)
  have back {name : String} {v : Value} (held : (groupRecord q .text 0).get? name = some v) :
      ∃ field, d.nameOf field = name ∧ r.get? field = some v := by
    rw [← same, row] at held
    exact Record.exists_of_get?_rename held
  have texts (name : String) := (fields name).trans
    (rowField?_texts (Query.rowFields_covered covered) name)
  have count : d.nameOf Query.countField = Query.countField := by
    have size : (groupRecord q .text 0).get? Query.countField = some (.int 0) := by
      rw [get?_groupRecord, if_pos rfl]
      rfl
    obtain ⟨field, leads, held⟩ := back size
    rw [texts] at held
    split at held
    next isCount => rw [← isCount, leads, isCount]
    next =>
      split at held
      next => split at held <;> cases held
      next => cases held
  have own {name : String} (put : name ∈ q.rowFields) (notCount : name ≠ Query.countField) :
      d.nameOf name = name ∧ '.' ∉ name.toList := by
    have text : (groupRecord q .text 0).get? name = some (.text name) := by
      rw [get?_groupRecord, if_neg notCount, if_pos put]
      rfl
    obtain ⟨field, leads, held⟩ := back text
    rw [texts] at held
    split at held
    next => cases held
    next =>
      split at held
      next =>
        split at held
        next => cases held
        next noDot =>
          cases held
          exact ⟨leads, noDot⟩
      next => cases held
  refine ⟨fun name put => (d.nameOf_eq_iff distinct name).1 ?_, fun name put => ?_⟩
  · by_cases isCount : name = Query.countField
    · rw [isCount, count]
    · exact (own ((List.mem_cons.1 put).resolve_left isCount) isCount).1
  · by_cases isCount : name = Query.countField
    · rw [isCount]
      decide
    · exact (own put isCount).2

/-! ### Queries -/

/-- Tests, order and pages keep rows and make none. -/
theorem runPipeline_lateStages_subset {c : Compiler} {tests : List Json} {degradations : List Degradation}
    (compiled : c.havingStages q = .ok (tests, degradations)) {rows outcome : List Json}
    (ran : runPipeline rows (tests ++ Compiler.pageStages q) = .ok outcome) :
    outcome ⊆ rows := by
  have parallel : Parallel (fun row : { row // row ∈ rows } => row.1) (fun row => row.1)
      (tests ++ Compiler.pageStages q) := by
    refine .append ?_ (.pages fun _ _ _ => rfl)
    unfold Compiler.havingStages at compiled
    split at compiled
    · cases compiled
      exact .nil
    · cases conjunction : c.conjunction false q.having with
      | error e =>
          rw [conjunction] at compiled
          cases compiled
      | ok own =>
          rw [conjunction] at compiled
          cases compiled
          exact .select fun _ => rfl
  obtain ⟨result, left, -⟩ := parallel rows.attach
  rw [List.attach_map_subtype_val, ran] at left
  cases result with
  | error failure => cases left
  | ok kept =>
      obtain rfl := Except.ok.inj left
      intro row member
      obtain ⟨item, -, rfl⟩ := List.mem_map.1 member
      exact item.2

/-- The key that a grouped query gives to documents. -/
def Records.groupKey (d : Records σ E) (q : Query) : Json :=
  Compiler.objectOf (q.groupBy.map fun k => (k, .text ("$" ++ d.compiler.key k)))

/-- What a grouped query reads of a document for a field. -/
def Records.readOf (d : Records σ E) (doc : Json) (name : String) : Json :=
  (lookup doc (d.compiler.key name)).getD .null

/-- A record is the row of a group: of the documents with one key among those that the conditions
select from what is seen. -/
def Records.IsRowOf (d : Records σ E) (q : Query) (seen : Outcome Collections)
    (rowOf : (String → Json) → Nat → Record) (row : Record) : Prop :=
  ∃ filter degradations cols selected text first rest,
    d.compiler.compileFilter q.conditions = .ok (filter, degradations) ∧ seen = .ok cols ∧
    select filter (Store.docsOf cols d.schema.name) = .ok selected ∧
    membersOf (d.groupKey q) selected text = first :: rest ∧
    row = rowOf (d.readOf first) (rest.length + 1)

theorem Records.query_rows {p : Part σ Store} (memory : d.client = .memory p)
    (apart : d.env.Apart p.view) (grouped : q.groupBy ≠ []) (covered : q.select ⊆ q.groupBy)
    (noSign : ∀ name ∈ q.groupBy, name.toList.head? ≠ some '$') {session : Option SessionId}
    {ctx : Context} {s : σ} {rows : List Record}
    (answered : (d.query session ctx q s).1 = .ok rows) :
    ∀ row ∈ rows, d.IsRowOf q ((p.view s).visible session)
      (fun valueOf size => d.ofDoc (rowOf q.rowFields (groupFrom q.groupBy valueOf size))) row := by
  have isGrouped : q.isGrouped = true := by simpa [Query.isGrouped] using grouped
  have noOther : q.ungroupedField? = none :=
    List.find?_eq_none.2 fun name member => by simpa using covered member
  unfold query at answered
  obtain ⟨⟨command, more⟩, compiled, answered⟩ := Action.ok_of_bind answered
  have compiled : d.compiler.compileQuery q = .ok (command, more) := compiled
  rw [d.compiler.compileQuery_grouped isGrouped noOther] at compiled
  obtain ⟨_, -, compiled⟩ := exists_of_bind compiled
  obtain ⟨⟨filter, degradations⟩, filtered, compiled⟩ := exists_of_bind compiled
  cases tested : d.compiler.havingStages q with
  | error e =>
      rw [tested] at compiled
      cases compiled
  | ok tests =>
      rw [tested] at compiled
      cases compiled
      obtain ⟨docs, called, last⟩ := Action.ok_of_bind answered
      cases last
      have native := Action.native_of_call (Prod.ext called rfl)
      rw [memory] at native
      have ran : (p.view (d.env.observe s).2).visible session >>= (fun cols =>
          runPipeline (Store.docsOf cols d.schema.name) (d.compiler.groupingStages q filter
            ++ (Compiler.rowStage true q.rowFields :: (tests.1 ++ Compiler.pageStages q))))
          = .ok docs := congrArg Prod.fst native
      rw [apart.observe] at ran
      obtain ⟨cols, seen, ran⟩ := exists_of_bind ran
      rw [runPipeline_append] at ran
      obtain ⟨groups, grouping, ran⟩ := exists_of_bind ran
      rw [runPipeline_cons, runStage_rows] at ran
      unfold Compiler.groupingStages at grouping
      rw [runPipeline_append, runPipeline_matchStage] at grouping
      obtain ⟨selected, selects, grouping⟩ := exists_of_bind grouping
      rw [runPipeline_single] at grouping
      intro row member
      obtain ⟨doc, among, rfl⟩ := List.mem_map.1 member
      obtain ⟨group, made, rfl⟩ := List.mem_map.1 (runPipeline_lateStages_subset tested ran among)
      obtain ⟨text, first, rest, members, rfl⟩ := runStage_gathered noSign grouping group made
      exact ⟨filter, degradations, cols, selected, text, first, rest, filtered, seen, selects, members, rfl⟩

/-- The requests of a repository, outside of any session, and those of a transaction. -/
inductive Records.Requests (d : Records σ E) : Option SessionId → Operations σ E → Prop
  | repository : Requests d none d.repository.toOperations
  | transaction (id : SessionId) (machine : TxState) : Requests d (some id) (d.handle id machine)

/-- Rows are made and read so that every group is answered as it should be, whatever its values
are, if and only if each name of the rows is the column of no other field and no path.  Then every
row of every such query has the fields that are selected, or grouped by, under their own names,
with the values of a group of documents, and the number of documents in it.  The values are those
that the fields are stored with wherever queries read a field where it is stored. -/
theorem grouped_rows_iff (distinct : (d.schema.fields.map (·.column)).Nodup)
    (grouped : q.groupBy ≠ []) (covered : q.select ⊆ q.groupBy) :
    ((∀ valueOf size, (runStage [groupFrom q.groupBy valueOf size]
        (Compiler.rowStage true q.rowFields)).map (List.map d.ofDoc)
          = .ok [groupRecord q valueOf size]) ↔ d.NamesRows q) ∧
    (d.NamesRows q → (∀ name ∈ q.groupBy, name.toList.head? ≠ some '$') →
      ∀ (p : Part σ Store), d.client = .memory p → d.env.Apart p.view →
      ∀ session requests, d.Requests session requests → ∀ ctx s rows,
        (requests.query ctx q s).1 = .ok rows →
        ∀ row ∈ rows, d.IsRowOf q ((p.view s).visible session) (groupRecord q) row) ∧
    (∀ name, d.IsReadable name → ∀ r, d.Declares r →
      d.readOf (d.toDoc r) name = (Records.valueOf r name).getD .null) := by
  refine ⟨⟨fun same => ?_, fun named valueOf size => ?_⟩, ?_, fun name readable r declared => ?_⟩
  · refine Records.namesRows_of_rows (fun valueOf size => ?_) distinct covered
    have made := same valueOf size
    rw [runStage_rows] at made
    exact List.singleton_inj.1 (Except.ok.inj made)
  · rw [runStage_rows]
    exact congrArg Except.ok (List.singleton_inj.2 (named.ofDoc_rowOf distinct covered valueOf size))
  · intro named noSign p memory apart session requests offered ctx s rows answered row member
    have right {t : σ} {ctx : Context} (same : p.view t = p.view s)
        (answered : (d.query session ctx q t).1 = .ok rows) :
        d.IsRowOf q ((p.view s).visible session) (groupRecord q) row := by
      have made := Records.query_rows memory apart grouped covered noSign answered row member
      rwa [funext₂ (named.ofDoc_rowOf distinct covered), same] at made
    cases offered with
    | repository =>
        obtain ⟨ctx, -, answered⟩ := Action.ok_of_bind answered
        exact right (apart.observe s) answered
    | transaction id machine =>
        have entering : Moves p.view (fun _ _ => False) (do
            Action.ofExcept machine.ensureActive
            d.effective ctx : Action σ Context) :=
          .bind (.ofExcept _) fun _ => .lift (.effective apart ctx _)
        obtain ⟨ctx, -, answered⟩ := Action.ok_of_bind answered
        exact right (entering.view_eq s) answered
  · rw [Records.readOf, Records.lookup_key readable declared]

theorem agesOfPeople_named :
    let q : Query := { groupBy := ["name", "age"], select := ["age"] }
    (people.schema.fields.map (·.column)).Nodup ∧ q.groupBy ≠ [] ∧ q.select ⊆ q.groupBy ∧
    people.NamesRows q ∧
    ∃ row, (people.repository.query .background q onePerson).1 = .ok [row] ∧
      people.IsRowOf q (onePerson.store.visible none) (groupRecord q) row := by
  intro q
  have distinct : (people.schema.fields.map (·.column)).Nodup := by decide
  have grouped : q.groupBy ≠ [] := by decide
  have covered : q.select ⊆ q.groupBy := by decide
  have named : people.NamesRows q := by
    refine ⟨fun name member => ?_, by decide⟩
    exact (people.nameOf_eq_iff distinct name).1
      ((show ∀ name ∈ Query.countField :: q.rowFields, people.nameOf name = name by decide) name member)
  have apart : people.env.Apart World.storePart.view :=
    World.environment_apart (p := .whole) fun _ _ => rfl
  obtain ⟨row, answered⟩ : ∃ row, (people.repository.query .background q onePerson).1 = .ok [row] := by
    have one : (people.repository.query .background q onePerson).1.toOption.map List.length
        = some 1 := by decide +kernel
    cases outcome : (people.repository.query .background q onePerson).1 with
    | error e =>
        rw [outcome] at one
        cases one
    | ok rows =>
        rw [outcome] at one
        obtain ⟨row, rfl⟩ := List.length_eq_one_iff.1 (Option.some.inj one)
        exact ⟨row, rfl⟩
  obtain ⟨-, rows, -⟩ := grouped_rows_iff distinct grouped covered
  exact ⟨distinct, grouped, covered, named, row, answered,
    rows named (by decide) World.storePart rfl apart none _ .repository .background onePerson [row]
      answered row List.mem_cons_self⟩

/-- Records in which one field has the column that another one is named for. -/
def crossed : Schema where
  name := "pairs"
  primaryKey := "id"
  fields :=
    [{ name := "id", column := "id", kind := .text },
      { name := "a", column := "b", kind := .text },
      { name := "b", column := "c", kind := .text }]

def onePair : World Store :=
  ((onDocuments crossed).repository.create .background
    (.object [("id", .text "1"), ("a", .text "x"), ("b", .text "y")]) ⟨.new, {}, 0⟩).2

/-- Grouped by one field, the row has the name of the other. -/
theorem crossedName_lost :
    crossed.validate = .ok () ∧ (crossed.fields.map (·.column)).Nodup ∧
    (((onDocuments crossed).repository.query .background { groupBy := ["b"] } onePair).1.toOption.map
      (List.map NameMap.names)) = some [["a", "count"]] ∧
    ¬ (onDocuments crossed).NamesRows { groupBy := ["b"] } := by
  have distinct : (crossed.fields.map (·.column)).Nodup := by decide
  refine ⟨rfl, distinct, by decide +kernel, fun named => ?_⟩
  have kept := ((onDocuments crossed).nameOf_eq_iff distinct "b").2 (named.kept "b" (by decide))
  exact absurd kept (by decide)

end Recordkeeper.Document
