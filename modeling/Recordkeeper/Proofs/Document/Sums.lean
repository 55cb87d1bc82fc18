import Recordkeeper.Proofs.Document.GroupRows

/-!
Contract: the sums of whole numbers that the grouping stage answers.

Owns:
- sums of 64 bits compared with sums without bounds;
- the stages that group documents, and the row of each group;
- `group_sums`: a sum of whole numbers is answered as it is exactly if it fits in 64 bits, and
  otherwise as the number of 64 bits that it wraps to.

Does not own: sums of numbers in binary64 form, and the other accumulators.
-/

set_option autoImplicit false

namespace Recordkeeper

/-! ### Whole numbers of 64 bits -/

/-- The sum of whole numbers, without bounds. -/
def total (whole : List Int64) : Int := (whole.map Int64.toInt).sum

theorem toInt_sum (whole : List Int64) : whole.sum.toInt = (total whole).bmod (2 ^ 64) := by
  induction whole with
  | nil => rfl
  | cons i rest inductionHypothesis =>
      rw [total, List.map_cons, List.sum_cons, List.sum_cons, Int64.toInt_add, inductionHypothesis,
        Int.add_bmod_bmod, total]

/-- Whole numbers in the range of 64 bits are the ones that do not wrap. -/
theorem bmod_eq_self_iff (n : Int) :
    n.bmod (2 ^ 64) = n ↔ Number.leastInt ≤ n ∧ n ≤ Number.greatestInt := by
  unfold Number.leastInt Number.greatestInt
  constructor
  · intro same
    have low := Int.le_bmod (x := n) (m := 2 ^ 64) (by decide)
    have high := Int.bmod_lt (x := n) (m := 2 ^ 64) (by decide)
    omega
  · intro ⟨low, high⟩
    exact Int.bmod_eq_of_le_mul_two (by omega) (by omega)

namespace Document

namespace Accumulator

/-- Whole numbers of 64 bits keep a sum whole. -/
theorem foldl_add_whole (whole : List Int64) (before : Int64) (x : Binary64) :
    ∃ y, (whole.map fun i => Json.int i.toInt).foldl add (.sum before x true)
      = .sum (before + whole.sum) y true := by
  induction whole generalizing before x with
  | nil => exact ⟨x, by rw [List.sum_nil, Int64.add_zero]; rfl⟩
  | cons i rest inductionHypothesis =>
      -- the binary64 sum grows too, but no value makes the accumulator answer it
      have one : (Accumulator.sum before x true).add (.int i.toInt)
          = .sum (before + i) (x.add (Number.int i.toInt).toBinary64) true := by
        have whole : (Number.int i.toInt).toInt64? = some i := by
          rw [Number.toInt64?, if_pos ⟨i.le_toInt, Int.le_of_lt_add_one i.toInt_lt⟩, Int64.ofInt_toInt]
        simp only [add, Json.int, Json.number?, whole]
      obtain ⟨y, sum⟩ := inductionHypothesis (before + i) (x.add (Number.int i.toInt).toBinary64)
      exact ⟨y, by rw [List.map_cons, List.foldl_cons, one, sum, List.sum_cons, Int64.add_assoc]⟩

end Accumulator

/-! ### Specifications -/

section Specifications

variable {name : String} {spec : Json} {parts rest : Fields} {fields : List GroupField}

/-- A part of a specification is the key or a known accumulator. -/
theorem groupFields_cons :
    groupFields ((name, spec) :: rest) = .ok fields ↔
      (name = idField ∧ groupFields rest = .ok fields) ∨
      ∃ op arg start others, name ≠ idField ∧ spec = .single op arg ∧
        Accumulator.start op = .ok start ∧ groupFields rest = .ok others ∧
        fields = ⟨name, op, arg⟩ :: others := by
  rw [groupFields.eq_def ((name, spec) :: rest)]
  dsimp only
  by_cases isId : name = "_id"
  · rw [if_pos isId]
    exact ⟨fun read => .inl ⟨isId, read⟩, fun
      | .inl ⟨_, read⟩ => read
      | .inr ⟨_, _, _, _, notId, _⟩ => absurd isId notId⟩
  · rw [if_neg isId]
    constructor
    · intro read
      split at read
      next op arg =>
        obtain ⟨start, known, read⟩ := exists_of_bind read
        obtain ⟨others, later, read⟩ := exists_of_bind read
        cases read
        exact .inr ⟨op, arg, start, others, isId, rfl, known, later, rfl⟩
      next => cases read
    · rintro (⟨same, -⟩ | ⟨op, arg, start, others, -, rfl, known, later, rfl⟩)
      · exact absurd same isId
      · show (Accumulator.start op >>= fun _ => groupFields rest >>= fun others =>
          Except.ok (_ :: others)) = _
        rw [known, later]
        rfl

/-- A specification is read if all of its parts but the key are known accumulators. -/
theorem groupFields_ok_iff :
    (∃ fields, groupFields parts = .ok fields) ↔
      ∀ name spec, (name, spec) ∈ parts → name ≠ idField →
        ∃ op arg start, spec = .single op arg ∧ Accumulator.start op = .ok start := by
  induction parts with
  | nil => exact ⟨fun _ => nofun, fun _ => ⟨[], rfl⟩⟩
  | cons part rest inductionHypothesis =>
      obtain ⟨own, body⟩ := part
      constructor
      · rintro ⟨fields, read⟩ name spec member notId
        rcases groupFields_cons.1 read with ⟨isId, later⟩ | ⟨op, arg, start, others, -, single, known, later, -⟩
        · rcases List.mem_cons.1 member with same | among
          · cases same
            exact absurd isId notId
          · exact inductionHypothesis.1 ⟨fields, later⟩ name spec among notId
        · rcases List.mem_cons.1 member with same | among
          · cases same
            exact ⟨op, arg, start, single, known⟩
          · exact inductionHypothesis.1 ⟨others, later⟩ name spec among notId
      · intro all
        obtain ⟨others, later⟩ := inductionHypothesis.2 fun name spec among =>
          all name spec (List.mem_cons_of_mem _ among)
        by_cases isId : own = idField
        · exact ⟨others, groupFields_cons.2 (.inl ⟨isId, later⟩)⟩
        · obtain ⟨op, arg, start, single, known⟩ := all own body List.mem_cons_self isId
          exact ⟨_, groupFields_cons.2 (.inr ⟨op, arg, start, others, isId, single, known, later, rfl⟩)⟩

/-- The fields of a specification are its parts but for the key, in their order. -/
theorem groupFields_parts (read : groupFields parts = .ok fields) :
    fields.map (fun f => (f.name, Json.single f.op f.arg)) = parts.filter (·.1 != idField) := by
  induction parts generalizing fields with
  | nil =>
      cases read
      rfl
  | cons part rest inductionHypothesis =>
      obtain ⟨own, body⟩ := part
      rcases groupFields_cons.1 read with ⟨isId, later⟩ | ⟨op, arg, start, others, notId, single, known, later, rfl⟩
      · rw [inductionHypothesis later, List.filter_cons_of_neg (by simp [isId])]
      · rw [List.map_cons, inductionHypothesis later, List.filter_cons_of_pos (by simp [notId]), single]

theorem mem_groupFields (read : groupFields parts = .ok fields) {op : String} {arg : Json} :
    ⟨name, op, arg⟩ ∈ fields ↔ (name, .single op arg) ∈ parts ∧ name ≠ idField := by
  have parted : (name, Json.single op arg) ∈ parts.filter (·.1 != idField)
      ↔ (name, .single op arg) ∈ parts ∧ name ≠ idField := by
    rw [List.mem_filter, bne_iff_ne]
  rw [← parted, ← groupFields_parts read]
  refine ⟨List.mem_map_of_mem (f := fun (f : GroupField) => (f.name, Json.single f.op f.arg)), fun member => ?_⟩
  obtain ⟨f, among, same⟩ := List.mem_map.1 member
  cases same
  exact among

/-- The names of the fields of a row are the key and the names of the parts. -/
theorem names_nodup (once : (parts.map Prod.fst).Nodup) (read : groupFields parts = .ok fields) :
    (idField :: fields.map (·.name)).Nodup := by
  have names : fields.map (·.name) = (parts.filter (·.1 != idField)).map Prod.fst := by
    rw [← groupFields_parts read, List.map_map]
    rfl
  rw [names, List.nodup_cons]
  refine ⟨fun member => ?_, once.sublist (List.filter_sublist.map _)⟩
  obtain ⟨part, among, isId⟩ := List.mem_map.1 member
  exact absurd isId (bne_iff_ne.1 (List.mem_filter.1 among).2)

end Specifications

/-! ### Rows -/

section Rows

variable {fields : List GroupField} {g : Group}

/-- The fields of the document of a group: its key and what its accumulators come to. -/
def Group.entries (fields : List GroupField) (g : Group) : Fields :=
  (idField, g.key) :: (fields.zip g.accumulators).map fun f => (f.1.name, f.2.finish)

theorem Group.names_entries (complete : fields.length ≤ g.accumulators.length) :
    (g.entries fields).map Prod.fst = idField :: fields.map (·.name) := by
  calc (g.entries fields).map Prod.fst
      = idField :: ((fields.zip g.accumulators).map Prod.fst).map (·.name) := by
        rw [entries, List.map_cons, List.map_map, List.map_map]
        rfl
    _ = idField :: fields.map (·.name) := by rw [List.map_fst_zip complete]

theorem Group.toDoc_eq (once : ((g.entries fields).map Prod.fst).Nodup) :
    g.toDoc fields = .object (g.entries fields) := by
  have apart : (([(idField, g.key)] ++ (fields.zip g.accumulators).map fun f =>
      (f.1.name, f.2.finish)).map Prod.fst).Nodup := once
  have set := Fields.foldl_set_nodup apart
  rw [List.foldl_map] at set
  exact congrArg Json.object set

/-- The row of a group has its key, and for every field what the values of the members come to
from where the field starts. -/
theorem Group.field?_toDoc {start : List Accumulator} {members : List Json}
    (names : (idField :: fields.map (·.name)).Nodup)
    (starts : (fields.mapM fun f => Accumulator.start f.op) = .ok start)
    (held : g.accumulators = List.zipWith (fun f s => f.accumulate s members) fields start) :
    (g.toDoc fields).field? idField = some g.key ∧
      ∀ f ∈ fields, ∃ s, Accumulator.start f.op = .ok s ∧
        (g.toDoc fields).field? f.name = some (f.accumulate s members).finish := by
  obtain ⟨length, startOf⟩ := getElem?_of_mapM starts
  have complete : g.accumulators.length = fields.length := by
    rw [held, List.length_zipWith, length, Nat.min_self]
  have once : ((g.entries fields).map Prod.fst).Nodup := by
    rwa [names_entries complete.ge]
  have shown {entry : String × Json} (member : entry ∈ g.entries fields) :
      (g.toDoc fields).field? entry.1 = some entry.2 := by
    rw [toDoc_eq once]
    exact lookup_of_mem once member
  refine ⟨shown List.mem_cons_self, fun f among => ?_⟩
  obtain ⟨i, inFields⟩ := List.getElem?_of_mem among
  obtain ⟨s, inStart, started⟩ := startOf i f inFields
  have paired : (f, f.accumulate s members) ∈ fields.zip g.accumulators := by
    refine List.mem_of_getElem? (i := i) (List.getElem?_zip_eq_some.2 ⟨inFields, ?_⟩)
    rw [held, List.getElem?_zipWith, inFields, inStart]
  exact ⟨s, started, shown (List.mem_cons_of_mem _ (List.mem_map_of_mem paired))⟩

end Rows

/-! ### Stages -/

/-- Documents that a stage can group: the parts of the stage are known accumulators, and every
document has a key and a value for each of them. -/
structure Groupable (idExpr : Json) (parts : Fields) (docs : List Json) : Prop where
  known : ∀ name spec, (name, spec) ∈ parts → name ≠ idField →
    ∃ op arg start, spec = .single op arg ∧ Accumulator.start op = .ok start
  keyed : ∀ doc ∈ docs, ∃ key, evaluate doc idExpr = .ok key
  valued : ∀ doc ∈ docs, ∀ name op arg, (name, .single op arg) ∈ parts → name ≠ idField →
    ∃ value, evaluate doc arg = .ok value

section Stages

variable {idExpr : Json} {parts : Fields} {fields : List GroupField} {docs rows : List Json}

theorem groupDocs_ok_iff {start : List Accumulator} {groups : List Group} :
    (∃ outcome, groupDocs idExpr fields start docs groups = .ok outcome) ↔
      ∀ doc ∈ docs, (∃ key, evaluate doc idExpr = .ok key) ∧
        ∃ values, (fields.mapM fun f => evaluate doc f.arg) = .ok values := by
  induction docs generalizing groups with
  | nil => exact ⟨fun _ => nofun, fun _ => ⟨groups, rfl⟩⟩
  | cons doc rest inductionHypothesis =>
      rw [List.forall_mem_cons, groupDocs]
      constructor
      · rintro ⟨outcome, made⟩
        obtain ⟨key, keyed, made⟩ := exists_of_bind made
        obtain ⟨values, evaluated, made⟩ := exists_of_bind made
        exact ⟨⟨⟨key, keyed⟩, values, evaluated⟩, inductionHypothesis.1 ⟨outcome, made⟩⟩
      · rintro ⟨⟨⟨key, keyed⟩, values, evaluated⟩, others⟩
        rw [keyed, evaluated]
        exact inductionHypothesis.2 others

theorem runStage_group (keyed : Fields.get? parts idField = some idExpr) :
    runStage docs (.single "$group" (.object parts)) = (do
      let fields ← groupFields parts
      let start ← fields.mapM fun f => Accumulator.start f.op
      let groups ← groupDocs idExpr fields start docs []
      return groups.map (Group.toDoc fields)) := by
  show groupStage docs (.object parts) = _
  unfold groupStage
  dsimp only
  rw [show Fields.get? parts "_id" = some idExpr from keyed]

/-- The groups that a stage makes, and their rows. -/
theorem exists_collected (keyed : Fields.get? parts idField = some idExpr)
    (made : runStage docs (.single "$group" (.object parts)) = .ok rows) :
    ∃ fields start groups, groupFields parts = .ok fields ∧
      (fields.mapM fun f => Accumulator.start f.op) = .ok start ∧
      groupDocs idExpr fields start docs [] = .ok groups ∧
      rows = groups.map (Group.toDoc fields) := by
  rw [runStage_group keyed] at made
  obtain ⟨fields, read, made⟩ := exists_of_bind made
  obtain ⟨start, starts, made⟩ := exists_of_bind made
  obtain ⟨groups, grouped, made⟩ := exists_of_bind made
  cases made
  exact ⟨fields, start, groups, read, starts, grouped, rfl⟩

theorem runStage_group_ok_iff (keyed : Fields.get? parts idField = some idExpr) :
    (∃ rows, runStage docs (.single "$group" (.object parts)) = .ok rows)
      ↔ Groupable idExpr parts docs := by
  constructor
  · rintro ⟨rows, made⟩
    obtain ⟨fields, start, groups, read, -, grouped, -⟩ := exists_collected keyed made
    have each := groupDocs_ok_iff.1 ⟨groups, grouped⟩
    refine ⟨groupFields_ok_iff.1 ⟨fields, read⟩, fun doc member => (each doc member).1,
      fun doc member name op arg part notId => ?_⟩
    exact exists_mapM_iff.1 (each doc member).2 _ ((mem_groupFields read).2 ⟨part, notId⟩)
  · intro groupable
    obtain ⟨fields, read⟩ := groupFields_ok_iff.2 groupable.known
    have part {f : GroupField} (member : f ∈ fields) := (mem_groupFields read).1 member
    obtain ⟨start, starts⟩ : ∃ start, (fields.mapM fun f => Accumulator.start f.op) = .ok start := by
      refine exists_mapM_iff.2 fun f member => ?_
      obtain ⟨op, arg, start, single, known⟩ := groupable.known _ _ (part member).1 (part member).2
      cases single
      exact ⟨start, known⟩
    obtain ⟨groups, grouped⟩ : ∃ groups, groupDocs idExpr fields start docs [] = .ok groups := by
      refine groupDocs_ok_iff.2 fun doc member => ⟨groupable.keyed doc member, ?_⟩
      exact exists_mapM_iff.2 fun f among =>
        groupable.valued doc member _ _ _ (part among).1 (part among).2
    refine ⟨groups.map (Group.toDoc fields), ?_⟩
    simp only [runStage_group keyed, read, starts, grouped, bind, Except.bind]
    rfl

/-! ### Sums -/

/-- Values that were all found are what is taken in. -/
theorem filterMap_evaluate {arg : Json} {values : List Json}
    (evaluated : (docs.mapM fun doc => evaluate doc arg) = .ok values) :
    (docs.filterMap fun doc => (evaluate doc arg).toOption) = values := by
  induction docs generalizing values with
  | nil =>
      cases evaluated
      rfl
  | cons doc rest inductionHypothesis =>
      rw [List.mapM_cons] at evaluated
      obtain ⟨value, own, evaluated⟩ := exists_of_bind evaluated
      obtain ⟨others, later, evaluated⟩ := exists_of_bind evaluated
      cases evaluated
      rw [List.filterMap_cons, own, inductionHypothesis later]
      rfl

/-- Whole numbers of 64 bits leave their sum in 64 bits. -/
theorem finish_accumulate_whole {f : GroupField} {start : Accumulator} {whole : List Int64}
    (sums : f.op = "$sum") (started : Accumulator.start f.op = .ok start)
    (evaluated : (docs.mapM fun doc => evaluate doc f.arg)
      = .ok (whole.map fun i => .int i.toInt)) :
    (f.accumulate start docs).finish = .int ((total whole).bmod (2 ^ 64)) := by
  rw [sums] at started
  cases started
  obtain ⟨y, sum⟩ := Accumulator.foldl_add_whole whole 0 .zero
  rw [GroupField.accumulate, filterMap_evaluate evaluated, sum, Int64.zero_add, ← toInt_sum]
  rfl

/-- The row of the documents with one text of their key: it has the key, and every sum of whole
numbers as the number of 64 bits that the sum wraps to, which is the sum exactly if that fits. -/
structure SumsUp (idExpr : Json) (parts : Fields) (docs : List Json) (text : String) (row : Json) :
    Prop where
  keyed : ∃ key, row.field? idField = some key ∧ key.render = text
  summed : ∀ name arg, (name, .single "$sum" arg) ∈ parts → name ≠ idField →
    ∀ whole : List Int64, ((membersOf idExpr docs text).mapM fun doc => evaluate doc arg)
        = .ok (whole.map fun i => .int i.toInt) →
      row.field? name = some (.int ((total whole).bmod (2 ^ 64))) ∧
        (row.field? name = some (.int (total whole)) ↔
          Number.leastInt ≤ total whole ∧ total whole ≤ Number.greatestInt)

/-- The key of a group is that of a document. -/
theorem Group.Collects.exists_keyed {start : List Accumulator} {g : Group}
    (collects : g.Collects idExpr fields start docs) :
    ∃ doc ∈ docs, evaluate doc idExpr = .ok g.key ∧ keyText? idExpr doc = some g.keyText := by
  obtain ⟨first, rest, members, own, -⟩ := collects
  have member : first ∈ membersOf idExpr docs g.keyText := by
    rw [members]
    exact List.mem_cons_self
  obtain ⟨inDocs, found⟩ := List.mem_filter.1 member
  exact ⟨first, inDocs, own, beq_iff_eq.1 found⟩

theorem sumsUp_toDoc {start : List Accumulator} {g : Group} (once : (parts.map Prod.fst).Nodup)
    (read : groupFields parts = .ok fields)
    (starts : (fields.mapM fun f => Accumulator.start f.op) = .ok start)
    (collects : g.Collects idExpr fields start docs) :
    SumsUp idExpr parts docs g.keyText (g.toDoc fields) := by
  obtain ⟨doc, -, own, found⟩ := collects.exists_keyed
  obtain ⟨first, rest, members, -, held⟩ := collects
  obtain ⟨key, fieldOf⟩ := Group.field?_toDoc (names_nodup once read) starts held
  refine ⟨⟨g.key, key, ?_⟩, fun name arg part notId whole evaluated => ?_⟩
  · rw [keyText?_of_evaluate own] at found
    exact Option.some.inj found
  · obtain ⟨s, started, shown⟩ := fieldOf ⟨name, "$sum", arg⟩ ((mem_groupFields read).2 ⟨part, notId⟩)
    rw [members] at evaluated
    rw [finish_accumulate_whole rfl started evaluated] at shown
    refine ⟨shown, ?_⟩
    rw [shown, ← bmod_eq_self_iff]
    exact ⟨fun same => by injections, fun same => by rw [same]⟩

/-- A stage groups documents if and only if it can; then it answers one row for each key, and a
sum of whole numbers of 64 bits is answered as it is if and only if it fits in 64 bits.  Otherwise
it wraps, and a different whole number is answered. -/
theorem group_sums (once : (parts.map Prod.fst).Nodup)
    (keyed : Fields.get? parts idField = some idExpr) :
    ((∃ rows, runStage docs (.single "$group" (.object parts)) = .ok rows)
        ↔ Groupable idExpr parts docs) ∧
      ∀ rows, runStage docs (.single "$group" (.object parts)) = .ok rows →
        ∃ texts : List String, texts.Nodup ∧
          (∀ text, text ∈ texts ↔ ∃ doc ∈ docs, keyText? idExpr doc = some text) ∧
          List.Forall₂ (SumsUp idExpr parts docs) texts rows := by
  refine ⟨runStage_group_ok_iff keyed, fun rows made => ?_⟩
  obtain ⟨fields, start, groups, read, starts, grouped, rfl⟩ := exists_collected keyed made
  have collected := groupDocs_collected .nil grouped
  rw [List.nil_append] at collected
  refine ⟨groups.map (·.keyText), collected.once, fun text => ⟨fun listed => ?_, ?_⟩, ?_⟩
  · obtain ⟨g, among, rfl⟩ := List.mem_map.1 listed
    obtain ⟨doc, member, -, found⟩ := (collected.each g among).exists_keyed
    exact ⟨doc, member, found⟩
  · rintro ⟨doc, member, found⟩
    obtain ⟨g, among, own⟩ := collected.known doc member
    rw [own] at found
    exact List.mem_map.2 ⟨g, among, Option.some.inj found⟩
  · rw [List.forall₂_map_left_iff, List.forall₂_map_right_iff, List.forall₂_same]
    exact fun g among => sumsUp_toDoc once read starts (collected.each g among)

end Stages

/-- All documents in one group, with the sum of a field. -/
def sumOfAll : Fields := [("_id", .null), ("sum", .single "$sum" (.text "$n"))]

def twoNumbers : List Json := [.single "n" (.int 1), .single "n" (.int 2)]

theorem twoNumbers_summed :
    (sumOfAll.map Prod.fst).Nodup ∧ Fields.get? sumOfAll idField = some .null ∧
      ∃ row, runStage twoNumbers (.single "$group" (.object sumOfAll)) = .ok [row] ∧
        SumsUp .null sumOfAll twoNumbers "null" row ∧ row.field? "sum" = some (.int 3) := by
  have once : (sumOfAll.map Prod.fst).Nodup := by decide
  have made : runStage twoNumbers (.single "$group" (.object sumOfAll))
      = .ok [.object [("_id", .null), ("sum", .int 3)]] := rfl
  obtain ⟨texts, -, known, each⟩ := (group_sums once rfl).2 _ made
  obtain ⟨text, rest, sums, none, rfl⟩ := List.forall₂_cons_right_iff.1 each
  obtain rfl := List.forall₂_nil_right_iff.1 none
  have same : text = "null" := by
    obtain ⟨doc, member, keyed⟩ := (known text).1 List.mem_cons_self
    rcases List.mem_pair.1 member with rfl | rfl <;> exact (Option.some.inj keyed).symm
  subst same
  refine ⟨once, rfl, _, made, sums, ?_⟩
  exact (sums.summed "sum" (.text "$n") (by simp [sumOfAll]) (by decide) [1, 2] rfl).2.2 (by decide)

/-- The greatest whole number of 64 bits, and one more. -/
def pastGreatest : List Json := [.single "n" (.int Number.greatestInt), .single "n" (.int 1)]

theorem pastGreatest_wraps :
    ((membersOf .null pastGreatest "null").mapM fun doc => evaluate doc (.text "$n"))
        = .ok ([Int64.maxValue, 1].map fun i => .int i.toInt) ∧
      total [Int64.maxValue, 1] = Number.greatestInt + 1 ∧
      ∃ row, runStage pastGreatest (.single "$group" (.object sumOfAll)) = .ok [row] ∧
        row.field? "sum" = some (.int Number.leastInt) :=
  ⟨rfl, by decide, _, rfl, rfl⟩

end Document

end Recordkeeper
