import Recordkeeper.Proofs.Binary64.Order
import Recordkeeper.Proofs.Document.Agreement
import Recordkeeper.Proofs.Document.Sorting
import Recordkeeper.Proofs.KeyValue.Planning
import Recordkeeper.Proofs.KeyValue.Sorting

/-!
Contract: records and their documents arranged by the same keys.

Owns:
- the size of a number and that of the number it is rounded to, and orders of values by either;
- columns of nulls and values of one class;
- that a plan arranges the records of such columns as the store of documents does their documents,
  by rounded sizes, and by sizes as long as rounding makes no two of a column equal.

Does not own: which records there are, and columns of several classes.
-/

set_option autoImplicit false

namespace Recordkeeper

/-! ### Values -/

namespace Value

/-- The size of a number as it is. -/
def size : Value → ℚ
  | .int n => n.toInt
  | .float x => x.exact
  | _ => 0

/-- The size of the binary64 number that a number is compared by. -/
def roundedSize (v : Value) : ℚ := (v.number?.map Binary64.exact).getD 0

/-- Null comes first, booleans and texts are in their own order, and numbers are ordered by a size. -/
def orderBy (size : Value → ℚ) : Value → Value → Ordering
  | .null, .null => .eq
  | .null, _ => .lt
  | _, .null => .gt
  | .bool a, .bool b => compare a b
  | .text s, .text t => compare s t
  | v, w => compare (size v) (size w)

variable {v w : Value}

theorem orderBy_number (size : Value → ℚ) {x y : Binary64} (vNumber : v.number? = some x)
    (wNumber : w.number? = some y) : v.orderBy size w = compare (size v) (size w) := by
  cases v <;> cases vNumber <;> cases w <;> cases wNumber <;> rfl

/-- Within a class values are sorted by rounded sizes. -/
theorem sortOrder_eq_orderBy (vClass : v = .null ∨ v.isPlain) (wClass : w = .null ∨ w.isPlain)
    (same : v ≠ .null → w ≠ .null → v.sameClass w) :
    v.sortOrder w = v.orderBy roundedSize w := by
  rcases vClass with rfl | vPlain
  · rcases wClass with rfl | wPlain
    · rfl
    · rw [null_sortOrder (ne_null_of_isPlain wPlain)]
      cases w <;> first | rfl | cases wPlain
  · rcases wClass with rfl | wPlain
    · rw [sortOrder_null (ne_null_of_isPlain vPlain)]
      cases v <;> first | rfl | cases vPlain
    · rcases sameClass_cases (same (ne_null_of_isPlain vPlain) (ne_null_of_isPlain wPlain)) with
        ⟨x, y, vNumber, wNumber⟩ | ⟨a, b, rfl, rfl⟩ | ⟨s, t, rfl, rfl⟩
      · rw [sortOrder_number vNumber wNumber, Binary64.compare?_isSome
          (number?_isNaN vPlain vNumber) (number?_isNaN wPlain wNumber), Option.getD_some,
          Binary64.compare_rank, orderBy_number _ vNumber wNumber, roundedSize, vNumber,
          roundedSize, wNumber]
        rfl
      · rfl
      · rfl

/-- Rounding does not exchange two numbers. -/
theorem roundedSize_mono (vPlain : v.isPlain) (wPlain : w.isPlain) {x y : Binary64}
    (vNumber : v.number? = some x) (wNumber : w.number? = some y) (ordered : v.size ≤ w.size) :
    v.roundedSize ≤ w.roundedSize := by
  rw [roundedSize, vNumber, roundedSize, wNumber]
  show x.exact ≤ y.exact
  rw [Binary64.exact_le_iff]
  cases v with
  | int m =>
      obtain rfl := Option.some.inj vNumber
      cases w with
      | int n =>
          obtain rfl := Option.some.inj wNumber
          exact Binary64.rank_ofInt_mono (Int.cast_le.1 ordered)
      | float z =>
          obtain rfl := Option.some.inj wNumber
          exact Binary64.rank_ofInt_le wPlain ordered
      | _ => cases wNumber
  | float z =>
      obtain rfl := Option.some.inj vNumber
      cases w with
      | int n =>
          obtain rfl := Option.some.inj wNumber
          exact Binary64.le_rank_ofInt vPlain ordered
      | float z =>
          obtain rfl := Option.some.inj wNumber
          exact Binary64.exact_le_iff.1 ordered
      | _ => cases wNumber
  | _ => cases vNumber

/-- What rounding does not make equal it keeps in order. -/
theorem orderBy_rounded (vClass : v = .null ∨ v.isPlain) (wClass : w = .null ∨ w.isPlain)
    (same : v ≠ .null → w ≠ .null → v.sameClass w)
    (apart : v.roundedSize = w.roundedSize → v.size = w.size) :
    v.orderBy roundedSize w = v.orderBy size w := by
  rcases vClass with rfl | vPlain
  · cases w <;> rfl
  · rcases wClass with rfl | wPlain
    · cases v <;> rfl
    · rcases sameClass_cases (same (ne_null_of_isPlain vPlain) (ne_null_of_isPlain wPlain)) with
        ⟨x, y, vNumber, wNumber⟩ | ⟨a, b, rfl, rfl⟩ | ⟨s, t, rfl, rfl⟩
      · rw [orderBy_number _ vNumber wNumber, orderBy_number _ vNumber wNumber]
        rcases lt_trichotomy v.size w.size with less | equal | greater
        · have rounded := roundedSize_mono vPlain wPlain vNumber wNumber less.le
          have differ : v.roundedSize ≠ w.roundedSize := fun merged => less.ne (apart merged)
          rw [compare_lt_iff_lt.2 less, compare_lt_iff_lt.2 (lt_of_le_of_ne rounded differ)]
        · have rounded := le_antisymm (roundedSize_mono vPlain wPlain vNumber wNumber equal.le)
            (roundedSize_mono wPlain vPlain wNumber vNumber equal.ge)
          rw [compare_eq_iff_eq.2 equal, compare_eq_iff_eq.2 rounded]
        · have rounded := roundedSize_mono wPlain vPlain wNumber vNumber greater.le
          have differ : w.roundedSize ≠ v.roundedSize := fun merged =>
            greater.ne' (apart merged.symm)
          rw [compare_gt_iff_gt.2 greater, compare_gt_iff_gt.2 (lt_of_le_of_ne rounded differ)]
      · rfl
      · rfl

/-- Only integers of more than 53 bits are rounded. -/
theorem roundedSize_of_short (short : ∀ n, v = .int n → n.toInt.natAbs ≤ Binary64.exactLimit) :
    v.roundedSize = v.size := by
  cases v with
  | int n => exact (Binary64.exact_ofInt (short n rfl)).2
  | _ => rfl

theorem scale_of_sameClass (same : v.sameClass w) : v.scale = w.scale := by
  cases v <;> cases w <;> first | rfl | cases same

theorem isNaN_of_isPlain (plain : v.isPlain) : v.isNaN = false := by
  cases number : v.number? with
  | none => rw [isNaN, number, Option.any_none]
  | some x => rw [isNaN, number, Option.any_some, number?_isNaN plain number]

end Value

/-! ### Columns -/

namespace SortKey

/-- Order of two records by one key, in which numbers count by a size. -/
def orderBy (size : Value → ℚ) (key : SortKey) (r s : Record) : Ordering :=
  match key.direction with
  | .asc => (r.valueAt key.field).orderBy size (s.valueAt key.field)
  | .desc => (s.valueAt key.field).orderBy size (r.valueAt key.field)

/-- The values in the field of a key are nulls and plain values of one class. -/
structure OneClass (key : SortKey) (rs : List Record) : Prop where
  plain : ∀ r ∈ rs, r.valueAt key.field = .null ∨ (r.valueAt key.field).isPlain
  same : ∀ r ∈ rs, ∀ s ∈ rs, r.valueAt key.field ≠ .null → s.valueAt key.field ≠ .null →
    (r.valueAt key.field).sameClass (s.valueAt key.field)

/-- Rounding makes no two sizes equal in the field of a key. -/
def TellsApart (key : SortKey) (rs : List Record) : Prop :=
  ∀ r ∈ rs, ∀ s ∈ rs, (r.valueAt key.field).roundedSize = (s.valueAt key.field).roundedSize →
    (r.valueAt key.field).size = (s.valueAt key.field).size

variable {key : SortKey} {rs : List Record} {r s : Record}

theorem OneClass.order_eq (column : key.OneClass rs) (rMember : r ∈ rs) (sMember : s ∈ rs) :
    key.order r s = key.orderBy Value.roundedSize r s := by
  unfold order orderBy
  cases key.direction with
  | asc =>
      exact Value.sortOrder_eq_orderBy (column.plain r rMember) (column.plain s sMember)
        (column.same r rMember s sMember)
  | desc =>
      exact Value.sortOrder_eq_orderBy (column.plain s sMember) (column.plain r rMember)
        (column.same s sMember r rMember)

theorem OneClass.orderBy_rounded (column : key.OneClass rs) (apart : key.TellsApart rs)
    (rMember : r ∈ rs) (sMember : s ∈ rs) :
    key.orderBy Value.roundedSize r s = key.orderBy Value.size r s := by
  unfold orderBy
  cases key.direction with
  | asc =>
      exact Value.orderBy_rounded (column.plain r rMember) (column.plain s sMember)
        (column.same r rMember s sMember) (apart r rMember s sMember)
  | desc =>
      exact Value.orderBy_rounded (column.plain s sMember) (column.plain r rMember)
        (column.same s sMember r rMember) (apart s sMember r rMember)

theorem OneClass.preorders (column : key.OneClass rs) :
    Sorting.Preorders key.order (· ∈ rs) := by
  have onScale (scale : Value.Scale) (scales : ∀ r ∈ rs, r.valueAt key.field ≠ .null →
      (r.valueAt key.field).scale = scale) : Sorting.Preorders key.order (· ∈ rs) := by
    refine key.preorders_order (Value.consistent_of_scale fun v inside =>
      (?_ : v = .null ∨ v.scale = scale ∧ v.isNaN = false))
    obtain ⟨r, member, rfl⟩ := inside
    refine or_iff_not_imp_left.2 fun present => ⟨scales r member present, ?_⟩
    exact Value.isNaN_of_isPlain ((column.plain r member).resolve_left present)
  by_cases someValue : ∃ r ∈ rs, r.valueAt key.field ≠ .null
  · obtain ⟨r, rMember, rPresent⟩ := someValue
    exact onScale _ fun s sMember sPresent =>
      Value.scale_of_sameClass (column.same s sMember r rMember sPresent rPresent)
  · exact onScale .number fun s sMember sPresent => absurd ⟨s, sMember, sPresent⟩ someValue

theorem tellsApart_of_short (short : ∀ r ∈ rs, ∀ n, r.valueAt key.field = .int n →
    n.toInt.natAbs ≤ Binary64.exactLimit) : key.TellsApart rs := by
  intro r rMember s sMember merged
  rwa [Value.roundedSize_of_short (short r rMember), Value.roundedSize_of_short (short s sMember)]
    at merged

end SortKey

/-! ### Plans -/

namespace KeyValue.Plan

theorem sorted_eq (plan : Plan) (rs : List Record) :
    plan.sorted rs
      = rs.mergeSort fun r s => Sorting.byAll (plan.sort.map SortKey.order) r s != .gt := by
  unfold sorted
  split
  next unsorted =>
    rw [List.isEmpty_iff.1 unsorted]
    exact (List.mergeSort_of_pairwise (List.pairwise_of_forall fun _ _ => rfl)).symm
  next =>
    congr 1
    funext r s
    rw [Sorting.byAll_map]
    rfl

/-- A plan sorts records with columns of one class by rounded sizes. -/
theorem sorts_sorted (plan : Plan) {rs : List Record}
    (columns : ∀ key ∈ plan.sort, key.OneClass rs) :
    Sorting.Sorts (plan.sort.map (SortKey.orderBy Value.roundedSize)) rs (plan.sorted rs) := by
  have each : ∀ cmp ∈ plan.sort.map SortKey.order, Sorting.Preorders cmp (· ∈ rs) := by
    rw [List.forall_mem_map]
    exact fun key among => (columns key among).preorders
  rw [sorted_eq]
  exact (Sorting.sorts_mergeSort each).congr fun key among r rMember s sMember =>
    (columns key among).order_eq rMember sMember

end KeyValue.Plan

/-! ### Documents -/

namespace Document

variable {σ E : Type} (d : Records σ E) {keys : List SortKey} {rs : List Record}

theorem Records.gives_toDoc (plain : d.schema.IsPlain) {r : Record}
    (keeps : r.KeepsColumns d.schema) (declared : ∀ key ∈ keys, (d.schema.field? key.field).isSome)
    (values : ∀ key ∈ keys, r.valueAt key.field = .null ∨ (r.valueAt key.field).isPlain) :
    Gives d.compiler.key keys (d.toDoc r) r := by
  intro key among
  refine ⟨?_, values key among⟩
  rw [d.lookup_toDoc plain keeps (declared key among), Record.valueAt]
  cases r.get? key.field <;> rfl

/-- Documents are arranged by the paths of keys as a plan arranges their records by the keys. -/
theorem Records.sortDocs_toDoc (plan : KeyValue.Plan) (plain : d.schema.IsPlain)
    (keeps : ∀ r ∈ rs, r.KeepsColumns d.schema)
    (declared : ∀ key ∈ plan.sort, (d.schema.field? key.field).isSome)
    (columns : ∀ key ∈ plan.sort, key.OneClass rs) :
    sortDocs (plan.sort.map fun key => (d.compiler.key key.field, key.direction == .desc))
      (rs.map d.toDoc) = (plan.sorted rs).map d.toDoc := by
  have gives (r : Record) (member : r ∈ rs) : Gives d.compiler.key plan.sort (d.toDoc r) r :=
    d.gives_toDoc plain (keeps r member) declared fun key among =>
      (columns key among).plain r member
  rw [plan.sorted_eq, sortDocs]
  refine (List.map_mergeSort fun r rMember s sMember => ?_).symm
  rw [orderByPaths_map (gives r rMember) (gives s sMember) fun key among =>
    (columns key among).same r rMember s sMember, Sorting.byAll_map]
  rfl

/-- What the look-up of a query sorts by. -/
theorem Compiler.sort_of_find {c : Compiler} {q : Query} {filter : Json} {options : FindOptions}
    {degradations : List Degradation}
    (compiled : c.compileQuery q = .ok (.find filter options, degradations)) :
    options.sort = q.sort.map fun key => (c.key key.field, key.direction == .desc) := by
  unfold compileQuery at compiled
  cases supported : checkSupported q with
  | error e =>
      rw [supported] at compiled
      cases compiled
  | ok passed =>
      rw [supported] at compiled
      cases selected : c.compileFilter q.conditions with
      | error e =>
          rw [selected] at compiled
          cases compiled
      | ok found =>
          rw [selected] at compiled
          simp only [bind, Except.bind] at compiled
          split at compiled
          · cases stages : c.pipeline q found.1 true <;> rw [stages] at compiled <;> cases compiled
          · cases compiled
            rfl

end Document

/-- A plan and a store of documents arrange the records of columns of one class alike: as the keys
say if numbers count by rounded sizes, and as they say by sizes themselves if rounding makes no two
of a column equal.  Nulls and missing values come first in ascending order, and what no key tells
apart keeps its place. -/
theorem records_arranged_alike {σ E : Type} (d : Document.Records σ E) (plain : d.schema.IsPlain)
    {keys : List SortKey} {rs : List Record} (keeps : ∀ r ∈ rs, r.KeepsColumns d.schema)
    (declared : ∀ key ∈ keys, (d.schema.field? key.field).isSome)
    (columns : ∀ key ∈ keys, key.OneClass rs) :
    (∃ filter options plan,
      d.compiler.compileQuery { sort := keys } = .ok (.find filter options, []) ∧
      KeyValue.Plan.compile { sort := keys } = .ok plan) ∧
    ∀ (q : Query) (filter : Json) (options : Document.FindOptions)
      (degradations : List Document.Degradation) (plan : KeyValue.Plan), q.sort = keys →
      d.compiler.compileQuery q = .ok (.find filter options, degradations) →
      KeyValue.Plan.compile q = .ok plan →
      Document.sortDocs options.sort (rs.map d.toDoc) = (plan.sorted rs).map d.toDoc ∧
      Sorting.Sorts (keys.map (SortKey.orderBy Value.roundedSize)) rs (plan.sorted rs) ∧
      ((∀ key ∈ keys, key.TellsApart rs) →
        Sorting.Sorts (keys.map (SortKey.orderBy Value.size)) rs (plan.sorted rs)) := by
  refine ⟨⟨_, _, _, rfl, rfl⟩, ?_⟩
  rintro q filter options degradations plan rfl compiled planned
  obtain rfl := KeyValue.Plan.eq_ofQuery planned
  have sorts := (KeyValue.Plan.ofQuery q).sorts_sorted columns
  rw [Document.Compiler.sort_of_find compiled]
  refine ⟨d.sortDocs_toDoc (.ofQuery q) plain keeps declared columns, sorts, fun apart => ?_⟩
  exact sorts.congr fun key among r rMember s sMember =>
    (columns key among).orderBy_rounded (apart key among) rMember sMember

/-! ### People by their ages -/

namespace Document

theorem person_oneClass {rs : List Record} (persons : ∀ r ∈ rs, ∃ name age, r = person name age)
    {field : String} (known : field = "age" ∨ field = "name") (direction : Direction) :
    SortKey.OneClass ⟨field, direction⟩ rs := by
  have shown (r : Record) (member : r ∈ rs) : r.valueAt field = .null ∨
      (∃ n, r.valueAt field = .int n ∧ field = "age") ∨
      ∃ s, r.valueAt field = .text s ∧ field = "name" := by
    obtain ⟨name, age, rfl⟩ := persons r member
    rcases known with rfl | rfl
    · cases age with
      | none => exact Or.inl rfl
      | some n => exact Or.inr (Or.inl ⟨n, rfl, rfl⟩)
    · cases age <;> exact Or.inr (Or.inr ⟨name, rfl, rfl⟩)
  constructor
  · intro r member
    dsimp only
    rcases shown r member with null | ⟨n, whole, -⟩ | ⟨s, text, -⟩
    · exact Or.inl null
    · exact Or.inr (whole ▸ rfl)
    · exact Or.inr (text ▸ rfl)
  · intro r rMember s sMember rPresent sPresent
    dsimp only at rPresent sPresent ⊢
    rcases shown r rMember with null | ⟨m, rWhole, isAge⟩ | ⟨t, rText, isName⟩
    · exact absurd null rPresent
    · rcases shown s sMember with null | ⟨n, sWhole, -⟩ | ⟨t, -, isName⟩
      · exact absurd null sPresent
      · rw [rWhole, sWhole]
        rfl
      · exact absurd (isAge.symm.trans isName) (by decide)
    · rcases shown s sMember with null | ⟨n, -, isAge⟩ | ⟨u, sText, -⟩
      · exact absurd null sPresent
      · exact absurd (isAge.symm.trans isName) (by decide)
      · rw [rText, sText]
        rfl

end Document

/-- Of three people two are of one age, and that of the third is missing: the oldest come first, by
their names, and the missing age comes last. -/
theorem oldestFirst_arranged :
    let keys : List SortKey := [⟨"age", .desc⟩, ⟨"name", .asc⟩]
    let bob := Document.person "Bob" (some 36)
    let cyd := Document.person "Cyd" none
    let ada := Document.person "Ada" (some 36)
    ∃ filter options plan,
      Document.people.compiler.compileQuery { sort := keys } = .ok (.find filter options, []) ∧
      KeyValue.Plan.compile { sort := keys } = .ok plan ∧
      plan.sorted [bob, cyd, ada] = [ada, bob, cyd] ∧
      Document.sortDocs options.sort ([bob, cyd, ada].map Document.people.toDoc)
        = [ada, bob, cyd].map Document.people.toDoc ∧
      Sorting.Sorts (keys.map (SortKey.orderBy Value.size)) [bob, cyd, ada] [ada, bob, cyd] := by
  intro keys bob cyd ada
  have persons : ∀ r ∈ [bob, cyd, ada], ∃ name age, r = Document.person name age := by
    simp only [List.forall_mem_cons]
    exact ⟨⟨_, _, rfl⟩, ⟨_, _, rfl⟩, ⟨_, _, rfl⟩, nofun⟩
  have keeps : ∀ r ∈ [bob, cyd, ada], r.KeepsColumns Document.people.schema := by
    intro r member
    obtain ⟨name, age, rfl⟩ := persons r member
    exact Document.person_keepsColumns name age
  have declared : ∀ key ∈ keys, (Document.people.schema.field? key.field).isSome := by decide
  have columns : ∀ key ∈ keys, key.OneClass [bob, cyd, ada] := by
    simp only [keys, List.forall_mem_cons]
    exact ⟨Document.person_oneClass persons (Or.inl rfl) _,
      Document.person_oneClass persons (Or.inr rfl) _, nofun⟩
  have apart : ∀ key ∈ keys, key.TellsApart [bob, cyd, ada] := by
    have age (r : Record) (member : r ∈ [bob, cyd, ada]) :
        r.valueAt "age" = .int 36 ∨ r.valueAt "age" = .null := by
      simp only [List.mem_cons, List.not_mem_nil, or_false] at member
      rcases member with rfl | rfl | rfl <;> first | exact Or.inl rfl | exact Or.inr rfl
    have name (r : Record) (member : r ∈ [bob, cyd, ada]) : ∃ s, r.valueAt "name" = .text s := by
      simp only [List.mem_cons, List.not_mem_nil, or_false] at member
      rcases member with rfl | rfl | rfl <;> exact ⟨_, rfl⟩
    simp only [keys, List.forall_mem_cons]
    refine ⟨SortKey.tellsApart_of_short fun r member n held => ?_,
      SortKey.tellsApart_of_short fun r member n held => ?_, nofun⟩
    · rcases age r member with whole | null
      · cases whole.symm.trans held
        decide
      · cases null.symm.trans held
    · obtain ⟨s, text⟩ := name r member
      cases text.symm.trans held
  obtain ⟨⟨filter, options, plan, compiled, planned⟩, arranged⟩ :=
    records_arranged_alike Document.people Document.people_isPlain keeps declared columns
  obtain ⟨docs, -, sorts⟩ := arranged _ filter options [] plan rfl compiled planned
  have answer : plan.sorted [bob, cyd, ada] = [ada, bob, cyd] := by
    obtain rfl := KeyValue.Plan.eq_ofQuery planned
    have cydLast : SortKey.orderAll keys bob cyd = .lt := by decide
    have adaFirst : SortKey.orderAll keys bob ada = .gt := by decide
    simp [KeyValue.Plan.sorted, KeyValue.Plan.ofQuery, keys, List.mergeSort,
      List.MergeSort.Internal.splitInTwo, cydLast, adaFirst]
  rw [answer] at docs sorts
  exact ⟨filter, options, plan, compiled, planned, answer, docs, sorts apart⟩

/-- Two people whose ages are rounded to one number keep their places, though the first of them is
older. -/
theorem neighbouringAges_unsorted :
    let key : SortKey := ⟨"age", .asc⟩
    let ada := Document.person "Ada" (some 9007199254740993)
    let bob := Document.person "Bob" (some 9007199254740992)
    Document.people.schema.IsPlain ∧
    (∀ r ∈ [ada, bob], r.KeepsColumns Document.people.schema) ∧
    (Document.people.schema.field? key.field).isSome ∧ key.OneClass [ada, bob] ∧
    (∃ filter options plan,
      Document.people.compiler.compileQuery { sort := [key] } = .ok (.find filter options, []) ∧
      KeyValue.Plan.compile { sort := [key] } = .ok plan ∧ plan.sorted [ada, bob] = [ada, bob] ∧
      Document.sortDocs options.sort ([ada, bob].map Document.people.toDoc)
        = [ada, bob].map Document.people.toDoc) ∧
    key.orderBy Value.size ada bob = .gt ∧
    ¬Sorting.Sorts [key.orderBy Value.size] [ada, bob] [ada, bob] := by
  intro key ada bob
  have persons : ∀ r ∈ [ada, bob], ∃ name age, r = Document.person name age := by
    simp only [List.forall_mem_cons]
    exact ⟨⟨_, _, rfl⟩, ⟨_, _, rfl⟩, nofun⟩
  have keeps : ∀ r ∈ [ada, bob], r.KeepsColumns Document.people.schema := by
    intro r member
    obtain ⟨name, age, rfl⟩ := persons r member
    exact Document.person_keepsColumns name age
  have declared : (Document.people.schema.field? key.field).isSome := by decide
  have column : key.OneClass [ada, bob] := Document.person_oneClass persons (Or.inl rfl) _
  have unsorted : (KeyValue.Plan.ofQuery { sort := [key] }).sorted [ada, bob] = [ada, bob] := by
    have tied : SortKey.orderAll [key] ada bob = .eq := by decide
    simp [KeyValue.Plan.sorted, KeyValue.Plan.ofQuery, List.mergeSort,
      List.MergeSort.Internal.splitInTwo, tied]
  have docs := Document.people.sortDocs_toDoc (.ofQuery { sort := [key] }) Document.people_isPlain
    keeps (fun _ member => List.mem_singleton.1 member ▸ declared)
    fun _ member => List.mem_singleton.1 member ▸ column
  rw [unsorted] at docs
  have older : key.orderBy Value.size ada bob = .gt := by
    show compare ((9007199254740993 : Int64).toInt : ℚ) ((9007199254740992 : Int64).toInt : ℚ) = .gt
    rw [compare_gt_iff_gt, Int.cast_lt]
    decide
  refine ⟨Document.people_isPlain, keeps, declared, column, ⟨_, _, _, rfl, rfl, unsorted, docs⟩,
    older, fun sorts => ?_⟩
  have ordered := Sorting.isLE_byAll.2
    ((List.pairwise_cons.1 sorts.inOrder).1 bob (List.mem_singleton_self bob))
  rw [Sorting.byAll_cons, older] at ordered
  cases ordered

end Recordkeeper
