import Recordkeeper.Proofs.Binary64
import Recordkeeper.Proofs.Document.Scene
import Recordkeeper.Proofs.Document.Selection
import Recordkeeper.Proofs.Document.Unique

/-!
Contract: how many documents one id addresses.

Owns:
- what the filter of an id selects;
- the ids that are told apart when documents are stored and not when they are looked up;
- that any two documents which one id addresses have such ids, after every run of repository
  requests amid the calls of everybody else.

Does not own: that ids are unique as they are stored (`Proofs.Document.Unique`).
-/

set_option autoImplicit false

namespace Recordkeeper

/-- Numbers that compare as equal with a number compare as equal with each other. -/
theorem Number.compare?_eq_of_common {m n k : Binary64} (number : k.isNaN = false)
    (first : (m.compare? k).getD .eq = .eq) (second : (n.compare? k).getD .eq = .eq) :
    (m.compare? n).getD .eq = .eq := by
  unfold Binary64.compare? at first second ⊢
  rw [number, Bool.or_false] at first second
  by_cases mNaN : m.isNaN
  · rw [mNaN]
    rfl
  · by_cases nNaN : n.isNaN
    · rw [nNaN, Bool.or_true]
      rfl
    · rw [if_neg mNaN] at first
      rw [if_neg nNaN] at second
      have mRank : m.rank = k.rank := compare_eq_iff_eq.1 first
      have nRank : n.rank = k.rank := compare_eq_iff_eq.1 second
      rw [if_neg (by simp [mNaN, nNaN]), mRank, nRank]
      exact compare_eq_iff_eq.2 rfl

namespace Document

open Store (docsOf)

/-! ### Filters of ids -/

/-- The id of a document; a missing one is null. -/
def idOf (doc : Json) : Json := (lookup doc idField).getD .null

/-- Ids that differ but that a look-up may confuse: numbers of different forms that compare as
equal, or an array, which is found by its items. -/
def confusable (a b : Json) : Bool :=
  !(a.equal b && b.equal a) &&
    (a.number?.isSome && b.number?.isSome && order a b == .eq ||
      a.items?.isSome || b.items?.isSome)

/-- The JSON form of a value that is accepted as an id is no list and no object, and no NaN. -/
inductive IsTarget : Json → Prop
  | null : IsTarget .null
  | bool (b : Bool) : IsTarget (.bool b)
  | number {n : Number} (number : n.toBinary64.isNaN = false) : IsTarget (.number n)
  | text (t : String) : IsTarget (.text t)

theorem isTarget_toJson {s : Schema} {id : Value} (accepted : s.checkId id = .ok ()) :
    IsTarget id.toJson := by
  cases id with
  | null => cases accepted
  | list items => cases accepted
  | bool b => exact .bool b
  | int n => exact .number (Binary64.isNaN_ofRatio _ _ _)
  | float x =>
      unfold Value.toJson
      split
      next finite => exact .number (Binary64.isNaN_of_finite finite)
      next => exact .null
  | text t => exact .text t
  | bytes b => exact .text _

theorem fieldMatches_target {target : Json} (fits : IsTarget target) (value : Option Json) :
    fieldMatches value target = .ok (equals value target) := by
  cases fits <;> rfl

variable {σ E : Type}

theorem Records.idFilter_matches {d : Records σ E} {id : Value} {filter : Json}
    (accepted : d.idFilter id = .ok filter) :
    IsTarget id.toJson ∧
      ∀ doc, matchesFilter doc filter = .ok (equals (lookup doc idField) id.toJson) := by
  obtain ⟨_, checked, same⟩ := exists_of_bind accepted
  cases same
  have target := isTarget_toJson checked
  refine ⟨target, fun doc => ?_⟩
  rw [matchesFilter_single (by decide)]
  exact fieldMatches_target target _

theorem select_eq_filter {filter : Json} {test : Json → Bool}
    (answers : ∀ doc, matchesFilter doc filter = .ok (test doc)) (docs : List Json) :
    select filter docs = .ok (docs.filter test) := by
  induction docs with
  | nil => rfl
  | cons doc rest inductionHypothesis =>
      unfold select
      rw [answers, inductionHypothesis, List.filter_cons]
      rfl

/-! ### Ids that one target finds -/

/-- A value that is found by a target, and is no array, compares as equal with it. -/
theorem equals_scalar {v target : Json} (found : equals (some v) target)
    (single : v.items?.isSome = false) : order v target = .eq := by
  cases v with
  | array items => cases single
  | null | bool | number | text | object =>
      simpa [equals_some, anyCandidate] using found

/-- What compares as equal with a target is the target, or both are numbers. -/
theorem order_target {v target : Json} (fits : IsTarget target) (same : order v target = .eq) :
    v = target ∨ ∃ m n, v = .number m ∧ target = .number n ∧ n.toBinary64.isNaN = false := by
  have rank : typeRank v = typeRank target := by
    by_contra differ
    rw [order_of_typeRank_ne differ] at same
    exact differ (Nat.compare_eq_eq.1 same)
  cases fits with
  | null =>
      cases v with
      | null => exact Or.inl rfl
      | bool | number | text | object | array => cases rank
  | bool b =>
      cases v with
      | bool c => exact Or.inl (congrArg Json.bool (Std.LawfulEqOrd.eq_of_compare same))
      | null | number | text | object | array => cases rank
  | number number =>
      cases v with
      | number m => exact Or.inr ⟨m, _, rfl, rfl, number⟩
      | null | bool | text | object | array => cases rank
  | text t =>
      cases v with
      | text s => exact Or.inl (congrArg Json.text (Std.LawfulEqOrd.eq_of_compare same))
      | null | bool | number | object | array => cases rank

theorem equal_target {target : Json} (fits : IsTarget target)
    (single : target.number?.isSome = false) : target.equal target = true := by
  cases fits with
  | null => rfl
  | bool b => exact beq_self_eq_true b
  | number => cases single
  | text t => exact beq_self_eq_true t

/-- Two ids that one target finds are equal, or a look-up may confuse them. -/
theorem confusable_of_target {target a b : Json} (fits : IsTarget target)
    (aFound : equals (some a) target) (bFound : equals (some b) target)
    (differ : (a.equal b && b.equal a) = false) : confusable a b := by
  unfold confusable
  rw [differ]
  cases aList : a.items?.isSome with
  | true => simp
  | false =>
      cases bList : b.items?.isSome with
      | true => simp
      | false =>
          have aSame := equals_scalar aFound aList
          have bSame := equals_scalar bFound bList
          rcases order_target fits aSame with rfl | ⟨m, k, rfl, rfl, number⟩
          · rcases order_target fits bSame with rfl | ⟨n, l, rfl, rfl, number⟩
            · cases number : b.number?.isSome with
              | true => simp [aSame]
              | false =>
                  rw [equal_target fits number] at differ
                  cases differ
            · have reversed : order (.number l) (.number n) = .eq :=
                Number.compare?_eq_of_common number aSame bSame
              simp [reversed, Json.number?]
          · rcases order_target fits bSame with rfl | ⟨n, l, rfl, same, -⟩
            · simp [aSame, Json.number?]
            · cases same
              have both : order (.number m) (.number n) = .eq :=
                Number.compare?_eq_of_common number aSame bSame
              simp [both, Json.number?]

/-- Of the documents of a collection with unique ids, one id selects at most one, or two that a
look-up may confuse. -/
theorem selected_confusable {target : Json} (fits : IsTarget target) {docs : List Json}
    (apart : Apart idField docs) (present : ∀ doc ∈ docs, (idOf doc).isNull = false) :
    let found := docs.filter fun doc => equals (lookup doc idField) target
    found.length ≤ 1 ∨ ∃ d e, [d, e].Sublist found ∧ confusable (idOf d) (idOf e) := by
  intro found
  rcases shape : found with _ | ⟨d, _ | ⟨e, rest⟩⟩
  · exact Or.inl (Nat.zero_le _)
  · exact Or.inl (Nat.le_refl _)
  · right
    have two : [d, e].Sublist (d :: e :: rest) :=
      ((List.nil_sublist rest).cons_cons e).cons_cons d
    have held {doc : Json} (member : doc ∈ d :: e :: rest) :
        ∃ v, lookup doc idField = some v ∧ v.isNull = false ∧ equals (some v) target := by
      rw [← shape] at member
      obtain ⟨inside, matched⟩ := List.mem_filter.1 member
      have hasId := present doc inside
      unfold idOf at hasId
      cases own : lookup doc idField with
      | none =>
          rw [own] at hasId
          cases hasId
      | some v =>
          rw [own] at hasId matched
          exact ⟨v, rfl, hasId, matched⟩
    obtain ⟨a, aOwn, aHeld, aFound⟩ := held List.mem_cons_self
    obtain ⟨b, bOwn, bHeld, bFound⟩ := held (List.mem_cons_of_mem _ List.mem_cons_self)
    have unshared : shares idField d e = false := by
      have pairwise := apart.sublist (two.trans (shape ▸ List.filter_sublist))
      exact List.rel_of_pairwise_cons pairwise List.mem_cons_self
    unfold shares at unshared
    rw [aOwn, bOwn] at unshared
    simp only [aHeld, Bool.not_false, Bool.true_and] at unshared
    refine ⟨d, e, two, ?_⟩
    rw [idOf, idOf, aOwn, bOwn]
    exact confusable_of_target fits aFound bFound unshared

/-! ### Runs of repository requests -/

section Runs

variable {p : Part σ Scene}

/-- The calls of anybody keep ids unique, in what is committed and in every copy. -/
theorem Throughout.asks {x y : Scene} (asked : Scene.Asks (fun _ => True) x y)
    (identified : Throughout Identified (fun _ => False) x.store) :
    Throughout Identified (fun _ => False) y.store := by
  have step {z : Scene} {call : Call} (held : Throughout Identified (fun _ => False) z.store) :
      Throughout Identified (fun _ => False) (z.act [call]).store :=
    held.step (fun op cols kept => (op.rewrites cols).identified kept) (call.does z.store)
      (fun _ _ _ _ excuse => excuse) fun _ excuse => excuse
  obtain ⟨call, -, rfl⟩ := asked
  refine step ?_
  exact Scene.yield_holds (fun z => Throughout Identified (fun _ => False) z.store)
    (fun _ held => step held) (fun _ held => held) (fun _ _ _ _ => trivial) identified

theorem Records.runAll_identified {d : Records σ E} (lawful : p.Lawful)
    (among : d.client = .among p) (apart : d.env.Apart p.view) {s : σ}
    (fresh : (p.view s).store = .new) (errands : List (Errand E)) :
    Throughout Identified (fun _ => False) (p.view (d.runAll s errands)).store := by
  have runs : d.client.Runs p.view (Scene.Asks fun _ => True) := by
    rw [among]
    exact Client.among_runs lawful fun _ => trivial
  have steps : Relation.ReflTransGen (Scene.Asks fun _ => True) (p.view s)
      (p.view (d.runAll s errands)) := runAll_moves apart runs errands s
  have start : Throughout Identified (fun _ => False) (p.view s).store := by
    rw [fresh]
    exact ⟨.empty, fun found => by cases found⟩
  generalize p.view (d.runAll s errands) = after at steps ⊢
  induction steps with
  | refl => exact start
  | tail _ asked inductionHypothesis => exact inductionHypothesis.asks asked

/-- A law that is kept throughout holds of what any caller sees. -/
theorem Throughout.visible {law : Collections → Prop} {s : Store}
    (throughout : Throughout law (fun _ => False) s) {session : Option SessionId}
    {cols : Collections} (seen : s.visible session = .ok cols) : law cols := by
  cases session with
  | none =>
      cases seen
      exact throughout.committed
  | some id =>
      unfold Store.visible at seen
      rcases found : s.sessions.lookup id with _ | _ | copy
      · simp only [found] at seen
        cases seen
      · simp only [found] at seen
        cases seen
        exact throughout.committed
      · simp only [found] at seen
        cases seen
        exact (throughout.copies found).resolve_right not_false

theorem docs_deleted {name : String} {filter : Json} {cols : Collections} {found : List Json}
    (selected : select filter (docsOf cols name) = .ok found) :
    (deleteDocs name filter cols).map Prod.fst = .ok found.length := by
  unfold deleteDocs
  unfold docsOf collectionOf at selected
  cases stored : cols.get? name with
  | none =>
      rw [stored] at selected
      cases selected
      rfl
  | some coll =>
      rw [stored] at selected
      have split := (splitAll_select filter coll.docs).1.trans selected
      rcases parts : splitAll filter coll.docs with failure | ⟨hits, others⟩
      · rw [parts] at split
        cases split
      · rw [parts] at split
        cases split
        simp only [bind, Except.bind, parts]
        rfl

/-- After any run of requests and transactions of a repository on a fresh store, amid any calls of
everybody else, the filter of an accepted id selects at most one of the documents that a caller
sees, and a deletion by it removes at most one; or two of them have ids that differ as they are
stored but that a look-up may confuse. -/
theorem Records.id_addresses_one {d : Records σ E} (lawful : p.Lawful)
    (among : d.client = .among p) (apart : d.env.Apart p.view) {s : σ}
    (fresh : (p.view s).store = .new) (errands : List (Errand E)) {id : Value} {filter : Json}
    (accepted : d.idFilter id = .ok filter) {session : Option SessionId} {cols : Collections}
    (seen : (p.view (d.runAll s errands)).store.visible session = .ok cols) :
    ∃ found, select filter (docsOf cols d.schema.name) = .ok found ∧
      (deleteDocs d.schema.name filter cols).map Prod.fst = .ok found.length ∧
      (found.length ≤ 1 ∨ ∃ a b, [a, b].Sublist found ∧ confusable (idOf a) (idOf b)) := by
  obtain ⟨target, answers⟩ := d.idFilter_matches accepted
  have identified := (d.runAll_identified lawful among apart fresh errands).visible seen
  have selected := select_eq_filter answers (docsOf cols d.schema.name)
  exact ⟨_, selected, docs_deleted selected,
    selected_confusable target (identified.enforced _).apart (identified.present _)⟩

end Runs

/-- A repository of residents, whose id the caller gives as a number. -/
def residents : Records Scene Json where
  client := .among .whole
  env := ⟨fun x => ({}, x), fun x => ("", x)⟩
  schema :=
    { name := "residents", primaryKey := "id"
      fields := [⟨"id", "id", .float, false, false⟩, ⟨"name", "name", .text, true, false⟩] }
  config := {}
  type := .anyDocument

def resident (id : Json) (name : String) : Json := .object [("id", id), ("name", .text name)]

def creating (id : Json) (name : String) : Errand Json :=
  .request (.create .background (resident id name))

def creatingTwice : List (Errand Json) :=
  [creating (.int 1) "Ada", creating (.int 2) "Bob", creating (.int 1) "Eve",
   .transaction .background
     (.request (.delete .background (.int 2)) fun _ => .finish (.error (.refused .emptyId)))]

/-- Everybody else has made no call yet and makes none. -/
def quiet : Scene := { store := .new }

theorem creatingTwice_addressed :
    Part.Lawful (.whole : Part Scene Scene) ∧ residents.client = .among .whole ∧
      residents.env.Apart (Part.whole).view ∧ quiet.store = .new ∧
      residents.idFilter (.int 1) = .ok (.single idField (.int 1)) ∧
      ∃ cols, (residents.runAll quiet creatingTwice).store.visible none = .ok cols ∧
        ∃ found, select (.single idField (.int 1)) (docsOf cols residents.schema.name) = .ok found ∧
          (deleteDocs residents.schema.name (.single idField (.int 1)) cols).map Prod.fst
            = .ok found.length ∧
          (found.length ≤ 1 ∨
            ∃ a b, [a, b].Sublist found ∧ confusable (idOf a) (idOf b)) := by
  have lawful : Part.Lawful (.whole : Part Scene Scene) := fun _ _ => rfl
  have among : residents.client = .among .whole := rfl
  have apart : residents.env.Apart (Part.whole).view := ⟨fun _ => rfl, fun _ => rfl⟩
  have accepted : residents.idFilter (.int 1) = .ok (.single idField (.int 1)) := rfl
  refine ⟨lawful, among, apart, rfl, accepted, _, rfl, ?_⟩
  exact Records.id_addresses_one lawful among apart (s := quiet) rfl creatingTwice accepted
    (show Store.visible none _ = .ok _ from rfl)

/-- The numbers 1 and 1.0 are different ids, and one deletion by the id 1 removes both records. -/
theorem wholeAndFloat_confused :
    let created := residents.runAll quiet
      [creating (.int 1) "Ada", creating (.number (.float (.ofInt 1))) "Bob"]
    let deleted := residents.run created (.request (.delete .background (.int 1)))
    (docsOf created.store.collections "residents").length = 2 ∧
      (docsOf deleted.store.collections "residents").length = 0 := by
  decide +kernel

end Document

end Recordkeeper
