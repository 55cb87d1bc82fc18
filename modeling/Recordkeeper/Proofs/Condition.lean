import Recordkeeper.KeyValue.Plan

/-!
Contract: what conditions read, and one condition under two readings of its predicates.

Owns:
- that the truth of a condition depends on the fields that it names;
- the predicates of a condition, and those below negations;
- how the truth of a condition follows that of its predicates from one reading to another;
- the definite reading, which counts what is unknown as false at every predicate;
- when the definite reading and the three-valued one select the same.

Does not own: the truth of a predicate, and who reads conditions definitely.

The three-valued reading is monotone: a known value stays when an unknown predicate is settled
somehow.  So the definite reading holds wherever the condition is true.  It can go wrong only in the
other direction, by a predicate that is unknown below an odd number of negations.
-/

set_option autoImplicit false

namespace Recordkeeper

/-! ### Truth values -/

namespace Truth

@[simp] theorem isTrue_iff (t : Truth) : t.isTrue = Bool.true ↔ t = .true := by
  cases t <;> simp [isTrue]

@[simp] theorem isTrue_ofBool (b : Bool) : (ofBool b).isTrue = b := by
  cases b <;> rfl

theorem ofBool_ne_unknown (b : Bool) : ofBool b ≠ .unknown := by
  cases b <;> simp [ofBool]

theorem and_ofBool (a b : Bool) : (ofBool a).and (ofBool b) = ofBool (a && b) := by
  cases a <;> cases b <;> rfl

theorem or_ofBool (a b : Bool) : (ofBool a).or (ofBool b) = ofBool (a || b) := by
  cases a <;> cases b <;> rfl

theorem not_ofBool (b : Bool) : (ofBool b).not = ofBool !b := by
  cases b <;> rfl

theorem foldl_and (t : Truth) (ts : List Truth) : ts.foldl and t = t.and (all ts) := by
  induction ts generalizing t with
  | nil => cases t <;> rfl
  | cons head rest inductionHypothesis =>
      rw [all, List.foldl_cons, List.foldl_cons, inductionHypothesis,
        inductionHypothesis (Truth.true.and head)]
      cases t <;> cases head <;> cases all rest <;> rfl

theorem foldl_or (t : Truth) (ts : List Truth) : ts.foldl or t = t.or (any ts) := by
  induction ts generalizing t with
  | nil => cases t <;> rfl
  | cons head rest inductionHypothesis =>
      rw [any, List.foldl_cons, List.foldl_cons, inductionHypothesis,
        inductionHypothesis (Truth.false.or head)]
      cases t <;> cases head <;> cases any rest <;> rfl

theorem all_cons (t : Truth) (ts : List Truth) : all (t :: ts) = t.and (all ts) := by
  rw [all, List.foldl_cons, foldl_and]
  cases t <;> cases all ts <;> rfl

theorem any_cons (t : Truth) (ts : List Truth) : any (t :: ts) = t.or (any ts) := by
  rw [any, List.foldl_cons, foldl_or]
  cases t <;> cases any ts <;> rfl

end Truth

namespace Condition

/-! ### Fields of a condition -/

mutual

/-- The truth of a condition depends on the fields that it names. -/
theorem truth_congr {r s : Record} (c : Condition)
    (same : ∀ name ∈ fields c, r.valueAt name = s.valueAt name) : truth r c = truth s c := by
  cases c with
  | basic p =>
      rw [truth, truth, same p.field List.mem_cons_self]
  | group logic children =>
      cases logic <;> rw [truth, truth, truths_congr children same]
  | sub q => rfl
termination_by structural c

theorem truths_congr {r s : Record} (cs : List Condition)
    (same : ∀ name ∈ fieldsOfAll cs, r.valueAt name = s.valueAt name) :
    truths r cs = truths s cs := by
  cases cs with
  | nil => rfl
  | cons c rest =>
      obtain ⟨own, others⟩ := List.forall_mem_append.1 same
      rw [truths, truths, truth_congr c own, truths_congr rest others]
termination_by structural cs

end

/-! ### Predicates of a condition -/

mutual

def predicates : Condition → List Predicate
  | .basic p => [p]
  | .group _ children => predicatesOfAll children
  | .sub _ => []
termination_by structural c => c

def predicatesOfAll : List Condition → List Predicate
  | [] => []
  | c :: rest => predicates c ++ predicatesOfAll rest
termination_by structural cs => cs

end

mutual

/-- The predicates that carry a mark, which changes by `enter` on the way into a negation. -/
def marked (enter : Bool → Bool) (mark : Bool) : Condition → List Predicate
  | .basic p => if mark then [p] else []
  | .group .not children => markedInAll enter (enter mark) children
  | .group .and children => markedInAll enter mark children
  | .group .or children => markedInAll enter mark children
  | .sub _ => []
termination_by structural c => c

def markedInAll (enter : Bool → Bool) (mark : Bool) : List Condition → List Predicate
  | [] => []
  | c :: rest => marked enter mark c ++ markedInAll enter mark rest
termination_by structural cs => cs

end

def negated (cs : List Condition) : List Predicate := markedInAll (fun _ => true) false cs

def oddlyNegated (cs : List Condition) : List Predicate := markedInAll (!·) false cs

mutual

theorem marked_subset {odd inside : Bool} (bounded : odd = true → inside = true) (c : Condition) :
    marked (!·) odd c ⊆ marked (fun _ => true) inside c := by
  cases c with
  | basic p =>
      cases odd with
      | false => exact List.nil_subset _
      | true =>
          rw [bounded rfl]
          exact List.Subset.refl _
  | group logic children =>
      cases logic with
      | not => exact markedInAll_subset (fun _ => rfl) children
      | and => exact markedInAll_subset bounded children
      | or => exact markedInAll_subset bounded children
  | sub q => exact List.nil_subset _
termination_by structural c

theorem markedInAll_subset {odd inside : Bool} (bounded : odd = true → inside = true)
    (cs : List Condition) :
    markedInAll (!·) odd cs ⊆ markedInAll (fun _ => true) inside cs := by
  cases cs with
  | nil => exact List.nil_subset _
  | cons c rest =>
      exact List.append_subset.2
        ⟨List.subset_append_of_subset_left _ (marked_subset bounded c),
          List.subset_append_of_subset_right _ (markedInAll_subset bounded rest)⟩
termination_by structural cs

end

mutual

theorem marked_subset_predicates (enter : Bool → Bool) (mark : Bool) (c : Condition) :
    marked enter mark c ⊆ predicates c := by
  cases c with
  | basic p =>
      cases mark with
      | false => exact List.nil_subset _
      | true => exact List.Subset.refl _
  | group logic children =>
      cases logic with
      | not => exact markedInAll_subset_predicates enter (enter mark) children
      | and => exact markedInAll_subset_predicates enter mark children
      | or => exact markedInAll_subset_predicates enter mark children
  | sub q => exact List.nil_subset _
termination_by structural c

theorem markedInAll_subset_predicates (enter : Bool → Bool) (mark : Bool) (cs : List Condition) :
    markedInAll enter mark cs ⊆ predicatesOfAll cs := by
  cases cs with
  | nil => exact List.nil_subset _
  | cons c rest =>
      exact List.append_subset.2
        ⟨List.subset_append_of_subset_left _ (marked_subset_predicates enter mark c),
          List.subset_append_of_subset_right _ (markedInAll_subset_predicates enter mark rest)⟩
termination_by structural cs

end

mutual

theorem validate_predicates {c : Condition} (valid : c.validate = .ok ()) :
    ∀ p ∈ predicates c, p.validate = .ok () := by
  cases c with
  | basic p =>
      intro q member
      rw [List.mem_singleton.1 member]
      exact valid
  | group logic children => exact validateAll_predicates valid
  | sub q => exact fun _ member => by cases member
termination_by structural c

theorem validateAll_predicates {cs : List Condition} (valid : validateAll cs = .ok ()) :
    ∀ p ∈ predicatesOfAll cs, p.validate = .ok () := by
  cases cs with
  | nil => exact fun _ member => by cases member
  | cons c rest =>
      rw [validateAll] at valid
      cases first : c.validate with
      | error e => rw [first] at valid; cases valid
      | ok passed =>
          rw [first] at valid
          exact List.forall_mem_append.2 ⟨validate_predicates first, validateAll_predicates valid⟩
termination_by structural cs

end

/-! ### Two readings of one condition -/

mutual

/-- The truth of a condition when `f` gives the truth of its predicates. -/
def reading (f : Predicate → Truth) : Condition → Truth
  | .basic p => f p
  | .group .and children => .all (readings f children)
  | .group .or children => .any (readings f children)
  | .group .not children => (Truth.any (readings f children)).not
  | .sub _ => .unknown
termination_by structural c => c

def readings (f : Predicate → Truth) : List Condition → List Truth
  | [] => []
  | c :: rest => reading f c :: readings f rest
termination_by structural cs => cs

end

mutual

theorem truth_eq_reading (r : Record) (c : Condition) :
    truth r c = reading (fun p => p.truthFor (r.valueAt p.field)) c := by
  cases c with
  | basic p => rfl
  | group logic children => cases logic <;> rw [truth, reading, truths_eq_readings r children]
  | sub q => rfl
termination_by structural c

theorem truths_eq_readings (r : Record) (cs : List Condition) :
    truths r cs = readings (fun p => p.truthFor (r.valueAt p.field)) cs := by
  cases cs with
  | nil => rfl
  | cons c rest =>
      rw [truths, readings, truth_eq_reading r c, truths_eq_readings r rest]
termination_by structural cs

end

/-- A second reading is true only where the first one is; below an odd number of negations it is
false only where the first one is. -/
def Reflects (odd : Bool) (first second : Truth) : Prop := second = .ofBool (!odd) → first = second

section Reflects

variable {odd : Bool} {s s' t t' : Truth}

theorem Reflects.not (inner : Reflects (!odd) s t) : Reflects odd s.not t.not := by
  revert inner
  cases odd <;> cases s <;> cases t <;> simp [Reflects, Truth.not, Truth.ofBool]

theorem Reflects.and (left : Reflects odd s t) (right : Reflects odd s' t') :
    Reflects odd (s.and s') (t.and t') := by
  revert left right
  cases odd <;> cases s <;> cases t <;> cases s' <;> cases t' <;>
    simp [Reflects, Truth.and, Truth.ofBool]

theorem Reflects.or (left : Reflects odd s t) (right : Reflects odd s' t') :
    Reflects odd (s.or s') (t.or t') := by
  revert left right
  cases odd <;> cases s <;> cases t <;> cases s' <;> cases t' <;>
    simp [Reflects, Truth.or, Truth.ofBool]

end Reflects

section Readings

variable {f g : Predicate → Truth}

mutual

/-- Connectives respect how predicates are reflected.  A negation exchanges the predicates that have to
be true with those that have to be false, so both are carried along. -/
theorem reflects_reading (odd : Bool) (c : Condition)
    (even : ∀ p ∈ marked (!·) (!odd) c, Reflects false (f p) (g p))
    (odds : ∀ p ∈ marked (!·) odd c, Reflects true (f p) (g p)) :
    Reflects odd (reading f c) (reading g c) := by
  cases c with
  | basic p =>
      cases odd with
      | false => exact even p List.mem_cons_self
      | true => exact odds p List.mem_cons_self
  | group logic children =>
      cases logic with
      | and => exact reflects_readings_all odd children even odds
      | or => exact reflects_readings_any odd children even odds
      | not => exact (reflects_readings_any (!odd) children even odds).not
  | sub q => exact fun _ => rfl
termination_by structural c

theorem reflects_readings_all (odd : Bool) (cs : List Condition)
    (even : ∀ p ∈ markedInAll (!·) (!odd) cs, Reflects false (f p) (g p))
    (odds : ∀ p ∈ markedInAll (!·) odd cs, Reflects true (f p) (g p)) :
    Reflects odd (.all (readings f cs)) (.all (readings g cs)) := by
  cases cs with
  | nil => exact fun _ => rfl
  | cons c rest =>
      obtain ⟨evenFirst, evenRest⟩ := List.forall_mem_append.1 even
      obtain ⟨oddFirst, oddRest⟩ := List.forall_mem_append.1 odds
      rw [readings, readings, Truth.all_cons, Truth.all_cons]
      exact (reflects_reading odd c evenFirst oddFirst).and
        (reflects_readings_all odd rest evenRest oddRest)
termination_by structural cs

theorem reflects_readings_any (odd : Bool) (cs : List Condition)
    (even : ∀ p ∈ markedInAll (!·) (!odd) cs, Reflects false (f p) (g p))
    (odds : ∀ p ∈ markedInAll (!·) odd cs, Reflects true (f p) (g p)) :
    Reflects odd (.any (readings f cs)) (.any (readings g cs)) := by
  cases cs with
  | nil => exact fun _ => rfl
  | cons c rest =>
      obtain ⟨evenFirst, evenRest⟩ := List.forall_mem_append.1 even
      obtain ⟨oddFirst, oddRest⟩ := List.forall_mem_append.1 odds
      rw [readings, readings, Truth.any_cons, Truth.any_cons]
      exact (reflects_reading odd c evenFirst oddFirst).or
        (reflects_readings_any odd rest evenRest oddRest)
termination_by structural cs

end

end Readings

/-! ### The definite reading -/

mutual

/-- Whether a condition holds when every predicate that is unknown counts as false. -/
def definite (r : Record) : Condition → Bool
  | .basic p => (p.truthFor (r.valueAt p.field)).isTrue
  | .group .and children => definiteAll r children
  | .group .or children => definiteAny r children
  | .group .not children => !definiteAny r children
  | .sub _ => false
termination_by structural c => c

def definiteAll (r : Record) : List Condition → Bool
  | [] => true
  | c :: rest => definite r c && definiteAll r rest
termination_by structural cs => cs

def definiteAny (r : Record) : List Condition → Bool
  | [] => false
  | c :: rest => definite r c || definiteAny r rest
termination_by structural cs => cs

end

/-- The truth of a predicate that counts as false where it is unknown. -/
def definiteTruth (r : Record) (p : Predicate) : Truth :=
  .ofBool (p.truthFor (r.valueAt p.field)).isTrue

mutual

theorem ofBool_definite (r : Record) (c : Condition) (closed : c.hasSubquery = false) :
    Truth.ofBool (definite r c) = reading (definiteTruth r) c := by
  cases c with
  | basic p => rfl
  | group logic children =>
      cases logic with
      | and => exact ofBool_definiteAll r children closed
      | or => exact ofBool_definiteAny r children closed
      | not =>
          rw [definite, reading, ← ofBool_definiteAny r children closed, Truth.not_ofBool]
  | sub q => cases closed
termination_by structural c

theorem ofBool_definiteAll (r : Record) (cs : List Condition) (closed : anySubquery cs = false) :
    Truth.ofBool (definiteAll r cs) = .all (readings (definiteTruth r) cs) := by
  cases cs with
  | nil => rfl
  | cons c rest =>
      obtain ⟨closedFirst, closedRest⟩ := Bool.or_eq_false_iff.1 closed
      rw [definiteAll, readings, Truth.all_cons, ← ofBool_definite r c closedFirst,
        ← ofBool_definiteAll r rest closedRest, Truth.and_ofBool]
termination_by structural cs

theorem ofBool_definiteAny (r : Record) (cs : List Condition) (closed : anySubquery cs = false) :
    Truth.ofBool (definiteAny r cs) = .any (readings (definiteTruth r) cs) := by
  cases cs with
  | nil => rfl
  | cons c rest =>
      obtain ⟨closedFirst, closedRest⟩ := Bool.or_eq_false_iff.1 closed
      rw [definiteAny, readings, Truth.any_cons, ← ofBool_definite r c closedFirst,
        ← ofBool_definiteAny r rest closedRest, Truth.or_ofBool]
termination_by structural cs

end

/-- No marked predicate is unknown for the record. -/
def Known (r : Record) (ps : List Predicate) : Prop :=
  ∀ p ∈ ps, p.truthFor (r.valueAt p.field) ≠ .unknown

/-- A conjunction that holds definitely is true, unless a predicate below an odd number of
negations is unknown. -/
theorem all_true_of_definiteAll {r : Record} {cs : List Condition}
    (closed : anySubquery cs = false) (known : Known r (oddlyNegated cs))
    (holds : definiteAll r cs = true) : Truth.all (truths r cs) = .true := by
  have definitely : Truth.all (readings (definiteTruth r) cs) = .true := by
    rw [← ofBool_definiteAll r cs closed, holds]
    rfl
  rw [truths_eq_readings, reflects_readings_all false cs ?_ ?_ definitely, definitely]
  · intro p _ isTrue
    rw [isTrue]
    exact (Truth.isTrue_iff _).1 ((Truth.isTrue_ofBool _).symm.trans (congrArg _ isTrue))
  · intro p member isFalse
    have settled := known p member
    revert isFalse settled
    unfold definiteTruth
    cases p.truthFor (r.valueAt p.field) <;> simp [Truth.isTrue, Truth.ofBool]

end Condition

/-! ### Plans of conditions -/

/-- The query of conditions alone is refused when its conditions are. -/
theorem KeyValue.Plan.compile_conditions {cs : List Condition}
    (closed : Condition.anySubquery cs = false) :
    KeyValue.Plan.compile { conditions := cs }
      = (Condition.validateAll cs).map fun _ =>
        { filter := cs, having := [], sort := [], limit := none, offset := none, select := [],
          groupBy := [], distinct := false } := by
  have checked : Query.validate { conditions := cs } = Condition.validateAll cs := by
    unfold Query.validate
    dsimp only
    cases Condition.validateAll cs <;> rfl
  unfold KeyValue.Plan.compile
  rw [checked]
  cases Condition.validateAll cs with
  | error e => rfl
  | ok passed =>
      show (if Condition.anySubquery cs || Condition.anySubquery [] then _ else _) = _
      rw [closed]
      rfl

end Recordkeeper
