import Recordkeeper.Proofs.Binary64
import Recordkeeper.Proofs.Firsts
import Recordkeeper.Proofs.NameMap
import Recordkeeper.Record

/-!
Contract: equality of values, and of the fields of records.

Owns:
- that equality is symmetric and transitive, and reflexive on values without a NaN;
- records that agree in some fields, where a missing field counts as null;
- records that have the same of some fields;
- that two restricted records are equal if and only if the records agree in the fields that are left
  and have the same of them.

Does not own: where records are compared.
-/

set_option autoImplicit false

namespace Recordkeeper

theorem Binary64.numEq_iff {x y : Binary64} :
    x.numEq y ↔ x.isNaN = false ∧ y.isNaN = false ∧ x.rank = y.rank := by
  unfold numEq compare?
  cases x.isNaN <;> cases y.isNaN <;> simp

namespace Value

/-! ### Values -/

mutual

/-- A NaN, at any depth. -/
def hasNaN : Value → Bool
  | .float x => x.isNaN
  | .list items => anyNaN items
  | _ => false
termination_by structural v => v

def anyNaN : List Value → Bool
  | [] => false
  | v :: rest => hasNaN v || anyNaN rest
termination_by structural vs => vs

end

mutual

theorem equal_symm (v w : Value) (same : v.equal w) : w.equal v := by
  cases v <;> cases w <;> first | (cases same; done) | skip
  case float.float x y =>
    obtain ⟨xNumber, yNumber, ranks⟩ := Binary64.numEq_iff.1 same
    exact Binary64.numEq_iff.2 ⟨yNumber, xNumber, ranks.symm⟩
  case list.list xs ys => exact equalItems_symm xs ys same
  case null.null => rfl
  all_goals exact beq_iff_eq.2 (beq_iff_eq.1 same).symm
termination_by structural v

theorem equalItems_symm (vs ws : List Value) (same : equalItems vs ws) : equalItems ws vs := by
  match vs, ws with
  | [], [] => rfl
  | v :: vs, w :: ws =>
      rw [equalItems, Bool.and_eq_true] at same ⊢
      exact ⟨equal_symm v w same.1, equalItems_symm vs ws same.2⟩
termination_by structural vs

end

mutual

theorem equal_trans (u v w : Value) (uv : u.equal v) (vw : v.equal w) : u.equal w := by
  cases u <;> cases v <;> first | (cases uv; done) | skip
  all_goals cases w <;> first | (cases vw; done) | skip
  case float.float.float x y z =>
    obtain ⟨xNumber, -, xy⟩ := Binary64.numEq_iff.1 uv
    obtain ⟨-, zNumber, yz⟩ := Binary64.numEq_iff.1 vw
    exact Binary64.numEq_iff.2 ⟨xNumber, zNumber, xy.trans yz⟩
  case list.list.list xs ys zs => exact equalItems_trans xs ys zs uv vw
  case null.null.null => rfl
  all_goals exact beq_iff_eq.2 ((beq_iff_eq.1 uv).trans (beq_iff_eq.1 vw))
termination_by structural u

theorem equalItems_trans (us vs ws : List Value) (uv : equalItems us vs) (vw : equalItems vs ws) :
    equalItems us ws := by
  match us, vs, ws with
  | [], [], [] => rfl
  | u :: us, v :: vs, w :: ws =>
      rw [equalItems, Bool.and_eq_true] at uv vw ⊢
      exact ⟨equal_trans u v w uv.1 vw.1, equalItems_trans us vs ws uv.2 vw.2⟩
termination_by structural us

end

mutual

/-- A value is equal to itself unless a NaN is in it. -/
theorem equal_self (v : Value) (numbers : v.hasNaN = false) : v.equal v := by
  cases v with
  | float x => exact Binary64.numEq_iff.2 ⟨numbers, numbers, rfl⟩
  | list items => exact equalItems_self items numbers
  | null => rfl
  | _ => exact beq_self_eq_true _
termination_by structural v

theorem equalItems_self (vs : List Value) (numbers : anyNaN vs = false) : equalItems vs vs := by
  match vs with
  | [] => rfl
  | v :: rest =>
      obtain ⟨first, others⟩ := Bool.or_eq_false_iff.1 numbers
      exact Bool.and_eq_true_iff.2 ⟨equal_self v first, equalItems_self rest others⟩
termination_by structural vs

end

end Value

namespace Record

/-! ### Fields of two records -/

/-- The records have equal values in the fields, a missing one counting as null. -/
def agree (names : List String) (r s : Record) : Bool :=
  names.all fun name => (r.valueAt name).equal (s.valueAt name)

/-- The records have the same of the fields. -/
def SameFields (names : List String) (r s : Record) : Prop :=
  ∀ name ∈ names, (r.get? name).isSome = (s.get? name).isSome

instance (names : List String) (r s : Record) : Decidable (SameFields names r s) :=
  inferInstanceAs (Decidable (∀ name ∈ names, _))

section Agree

variable {names : List String} {r s : Record}

theorem agree_iff : agree names r s ↔ ∀ name ∈ names, (r.valueAt name).equal (s.valueAt name) :=
  List.all_eq_true

theorem sameness_agree (names : List String) : Sameness (agree names) where
  symm agreed := agree_iff.2 fun name member => Value.equal_symm _ _ (agree_iff.1 agreed name member)
  trans first second := agree_iff.2 fun name member =>
    Value.equal_trans _ _ _ (agree_iff.1 first name member) (agree_iff.1 second name member)

theorem agree_self (numbers : ∀ name ∈ names, (r.valueAt name).hasNaN = false) :
    agree names r r :=
  agree_iff.2 fun name member => Value.equal_self _ (numbers name member)

/-- Values that are compared one by one. -/
theorem equalItems_map : Value.equalItems (names.map r.valueAt) (names.map s.valueAt)
    = agree names r s := by
  induction names with
  | nil => rfl
  | cons name rest inductionHypothesis =>
      rw [List.map_cons, List.map_cons, Value.equalItems, inductionHypothesis]
      rfl

end Agree

/-! ### Equal records -/

/-- Fields are equal when both are missing or both have equal values. -/
def FieldsEqual : Option Value → Option Value → Prop := Option.Rel fun v w => v.equal w

theorem fieldsEqual_iff {v w : Option Value} :
    FieldsEqual v w ↔ (v.getD .null).equal (w.getD .null) ∧ v.isSome = w.isSome := by
  cases v with
  | none =>
      cases w with
      | none => exact ⟨fun _ => ⟨rfl, rfl⟩, fun _ => .none⟩
      | some w => exact ⟨nofun, fun same => nomatch same.2⟩
  | some v =>
      cases w with
      | none => exact ⟨nofun, fun same => nomatch same.2⟩
      | some w =>
          constructor
          · rintro (same | _)
            exact ⟨same, rfl⟩
          · exact fun same => .some same.1

/-- A name before those of all entries is not among them. -/
theorem lookup_before {name : String} {entries : List (String × Value)}
    (before : ∀ entry ∈ entries, name < entry.1) : entries.lookup name = none := by
  rw [List.lookup_eq_none_iff]
  intro entry member
  refine bne_iff_ne.2 fun same => ?_
  have less := before entry member
  rw [← same] at less
  exact String.lt_irrefl _ less

theorem lookup_before_first {name : String} {f : String × Value} {fs : List (String × Value)}
    (ordered : (f :: fs).Pairwise fun a b => a.1 < b.1) (before : name < f.1) :
    (f :: fs).lookup name = none := by
  refine lookup_before fun entry member => ?_
  rcases List.mem_cons.1 member with rfl | later
  · exact before
  · exact String.lt_trans before ((List.pairwise_cons.1 ordered).1 entry later)

theorem equalFields_iff {fs gs : List (String × Value)}
    (fsOrdered : fs.Pairwise fun a b => a.1 < b.1) (gsOrdered : gs.Pairwise fun a b => a.1 < b.1) :
    equalFields fs gs ↔ ∀ name, FieldsEqual (fs.lookup name) (gs.lookup name) := by
  induction fs generalizing gs with
  | nil =>
      cases gs with
      | nil => exact ⟨fun _ _ => .none, fun _ => rfl⟩
      | cons g gs =>
          refine ⟨nofun, fun same => ?_⟩
          have own := same g.1
          rw [lookup_cons_if, if_pos rfl] at own
          cases own
  | cons f fs inductionHypothesis =>
      obtain ⟨m, v⟩ := f
      obtain ⟨fFirst, fsRest⟩ := List.pairwise_cons.1 fsOrdered
      cases gs with
      | nil =>
          refine ⟨nofun, fun same => ?_⟩
          have own := same m
          rw [lookup_cons_if, if_pos rfl] at own
          cases own
      | cons g gs =>
          obtain ⟨n, w⟩ := g
          obtain ⟨gFirst, gsRest⟩ := List.pairwise_cons.1 gsOrdered
          rw [equalFields, Bool.and_eq_true, Bool.and_eq_true, beq_iff_eq,
            inductionHypothesis fsRest gsRest]
          constructor
          · rintro ⟨⟨rfl, same⟩, rest⟩ name
            rw [lookup_cons_if, lookup_cons_if]
            split
            · exact .some same
            · exact rest name
          · intro same
            -- The first names are least, and each of them has to be found on the other side.
            have names : m = n := by
              by_contra differ
              rcases Std.lt_trichotomy m n with less | equal | greater
              · have own := same m
                rw [lookup_cons_if, if_pos rfl, lookup_before_first gsOrdered less] at own
                cases own
              · exact differ equal
              · have own := same n
                rw [lookup_cons_if (n, w), if_pos rfl, lookup_before_first fsOrdered greater] at own
                cases own
            subst names
            have own := same m
            rw [lookup_cons_if, lookup_cons_if, if_pos rfl, if_pos rfl] at own
            refine ⟨⟨rfl, ?_⟩, fun name => ?_⟩
            · rcases own with own | _
              exact own
            · by_cases first : name = m
              · rw [first, lookup_before fFirst, lookup_before gFirst]
                exact .none
              · have later := same name
                rwa [lookup_cons_if, lookup_cons_if, if_neg first, if_neg first] at later

theorem equal_iff {r s : Record} :
    r.equal s ↔ ∀ name, FieldsEqual (r.get? name) (s.get? name) :=
  equalFields_iff r.ordered s.ordered

/-- Restricted records are equal if the records agree in what is left of them and have the same of
it. -/
theorem equal_restrict_iff {names : List String} {r s : Record} :
    (r.restrict names.contains).equal (s.restrict names.contains)
      ↔ agree names r s ∧ SameFields names r s := by
  have left (t : Record) (name : String) : (t.restrict names.contains).get? name
      = if name ∈ names then t.get? name else none := by
    rw [restrict, NameMap.get?_filter]
    by_cases member : name ∈ names
    · rw [if_pos member]
      cases t.get? name <;> simp [member]
    · rw [if_neg member]
      cases t.get? name <;> simp [member]
  rw [equal_iff, agree_iff]
  constructor
  · intro same
    have own (name : String) (member : name ∈ names) := fieldsEqual_iff.1 (by
      have found := same name
      rwa [left, left, if_pos member, if_pos member] at found)
    exact ⟨fun name member => (own name member).1, fun name member => (own name member).2⟩
  · rintro ⟨agreed, sameFields⟩ name
    rw [left, left]
    split
    next member => exact fieldsEqual_iff.2 ⟨agreed name member, sameFields name member⟩
    next => exact .none

end Record

end Recordkeeper
