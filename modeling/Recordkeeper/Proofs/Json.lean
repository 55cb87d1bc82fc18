import Recordkeeper.Json.Basic
import Recordkeeper.Proofs.Lookup
import Mathlib.Data.List.Perm.Subperm

/-!
Contract: equality of documents.

Owns:
- documents whose objects repeat no field, and a field that is set for the first time;
- the symmetry of equality on them.

Does not own: where documents are compared.
-/

set_option autoImplicit false

namespace Recordkeeper

theorem Number.equal_symm {m n : Number} (same : m.equal n) : n.equal m := by
  cases m with
  | int a =>
      cases n with
      | int b => exact beq_iff_eq.2 (beq_iff_eq.1 same).symm
      | float y => cases same
  | float x =>
      cases n with
      | int b => cases same
      | float y =>
          simp only [equal, Binary64.numEq, Binary64.compare?, beq_iff_eq] at same ⊢
          split at same
          next => cases same
          next numbers =>
            rw [if_neg (by rwa [Bool.or_comm])]
            have ranks : x.rank = y.rank := Std.LawfulEqCmp.compare_eq_iff_eq.1 (Option.some.inj same)
            exact congrArg some (Std.LawfulEqCmp.compare_eq_iff_eq.2 ranks.symm)

/-- A new field goes to the end. -/
theorem Fields.insert_new {fields : Fields} {name : String} (new : name ∉ fields.map Prod.fst)
    (value : Json) : fields.insert name value = fields ++ [(name, value)] := by
  induction fields with
  | nil => rfl
  | cons entry rest inductionHypothesis =>
      rw [List.map_cons, List.mem_cons, not_or] at new
      rw [insert, if_neg (Ne.symm new.1), inductionHypothesis new.2]
      rfl

namespace Json

mutual

/-- No object inside a document repeats a field, as in every document that was read from text. -/
def fieldsOnce : Json → Bool
  | .array items => itemsFieldsOnce items
  | .object fields => decide (fields.map Prod.fst).Nodup && valuesFieldsOnce fields
  | _ => true
termination_by structural x => x

def itemsFieldsOnce : List Json → Bool
  | [] => true
  | x :: xs => fieldsOnce x && itemsFieldsOnce xs
termination_by structural x => x

def valuesFieldsOnce : List (String × Json) → Bool
  | [] => true
  | (_, v) :: rest => fieldsOnce v && valuesFieldsOnce rest
termination_by structural x => x

end

theorem itemsFieldsOnce_mem {items : List Json} (once : itemsFieldsOnce items) {x : Json}
    (member : x ∈ items) : x.fieldsOnce := by
  induction items with
  | nil => cases member
  | cons first rest inductionHypothesis =>
      rw [itemsFieldsOnce, Bool.and_eq_true] at once
      rcases List.mem_cons.1 member with rfl | later
      · exact once.1
      · exact inductionHypothesis once.2 later

theorem valuesFieldsOnce_mem {fields : Fields} (once : valuesFieldsOnce fields)
    {entry : String × Json} (member : entry ∈ fields) : entry.2.fieldsOnce := by
  induction fields with
  | nil => cases member
  | cons first rest inductionHypothesis =>
      obtain ⟨name, v⟩ := first
      rw [valuesFieldsOnce, Bool.and_eq_true] at once
      rcases List.mem_cons.1 member with rfl | later
      · exact once.1
      · exact inductionHypothesis once.2 later

theorem equalFields_iff {fs gs : Fields} :
    equalFields fs gs ↔ ∀ entry ∈ fs, ∃ w, gs.lookup entry.1 = some w ∧ entry.2.equal w := by
  induction fs with
  | nil => simp [equalFields]
  | cons first rest inductionHypothesis =>
      obtain ⟨name, v⟩ := first
      rw [equalFields, Bool.and_eq_true, inductionHypothesis, List.forall_mem_cons]
      refine and_congr_left fun _ => ?_
      cases gs.lookup name with
      | none => simp
      | some w => simp

/-- As many fields on both sides: every field of the second is one of the first, so that a look-up
in the first finds it too. -/
theorem equalFields_symm {fs gs : Fields} (fsOnce : (fs.map Prod.fst).Nodup)
    (gsOnce : (gs.map Prod.fst).Nodup) (count : fs.length = gs.length)
    (values : ∀ f ∈ fs, ∀ g ∈ gs, f.2.equal g.2 → g.2.equal f.2)
    (same : equalFields fs gs) : equalFields gs fs := by
  rw [equalFields_iff] at same ⊢
  have found (f : String × Json) (member : f ∈ fs) :
      ∃ g ∈ gs, g.1 = f.1 ∧ f.2.equal g.2 := by
    obtain ⟨w, held, equal⟩ := same f member
    obtain ⟨front, back, entries, -⟩ := List.lookup_eq_some_iff.1 held
    refine ⟨(f.1, w), ?_, rfl, equal⟩
    rw [entries]
    exact List.mem_append_right _ List.mem_cons_self
  have names : fs.map Prod.fst ⊆ gs.map Prod.fst := by
    intro name member
    obtain ⟨f, fMember, rfl⟩ := List.mem_map.1 member
    obtain ⟨g, gMember, own, -⟩ := found f fMember
    exact own ▸ List.mem_map_of_mem gMember
  have permuted : (fs.map Prod.fst).Perm (gs.map Prod.fst) :=
    (List.subperm_of_subset fsOnce names).perm_of_length_le (by simp [count])
  intro g member
  obtain ⟨f, fMember, own⟩ := List.mem_map.1 (permuted.mem_iff.2 (List.mem_map_of_mem member))
  obtain ⟨h, hMember, hOwn, equal⟩ := found f fMember
  have hSame : h = g := by
    have twice := lookup_of_mem gsOnce hMember
    rw [hOwn, own, lookup_of_mem gsOnce member] at twice
    exact Prod.ext (hOwn.trans own) (Option.some.inj twice).symm
  refine ⟨f.2, ?_, values f fMember g member (hSame ▸ equal)⟩
  rw [← own]
  exact lookup_of_mem fsOnce fMember

mutual

/-- Equality is symmetric where no object repeats a field.  A repeated one would be compared with
the first only. -/
theorem equal_symm (v w : Json) (vOnce : v.fieldsOnce) (wOnce : w.fieldsOnce)
    (same : v.equal w) : w.equal v := by
  match v, w with
  | .null, .null => rfl
  | .bool a, .bool b => exact beq_iff_eq.2 (beq_iff_eq.1 same).symm
  | .number m, .number n => exact Number.equal_symm same
  | .text s, .text t => exact beq_iff_eq.2 (beq_iff_eq.1 same).symm
  | .array xs, .array ys => exact equalItems_symm xs ys vOnce wOnce same
  | .object fs, .object gs =>
      rw [fieldsOnce, Bool.and_eq_true, decide_eq_true_eq] at vOnce wOnce
      rw [equal, Bool.and_eq_true, beq_iff_eq] at same ⊢
      refine ⟨same.1.symm, equalFields_symm vOnce.1 wOnce.1 same.1 ?_ same.2⟩
      intro f fMember g gMember
      exact equal_symm f.2 g.2 (valuesFieldsOnce_mem vOnce.2 fMember)
        (valuesFieldsOnce_mem wOnce.2 gMember)
termination_by sizeOf v
decreasing_by
  · simp
  · have smaller := List.sizeOf_lt_of_mem fMember
    obtain ⟨name, value⟩ := f
    simp at smaller ⊢
    omega

theorem equalItems_symm (xs ys : List Json) (xsOnce : itemsFieldsOnce xs)
    (ysOnce : itemsFieldsOnce ys) (same : equalItems xs ys) : equalItems ys xs := by
  match xs, ys with
  | [], [] => rfl
  | x :: xs, y :: ys =>
      rw [itemsFieldsOnce, Bool.and_eq_true] at xsOnce ysOnce
      rw [equalItems, Bool.and_eq_true] at same ⊢
      exact ⟨equal_symm x y xsOnce.1 ysOnce.1 same.1,
        equalItems_symm xs ys xsOnce.2 ysOnce.2 same.2⟩
termination_by sizeOf xs

end

end Json

end Recordkeeper
