import Mathlib.Data.List.TakeWhile
import Recordkeeper.Engine.Scalar
import Recordkeeper.Proofs.Condition
import Recordkeeper.Proofs.Engine.Content
import Recordkeeper.Proofs.Pattern.Like
import Recordkeeper.Proofs.Value
import Recordkeeper.Relational.Binding
import Recordkeeper.Relational.Compiler

/-!
Contract: what the engine's operators make of bound values.

Owns:
- values that lose nothing as cells, and affinities that leave them alone;
- the truth a cell counts as, under the connectives of the engine;
- comparisons, memberships and patterns on bound values.

Does not own: terms and rows.
-/

set_option autoImplicit false

namespace Recordkeeper

open Sql Relational

/-! ### Values as cells -/

namespace Value

/-- Values that a cell holds as they are: the numbers are exact, and no text has a zero in it, at
which patterns end. -/
def IsExact : Value → Prop
  | .null | .bool _ => True
  | .int n => n.toInt.natAbs ≤ Binary64.exactLimit
  | .text s => ∀ c ∈ s.toList, c.toNat ≠ 0
  | _ => False

instance (v : Value) : Decidable v.IsExact :=
  match v with
  | .null => isTrue trivial
  | .bool _ => isTrue trivial
  | .int n => inferInstanceAs (Decidable (n.toInt.natAbs ≤ Binary64.exactLimit))
  | .text s => List.decidableBAll (fun c : Char => c.toNat ≠ 0) s.toList
  | .float _ | .bytes _ | .list _ => isFalse id

/-- An affinity that leaves the cell of a value alone: texts do not become numbers in a column, nor
numbers texts. -/
def Keeps (affinity : Option Affinity) : Value → Prop
  | .null => True
  | .text _ => ∀ a ∈ affinity, a.isNumeric = false
  | _ => affinity ≠ some .text

variable {v o : Value} {affinity : Option Affinity}

/-- Exact values of one class are ordered as their cells are. -/
theorem compare?_bind (vExact : v.IsExact) (oExact : o.IsExact) (same : v.sameClass o) :
    v.compare? o = some ((bind v).order (bind o)) := by
  cases v <;> cases o <;> cases same
  case bool.bool a b => cases a <;> cases b <;> rfl
  case int.int m n => exact Binary64.compare?_ofInt vExact oExact
  case text.text s t => rfl
  case int.float m y => cases oExact
  case float.int x n => cases vExact
  case float.float x y => cases vExact

theorem isNull_bind (vExact : v.IsExact) : (bind v).isNull = v.isNull := by
  cases v <;> first | rfl | cases vExact

theorem isNull_of_sameClass (same : v.sameClass o) : v.isNull = false ∧ o.isNull = false := by
  cases v <;> cases o <;> cases same <;> exact ⟨rfl, rfl⟩

theorem comparable_of_sameClass (vExact : v.IsExact) (oExact : o.IsExact) (same : v.sameClass o) :
    v.Comparable o := by
  cases v <;> cases o <;> cases same
  case bool.bool a b => trivial
  case int.int m n => exact ⟨vExact, oExact⟩
  case text.text s t => trivial
  case int.float m y => cases oExact
  case float.int x n => cases vExact
  case float.float x y => cases vExact

/-- Under an affinity that leaves a value alone, it is compared as it is. -/
theorem operands_bind (keeps : Keeps affinity v) (vExact : v.IsExact) (same : v.sameClass o)
    (oExact : o.IsExact) : Affinity.operands affinity (bind v) (bind o) = (bind v, bind o) := by
  cases v <;> cases o <;> cases same
  case bool.bool a b => rcases affinity with _ | _ | _ | _ | _ | _ <;> rfl
  case int.int m n => rcases affinity with _ | _ | _ | _ | _ | _ <;> rfl
  case text.text s t =>
    rcases affinity with _ | _ | _ | _ | _ | _
    · rfl
    · rfl
    · rfl
    · cases keeps _ rfl
    · cases keeps _ rfl
    · cases keeps _ rfl
  case int.float m y => cases oExact
  case float.int x n => cases vExact
  case float.float x y => cases vExact

end Value

/-! ### Truth of a cell -/

namespace Engine

def truthOf (c : Cell) : Truth :=
  match c.truth? with
  | some b => .ofBool b
  | none => .unknown

@[simp] theorem truthOf_null : truthOf .null = .unknown := rfl

@[simp] theorem truthOf_ofBool (b : Bool) : truthOf (.ofBool b) = .ofBool b := by
  cases b <;> rfl

theorem truthOf_notCell (c : Cell) : truthOf (notCell c) = (truthOf c).not := by
  unfold truthOf notCell
  cases c.truth? with
  | none => rfl
  | some b => cases b <;> rfl

theorem truthOf_andCell (a b : Cell) : truthOf (andCell a b) = (truthOf a).and (truthOf b) := by
  unfold truthOf andCell
  rcases a.truth? with _ | _ | _ <;> rcases b.truth? with _ | _ | _ <;> rfl

theorem truthOf_orCell (a b : Cell) : truthOf (orCell a b) = (truthOf a).or (truthOf b) := by
  unfold truthOf orCell
  rcases a.truth? with _ | _ | _ <;> rcases b.truth? with _ | _ | _ <;> rfl

/-- The truth of a conjunction, which leaves its right side out when the left one is false. -/
theorem truthOf_and (a b : Cell) :
    truthOf (if a.truth? == some false then .ofBool false else andCell a b)
      = (truthOf a).and (truthOf b) := by
  by_cases false : a.truth? == some .false
  · rw [if_pos false]
    unfold truthOf
    rw [eq_of_beq false]
    rfl
  · rw [if_neg false, truthOf_andCell]

theorem truthOf_or (a b : Cell) :
    truthOf (if a.truth? == some true then .ofBool true else orCell a b)
      = (truthOf a).or (truthOf b) := by
  by_cases true : a.truth? == some .true
  · rw [if_pos true]
    unfold truthOf
    rw [eq_of_beq true]
    rfl
  · rw [if_neg true, truthOf_orCell]

/-! ### Comparisons -/

variable {v o : Value} {affinity : Option Affinity}

/-- A bound value is compared as the value is, and a null is not known to compare. -/
theorem truthOf_compareCells (op : Comparison) (keeps : v.Keeps affinity) (vExact : v.IsExact)
    (operand : v ≠ .null → o.IsExact ∧ v.sameClass o) :
    truthOf (compareCells op affinity (bind v) (bind o)) = .ofOrder (v.compare? o) (passes op) := by
  by_cases null : v = .null
  · subst null
    rfl
  · obtain ⟨oExact, same⟩ := operand null
    obtain ⟨vPresent, oPresent⟩ := Value.isNull_of_sameClass same
    unfold compareCells
    rw [Value.isNull_bind vExact, Value.isNull_bind oExact, vPresent, oPresent,
      Bool.or_false, if_neg Bool.false_ne_true, Value.operands_bind keeps vExact same oExact,
      Value.compare?_bind vExact oExact same]
    exact truthOf_ofBool _

/-! ### Members -/

theorem memberCell_eq (affinity : Option Affinity) (c : Cell) (items : List Cell) :
    memberCell affinity c items
      = if items.isEmpty then .ofBool false
        else if c.isNull then .null
        else if items.any fun item =>
          !item.isNull && (converted affinity c).same (converted affinity item) then .ofBool true
        else if items.any Cell.isNull then .null
        else .ofBool false := rfl

/-- A cell with the content of a value, in a column whose affinity leaves it alone.  Only a null is
nothing. -/
structure Displays (c : Cell) (affinity : Option Affinity) (v : Value) : Prop where
  isNull : c.isNull = v.isNull
  content : c.content = (bind v).content
  undisturbed : c.content.Undisturbed affinity

variable {c : Cell}

theorem displays_bind (keeps : v.Keeps affinity) (vExact : v.IsExact) :
    Displays (bind v) affinity v where
  isNull := Value.isNull_bind vExact
  content := rfl
  undisturbed := by
    cases v <;> first | exact keeps | cases vExact

/-- A displayed value is the same as another one of its class when the values are equal. -/
theorem Displays.same (displays : Displays c affinity v) (comparable : v.Comparable o) :
    (converted (memberAffinity affinity) c).same (converted (memberAffinity affinity) (bind o))
      = (v.compare? o == some .eq) := by
  obtain ⟨vPresent, oPresent⟩ := comparable.present
  have undisturbed := displays.undisturbed
  rw [displays.content] at undisturbed
  have left := content_converted (displays.content ▸ vPresent) displays.undisturbed
  have right := content_converted oPresent (comparable.undisturbed undisturbed)
  rw [displays.content] at left
  rw [Bool.eq_iff_iff, beq_iff_eq, Value.compare?_eq_iff comparable,
    Cell.same_iff (left ▸ vPresent) (right ▸ oPresent), left, right]

theorem truthOf_memberCell (displays : Displays c affinity v) {items : List Value}
    (listed : items ≠ []) (comparable : ∀ o ∈ items, v ≠ .null → v.Comparable o) :
    truthOf (memberCell (memberAffinity affinity) c (items.map bind))
      = if v.isNull then .unknown else .ofBool (items.any fun o => v.compare? o == some .eq) := by
  have present : (items.map bind).isEmpty = false := by
    rw [List.isEmpty_map]
    exact List.isEmpty_eq_false_iff.2 listed
  rw [memberCell_eq, present, if_neg Bool.false_ne_true, displays.isNull]
  by_cases null : v = .null
  · subst null
    rfl
  · have vPresent := Value.isNull_of_ne null
    have itemPresent (o : Value) (member : o ∈ items) : (Relational.bind o).isNull = false :=
      Cell.isNull_of_content (comparable o member null).present.2
    have found : ((items.map bind).any fun item => !item.isNull &&
          (converted (memberAffinity affinity) c).same (converted (memberAffinity affinity) item))
        = items.any fun o => v.compare? o == some .eq := by
      rw [List.any_map, Bool.eq_iff_iff, List.any_eq_true, List.any_eq_true]
      refine exists_congr fun o => and_congr_right fun member => ?_
      rw [Function.comp_apply, itemPresent o member, displays.same (comparable o member null)]
      exact Iff.rfl
    have noNull : (items.map bind).any Cell.isNull = false := by
      rw [List.any_map, List.any_eq_false]
      intro o member
      rw [Function.comp_apply, itemPresent o member]
      exact Bool.false_ne_true
    rw [vPresent, if_neg Bool.false_ne_true, if_neg Bool.false_ne_true, found, noNull]
    cases items.any fun o => v.compare? o == some .eq <;> rfl

/-! ### Patterns -/

/-- A text without zeros is matched as a whole, with regard to case. -/
theorem likeChars_exact {settings : Settings} (sensitive : settings.caseSensitive) {s : String}
    (clean : ∀ c ∈ s.toList, c.toNat ≠ 0) : likeChars settings s = s.toList := by
  unfold likeChars
  dsimp only
  rw [if_pos sensitive, List.takeWhile_eq_self_iff]
  intro c member
  simpa using clean c member

theorem likeElements?_sign {escape : Option Char} {c : Char} (plain : escape ≠ some c)
    (rest : List Char) :
    likeElements? escape (c :: rest) = (likeElements? escape rest).map (Like.sign c :: ·) := by
  cases rest <;> exact if_neg plain

theorem likeElements?_escaped (e d : Char) (rest : List Char) :
    likeElements? (some e) (e :: d :: rest)
      = (likeElements? (some e) rest).map (Like.Element.exactly d :: ·) := by
  exact if_pos rfl

/-- Without an escape every character stands for itself or is a sign. -/
theorem likeElements?_none (cs : List Char) :
    likeElements? none cs = some (cs.map Like.sign) := by
  induction cs with
  | nil => rfl
  | cons c rest inductionHypothesis =>
      rw [likeElements?_sign (by simp), inductionHypothesis]
      rfl

theorem likeElements?_escape (literal rest : List Char) :
    likeElements? (some '\\') (Like.escapeChars literal ++ rest)
      = (likeElements? (some '\\') rest).map (literal.map Like.Element.exactly ++ ·) := by
  induction literal with
  | nil => exact Option.map_id'.symm
  | cons c literal inductionHypothesis =>
      rw [Like.escapeChars]
      split
      next special =>
        rw [List.cons_append, List.cons_append, likeElements?_escaped, inductionHypothesis]
        cases likeElements? (some '\\') rest <;> rfl
      next plain =>
        simp only [not_or] at plain
        obtain ⟨noEscape, noPercent, noUnderscore⟩ := plain
        have unescaped : some '\\' ≠ some c := fun same => noEscape (Option.some.inj same).symm
        rw [List.cons_append, likeElements?_sign unescaped, Like.sign, if_neg noPercent,
          if_neg noUnderscore, inductionHypothesis]
        cases likeElements? (some '\\') rest <;> rfl

section Texts

variable {settings : Settings} (sensitive : settings.caseSensitive) {s : String}
  (sClean : ∀ c ∈ s.toList, c.toNat ≠ 0)

include sensitive sClean

theorem likeTexts_none {pattern : String} (clean : ∀ c ∈ pattern.toList, c.toNat ≠ 0) :
    likeTexts settings none s pattern = true
      ↔ Like.Matches (pattern.toList.map Like.sign) s.toList := by
  unfold likeTexts
  rw [likeChars_exact sensitive sClean, likeChars_exact sensitive clean, likeElements?_none]
  exact Like.matchElements_iff _ _

/-- Where no backslash stands before another character the pattern means what it means to a plan. -/
theorem likeTexts_plain {pattern : String} (clean : ∀ c ∈ pattern.toList, c.toNat ≠ 0)
    (noEscape : '\\' ∉ pattern.toList.dropLast) :
    likeTexts settings none s pattern = Like.isMatch s pattern := by
  rw [Bool.eq_iff_iff, likeTexts_none sensitive sClean clean, Like.isMatch_iff,
    Like.elements_eq_signs noEscape]

/-- A pattern made of an escaped literal matches what its elements match. -/
theorem likeTexts_escaped (before after : List Char) (front back : List Like.Element)
    {pattern literal : String} (clean : ∀ c ∈ literal.toList, c.toNat ≠ 0)
    (written : pattern.toList = before ++ (Like.escapeChars literal.toList ++ after))
    (signs : ∀ c ∈ before ++ after, c = '%')
    (frontRead : ∀ rest, likeElements? (some '\\') (before ++ rest)
      = (likeElements? (some '\\') rest).map (front ++ ·))
    (backRead : likeElements? (some '\\') after = some back) :
    likeTexts settings (some '\\') s pattern = true
      ↔ Like.Matches (front ++ (literal.toList.map .exactly ++ back)) s.toList := by
  have escaped (cs : List Char) (clean : ∀ c ∈ cs, c.toNat ≠ 0) :
      ∀ c ∈ Like.escapeChars cs, c.toNat ≠ 0 := by
    induction cs with
    | nil => exact clean
    | cons d cs inductionHypothesis =>
        obtain ⟨first, others⟩ := List.forall_mem_cons.1 clean
        have later := inductionHypothesis others
        rw [Like.escapeChars]
        split
        · exact List.forall_mem_cons.2 ⟨by decide, List.forall_mem_cons.2 ⟨first, later⟩⟩
        · exact List.forall_mem_cons.2 ⟨first, later⟩
  have patternClean : ∀ c ∈ pattern.toList, c.toNat ≠ 0 := by
    intro c member
    rw [written, List.mem_append, List.mem_append] at member
    have sign (member : c ∈ before ++ after) : c.toNat ≠ 0 := by
      rw [signs c member]
      decide
    rcases member with first | middle | last
    · exact sign (List.mem_append_left _ first)
    · exact escaped _ clean c middle
    · exact sign (List.mem_append_right _ last)
  unfold likeTexts
  rw [likeChars_exact sensitive sClean, likeChars_exact sensitive patternClean, written, frontRead,
    likeElements?_escape, backRead]
  exact Like.matchElements_iff _ _

variable {literal : String} (clean : ∀ c ∈ literal.toList, c.toNat ≠ 0)

include clean

open Compiler (partPattern)

theorem likeTexts_contains : likeTexts settings (some '\\') s (partPattern .contains literal)
    = Text.hasInfix literal.toList s.toList := by
  rw [Bool.eq_iff_iff, Like.hasInfix_iff, likeTexts_escaped sensitive sClean
    ['%'] ['%'] [.anyRun] [.anyRun] clean
    (by simp [partPattern, Like.escape]) (by simp) (fun rest => likeElements?_sign (by decide) rest)
    rfl]
  exact Like.matches_part_iff _ _

theorem likeTexts_startsWith : likeTexts settings (some '\\') s (partPattern .startsWith literal)
    = literal.toList.isPrefixOf s.toList := by
  rw [Bool.eq_iff_iff, List.isPrefixOf_iff_prefix, likeTexts_escaped sensitive sClean
    [] ['%'] [] [.anyRun] clean
    (by simp [partPattern, Like.escape]) (by simp) (fun rest => Option.map_id'.symm) rfl]
  exact Like.matches_start_iff _ _

theorem likeTexts_endsWith : likeTexts settings (some '\\') s (partPattern .endsWith literal)
    = literal.toList.isSuffixOf s.toList := by
  rw [Bool.eq_iff_iff, List.isSuffixOf_iff_suffix, likeTexts_escaped sensitive sClean
    ['%'] [] [.anyRun] [] clean
    (by simp [partPattern, Like.escape]) (by simp) (fun rest => likeElements?_sign (by decide) rest)
    rfl]
  rw [List.append_nil]
  exact Like.matches_end_iff _ _

end Texts

end Engine

end Recordkeeper
