import Recordkeeper.Pattern.Regex.Basic

/-!
Contract: the search for matches agrees with the meaning of expressions.

Owns:
- positions of one text and when one is ahead of another;
- the spans of an expression, as a relation between the two ends of a match;
- `mem_ends`: the search reaches exactly the ends of the spans;
- `isMatch_iff`: an expression matches a text when it has a span in it.

Does not own: the written form of expressions.

The search keeps one position for each length that is left of the text.  That loses nothing as long
as all positions belong to one text, which is what `Ahead` carries through the proofs.
-/

set_option autoImplicit false

namespace Recordkeeper.Regex

/-! ### Positions -/

/-- The second position is reached from the first by taking characters. -/
def Ahead (p q : Cursor) : Prop :=
  ∃ taken, p.after = taken ++ q.after ∧ q.before = taken.getLast?.or p.before

theorem Ahead.refl (p : Cursor) : Ahead p p := ⟨[], rfl, rfl⟩

theorem Ahead.trans {p q t : Cursor} (first : Ahead p q) (second : Ahead q t) : Ahead p t := by
  obtain ⟨front, frontAfter, frontBefore⟩ := first
  obtain ⟨back, backAfter, backBefore⟩ := second
  refine ⟨front ++ back, ?_, ?_⟩
  · rw [frontAfter, backAfter, List.append_assoc]
  · rw [backBefore, frontBefore, List.getLast?_append, Option.or_assoc]

theorem Ahead.length_le {p q : Cursor} (ahead : Ahead p q) : q.after.length ≤ p.after.length := by
  obtain ⟨taken, after, -⟩ := ahead
  rw [after, List.length_append]
  omega

/-- What is left of the text tells the positions ahead of one position apart. -/
theorem Ahead.eq_of_length {p q t : Cursor} (first : Ahead p q) (second : Ahead p t)
    (same : q.after.length = t.after.length) : q = t := by
  obtain ⟨front, frontAfter, frontBefore⟩ := first
  obtain ⟨back, backAfter, backBefore⟩ := second
  have split : front ++ q.after = back ++ t.after := frontAfter.symm.trans backAfter
  have lengths := congrArg List.length split
  rw [List.length_append, List.length_append] at lengths
  obtain ⟨takenSame, leftSame⟩ := List.append_inj split (by omega)
  cases q
  cases t
  simp only at leftSame frontBefore backBefore
  rw [leftSame, frontBefore, backBefore, takenSame]

def AllAhead (p : Cursor) (qs : List Cursor) : Prop := ∀ q ∈ qs, Ahead p q

/-! ### Sets of positions -/

theorem mem_merge {p q : Cursor} {known new : List Cursor} (knownAhead : AllAhead p known)
    (newAhead : AllAhead p new) : q ∈ merge known new ↔ q ∈ known ∨ q ∈ new := by
  induction new generalizing known with
  | nil => simp [merge]
  | cons head rest inductionHypothesis =>
      have headAhead : Ahead p head := newAhead head List.mem_cons_self
      have restAhead : AllAhead p rest := fun t member =>
        newAhead t (List.mem_cons_of_mem _ member)
      rw [show merge known (head :: rest)
        = merge (if known.any (·.after.length == head.after.length) then known
            else head :: known) rest from rfl]
      by_cases present : known.any (·.after.length == head.after.length)
      · rw [if_pos present, inductionHypothesis knownAhead restAhead, List.mem_cons]
        obtain ⟨other, member, same⟩ := List.any_eq_true.1 present
        have equal : other = head :=
          (knownAhead other member).eq_of_length headAhead (beq_iff_eq.1 same)
        subst equal
        constructor
        · rintro (held | fresh)
          · exact Or.inl held
          · exact Or.inr (Or.inr fresh)
        · rintro (held | rfl | fresh)
          · exact Or.inl held
          · exact Or.inl member
          · exact Or.inr fresh
      · rw [if_neg present]
        have grownAhead : AllAhead p (head :: known) := fun t member => by
          rcases List.mem_cons.1 member with rfl | member
          · exact headAhead
          · exact knownAhead t member
        rw [inductionHypothesis grownAhead restAhead, List.mem_cons, List.mem_cons, or_assoc,
          or_left_comm]

theorem merge_ahead {p : Cursor} {known new : List Cursor} (knownAhead : AllAhead p known)
    (newAhead : AllAhead p new) : AllAhead p (merge known new) := fun q member => by
  rcases (mem_merge knownAhead newAhead).1 member with held | fresh
  · exact knownAhead q held
  · exact newAhead q fresh

/-- Merging only adds positions, so it changes nothing when the number stays. -/
theorem merge_eq_of_length {known new : List Cursor}
    (same : (merge known new).length = known.length) : merge known new = known := by
  have grows : ∃ added, merge known new = added ++ known := by
    clear same
    induction new generalizing known with
    | nil => exact ⟨[], rfl⟩
    | cons head rest inductionHypothesis =>
        rw [show merge known (head :: rest)
          = merge (if known.any (·.after.length == head.after.length) then known
              else head :: known) rest from rfl]
        split
        · exact inductionHypothesis
        · obtain ⟨added, equal⟩ : ∃ added, merge (head :: known) rest = added ++ head :: known :=
            inductionHypothesis
          exact ⟨added ++ [head], by rw [equal, List.append_assoc]; rfl⟩
  obtain ⟨added, equal⟩ := grows
  rw [equal, List.length_append] at same
  rw [equal, List.length_eq_zero_iff.1 (by omega : added.length = 0), List.nil_append]

/-- A step that reaches positions ahead of its start only. -/
def Forward (step : Cursor → List Cursor) : Prop := ∀ p, AllAhead p (step p)

section Steps

variable {step : Cursor → List Cursor} (forward : Forward step)

include forward

theorem mem_advance {p q : Cursor} {ps : List Cursor} (psAhead : AllAhead p ps) :
    q ∈ advance step ps ↔ ∃ m ∈ ps, q ∈ step m := by
  have general (acc : List Cursor) (accAhead : AllAhead p acc) :
      q ∈ ps.foldl (fun acc m => merge acc (step m)) acc ↔ q ∈ acc ∨ ∃ m ∈ ps, q ∈ step m := by
    induction ps generalizing acc with
    | nil => simp
    | cons head rest inductionHypothesis =>
        have headAhead : AllAhead p (step head) := fun t member =>
          (psAhead head List.mem_cons_self).trans (forward head t member)
        have restAhead : AllAhead p rest := fun t member =>
          psAhead t (List.mem_cons_of_mem _ member)
        rw [List.foldl_cons,
          inductionHypothesis restAhead (merge acc (step head)) (merge_ahead accAhead headAhead),
          mem_merge accAhead headAhead]
        simp only [List.mem_cons, exists_eq_or_imp, or_assoc]
  have started := general [] (fun t member => by cases member)
  simpa [advance] using started

theorem advance_ahead {p : Cursor} {ps : List Cursor} (psAhead : AllAhead p ps) :
    AllAhead p (advance step ps) := fun q member => by
  obtain ⟨m, start, reached⟩ := (mem_advance forward psAhead).1 member
  exact (psAhead m start).trans (forward m q reached)

end Steps

/-- The second position is reached from the first in `n` steps. -/
def Iterates (step : Cursor → Cursor → Prop) : Nat → Cursor → Cursor → Prop
  | 0, p, q => q = p
  | n + 1, p, q => ∃ m, step p m ∧ Iterates step n m q

theorem Iterates.ahead {step : Cursor → Cursor → Prop}
    (forward : ∀ p q, step p q → Ahead p q) {n : Nat} {p q : Cursor}
    (reached : Iterates step n p q) : Ahead p q := by
  induction n generalizing p with
  | zero =>
      obtain rfl : q = p := reached
      exact Ahead.refl q
  | succ n inductionHypothesis =>
      obtain ⟨m, first, later⟩ := reached
      exact (forward p m first).trans (inductionHypothesis later)

/-- Steps that stay in place can be left out, and each of the others takes a character. -/
theorem Iterates.exists_le {step : Cursor → Cursor → Prop}
    (forward : ∀ p q, step p q → Ahead p q) {n : Nat} {p q : Cursor}
    (reached : Iterates step n p q) : ∃ k ≤ p.after.length, Iterates step k p q := by
  induction n generalizing p with
  | zero => exact ⟨0, Nat.zero_le _, reached⟩
  | succ n inductionHypothesis =>
      obtain ⟨m, first, later⟩ := reached
      obtain ⟨k, bounded, shorter⟩ := inductionHypothesis later
      have ahead := forward p m first
      by_cases moved : m.after.length < p.after.length
      · exact ⟨k + 1, by omega, m, first, shorter⟩
      · have stayed : m = p :=
          ahead.eq_of_length (Ahead.refl p) (by have := ahead.length_le; omega)
        subst stayed
        exact ⟨k, bounded, shorter⟩

section Repetition

variable {step : Cursor → List Cursor} (forward : Forward step)

include forward

theorem mem_advanceTimes {p q : Cursor} (n : Nat) {ps : List Cursor} (psAhead : AllAhead p ps) :
    q ∈ advanceTimes step n ps ↔ ∃ m ∈ ps, Iterates (fun a b => b ∈ step a) n m q := by
  induction n generalizing ps with
  | zero => simp [advanceTimes, Iterates]
  | succ n inductionHypothesis =>
      rw [show advanceTimes step (n + 1) ps
        = if ps.isEmpty then [] else advanceTimes step n (advance step ps) from rfl]
      by_cases none : ps.isEmpty
      · rw [if_pos none, List.isEmpty_iff.1 none]
        simp
      · rw [if_neg none, inductionHypothesis (advance_ahead forward psAhead)]
        constructor
        · rintro ⟨m, reached, later⟩
          obtain ⟨start, member, first⟩ := (mem_advance forward psAhead).1 reached
          exact ⟨start, member, m, first, later⟩
        · rintro ⟨start, member, m, first, later⟩
          exact ⟨m, (mem_advance forward psAhead).2 ⟨start, member, first⟩, later⟩

theorem mem_advanceUpTo {p q : Cursor} (n : Nat) {ps : List Cursor} (psAhead : AllAhead p ps) :
    q ∈ advanceUpTo step n ps ↔
      ∃ m ∈ ps, ∃ k ≤ n, Iterates (fun a b => b ∈ step a) k m q := by
  induction n generalizing ps with
  | zero => simp [advanceUpTo, Iterates]
  | succ n inductionHypothesis =>
      have stepAhead := advance_ahead forward psAhead
      have mem_more (t : Cursor) :
          t ∈ merge ps (advance step ps) ↔ t ∈ ps ∨ ∃ m ∈ ps, t ∈ step m := by
        rw [mem_merge psAhead stepAhead, mem_advance forward psAhead]
      rw [show advanceUpTo step (n + 1) ps
        = if (merge ps (advance step ps)).length = ps.length then ps
          else advanceUpTo step n (merge ps (advance step ps)) from rfl]
      by_cases closed : (merge ps (advance step ps)).length = ps.length
      · -- No step leaves `ps`, so no number of steps does.
        rw [if_pos closed]
        rw [merge_eq_of_length closed] at mem_more
        have stays (k : Nat) : ∀ m ∈ ps, Iterates (fun a b => b ∈ step a) k m q → q ∈ ps := by
          induction k with
          | zero =>
              rintro m member rfl
              exact member
          | succ k later =>
              rintro m member ⟨next, first, rest⟩
              exact later next ((mem_more next).2 (Or.inr ⟨m, member, first⟩)) rest
        constructor
        · intro member
          exact ⟨q, member, 0, Nat.zero_le _, rfl⟩
        · rintro ⟨m, member, k, -, reached⟩
          exact stays k m member reached
      · rw [if_neg closed, inductionHypothesis (merge_ahead psAhead stepAhead)]
        constructor
        · rintro ⟨m, reached, k, bounded, later⟩
          rcases (mem_more m).1 reached with member | ⟨start, member, first⟩
          · exact ⟨m, member, k, by omega, later⟩
          · exact ⟨start, member, k + 1, by omega, m, first, later⟩
        · rintro ⟨start, member, k, bounded, reached⟩
          cases k with
          | zero => exact ⟨start, (mem_more start).2 (Or.inl member), 0, Nat.zero_le _, reached⟩
          | succ k =>
              obtain ⟨m, first, later⟩ := reached
              exact ⟨m, (mem_more m).2 (Or.inr ⟨start, member, first⟩), k, by omega, later⟩

end Repetition

/-! ### Spans -/

/-- Whether a match of the expression can start at the first position and end at the second. -/
def Spans : Regex → Cursor → Cursor → Prop
  | .empty, p, q => q = p
  | .oneOf set, p, q => ∃ c, p.after = c :: q.after ∧ q.before = some c ∧ set.contains c.toNat
  | .look condition, p, q => q = p ∧ p.holds condition
  | .seq r s, p, q => ∃ m, Spans r p m ∧ Spans s m q
  | .alt r s, p, q => Spans r p q ∨ Spans s p q
  | .rep r least most, p, q =>
    ∃ n, least ≤ n ∧ (∀ limit ∈ most, n ≤ max least limit) ∧ Iterates (Spans r) n p q

theorem Spans.ahead {r : Regex} {p q : Cursor} (spans : r.Spans p q) : Ahead p q := by
  induction r generalizing p q with
  | empty =>
      obtain rfl : q = p := spans
      exact Ahead.refl q
  | oneOf set =>
      obtain ⟨c, after, before, -⟩ := spans
      exact ⟨[c], after, before⟩
  | look condition =>
      obtain ⟨rfl, -⟩ := spans
      exact Ahead.refl q
  | seq r s firstHypothesis secondHypothesis =>
      obtain ⟨m, first, second⟩ := spans
      exact (firstHypothesis first).trans (secondHypothesis second)
  | alt r s leftHypothesis rightHypothesis =>
      rcases spans with left | right
      · exact leftHypothesis left
      · exact rightHypothesis right
  | rep r least most inductionHypothesis =>
      obtain ⟨n, -, -, reached⟩ := spans
      exact reached.ahead fun _ _ => inductionHypothesis

theorem Iterates.add {step : Cursor → Cursor → Prop} {m n : Nat} {p q : Cursor} :
    Iterates step (m + n) p q ↔ ∃ t, Iterates step m p t ∧ Iterates step n t q := by
  induction m generalizing p with
  | zero => simp [Iterates]
  | succ m inductionHypothesis =>
      rw [Nat.succ_add]
      show (∃ t, step p t ∧ Iterates step (m + n) t q) ↔ _
      constructor
      · rintro ⟨t, first, later⟩
        obtain ⟨u, middle, last⟩ := inductionHypothesis.1 later
        exact ⟨u, ⟨t, first, middle⟩, last⟩
      · rintro ⟨u, ⟨t, first, middle⟩, last⟩
        exact ⟨t, first, inductionHypothesis.2 ⟨u, middle, last⟩⟩

theorem mem_ends_oneOf (set : Text.Ranges) (p q : Cursor) :
    q ∈ (oneOf set).ends p ↔ (oneOf set).Spans p q := by
  obtain ⟨before, after⟩ := p
  cases after with
  | nil => simp [ends, Spans]
  | cons c rest =>
      show q ∈ (if set.contains c.toNat then [(⟨some c, rest⟩ : Cursor)] else []) ↔ _
      by_cases held : set.contains c.toNat
      · rw [if_pos held, List.mem_singleton]
        constructor
        · rintro rfl
          exact ⟨c, rfl, rfl, held⟩
        · rintro ⟨d, after, before, -⟩
          injection after with sameChar sameRest
          subst sameChar
          cases q
          simp only at before sameRest
          rw [before, sameRest]
      · rw [if_neg held]
        constructor
        · intro member
          cases member
        · rintro ⟨d, after, -, other⟩
          injection after with sameChar
          subst sameChar
          exact absurd other held

section Repeated

variable {r : Regex} (reaches : ∀ p q, q ∈ r.ends p ↔ r.Spans p q)

include reaches

theorem forward_ends : Forward r.ends := fun p q member => Spans.ahead ((reaches p q).1 member)

/-- What a number of repetitions and up to `n` more of them reach. -/
theorem mem_advanceUpTo_ends (least n : Nat) (p q : Cursor) :
    q ∈ advanceUpTo r.ends n (advanceTimes r.ends least [p]) ↔
      ∃ k ≤ n, Iterates r.Spans (least + k) p q := by
  have forward := forward_ends reaches
  have steps : (fun a b => b ∈ r.ends a) = r.Spans := by
    funext a b
    exact propext (reaches a b)
  have selfAhead : AllAhead p [p] := fun t member => by
    rw [List.mem_singleton.1 member]
    exact Ahead.refl p
  have mem_start (t : Cursor) :
      t ∈ advanceTimes r.ends least [p] ↔ Iterates r.Spans least p t := by
    rw [mem_advanceTimes forward least selfAhead, steps]
    simp
  have startAhead : AllAhead p (advanceTimes r.ends least [p]) := fun t member =>
    ((mem_start t).1 member).ahead fun _ _ => Spans.ahead
  rw [mem_advanceUpTo forward n startAhead, steps]
  simp only [mem_start, Iterates.add]
  constructor
  · rintro ⟨m, first, k, bounded, later⟩
    exact ⟨k, bounded, m, first, later⟩
  · rintro ⟨k, bounded, m, first, later⟩
    exact ⟨m, first, k, bounded, later⟩

theorem mem_ends_rep (least : Nat) (most : Option Nat) (p q : Cursor) :
    q ∈ (rep r least most).ends p ↔ (rep r least most).Spans p q := by
  cases most with
  | some limit =>
      show q ∈ advanceUpTo r.ends (limit - least) (advanceTimes r.ends least [p]) ↔ _
      rw [mem_advanceUpTo_ends reaches]
      constructor
      · rintro ⟨k, bounded, reached⟩
        refine ⟨least + k, by omega, fun other held => ?_, reached⟩
        obtain rfl : limit = other := Option.some.inj held
        omega
      · rintro ⟨n, atLeast, atMost, reached⟩
        have bounded := atMost limit rfl
        refine ⟨n - least, by omega, ?_⟩
        rwa [Nat.add_sub_cancel' atLeast]
  | none =>
      -- Without a limit, one step for each character that is left is enough.
      show q ∈ advanceUpTo r.ends (p.after.length + 1) (advanceTimes r.ends least [p]) ↔ _
      rw [mem_advanceUpTo_ends reaches]
      constructor
      · rintro ⟨k, -, reached⟩
        refine ⟨least + k, by omega, fun _ unbounded => ?_, reached⟩
        cases unbounded
      · rintro ⟨n, atLeast, -, reached⟩
        rw [← Nat.add_sub_cancel' atLeast] at reached
        obtain ⟨m, first, later⟩ := Iterates.add.1 reached
        obtain ⟨k, bounded, shorter⟩ := later.exists_le fun _ _ => Spans.ahead
        have ahead : Ahead p m := first.ahead fun _ _ => Spans.ahead
        have := ahead.length_le
        exact ⟨k, by omega, Iterates.add.2 ⟨m, first, shorter⟩⟩

end Repeated

/-- The search reaches exactly the ends of the spans. -/
theorem mem_ends (r : Regex) (p q : Cursor) : q ∈ r.ends p ↔ r.Spans p q := by
  induction r generalizing p q with
  | empty => simp [ends, Spans]
  | oneOf set => exact mem_ends_oneOf set p q
  | look condition =>
      show q ∈ (if p.holds condition then [p] else []) ↔ q = p ∧ p.holds condition
      by_cases held : p.holds condition
      · simp [held]
      · simp [held]
  | seq r s firstHypothesis secondHypothesis =>
      show q ∈ advance s.ends (r.ends p) ↔ ∃ m, Spans r p m ∧ Spans s m q
      rw [mem_advance (forward_ends secondHypothesis) (forward_ends firstHypothesis p)]
      simp only [firstHypothesis, secondHypothesis]
  | alt r s leftHypothesis rightHypothesis =>
      show q ∈ merge (r.ends p) (s.ends p) ↔ _
      rw [mem_merge (forward_ends leftHypothesis p) (forward_ends rightHypothesis p),
        leftHypothesis, rightHypothesis]
      rfl
  | rep r least most inductionHypothesis =>
      exact mem_ends_rep inductionHypothesis least most p q

/-! ### Matching anywhere -/

theorem ends_isEmpty (r : Regex) (p : Cursor) :
    (!(r.ends p).isEmpty) = true ↔ ∃ q, r.Spans p q := by
  rw [Bool.not_eq_true', List.isEmpty_eq_false_iff_exists_mem]
  simp only [mem_ends]

/-- An expression matches from some position on when it has a span that starts there or later. -/
theorem matchesFrom_iff (r : Regex) (before : Option Char) (text : List Char) :
    r.matchesFrom before text = true ↔ ∃ p q, Ahead ⟨before, text⟩ p ∧ r.Spans p q := by
  induction text generalizing before with
  | nil =>
      rw [matchesFrom, ends_isEmpty]
      constructor
      · rintro ⟨q, spans⟩
        exact ⟨_, q, Ahead.refl _, spans⟩
      · rintro ⟨p, q, ahead, spans⟩
        have atEnd : p = ⟨before, []⟩ :=
          ahead.eq_of_length (Ahead.refl _) (by have := ahead.length_le; simp_all)
        rw [atEnd] at spans
        exact ⟨q, spans⟩
  | cons c rest inductionHypothesis =>
      rw [matchesFrom, Bool.or_eq_true, ends_isEmpty, inductionHypothesis]
      have oneStep : Ahead ⟨before, c :: rest⟩ ⟨some c, rest⟩ := ⟨[c], rfl, rfl⟩
      constructor
      · rintro (⟨q, spans⟩ | ⟨p, q, ahead, spans⟩)
        · exact ⟨_, q, Ahead.refl _, spans⟩
        · exact ⟨p, q, oneStep.trans ahead, spans⟩
      · rintro ⟨p, q, ⟨taken, after, reached⟩, spans⟩
        cases taken with
        | nil =>
            left
            cases p
            simp only [List.nil_append, List.getLast?_nil, Option.none_or] at after reached
            rw [← after, reached] at spans
            exact ⟨q, spans⟩
        | cons d taken =>
            right
            rw [List.cons_append] at after
            injection after with sameChar sameRest
            subst sameChar
            refine ⟨p, q, ⟨taken, sameRest, ?_⟩, spans⟩
            rw [reached, List.getLast?_cons]
            cases taken.getLast? <;> rfl

/-- An expression matches a text when it has a span in it. -/
theorem isMatch_iff (r : Regex) (text : String) :
    r.isMatch text = true ↔ ∃ p q, Ahead ⟨none, text.toList⟩ p ∧ r.Spans p q :=
  matchesFrom_iff r none text.toList

end Recordkeeper.Regex
