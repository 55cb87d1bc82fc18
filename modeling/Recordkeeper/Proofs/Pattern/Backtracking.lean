import Recordkeeper.Proofs.Pattern.Elements

/-!
Contract: the search for a match decides the language of a pattern.

Owns:
- what one pass of a search does;
- searches that succeed, and that a pass keeps whether they do;
- `isMatch_decides`: the search answers after a bounded number of passes, and answers whether the
  text splits into pieces for the elements of the pattern.

Does not own: the meaning of elements.

A search keeps one mark only, the one of the last percent sign.  No earlier sign has to be tried
again: the elements between two signs take as many characters wherever they match, so a later match
of the earlier sign reaches the later sign further on in the text, where the run of the later sign
reaches as well.  `Aligned` keeps what this needs to know of the text behind the mark.
-/

set_option autoImplicit false

namespace Recordkeeper.Like

/-! ### Runs and single characters -/

theorem matches_anyRun_iff (es : List Element) (text : List Char) :
    Matches (.anyRun :: es) text ↔
      Matches es text ∨ ∃ c back, text = c :: back ∧ Matches (.anyRun :: es) back := by
  constructor
  · rintro ⟨front, back, rfl, matched⟩
    cases front with
    | nil => exact Or.inl matched
    | cons c front => exact Or.inr ⟨c, front ++ back, rfl, front, back, rfl, matched⟩
  · rintro (matched | ⟨c, _, rfl, front, back, rfl, matched⟩)
    · exact ⟨[], text, rfl, matched⟩
    · exact ⟨c :: front, back, rfl, matched⟩

theorem matches_anyRun_append {es : List Element} {text : List Char} (front : List Char)
    (matched : Matches (.anyRun :: es) text) : Matches (.anyRun :: es) (front ++ text) := by
  obtain ⟨skipped, back, rfl, matched⟩ := matched
  exact ⟨front ++ skipped, back, (List.append_assoc _ _ _).symm, matched⟩

theorem matches_single {e : Element} (single : e ≠ .anyRun) (es : List Element) (c : Char)
    (text : List Char) : Matches (e :: es) (c :: text) ↔ e.Accepts [c] ∧ Matches es text := by
  cases e with
  | anyRun => exact absurd rfl single
  | anyChar =>
      constructor
      · rintro ⟨d, back, split, matched⟩
        injection split with _ sameRest
        exact ⟨⟨c, rfl⟩, sameRest ▸ matched⟩
      · rintro ⟨-, matched⟩
        exact ⟨c, text, rfl, matched⟩
  | exactly d =>
      constructor
      · rintro ⟨back, split, matched⟩
        injection split with sameChar sameRest
        exact ⟨congrArg (fun c => [c]) sameChar, sameRest ▸ matched⟩
      · rintro ⟨accepted, matched⟩
        injection accepted with sameChar
        exact ⟨text, sameChar ▸ rfl, matched⟩

/-- Elements for single characters take as many characters as they are. -/
theorem matches_singles {singles es : List Element} {text : List Char} (noRun : .anyRun ∉ singles)
    (matched : Matches (singles ++ es) text) :
    ∃ front back, text = front ++ back ∧ front.length = singles.length ∧ Matches es back := by
  induction singles generalizing text with
  | nil => exact ⟨[], text, rfl, rfl, matched⟩
  | cons e singles inductionHypothesis =>
      obtain ⟨noRunFirst, noRunLater⟩ := not_or.1 (List.mem_cons.not.1 noRun)
      obtain ⟨c, rest, rfl⟩ : ∃ c rest, text = c :: rest := by
        cases e with
        | anyRun => exact absurd rfl noRunFirst
        | anyChar =>
            obtain ⟨c, rest, split, -⟩ := matched
            exact ⟨c, rest, split⟩
        | exactly d =>
            obtain ⟨rest, split, -⟩ := matched
            exact ⟨d, rest, split⟩
      obtain ⟨-, later⟩ := (matches_single (Ne.symm noRunFirst) _ c rest).1 matched
      obtain ⟨front, back, rfl, length, last⟩ := inductionHypothesis noRunLater later
      exact ⟨c :: front, back, rfl, congrArg (· + 1) length, last⟩

/-- At the end of a text only percent signs may be left. -/
theorem matches_nil_iff (pattern : List Char) :
    Matches (elements pattern) [] ↔ pattern.all (· == '%') = true := by
  induction pattern with
  | nil => exact iff_of_true rfl rfl
  | cons c rest inductionHypothesis =>
      have unmatched {e : Element} (single : e ≠ .anyRun) (es : List Element) :
          ¬ Matches (e :: es) [] := by
        cases e with
        | anyRun => exact absurd rfl single
        | anyChar => exact fun ⟨_, _, split, _⟩ => nomatch split
        | exactly d => exact fun ⟨_, split, _⟩ => nomatch split
      rw [List.all_cons, Bool.and_eq_true, beq_iff_eq, ← inductionHypothesis]
      by_cases percent : c = '%'
      · subst percent
        rw [elements_cons (by decide), sign, if_pos rfl, matches_anyRun_iff]
        simp
      · refine iff_of_false ?_ fun both => percent both.1
        by_cases backslash : c = '\\'
        · subst backslash
          cases rest with
          | nil => exact unmatched (by simp) _
          | cons d rest => exact unmatched (by simp) _
        · rw [elements_cons backslash, sign, if_neg percent]
          exact unmatched (by split <;> simp) _

namespace Search

/-! ### One pass -/

/-- What one pass of a search may do. -/
inductive Pass (s : Search) : Search ⊕ Bool → Prop
  /-- The text is at its end. -/
  | finished (atEnd : s.text = []) : Pass s (.inr (s.pattern.all (· == '%')))
  | percent (signs : List Char) (more : s.text ≠ []) (sign : s.pattern = '%' :: signs) :
    Pass s (.inl s.hold)
  /-- The first element stands for the first character of the text. -/
  | taken {e : Element} {signs : Nat} {c : Char} {text : List Char} (more : s.text = c :: text)
    (first : elements s.pattern = e :: elements (s.pattern.drop signs)) (single : e ≠ .anyRun)
    (accepted : e.Accepts [c]) : Pass s (.inl (s.past signs))
  | failed (more : s.text ≠ []) (unmatched : ¬ Matches (elements s.pattern) s.text) : Pass s s.retry

theorem pass_step (s : Search) : Pass s s.step := by
  unfold step
  split
  next atEnd => exact .finished atEnd
  next c text more =>
    have some : s.text ≠ [] := by simp [more]
    -- A pattern whose first element does not stand for the character fails here.
    have refused {e : Element} {es : List Element} (first : elements s.pattern = e :: es)
        (single : e ≠ .anyRun) (unaccepted : ¬ e.Accepts [c]) : Pass s s.retry := by
      refine .failed some fun matched => unaccepted ?_
      rw [first, more] at matched
      exact ((matches_single single es c text).1 matched).1
    split
    next d signs pattern =>
      have first : elements s.pattern = .exactly d :: elements (s.pattern.drop 2) := by
        rw [pattern]
        rfl
      split
      next same => exact .taken more first (by simp) (same ▸ rfl)
      next differs =>
        exact refused first (by simp) fun accepted => differs (List.singleton_inj.1 accepted)
    next signs pattern => exact .percent signs some pattern
    next d signs noEscape noPercent pattern =>
      have first : elements s.pattern
          = (if d = '_' then .anyChar else .exactly d) :: elements (s.pattern.drop 1) := by
        rw [pattern]
        by_cases backslash : d = '\\'
        · -- A backslash is a sign of its own at the end only.
          subst backslash
          cases signs with
          | nil => rfl
          | cons e signs => exact absurd rfl (noEscape e signs rfl)
        · rw [elements_cons backslash, sign, if_neg noPercent]
          rfl
      by_cases underscore : d = '_'
      · rw [if_pos underscore] at first
        rw [if_pos (Or.inl underscore)]
        exact .taken more first (by simp) ⟨c, rfl⟩
      · rw [if_neg underscore] at first
        split
        next fits =>
          have same : c = d := fits.resolve_left underscore
          exact .taken more first (by simp) (same ▸ rfl)
        next misfits =>
          exact refused first (by simp) fun accepted =>
            misfits (Or.inr (List.singleton_inj.1 accepted))
    next pattern =>
      refine .failed some fun matched => ?_
      rw [pattern] at matched
      exact some matched

/-! ### Searches that succeed -/

/-- Whether a try from the mark on matches: the one under way, or one whose run takes more. -/
def Succeeds (s : Search) : Prop :=
  Matches (elements s.pattern) s.text ∨
    ∃ m ∈ s.mark, ∃ c back, m.text = c :: back ∧ Matches (.anyRun :: elements m.pattern) back

/-- What was taken since the mark are elements for single characters, and as many characters. -/
def Aligned (s : Search) : Prop :=
  ∀ m ∈ s.mark, ∃ (singles : List Element) (taken : List Char),
    elements m.pattern = singles ++ elements s.pattern ∧ .anyRun ∉ singles ∧
      m.text = taken ++ s.text ∧ taken.length = singles.length

theorem aligned_start (text pattern : List Char) : (start text pattern).Aligned := nofun

theorem succeeds_start (text pattern : List Char) :
    (start text pattern).Succeeds ↔ Matches (elements pattern) text :=
  or_iff_left nofun

theorem aligned_resume (m : Mark) : (resume m).Aligned := by
  rintro m ⟨⟩
  exact ⟨[], [], rfl, List.not_mem_nil, rfl, rfl⟩

theorem succeeds_resume (m : Mark) :
    (resume m).Succeeds ↔ Matches (.anyRun :: elements m.pattern) m.text := by
  rw [matches_anyRun_iff]
  exact or_congr_right ⟨fun ⟨_, marked, later⟩ => Option.some.inj marked ▸ later,
    fun later => ⟨m, rfl, later⟩⟩

/-- A later match of the sign at the mark leaves a match of the present pattern further on. -/
theorem Aligned.later {s : Search} (aligned : s.Aligned) {m : Mark} (marked : m ∈ s.mark)
    {c : Char} {back : List Char} (text : m.text = c :: back)
    (matched : Matches (.anyRun :: elements m.pattern) back) :
    ∃ front rest, s.text = front ++ rest ∧ front ≠ [] ∧ Matches (elements s.pattern) rest := by
  obtain ⟨singles, taken, pattern, noRun, split, length⟩ := aligned m marked
  obtain ⟨skipped, tried, rfl, matched⟩ := matched
  rw [pattern] at matched
  obtain ⟨front, rest, rfl, sameLength, later⟩ := matches_singles noRun matched
  have whole : (c :: skipped ++ front) ++ rest = taken ++ s.text := by
    rw [← split, text]
    simp
  have longer : taken.length < (c :: skipped ++ front).length := by
    simp only [List.length_append, List.length_cons]
    omega
  rcases List.append_eq_append_iff.1 whole with ⟨added, extended, -⟩ | ⟨added, extended, left⟩
  · rw [extended, List.length_append] at longer
    omega
  · refine ⟨added, rest, left, ?_, later⟩
    rintro rfl
    rw [extended, List.append_nil] at longer
    exact Nat.lt_irrefl _ longer

/-! ### What a pass keeps -/

/-- The next state succeeds, or the answer is true, exactly if the search succeeds. -/
def Keeps (s : Search) : Search ⊕ Bool → Prop
  | .inl t => t.Aligned ∧ (t.Succeeds ↔ s.Succeeds)
  | .inr answer => answer = true ↔ s.Succeeds

theorem elements_percent {pattern signs : List Char} (sign : pattern = '%' :: signs) :
    elements pattern = .anyRun :: elements pattern.tail := by
  rw [sign, elements_cons (by decide)]
  rfl

theorem aligned_past {s : Search} {e : Element} {signs : Nat} {c : Char} {text : List Char}
    (aligned : s.Aligned) (more : s.text = c :: text)
    (first : elements s.pattern = e :: elements (s.pattern.drop signs)) (single : e ≠ .anyRun) :
    (s.past signs).Aligned := by
  intro m marked
  obtain ⟨singles, taken, pattern, noRun, split, length⟩ := aligned m marked
  refine ⟨singles ++ [e], taken ++ [c], ?_, ?_, ?_, ?_⟩
  · rw [pattern, first, List.append_assoc]
    rfl
  · simpa using ⟨noRun, Ne.symm single⟩
  · rw [split, more, List.append_assoc]
    simp [past, more]
  · rw [List.length_append, List.length_append, length]
    rfl

theorem succeeds_past {s : Search} {e : Element} {signs : Nat} {c : Char} {text : List Char}
    (more : s.text = c :: text) (first : elements s.pattern = e :: elements (s.pattern.drop signs))
    (single : e ≠ .anyRun) (accepted : e.Accepts [c]) :
    (s.past signs).Succeeds ↔ s.Succeeds := by
  refine or_congr_left ?_
  rw [first, more, matches_single single]
  simp [past, more, accepted]

/-- Holding a percent sign forgets the earlier ones, which could do no more than this one. -/
theorem succeeds_hold {s : Search} (aligned : s.Aligned) {signs : List Char}
    (sign : s.pattern = '%' :: signs) : s.hold.Succeeds ↔ s.Succeeds := by
  rw [hold, succeeds_resume, ← elements_percent sign]
  refine ⟨Or.inl, ?_⟩
  rintro (matched | ⟨m, marked, c, back, text, matched⟩)
  · exact matched
  · obtain ⟨front, rest, split, -, later⟩ := aligned.later marked text matched
    rw [elements_percent sign] at later ⊢
    exact split ▸ matches_anyRun_append front later

theorem keeps_retry {s : Search} (aligned : s.Aligned) (more : s.text ≠ [])
    (unmatched : ¬ Matches (elements s.pattern) s.text) : s.Keeps s.retry := by
  unfold retry
  cases marked : s.mark with
  | none =>
      refine iff_of_false Bool.false_ne_true ?_
      rintro (matched | ⟨m, held, -⟩)
      · exact unmatched matched
      · rw [marked] at held
        cases held
  | some m =>
      refine ⟨aligned_resume _, ?_⟩
      rw [succeeds_resume]
      obtain ⟨-, taken, -, -, split, -⟩ := aligned m marked
      obtain ⟨c, back, text⟩ : ∃ c back, m.text = c :: back :=
        List.exists_cons_of_ne_nil fun nothing =>
          more (List.append_eq_nil_iff.1 (split.symm.trans nothing)).2
      rw [text, List.tail_cons]
      constructor
      · intro matched
        exact Or.inr ⟨m, marked, c, back, text, matched⟩
      · rintro (matched | ⟨other, held, d, rest, sameText, matched⟩)
        · exact absurd matched unmatched
        · obtain rfl := Option.some.inj (marked.symm.trans held)
          obtain ⟨-, rfl⟩ := List.cons.inj (text.symm.trans sameText)
          exact matched

/-- One pass keeps whether a search succeeds, and its answer is that. -/
theorem keeps_step {s : Search} (aligned : s.Aligned) : s.Keeps s.step := by
  have pass := pass_step s
  generalize s.step = outcome at pass
  cases pass with
  | finished atEnd =>
      show _ ↔ s.Succeeds
      rw [← matches_nil_iff]
      refine ⟨fun matched => Or.inl (atEnd ▸ matched), ?_⟩
      rintro (matched | ⟨m, marked, c, back, text, matched⟩)
      · exact atEnd ▸ matched
      · -- A later try needs more characters than are left.
        obtain ⟨front, rest, split, some, -⟩ := aligned.later marked text matched
        rw [atEnd] at split
        exact absurd (List.append_eq_nil_iff.1 split.symm).1 some
  | percent signs more sign => exact ⟨aligned_resume _, succeeds_hold aligned sign⟩
  | taken more first single accepted =>
      exact ⟨aligned_past aligned more first single, succeeds_past more first single accepted⟩
  | failed more unmatched => exact keeps_retry aligned more unmatched

/-! ### A whole run -/

/-- The search gives an answer in so many passes. -/
inductive Answers : Nat → Search → Bool → Prop
  | now {s : Search} {answer : Bool} (last : s.step = .inr answer) : Answers 1 s answer
  | later {s t : Search} {passes : Nat} {answer : Bool} (next : s.step = .inl t)
    (rest : Answers passes t answer) : Answers (passes + 1) s answer

/-- A run gives its answer within the bound on its passes. -/
theorem answers_run (s : Search) : ∃ passes ≤ s.left + 1, Answers passes s s.run := by
  fun_induction run s with
  | case1 s t next inductionHypothesis =>
      obtain ⟨passes, bounded, rest⟩ := inductionHypothesis
      have fewer := left_step next
      exact ⟨passes + 1, by omega, .later next rest⟩
  | case2 s answer last => exact ⟨1, Nat.le_add_left 1 s.left, .now last⟩

theorem run_iff (s : Search) (aligned : s.Aligned) : s.run = true ↔ s.Succeeds := by
  fun_induction run s with
  | case1 s t next inductionHypothesis =>
      have kept := keeps_step aligned
      rw [next] at kept
      exact (inductionHypothesis kept.1).trans kept.2
  | case2 s answer last =>
      have kept := keeps_step aligned
      rw [last] at kept
      exact kept

theorem left_start (text pattern : List Char) :
    (start text pattern).left + 1 = (text.length + 1) * (pattern.length + 1) := by
  rw [Nat.succ_mul]
  rfl

end Search

/-! ### The search decides the language -/

theorem isMatch_iff (text pattern : String) :
    isMatch text pattern = true ↔ Matches (elements pattern.toList) text.toList :=
  (Search.run_iff _ (Search.aligned_start _ _)).trans (Search.succeeds_start _ _)

/-- The search answers after no more passes than the product of both lengths, each with one added,
and it finds a match exactly if the text splits into consecutive pieces, each of which the element at
its place accepts. -/
theorem isMatch_decides (text pattern : String) :
    (∃ passes ≤ (text.length + 1) * (pattern.length + 1),
      (Search.start text.toList pattern.toList).Answers passes (isMatch text pattern)) ∧
    (isMatch text pattern = true ↔
      ∃ pieces : List (List Char), text.toList = pieces.flatten ∧
        List.Forall₂ Element.Accepts (elements pattern.toList) pieces) := by
  constructor
  · have answered := Search.answers_run (Search.start text.toList pattern.toList)
    rw [Search.left_start, String.length_toList, String.length_toList] at answered
    exact answered
  · rw [isMatch_iff, matches_iff_pieces]

end Recordkeeper.Like
