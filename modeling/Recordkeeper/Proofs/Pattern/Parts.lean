import Recordkeeper.Pattern.Glob
import Recordkeeper.Proofs.Pattern.Classes
import Recordkeeper.Proofs.Pattern.Like

/-!
Contract: the grammar of key patterns and the expressions that they are written as.

Owns:
- the parts of a pattern, how they are written, and the texts that they accept;
- patterns in which a class is not closed, and patterns whose classes hold letters, digits and
  ascending ranges of them;
- `regexBody_written`: the text of the expression of a pattern, part by part;
- `regexBody_eq_none_iff`: the translation fails exactly if a class is not closed;
- `expression?_written`: the expression that a pattern is read as, and how large it is at most;
- `isMatch_wholeExpressions`: it matches the texts that split into pieces which the parts accept.

Does not own: classes with other members.

The translation copies the inside of a class and escapes everything else, so it is followed part by
part.  Nothing is known of what a class holds where only its end counts, which is why `Reaches` and
`pattern_induction` take a class as any text up to the first bracket that closes.
-/

set_option autoImplicit false

namespace Recordkeeper.Glob

open Recordkeeper.Regex (CharClass Reads chain)

/-! ### The grammar -/

/-- The signs of a pattern. -/
def signs : List Char := ['*', '?', '[', '\\']

inductive Part where
  | anyRun
  | anyChar
  | exactly (c : Char)
  | oneOf (cls : CharClass)

/-- What stands between the brackets of a class: its members, behind an exclamation mark or a caret
if the class is negated. -/
inductive Inside (cls : CharClass) : List Char → Prop
  | listed (listed : cls.negated = false) : Inside cls cls.text
  | negated (negated : cls.negated = true) {mark : Char} (isMark : mark = '!' ∨ mark = '^') :
    Inside cls (mark :: cls.text)

/-- How a part is written. -/
inductive Part.Written : Part → List Char → Prop
  | anyRun : Part.Written .anyRun ['*']
  | anyChar : Part.Written .anyChar ['?']
  | plain {c : Char} (noSign : c ∉ signs) : Part.Written (.exactly c) [c]
  | escaped (c : Char) : Part.Written (.exactly c) ['\\', c]
  | oneOf {cls : CharClass} {inside : List Char} (written : Inside cls inside) :
    Part.Written (.oneOf cls) ('[' :: (inside ++ [']']))

/-- How a pattern is written: one part after another.  A backslash at the end stands for itself. -/
inductive Written : List Part → List Char → Prop
  | nil : Written [] []
  | backslash : Written [.exactly '\\'] ['\\']
  | cons {part : Part} {parts : List Part} {text rest : List Char} (first : part.Written text)
    (later : Written parts rest) : Written (part :: parts) (text ++ rest)

/-- The pieces of a text that a part stands for. -/
def Part.Accepts : Part → List Char → Prop
  | .anyRun, _ => True
  | .anyChar, piece => ∃ c, piece = [c]
  | .exactly d, piece => piece = [d]
  | .oneOf cls, piece => ∃ c, piece = [c] ∧ cls.Holds c

/-- Whether a text splits into consecutive pieces, one for each part. -/
def Fits (parts : List Part) (text : List Char) : Prop :=
  ∃ pieces : List (List Char), text = pieces.flatten ∧ List.Forall₂ Part.Accepts parts pieces

/-! ### Classes of a pattern -/

/-- What is left of a pattern at a position that is neither in a class nor behind a backslash.  A
class ends at the first bracket that closes. -/
inductive Reaches : List Char → List Char → Prop
  | start (cs : List Char) : Reaches cs cs
  | sign {c : Char} {rest left : List Char} (noClass : c ≠ '[') (noEscape : c ≠ '\\')
    (later : Reaches rest left) : Reaches (c :: rest) left
  | escaped {c : Char} {rest left : List Char} (later : Reaches rest left) :
    Reaches ('\\' :: c :: rest) left
  | behindClass {inside rest left : List Char} (closed : ']' ∉ inside) (later : Reaches rest left) :
    Reaches ('[' :: (inside ++ ']' :: rest)) left

/-- Some class is opened and not closed. -/
def Unclosed (cs : List Char) : Prop := ∃ rest, Reaches cs ('[' :: rest) ∧ ']' ∉ rest

/-- A class of the pattern, by what stands between its brackets. -/
def HasClass (cs inside : List Char) : Prop :=
  ∃ rest, Reaches cs ('[' :: (inside ++ ']' :: rest)) ∧ ']' ∉ inside

/-- All classes are closed, and hold letters, digits and ascending ranges of them. -/
structure WellFormed (cs : List Char) : Prop where
  closed : ¬ Unclosed cs
  classes : ∀ inside, HasClass cs inside → ∃ cls, Inside cls inside

/-- Induction on a pattern by its parts, where nothing is known of what a class holds. -/
@[elab_as_elim]
theorem pattern_induction {motive : List Char → Prop} (nil : motive []) (backslash : motive ['\\'])
    (sign : ∀ c rest, c ≠ '[' → c ≠ '\\' → motive rest → motive (c :: rest))
    (escaped : ∀ c rest, motive rest → motive ('\\' :: c :: rest))
    (unclosed : ∀ rest, ']' ∉ rest → motive ('[' :: rest))
    (behindClass : ∀ inside rest, ']' ∉ inside → motive rest →
      motive ('[' :: (inside ++ ']' :: rest))) (cs : List Char) : motive cs := by
  -- a class takes any number of characters, so the induction is on the length
  induction length : cs.length using Nat.strongRecOn generalizing cs with
  | _ n inductionHypothesis =>
    have shorter (rest : List Char) (less : rest.length < cs.length) : motive rest :=
      inductionHypothesis _ (length ▸ less) rest rfl
    cases cs with
    | nil => exact nil
    | cons c rest =>
        by_cases bracket : c = '['
        · subst bracket
          by_cases closed : ']' ∈ rest
          · obtain ⟨inside, behind, rfl, noEnd⟩ := List.eq_append_cons_of_mem closed
            refine behindClass inside behind noEnd (shorter behind ?_)
            simp only [List.length_cons, List.length_append]
            omega
          · exact unclosed rest closed
        · by_cases escape : c = '\\'
          · subst escape
            cases rest with
            | nil => exact backslash
            | cons d rest =>
                exact escaped d rest (shorter rest (Nat.lt_succ_of_lt (Nat.lt_succ_self _)))
          · exact sign c rest bracket escape (shorter rest (Nat.lt_succ_self _))

/-! ### One part after another -/

/-- The second pattern is what is left of the first behind its first part. -/
def Behind (cs rest : List Char) : Prop := ∀ left, Reaches cs left ↔ left = cs ∨ Reaches rest left

theorem behind_sign {c : Char} (noClass : c ≠ '[') (noEscape : c ≠ '\\') (rest : List Char) :
    Behind (c :: rest) rest := by
  intro left
  constructor
  · intro reached
    cases reached with
    | start => exact Or.inl rfl
    | sign _ _ later => exact Or.inr later
    | escaped _ => exact absurd rfl noEscape
    | behindClass _ _ => exact absurd rfl noClass
  · rintro (rfl | later)
    · exact .start _
    · exact .sign noClass noEscape later

theorem behind_escaped (c : Char) (rest : List Char) : Behind ('\\' :: c :: rest) rest := by
  intro left
  constructor
  · intro reached
    cases reached with
    | start => exact Or.inl rfl
    | sign _ noEscape _ => exact absurd rfl noEscape
    | escaped later => exact Or.inr later
  · rintro (rfl | later)
    · exact .start _
    · exact .escaped later

/-- The first bracket that closes is found in one way only. -/
theorem inside_inj {inside other rest behind : List Char} (closed : ']' ∉ inside)
    (otherClosed : ']' ∉ other) (same : inside ++ ']' :: rest = other ++ ']' :: behind) :
    inside = other ∧ rest = behind := by
  have lengths := congrArg (List.idxOf ']') same
  rw [List.idxOf_append_of_notMem closed, List.idxOf_append_of_notMem otherClosed,
    List.idxOf_cons_self, List.idxOf_cons_self] at lengths
  obtain ⟨sameInside, sameRest⟩ := List.append_inj same lengths
  exact ⟨sameInside, (List.cons.inj sameRest).2⟩

theorem behind_class {inside : List Char} (closed : ']' ∉ inside) (rest : List Char) :
    Behind ('[' :: (inside ++ ']' :: rest)) rest := by
  intro left
  constructor
  · intro reached
    -- the class that is left out may end where this one does only
    generalize whole : '[' :: (inside ++ ']' :: rest) = cs at reached
    cases reached with
    | start => exact Or.inl rfl
    | sign noClass _ _ => exact absurd (List.cons.inj whole).1.symm noClass
    | escaped _ => exact absurd (List.cons.inj whole).1 (by decide)
    | behindClass otherClosed later =>
        obtain ⟨-, rfl⟩ := inside_inj closed otherClosed (List.cons.inj whole).2
        exact Or.inr later
  · rintro (rfl | later)
    · exact .start _
    · exact .behindClass closed later

section Behind

variable {cs rest : List Char}

/-- Where the first part is no class without end, the class without end stands behind it. -/
theorem Behind.unclosed_iff (behind : Behind cs rest)
    (closed : ∀ tail, cs = '[' :: tail → ']' ∈ tail) : Unclosed cs ↔ Unclosed rest := by
  constructor
  · rintro ⟨tail, reached, noEnd⟩
    rcases (behind _).1 reached with whole | later
    · exact absurd (closed tail whole.symm) noEnd
    · exact ⟨tail, later, noEnd⟩
  · rintro ⟨tail, later, noEnd⟩
    exact ⟨tail, (behind _).2 (Or.inr later), noEnd⟩

/-- A class of a pattern is its first part or stands behind it. -/
theorem Behind.hasClass_iff (behind : Behind cs rest) (inside : List Char) :
    HasClass cs inside ↔
      (∃ tail, cs = '[' :: (inside ++ ']' :: tail) ∧ ']' ∉ inside) ∨ HasClass rest inside := by
  constructor
  · rintro ⟨tail, reached, noEnd⟩
    rcases (behind _).1 reached with same | later
    · exact Or.inl ⟨tail, same.symm, noEnd⟩
    · exact Or.inr ⟨tail, later, noEnd⟩
  · rintro (⟨tail, rfl, noEnd⟩ | ⟨tail, later, noEnd⟩)
    · exact ⟨tail, .start _, noEnd⟩
    · exact ⟨tail, (behind _).2 (Or.inr later), noEnd⟩

/-- A pattern is well-formed if its first part is and what follows it. -/
theorem Behind.wellFormed_iff (behind : Behind cs rest)
    (closed : ∀ tail, cs = '[' :: tail → ']' ∈ tail) :
    WellFormed cs ↔
      (∀ inside tail, cs = '[' :: (inside ++ ']' :: tail) → ']' ∉ inside →
        ∃ cls, Inside cls inside) ∧ WellFormed rest := by
  have unclosed := behind.unclosed_iff closed
  constructor
  · intro whole
    refine ⟨fun inside tail first noEnd => ?_, fun later => whole.closed (unclosed.2 later),
      fun inside later => whole.classes inside ((behind.hasClass_iff inside).2 (Or.inr later))⟩
    exact whole.classes inside ((behind.hasClass_iff inside).2 (Or.inl ⟨tail, first, noEnd⟩))
  · rintro ⟨first, whole⟩
    refine ⟨fun later => whole.closed (unclosed.1 later), fun inside held => ?_⟩
    rcases (behind.hasClass_iff inside).1 held with ⟨tail, same, noEnd⟩ | later
    · exact first inside tail same noEnd
    · exact whole.classes inside later

end Behind

section Parts

variable {c : Char} (noClass : c ≠ '[') (noEscape : c ≠ '\\') (rest : List Char)

include noClass noEscape in
theorem unclosed_sign : Unclosed (c :: rest) ↔ Unclosed rest :=
  (behind_sign noClass noEscape rest).unclosed_iff
    fun _ whole => absurd (List.cons.inj whole).1 noClass

include noClass noEscape in
theorem wellFormed_sign : WellFormed (c :: rest) ↔ WellFormed rest :=
  ((behind_sign noClass noEscape rest).wellFormed_iff
    fun _ whole => absurd (List.cons.inj whole).1 noClass).trans
      (and_iff_right fun _ _ whole => absurd (List.cons.inj whole).1 noClass)

theorem unclosed_escaped (c : Char) : Unclosed ('\\' :: c :: rest) ↔ Unclosed rest :=
  (behind_escaped c rest).unclosed_iff nofun

theorem wellFormed_escaped (c : Char) : WellFormed ('\\' :: c :: rest) ↔ WellFormed rest :=
  ((behind_escaped c rest).wellFormed_iff nofun).trans (and_iff_right nofun)

variable {inside : List Char} (closed : ']' ∉ inside)

theorem closed_class (inside rest tail : List Char)
    (whole : '[' :: (inside ++ ']' :: rest) = '[' :: tail) : ']' ∈ tail := by
  rw [← (List.cons.inj whole).2]
  exact List.mem_append_right _ List.mem_cons_self

include closed in
theorem unclosed_class : Unclosed ('[' :: (inside ++ ']' :: rest)) ↔ Unclosed rest :=
  (behind_class closed rest).unclosed_iff (closed_class inside rest)

include closed in
theorem wellFormed_class :
    WellFormed ('[' :: (inside ++ ']' :: rest)) ↔ (∃ cls, Inside cls inside) ∧ WellFormed rest := by
  refine ((behind_class closed rest).wellFormed_iff (closed_class inside rest)).trans
    (and_congr_left' ?_)
  constructor
  · exact fun first => first inside rest rfl closed
  · intro first other tail same noEnd
    obtain ⟨rfl, -⟩ := inside_inj closed noEnd (List.cons.inj same).2
    exact first

end Parts

theorem not_unclosed_nil : ¬ Unclosed [] := fun ⟨_, reached, _⟩ => nomatch reached

theorem not_unclosed_backslash : ¬ Unclosed ['\\'] := by
  rintro ⟨rest, reached, -⟩
  cases reached with
  | sign _ noEscape _ => exact noEscape rfl

/-! ### Well-formed patterns are those written from parts -/

theorem not_mem_text {cls : CharClass} {sign : Char} (noAlphanum : sign.isAlphanum = false)
    (noMinus : sign ≠ '-') : sign ∉ cls.text := fun member =>
  (CharClass.mem_text member).elim (fun plain => Regex.ne_of_alphanum plain noAlphanum rfl) noMinus

theorem not_mem_inside {cls : CharClass} {inside : List Char} (written : Inside cls inside) :
    ']' ∉ inside := by
  cases written with
  | listed listed => exact not_mem_text (by decide) (by decide)
  | negated negated isMark =>
      refine List.not_mem_cons_of_ne_of_not_mem ?_ (not_mem_text (by decide) (by decide))
      rcases isMark with rfl | rfl <;> decide

/-- The part of a character that is neither a backslash nor a bracket. -/
def part (c : Char) : Part := if c = '*' then .anyRun else if c = '?' then .anyChar else .exactly c

theorem written_part {c : Char} (noClass : c ≠ '[') (noEscape : c ≠ '\\') :
    (part c).Written [c] := by
  rw [part]
  split
  next star => exact star ▸ .anyRun
  next noStar =>
    split
    next mark => exact mark ▸ .anyChar
    next noMark => exact .plain (by simp [signs, noStar, noMark, noClass, noEscape])

theorem exists_written {cs : List Char} (whole : WellFormed cs) : ∃ parts, Written parts cs := by
  induction cs using pattern_induction with
  | nil => exact ⟨[], .nil⟩
  | backslash => exact ⟨_, .backslash⟩
  | sign c rest noClass noEscape inductionHypothesis =>
      obtain ⟨parts, later⟩ := inductionHypothesis
        ((wellFormed_sign noClass noEscape rest).1 whole)
      exact ⟨_, .cons (written_part noClass noEscape) later⟩
  | escaped c rest inductionHypothesis =>
      obtain ⟨parts, later⟩ := inductionHypothesis
        ((wellFormed_escaped rest c).1 whole)
      exact ⟨_, .cons (.escaped c) later⟩
  | unclosed rest noEnd => exact absurd ⟨rest, .start _, noEnd⟩ whole.closed
  | behindClass inside rest noEnd inductionHypothesis =>
      obtain ⟨⟨cls, written⟩, wholeLater⟩ := (wellFormed_class rest noEnd).1 whole
      obtain ⟨parts, later⟩ := inductionHypothesis wholeLater
      have pattern := Written.cons (.oneOf written) later
      rw [List.cons_append, List.append_assoc] at pattern
      exact ⟨_, pattern⟩

/-- What is written from parts is well-formed. -/
theorem wellFormed_written {parts : List Part} {cs : List Char} (written : Written parts cs) :
    WellFormed cs := by
  induction written with
  | nil => exact ⟨not_unclosed_nil, fun _ ⟨_, reached, _⟩ => nomatch reached⟩
  | backslash =>
      refine ⟨not_unclosed_backslash, ?_⟩
      rintro inside ⟨rest, reached, -⟩
      cases reached with
      | sign _ noEscape _ => exact absurd rfl noEscape
  | @cons p parts text rest first later inductionHypothesis =>
      have sign {c : Char} (noClass : c ≠ '[') (noEscape : c ≠ '\\') : WellFormed ([c] ++ rest) :=
        (wellFormed_sign noClass noEscape rest).2 inductionHypothesis
      cases first with
      | anyRun => exact sign (by decide) (by decide)
      | anyChar => exact sign (by decide) (by decide)
      | @plain c noSign =>
          simp only [signs, List.mem_cons, List.not_mem_nil, or_false, not_or] at noSign
          exact sign noSign.2.2.1 noSign.2.2.2
      | escaped c => exact (wellFormed_escaped rest c).2 inductionHypothesis
      | @oneOf cls inside written =>
          rw [List.cons_append, List.append_assoc, List.singleton_append]
          exact (wellFormed_class rest (not_mem_inside written)).2
            ⟨⟨cls, written⟩, inductionHypothesis⟩

theorem wellFormed_iff (cs : List Char) : WellFormed cs ↔ ∃ parts, Written parts cs :=
  ⟨exists_written, fun ⟨_, written⟩ => wellFormed_written written⟩

/-! ### The translation of a class -/

/-- A character inside a class as an expression writes it. -/
def escapeInside (c : Char) : List Char :=
  if c = '\\' ∨ c = '[' ∨ c = '&' ∨ c = '~' then ['\\', c] else [c]

theorem classBody_closed {inside : List Char} (noEnd : ']' ∉ inside) (rest : List Char) :
    classBody (inside ++ ']' :: rest) = some (inside.flatMap escapeInside, rest) := by
  induction inside with
  | nil => rfl
  | cons c inside inductionHypothesis =>
      obtain ⟨first, later⟩ := not_or.1 (List.mem_cons.not.1 noEnd)
      rw [List.cons_append, classBody, if_neg (Ne.symm first), inductionHypothesis later]
      rfl

theorem classBody_unclosed {cs : List Char} (noEnd : ']' ∉ cs) : classBody cs = none := by
  induction cs with
  | nil => rfl
  | cons c cs inductionHypothesis =>
      obtain ⟨first, later⟩ := not_or.1 (List.mem_cons.not.1 noEnd)
      rw [classBody, if_neg (Ne.symm first), inductionHypothesis later]
      rfl

/-- A class begins behind an exclamation mark or a caret, if there is one. -/
theorem characterClass_cases (cs : List Char) :
    (∃ mark rest, cs = mark :: rest ∧ (mark = '!' ∨ mark = '^') ∧
      characterClass cs = (classBody rest).map fun r => ('[' :: '^' :: (r.1 ++ [']']), r.2)) ∨
    characterClass cs = (classBody cs).map fun r => ('[' :: (r.1 ++ [']']), r.2) := by
  cases cs with
  | nil => exact Or.inr rfl
  | cons c rest =>
      by_cases bang : c = '!'
      · subst bang
        exact Or.inl ⟨_, rest, rfl, Or.inl rfl, rfl⟩
      · by_cases caret : c = '^'
        · subst caret
          exact Or.inl ⟨_, rest, rfl, Or.inr rfl, rfl⟩
        · exact Or.inr (by simp [characterClass, bang, caret])

/-- Any closed class is translated, and what follows it is left. -/
theorem characterClass_closed {inside : List Char} (noEnd : ']' ∉ inside) (rest : List Char) :
    ∃ text, characterClass (inside ++ ']' :: rest) = some (text, rest) := by
  rcases characterClass_cases (inside ++ ']' :: rest) with ⟨mark, left, split, isMark, same⟩ | same
  · cases inside with
    | nil =>
        -- the bracket that closes is no mark
        obtain ⟨rfl, -⟩ := List.cons.inj split
        exact absurd isMark (by decide)
    | cons c inside =>
        rw [List.cons_append] at split
        obtain ⟨-, rfl⟩ := List.cons.inj split
        rw [same, classBody_closed (not_or.1 (List.mem_cons.not.1 noEnd)).2]
        exact ⟨_, rfl⟩
  · rw [same, classBody_closed noEnd]
    exact ⟨_, rfl⟩

theorem characterClass_unclosed {cs : List Char} (noEnd : ']' ∉ cs) :
    characterClass cs = none := by
  rcases characterClass_cases cs with ⟨mark, left, rfl, -, same⟩ | same
  · rw [same, classBody_unclosed (not_or.1 (List.mem_cons.not.1 noEnd)).2]
    rfl
  · rw [same, classBody_unclosed noEnd]
    rfl

theorem classBody_text (cls : CharClass) (rest : List Char) :
    classBody (cls.text ++ ']' :: rest) = some (cls.text, rest) := by
  have plain : ∀ c ∈ cls.text, escapeInside c = [c] := fun c member => by
    refine if_neg ?_
    rintro (rfl | rfl | rfl | rfl) <;> exact not_mem_text (by decide) (by decide) member
  rw [classBody_closed (not_mem_text (by decide) (by decide)), List.flatMap_congr plain,
    List.flatMap_singleton']

/-- The class of letters, digits and ranges is the same class in the expression. -/
theorem characterClass_inside {cls : CharClass} {inside : List Char} (written : Inside cls inside)
    (rest : List Char) : characterClass (inside ++ ']' :: rest) = some (cls.written, rest) := by
  cases written with
  | listed listed =>
      rcases characterClass_cases (cls.text ++ ']' :: rest) with
        ⟨mark, left, split, isMark, -⟩ | same
      · -- the first member is no mark
        obtain ⟨c, more, start, plain⟩ := cls.exists_text
        rw [start] at split
        obtain ⟨rfl, -⟩ := List.cons.inj split
        rcases isMark with rfl | rfl <;> exact absurd plain (by decide)
      · rw [same, classBody_text, CharClass.written, listed]
        rfl
  | @negated negated mark isMark =>
      have same : characterClass (mark :: (cls.text ++ ']' :: rest))
          = (classBody (cls.text ++ ']' :: rest)).map
              fun r => ('[' :: '^' :: (r.1 ++ [']']), r.2) := by
        rcases isMark with rfl | rfl <;> rfl
      rw [List.cons_append, same, classBody_text, CharClass.written, negated]
      rfl

/-! ### The translation of a pattern -/

namespace Part

/-- A part as an expression writes it. -/
def text : Part → List Char
  | anyRun => ['.', '*']
  | anyChar => ['.']
  | exactly c => Regex.Parser.escape [c]
  | oneOf cls => cls.written

def regex : Part → Regex
  | anyRun => .rep (Regex.Parser.anyCharacter { dotAll := true }) 0 none
  | anyChar => Regex.Parser.anyCharacter { dotAll := true }
  | exactly c => Regex.Parser.literal {} c.toNat
  | oneOf cls => .oneOf cls.set

theorem reads (p : Part) : Reads true p.text p.regex := by
  cases p with
  | anyRun => exact Regex.reads_anyRun true
  | anyChar => exact .of_step (by decide) (Regex.expression_dot true)
  | exactly c => exact Regex.reads_exactly true c
  | oneOf cls => exact Regex.reads_class true cls

end Part

section Steps

variable (fuel : Nat) (rest : List Char)

theorem regexBody_bracket :
    regexBody (fuel + 1) ('[' :: rest)
      = (characterClass rest).bind fun r => (regexBody fuel r.2).map (r.1 ++ ·) := by
  rw [regexBody.eq_def]
  simp only [Char.reduceEq, ↓reduceIte]
  cases characterClass rest <;> rfl

theorem regexBody_escaped (c : Char) :
    regexBody (fuel + 1) ('\\' :: c :: rest)
      = (regexBody fuel rest).map (Regex.Parser.escape [c] ++ ·) := rfl

theorem regexBody_sign {c : Char} (noClass : c ≠ '[') (noEscape : c ≠ '\\') :
    regexBody (fuel + 1) (c :: rest) = (regexBody fuel rest).map ((part c).text ++ ·) := by
  rw [regexBody.eq_def, part]
  dsimp only
  by_cases star : c = '*'
  · rw [if_pos star, if_pos star]
    rfl
  · by_cases mark : c = '?'
    · rw [if_neg star, if_pos mark, if_neg star, if_pos mark]
      rfl
    · rw [if_neg star, if_neg mark, if_neg noClass, if_neg noEscape, if_neg star, if_neg mark]
      rfl

/-- Each part is translated on its own. -/
theorem regexBody_part {p : Part} {text : List Char} (written : p.Written text) :
    regexBody (fuel + 1) (text ++ rest) = (regexBody fuel rest).map (p.text ++ ·) := by
  cases written with
  | anyRun => rfl
  | anyChar => rfl
  | @plain c noSign =>
      simp only [signs, List.mem_cons, List.not_mem_nil, or_false, not_or] at noSign
      obtain ⟨noRun, noMark, noClass, noEscape⟩ := noSign
      have sign := regexBody_sign fuel rest noClass noEscape
      rwa [part, if_neg noRun, if_neg noMark] at sign
  | escaped c => rfl
  | @oneOf cls inside written =>
      rw [List.cons_append, List.append_assoc, List.singleton_append, regexBody_bracket,
        characterClass_inside written]
      rfl

end Steps

theorem Part.Written.length_pos {p : Part} {text : List Char} (written : p.Written text) :
    0 < text.length := by
  cases written <;> exact Nat.zero_lt_succ _

/-- Each step of the translation takes a character at least. -/
theorem exists_fuel {c : Char} {rest : List Char} {fuel : Nat}
    (enough : (c :: rest).length ≤ fuel) : ∃ left, fuel = left + 1 ∧ rest.length ≤ left := by
  obtain ⟨left, rfl⟩ := Nat.exists_eq_add_of_le' (Nat.le_trans (Nat.succ_pos rest.length) enough)
  exact ⟨left, rfl, Nat.le_of_succ_le_succ enough⟩

/-- A pattern is translated part by part. -/
theorem regexBody_written {parts : List Part} {cs : List Char} (written : Written parts cs)
    {fuel : Nat} (enough : cs.length ≤ fuel) :
    regexBody fuel cs = some (parts.flatMap Part.text) := by
  induction written generalizing fuel with
  | nil => cases fuel <;> rfl
  | backslash =>
      obtain ⟨left, rfl, -⟩ := exists_fuel enough
      rfl
  | @cons p parts text rest first later inductionHypothesis =>
      have some := first.length_pos
      rw [List.length_append] at enough
      obtain ⟨fuel, rfl⟩ : ∃ left, fuel = left + 1 := ⟨fuel - 1, by omega⟩
      rw [regexBody_part fuel rest first, inductionHypothesis (by omega)]
      rfl

/-- The translation fails exactly if a class is not closed. -/
theorem regexBody_eq_none_iff {cs : List Char} {fuel : Nat} (enough : cs.length ≤ fuel) :
    regexBody fuel cs = none ↔ Unclosed cs := by
  induction cs using pattern_induction generalizing fuel with
  | nil => exact iff_of_false (by cases fuel <;> exact nofun) not_unclosed_nil
  | backslash =>
      obtain ⟨left, rfl, -⟩ := exists_fuel enough
      exact iff_of_false nofun not_unclosed_backslash
  | sign c rest noClass noEscape inductionHypothesis =>
      obtain ⟨left, rfl, later⟩ := exists_fuel enough
      rw [regexBody_sign left rest noClass noEscape, Option.map_eq_none_iff,
        inductionHypothesis later, unclosed_sign noClass noEscape]
  | escaped c rest inductionHypothesis =>
      obtain ⟨left, rfl, later⟩ := exists_fuel enough
      rw [regexBody_escaped, Option.map_eq_none_iff,
        inductionHypothesis (Nat.le_of_succ_le later), unclosed_escaped]
  | unclosed rest noEnd =>
      obtain ⟨left, rfl, -⟩ := exists_fuel enough
      rw [regexBody_bracket, characterClass_unclosed noEnd]
      exact iff_of_true rfl ⟨rest, .start _, noEnd⟩
  | behindClass inside rest noEnd inductionHypothesis =>
      obtain ⟨left, rfl, later⟩ := exists_fuel enough
      obtain ⟨text, translated⟩ := characterClass_closed noEnd rest
      rw [List.length_append, List.length_cons] at later
      rw [regexBody_bracket, translated, Option.bind_some, Option.map_eq_none_iff,
        inductionHypothesis (by omega), unclosed_class rest noEnd]

/-! ### The expression of a pattern -/

/-- The expression that a pattern is read as, whatever its size. -/
def expression? (pattern : String) : Option Regex :=
  (toRegexText? pattern).bind fun text =>
    Regex.Parser.expression (text.length + 1) {} {} [] [] text.toList

/-- Only its size keeps an expression that was read from being accepted. -/
theorem toRegex_of_expression? {pattern : String} {r : Regex} (read : expression? pattern = some r) :
    toRegex pattern
      = if Regex.Parser.size r ≤ Regex.Parser.sizeLimit then .ok r else .error .badPattern := by
  obtain ⟨text, written, readText⟩ := Option.bind_eq_some_iff.1 read
  unfold toRegex
  rw [written]
  dsimp only
  rw [Regex.parse?, readText]
  dsimp only
  by_cases small : Regex.Parser.size r ≤ Regex.Parser.sizeLimit
  · rw [if_pos small, if_pos small]
  · rw [if_neg small, if_neg small]

theorem toRegexText?_eq_none_iff (pattern : String) :
    toRegexText? pattern = none ↔ Unclosed pattern.toList := by
  rw [toRegexText?, Option.map_eq_none_iff]
  exact regexBody_eq_none_iff (Nat.le_of_eq String.length_toList)

theorem toRegex_unterminated_iff (pattern : String) :
    toRegex pattern = .error .unterminatedClass ↔ Unclosed pattern.toList := by
  rw [← toRegexText?_eq_none_iff, toRegex]
  cases toRegexText? pattern with
  | none => exact iff_of_true rfl rfl
  | some text =>
      refine iff_of_false (fun same => ?_) nofun
      dsimp only at same
      split at same <;> cases same

/-- The items of an expression for whole keys. -/
def wholeTexts (parts : List Part) : List (List Char) :=
  ['^'] :: (parts.map Part.text ++ [['$']])

def wholeExpressions (parts : List Part) : List Regex :=
  .look .textStart :: (parts.map Part.regex ++ [.look .textEnd])

theorem reads_whole (parts : List Part) :
    List.Forall₂ (Reads true) (wholeTexts parts) (wholeExpressions parts) := by
  refine .cons (Regex.reads_piece true .textStart) (List.rel_append ?_ ?_)
  · rw [List.forall₂_map_left_iff, List.forall₂_map_right_iff, List.forall₂_same]
    exact fun p _ => p.reads
  · exact .cons (Regex.reads_piece true .textEnd) .nil

theorem toRegexText?_written {parts : List Part} {pattern : String}
    (written : Written parts pattern.toList) :
    toRegexText? pattern
      = some (String.ofList (Regex.dotAllFlag ++ (wholeTexts parts).flatten)) := by
  rw [toRegexText?, regexBody_written written (Nat.le_of_eq String.length_toList), wholeTexts,
    List.flatten_cons, List.flatten_append, ← List.flatMap_def]
  rfl

theorem expression?_written {parts : List Part} {pattern : String}
    (written : Written parts pattern.toList) :
    expression? pattern = some (chain (wholeExpressions parts)) := by
  rw [expression?, toRegexText?_written written, Option.bind_some, String.length_ofList,
    String.toList_ofList, Regex.expression_dotAll (reads_whole parts)]

/-! ### The size of an expression -/

/-- No part takes more than ten steps of the expression for a character. -/
theorem Part.Written.size_le {p : Part} {text : List Char} (written : p.Written text) :
    Regex.Parser.size p.regex ≤ 10 * text.length := by
  cases written with
  | anyRun => decide
  | anyChar => decide
  | @plain c _ => exact Nat.le_trans (Regex.size_literal_le c) (Nat.le_add_left 7 3)
  | escaped c => exact Nat.le_trans (Regex.size_literal_le c) (Nat.le_add_left 7 13)
  | @oneOf cls inside written =>
      have size : Regex.Parser.size (Part.oneOf cls).regex ≤ 4 * cls.members.length + 9 :=
        cls.size_set_le
      have members := Regex.Member.length_le_texts cls.members
      have text : cls.text.length ≤ inside.length := by
        cases written with
        | listed _ => exact Nat.le_refl _
        | negated _ _ => exact Nat.le_succ _
      rw [CharClass.text] at text
      rw [List.length_cons, List.length_append, List.length_singleton]
      omega

theorem sizeAll_le {parts : List Part} {cs : List Char} (written : Written parts cs) :
    Regex.sizeAll (parts.map Part.regex) ≤ 10 * cs.length := by
  induction written with
  | nil => exact Nat.le_refl 0
  | backslash =>
      have one : Regex.Parser.size (Part.exactly '\\').regex ≤ 7 := Regex.size_literal_le '\\'
      show _ + 0 ≤ 10
      omega
  | @cons p parts text rest first later inductionHypothesis =>
      have one := first.size_le
      rw [List.map_cons, Regex.sizeAll, List.length_append]
      omega

/-- The expression of a pattern that is not too long is not too large. -/
theorem size_wholeExpressions_le {parts : List Part} {cs : List Char} (written : Written parts cs) :
    Regex.Parser.size (chain (wholeExpressions parts)) ≤ 10 * cs.length + 2 := by
  have all := sizeAll_le written
  rw [wholeExpressions, Regex.size_chain, Regex.sizeAll, Regex.sizeAll_append]
  show 1 + (_ + (1 + 0)) ≤ _
  omega

/-! ### The keys that a pattern matches -/

/-- The expression of a part takes the pieces that the part accepts. -/
theorem takes_part (part : Part) (m : Regex.Cursor) (rest : List Char) :
    (∃ q, part.regex.Spans m q ∧ q.after = rest) ↔
      ∃ piece, part.Accepts piece ∧ m.after = piece ++ rest := by
  cases part with
  | anyRun =>
      refine (Like.takes_anyRun true m rest).trans (exists_congr fun _ => and_congr_left' ?_)
      exact iff_of_true nofun trivial
  | anyChar =>
      refine (Like.takes_one (Regex.spans_anyChar true) m rest).trans
        (exists_congr fun _ => and_congr_left' (exists_congr fun _ => ?_))
      exact and_iff_left nofun
  | exactly c => exact Like.takes_exactly c m rest
  | oneOf cls => exact Like.takes_one (Regex.spans_class cls) m rest

/-- The expression of a pattern matches the keys that its parts fit. -/
theorem isMatch_wholeExpressions (parts : List Part) (key : String) :
    (chain (wholeExpressions parts)).isMatch key = true ↔ Fits parts key.toList :=
  (Like.isMatch_fromStart _ key).trans
    (Like.exists_spans_iff fun part _ m rest => takes_part part m rest)

end Recordkeeper.Glob
