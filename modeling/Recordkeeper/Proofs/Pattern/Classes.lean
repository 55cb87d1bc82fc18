import Recordkeeper.Proofs.Pattern.Expression

/-!
Contract: classes of letters, digits and ascending ranges of them in expressions.

Owns:
- the members of a class and the characters that it holds;
- `reads_class`: such a class is one item of an expression;
- `spans_class`: the expression of a class takes one character, one that the class holds.

Does not own: classes with other signs, named and nested classes, and operators of classes.

Letters and digits mean nothing but themselves in a class, so the reader takes one member after
another.
-/

set_option autoImplicit false

namespace Recordkeeper.Regex

open Recordkeeper.Regex.Parser

/-! ### Members -/

/-- A member of a class. -/
inductive Member where
  | one (c : Char)
  | range (first last : Char)
  deriving DecidableEq

namespace Member

/-- A letter or a digit, or an ascending range of them. -/
def Plain : Member → Prop
  | one c => c.isAlphanum = true
  | range first last => first.isAlphanum = true ∧ last.isAlphanum = true ∧ first ≤ last

instance : DecidablePred Plain
  | one c => inferInstanceAs (Decidable (c.isAlphanum = true))
  | range first last => inferInstanceAs
      (Decidable (first.isAlphanum = true ∧ last.isAlphanum = true ∧ first ≤ last))

def Holds : Member → Char → Prop
  | one d, c => c = d
  | range first last, c => first ≤ c ∧ c ≤ last

instance : DecidableRel Holds
  | one d, c => inferInstanceAs (Decidable (c = d))
  | range first last, c => inferInstanceAs (Decidable (first ≤ c ∧ c ≤ last))

def text : Member → List Char
  | one c => [c]
  | range first last => [first, '-', last]

def points : Member → Nat × Nat
  | one c => (c.toNat, c.toNat)
  | range first last => (first.toNat, last.toNat)

theorem holds_iff (m : Member) (c : Char) :
    m.Holds c ↔ m.points.1 ≤ c.toNat ∧ c.toNat ≤ m.points.2 := by
  cases m with
  | one d =>
      show c = d ↔ d.toNat ≤ c.toNat ∧ c.toNat ≤ d.toNat
      rw [← Char.toNat_inj]
      omega
  | range first last => exact Iff.rfl

theorem points_le {m : Member} (plain : m.Plain) : m.points.1 ≤ m.points.2 := by
  cases m with
  | one c => exact Nat.le_refl _
  | range first last => exact plain.2.2

theorem exists_text {m : Member} (plain : m.Plain) :
    ∃ c more, m.text = c :: more ∧ c.isAlphanum = true := by
  cases m with
  | one c => exact ⟨c, [], rfl, plain⟩
  | range first last => exact ⟨first, ['-', last], rfl, plain.1⟩

theorem mem_text {m : Member} (plain : m.Plain) {c : Char} (member : c ∈ m.text) :
    c.isAlphanum = true ∨ c = '-' := by
  cases m with
  | one d =>
      obtain rfl := List.mem_singleton.1 member
      exact Or.inl plain
  | range first last =>
      simp only [text, List.mem_cons, List.not_mem_nil, or_false] at member
      rcases member with rfl | minus | rfl
      · exact Or.inl plain.1
      · exact Or.inr minus
      · exact Or.inl plain.2.1

theorem length_le_texts (members : List Member) :
    members.length ≤ (members.flatMap text).length := by
  induction members with
  | nil => exact Nat.le_refl 0
  | cons m members inductionHypothesis =>
      have some : 1 ≤ m.text.length := by cases m <;> simp [text]
      rw [List.flatMap_cons, List.length_append, List.length_cons]
      omega

end Member

/-! ### Classes -/

/-- A class of letters, digits and ascending ranges of them, or of all other characters. -/
structure CharClass where
  negated : Bool
  members : List Member
  some : members ≠ []
  plain : ∀ m ∈ members, m.Plain

namespace CharClass

/-- One of the members, or none of them if the class is negated. -/
def Holds (cls : CharClass) (c : Char) : Prop :=
  if cls.negated then ∀ m ∈ cls.members, ¬ m.Holds c else ∃ m ∈ cls.members, m.Holds c

instance (cls : CharClass) (c : Char) : Decidable (cls.Holds c) :=
  inferInstanceAs (Decidable (if cls.negated then ∀ m ∈ cls.members, ¬ m.Holds c
    else ∃ m ∈ cls.members, m.Holds c))

def text (cls : CharClass) : List Char := cls.members.flatMap Member.text

theorem exists_text (cls : CharClass) : ∃ c more, cls.text = c :: more ∧ c.isAlphanum = true := by
  obtain ⟨m, members, split⟩ := List.exists_cons_of_ne_nil cls.some
  obtain ⟨c, more, text, plain⟩ := Member.exists_text (cls.plain m (split ▸ List.mem_cons_self))
  refine ⟨c, more ++ members.flatMap Member.text, ?_, plain⟩
  rw [CharClass.text, split, List.flatMap_cons, text]
  rfl

theorem mem_text {cls : CharClass} {c : Char} (member : c ∈ cls.text) :
    c.isAlphanum = true ∨ c = '-' := by
  obtain ⟨m, listed, inside⟩ := List.mem_flatMap.1 member
  exact Member.mem_text (cls.plain m listed) inside

def written (cls : CharClass) : List Char :=
  '[' :: ((if cls.negated then ['^'] else []) ++ (cls.text ++ [']']))

/-- The class when its last member was read. -/
def opened (cls : CharClass) : OpenClass := ⟨cls.negated, none, cls.members.map Member.points⟩

def set (cls : CharClass) : Text.Ranges := cls.opened.close {}

theorem filled_points (cls : CharClass) : Text.Ranges.Filled (cls.members.map Member.points) := by
  intro r member
  obtain ⟨m, listed, rfl⟩ := List.mem_map.1 member
  exact Member.points_le (cls.plain m listed)

theorem contains_points (cls : CharClass) (c : Char) :
    Text.Ranges.contains (cls.members.map Member.points) c.toNat = true
      ↔ ∃ m ∈ cls.members, m.Holds c := by
  rw [Text.Ranges.contains_iff]
  simp only [List.mem_map, exists_exists_and_eq_and, Member.holds_iff]

/-- The reader brings the points of the members into normal form twice. -/
theorem set_eq (cls : CharClass) :
    cls.set = if cls.negated
      then (Text.Ranges.normal (Text.Ranges.normal (cls.members.map Member.points))).complement
      else Text.Ranges.normal (Text.Ranges.normal (cls.members.map Member.points)) := rfl

theorem contains_set (cls : CharClass) (c : Char) :
    cls.set.contains c.toNat = true ↔ cls.Holds c := by
  have filled := Text.Ranges.filled_normal (Text.Ranges.filled_normal cls.filled_points)
  have held : Text.Ranges.contains (Text.Ranges.normal (Text.Ranges.normal
      (cls.members.map Member.points))) c.toNat = true ↔ ∃ m ∈ cls.members, m.Holds c := by
    rw [Text.Ranges.contains_normal, Text.Ranges.contains_normal, contains_points]
  rw [set_eq, Holds]
  split
  · rw [Text.Ranges.contains_complement filled, Bool.not_eq_true', ← Bool.not_eq_true, held]
    simp only [not_exists, not_and]
  · exact held

/-- The size of a class grows with the number of its members. -/
theorem size_set_le (cls : CharClass) : size (.oneOf cls.set) ≤ 4 * cls.members.length + 9 := by
  have normalLe := Nat.le_trans (Text.Ranges.length_normal_le (Text.Ranges.normal
    (cls.members.map Member.points))) (Text.Ranges.length_normal_le _)
  have complementLe := Text.Ranges.length_complement_le
    (Text.Ranges.normal (Text.Ranges.normal (cls.members.map Member.points)))
  rw [List.length_map] at normalLe
  have setLe : cls.set.length ≤ 2 * (cls.members.length + 1) := by
    rw [set_eq]
    split <;> omega
  rw [size]
  split <;> omega

end CharClass

/-! ### Reading a class -/

theorem ne_of_alphanum {c d : Char} (plain : c.isAlphanum = true)
    (sign : d.isAlphanum = false) : c ≠ d := by
  rintro rfl
  rw [plain] at sign
  cases sign

section Reading

variable (dotAll : Bool)

theorem classAtom?_plain {c : Char} (plain : c.isAlphanum = true) (rest : List Char) :
    classAtom? { dotAll } (c :: rest) = some (.char c.toNat, rest) := by
  rw [classAtom?]
  exact ne_of_alphanum plain (by decide)

/-- A member ends where no minus follows it. -/
theorem classItem?_member {m : Member} (plain : m.Plain) {d : Char} (noMinus : d ≠ '-')
    (rest : List Char) :
    classItem? { dotAll } (m.text ++ d :: rest) = some ([m.points], d :: rest) := by
  cases m with
  | one c =>
      have first := classAtom?_plain dotAll (c := c) plain
      simp [classItem?, Member.text, Member.points, skip_plain, first, noMinus]
  | range first last =>
      obtain ⟨plainFirst, plainLast, ascending⟩ := plain
      have noEnd : last ≠ ']' := ne_of_alphanum plainLast (by decide)
      have noSecond : last ≠ '-' := ne_of_alphanum plainLast (by decide)
      have le : first.toNat ≤ last.toNat := ascending
      simp [classItem?, Member.text, Member.points, skip_plain, classAtom?_plain dotAll plainFirst,
        classAtom?_plain dotAll plainLast, noEnd, noSecond, le]

/-- The inside of a class is read by its items where no sign of classes stands. -/
theorem classBody_member {m : Member} (plain : m.Plain) {d : Char} (noMinus : d ≠ '-')
    (fuel : Nat) (current : OpenClass) (rest : List Char) :
    classBody (fuel + 1) { dotAll } current [] (m.text ++ d :: rest)
      = classBody fuel { dotAll } { current with items := current.items ++ [m.points] } []
          (d :: rest) := by
  have item := classItem?_member dotAll plain noMinus rest
  obtain ⟨c, more, text, alphanum⟩ := Member.exists_text plain
  rw [text, List.cons_append] at item ⊢
  have differs {sign : Char} (noAlphanum : sign.isAlphanum = false) : c ≠ sign :=
    ne_of_alphanum alphanum noAlphanum
  have noOpen : c ≠ '[' := differs (by decide)
  have noClose : c ≠ ']' := differs (by decide)
  have noAnd : c ≠ '&' := differs (by decide)
  have noDash : c ≠ '-' := differs (by decide)
  have noTilde : c ≠ '~' := differs (by decide)
  simp [classBody, skip_plain, item, noOpen, noClose, noAnd, noDash, noTilde]

/-- The reader takes the members of a class up to its closing bracket. -/
theorem classBody_members {members : List Member} (plain : ∀ m ∈ members, m.Plain)
    (current : OpenClass) (rest : List Char) {fuel : Nat} (enough : members.length < fuel) :
    classBody fuel { dotAll } current [] (members.flatMap Member.text ++ ']' :: rest)
      = some (OpenClass.close { dotAll }
          { current with items := current.items ++ members.map Member.points }, rest) := by
  induction members generalizing current fuel with
  | nil =>
      obtain ⟨fuel, rfl⟩ := Nat.exists_eq_add_of_lt enough
      rw [List.map_nil, List.append_nil]
      rfl
  | cons m members inductionHypothesis =>
      obtain ⟨fuel, rfl⟩ : ∃ left, fuel = left + 1 := ⟨fuel - 1, by omega⟩
      obtain ⟨first, later⟩ := List.forall_mem_cons.1 plain
      have behind : ∃ d more, members.flatMap Member.text ++ ']' :: rest = d :: more ∧ d ≠ '-' := by
        cases members with
        | nil => exact ⟨']', rest, rfl, by decide⟩
        | cons next members =>
            obtain ⟨d, more, text, alphanum⟩ :=
              Member.exists_text (later next List.mem_cons_self)
            rw [List.flatMap_cons, text]
            exact ⟨d, _, rfl, ne_of_alphanum alphanum (by decide)⟩
      obtain ⟨d, more, split, noMinus⟩ := behind
      have read := inductionHypothesis later
        { current with items := current.items ++ [m.points] }
        (Nat.lt_of_succ_lt_succ enough)
      rw [split] at read
      rw [List.flatMap_cons, List.append_assoc, split, classBody_member dotAll first noMinus, read,
        List.map_cons, List.append_assoc]
      rfl

theorem leadingMinus_plain {c : Char} (plain : c.isAlphanum = true) (rest : List Char) :
    leadingMinus { dotAll } (c :: rest) = ([], c :: rest) := by
  rw [leadingMinus]
  exact fun _ same => ne_of_alphanum plain (by decide) (List.cons.inj same).1

/-- A class is open behind its negation if a letter or a digit stands there. -/
theorem openClass?_plain (negated : Bool) {c : Char} (plain : c.isAlphanum = true)
    (rest : List Char) :
    openClass? { dotAll } ((if negated then ['^'] else []) ++ c :: rest)
      = some (⟨negated, none, []⟩, c :: rest) := by
  have noCaret : c ≠ '^' := ne_of_alphanum plain (by decide)
  have noBracket : c ≠ ']' := ne_of_alphanum plain (by decide)
  cases negated with
  | false => simp [openClass?, skip_plain, noCaret, noBracket, leadingMinus_plain dotAll plain]
  | true => simp [openClass?, skip_plain, noBracket, leadingMinus_plain dotAll plain]

/-- The reader takes a class up to its closing bracket and leaves what follows. -/
theorem characterClass?_class (cls : CharClass) (rest : List Char) :
    characterClass? { dotAll } ((if cls.negated then ['^'] else []) ++ (cls.text ++ ']' :: rest))
      = some (cls.set, rest) := by
  obtain ⟨c, more, start, plain⟩ := cls.exists_text
  have enough : cls.members.length < ((if cls.negated then ['^'] else [])
      ++ (cls.text ++ ']' :: rest)).length + 1 := by
    have short : cls.members.length ≤ cls.text.length := Member.length_le_texts cls.members
    simp only [List.length_append]
    omega
  have opened := openClass?_plain dotAll cls.negated plain (more ++ ']' :: rest)
  have closed := classBody_members dotAll cls.plain ⟨cls.negated, none, []⟩ rest enough
  unfold characterClass?
  rw [start, List.cons_append, opened, Option.bind_eq_bind, Option.bind_some, ← List.cons_append,
    ← start]
  exact closed

/-- A class is one item of an expression. -/
theorem reads_class (cls : CharClass) : Reads dotAll cls.written (.oneOf cls.set) := by
  refine .of_step (by decide) fun fuel current rest => ?_
  have read := characterClass?_class dotAll cls rest
  rw [expression, skip_plain]
  simp only [List.append_assoc, List.cons_append, List.nil_append] at read ⊢
  simp only [Char.reduceEq, ↓reduceIte, read]

end Reading

/-! ### Spans of a class -/

/-- The expression of a class takes one character, one that the class holds. -/
theorem spans_class (cls : CharClass) (p q : Cursor) :
    (Regex.oneOf cls.set).Spans p q ↔
      ∃ c, cls.Holds c ∧ p.after = c :: q.after ∧ q.before = some c := by
  show (∃ c, p.after = c :: q.after ∧ q.before = some c ∧ cls.set.contains c.toNat = true) ↔ _
  simp only [CharClass.contains_set]
  exact exists_congr fun c => ⟨fun ⟨after, before, held⟩ => ⟨held, after, before⟩,
    fun ⟨held, after, before⟩ => ⟨after, before, held⟩⟩

end Recordkeeper.Regex
