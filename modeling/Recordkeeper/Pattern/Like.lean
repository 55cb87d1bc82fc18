import Recordkeeper.Pattern.Regex.Parser

/-!
Contract: LIKE patterns.

Owns:
- the search for a match of a text and a pattern, with one place to go back to;
- matching a whole text against a list of elements, whatever they were written as;
- escaping a literal text, and writing a pattern as a regular expression.

Does not own: which operators use a pattern.
-/

set_option autoImplicit false

namespace Recordkeeper.Like

/-! ### Searching for a match -/

/-- Where a search goes back to when it fails: the pattern behind the last percent sign, and the
text behind the run that the sign stands for so far. -/
structure Mark where
  pattern : List Char
  text : List Char

/-- A search for a match: what is left of the text and of the pattern.  Neither is longer than at
the mark. -/
structure Search where
  text : List Char
  pattern : List Char
  mark : Option Mark
  behind : ∀ m ∈ mark, text.length ≤ m.text.length ∧ pattern.length ≤ m.pattern.length

namespace Search

def start (text pattern : List Char) : Search := ⟨text, pattern, none, nofun⟩

/-- Takes one character of the text, and some of the pattern that stand for it. -/
def past (s : Search) (signs : Nat) : Search where
  text := s.text.tail
  pattern := s.pattern.drop signs
  mark := s.mark
  behind m marked := by
    have := s.behind m marked
    simp only [List.length_tail, List.length_drop]
    omega

/-- A search from a mark. -/
def resume (m : Mark) : Search where
  text := m.text
  pattern := m.pattern
  mark := some m
  behind := by
    rintro m ⟨⟩
    exact ⟨Nat.le_refl _, Nat.le_refl _⟩

/-- Takes a percent sign, whose run is empty at first.  Earlier signs are forgotten. -/
def hold (s : Search) : Search := resume ⟨s.pattern.tail, s.text⟩

/-- Goes back to the mark, whose run takes one more character. -/
def retry (s : Search) : Search ⊕ Bool :=
  match s.mark with
  | none => .inr false
  | some m => .inl (resume { m with text := m.text.tail })

/-- One pass of a search: its next state, or the answer.  A percent sign takes any run of
characters, an underscore any one character, and a backslash makes the next character literal; a
backslash at the end stands for itself. -/
def step (s : Search) : Search ⊕ Bool :=
  match s.text with
  | [] => .inr (s.pattern.all (· == '%'))
  | c :: _ =>
    match s.pattern with
    | '\\' :: d :: _ => if c = d then .inl (s.past 2) else s.retry
    | '%' :: _ => .inl s.hold
    | d :: _ => if d = '_' ∨ c = d then .inl (s.past 1) else s.retry
    | [] => s.retry

/-- A bound on the passes that are left.  Each character that the run at the mark takes may cost
one pass for every sign behind the mark. -/
def left (s : Search) : Nat :=
  match s.mark with
  | none => s.text.length * (s.pattern.length + 1) + s.pattern.length
  | some m => m.text.length * (m.pattern.length + 1) + s.pattern.length

theorem left_past {s : Search} {n : Nat} (taken : 0 < n) (more : s.pattern ≠ []) :
    (s.past n).left < s.left := by
  have shorter : (s.pattern.drop n).length < s.pattern.length := by
    have := List.length_pos_iff.2 more
    rw [List.length_drop]
    omega
  unfold left past
  dsimp only
  cases s.mark with
  | none =>
      have : s.text.tail.length * ((s.pattern.drop n).length + 1)
          ≤ s.text.length * (s.pattern.length + 1) :=
        Nat.mul_le_mul (by simp) (by omega)
      dsimp only
      omega
  | some m =>
      dsimp only
      omega

theorem left_hold {s : Search} (more : s.pattern ≠ []) : s.hold.left < s.left := by
  have shorter : s.pattern.tail.length < s.pattern.length := by
    have := List.length_pos_iff.2 more
    rw [List.length_tail]
    omega
  unfold left hold resume
  dsimp only
  cases marked : s.mark with
  | none =>
      have : s.text.length * (s.pattern.tail.length + 1)
          ≤ s.text.length * (s.pattern.length + 1) :=
        Nat.mul_le_mul_left _ (by omega)
      dsimp only
      omega
  | some m =>
      obtain ⟨textBehind, patternBehind⟩ := s.behind m marked
      have : s.text.length * (s.pattern.tail.length + 1)
          ≤ m.text.length * (m.pattern.length + 1) :=
        Nat.mul_le_mul textBehind (by omega)
      dsimp only
      omega

theorem left_retry {s t : Search} (more : s.text ≠ []) (back : s.retry = .inl t) :
    t.left < s.left := by
  unfold retry at back
  split at back
  next => cases back
  next m marked =>
    cases back
    obtain ⟨textBehind, -⟩ := s.behind m marked
    have := List.length_pos_iff.2 more
    obtain ⟨n, length⟩ : ∃ n, m.text.length = n + 1 := ⟨m.text.length - 1, by omega⟩
    unfold left resume
    rw [marked]
    dsimp only
    rw [List.length_tail, length, Nat.add_sub_cancel, Nat.succ_mul]
    omega

theorem left_step {s t : Search} (next : s.step = .inl t) : t.left < s.left := by
  unfold step at next
  split at next
  next => cases next
  next c _ text =>
    have more : s.text ≠ [] := by simp [text]
    split at next
    next d _ pattern =>
      split at next
      next =>
        cases next
        exact left_past Nat.two_pos (by simp [pattern])
      next => exact left_retry more next
    next _ pattern =>
      cases next
      exact left_hold (by simp [pattern])
    next d _ pattern =>
      split at next
      next =>
        cases next
        exact left_past Nat.one_pos (by simp [pattern])
      next => exact left_retry more next
    next => exact left_retry more next

/-- Repeats passes until one gives an answer. -/
def run (s : Search) : Bool :=
  match _step : s.step with
  | .inl t => t.run
  | .inr answer => answer
termination_by s.left
decreasing_by exact left_step ‹_›

end Search

/-- Whether a text matches a pattern as a whole, with regard to case. -/
def isMatch (text pattern : String) : Bool := (Search.start text.toList pattern.toList).run

/-! ### Matching elements -/

inductive Element where
  | anyRun
  | anyChar
  | exactly (c : Char)
  deriving DecidableEq, Repr

/-- For every end of a list of flags, whether it holds a set flag. -/
def anyLater : List Bool → List Bool
  | [] => []
  | flag :: rest =>
    let later := anyLater rest
    (flag || later.headD false) :: later

/-- For every end of a text, the whole text first and the empty end last, whether it matches a
list of elements as a whole.  The ends share their work, so that the time is at most the
product of both lengths. -/
def matchingEnds (text : List Char) : List Element → List Bool
  | [] => text.map (fun _ => false) ++ [true]
  | .anyRun :: es => anyLater (matchingEnds text es)
  | .anyChar :: es => (matchingEnds text es).tail ++ [false]
  | .exactly d :: es =>
    List.zipWith (fun c flag => c == d && flag) text (matchingEnds text es).tail ++ [false]

def matchElements (es : List Element) (text : List Char) : Bool :=
  (matchingEnds text es).headD false

/-! ### Literals and expressions -/

def escapeChars : List Char → List Char
  | [] => []
  | c :: rest => if c = '\\' ∨ c = '%' ∨ c = '_' then '\\' :: c :: escapeChars rest else c :: escapeChars rest

def escape (literal : String) : String := String.ofList (escapeChars literal.toList)

/-- The body of a pattern as a regular expression.  A percent sign becomes any run of
characters; an underscore stands for itself, since document stores know no sign for one
character. -/
def regexBody : List Char → List Char
  | [] => []
  | ['\\'] => Regex.Parser.escape ['\\']
  | '\\' :: c :: rest => Regex.Parser.escape [c] ++ regexBody rest
  | c :: rest => (if c = '%' then ['.', '*'] else Regex.Parser.escape [c]) ++ regexBody rest

def toRegex (pattern : String) : String :=
  String.ofList (['^'] ++ regexBody pattern.toList ++ ['$'])

end Recordkeeper.Like
