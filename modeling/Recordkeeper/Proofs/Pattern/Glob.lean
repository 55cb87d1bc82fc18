import Recordkeeper.Proofs.Pattern.Parts

/-!
Contract: the texts that a key pattern without classes matches.

Owns:
- the elements of such a pattern, which mean what they mean in a LIKE pattern;
- `isMatch_iff`: the expression of a pattern matches the texts that its elements match, line feeds
  included;
- patterns of a head and a star: a head without signs matches its continuations only, and one
  without classes and backslashes at least those.

Does not own: classes.
-/

set_option autoImplicit false

namespace Recordkeeper.Glob

open Recordkeeper.Like (Element Matches)
open Recordkeeper.Regex (Piece chain)

/-- The elements of a pattern without classes. -/
def elements : List Char → List Element
  | [] => []
  | ['\\'] => [.exactly '\\']
  | '\\' :: c :: rest => .exactly c :: elements rest
  | c :: rest =>
    (if c = '*' then .anyRun else if c = '?' then .anyChar else .exactly c) :: elements rest

def piece : Element → Piece
  | .anyRun => .anyRun
  | .anyChar => .anyChar
  | .exactly c => .exactly c

def wholePieces (es : List Element) : List Piece :=
  .textStart :: (es.map piece ++ [.textEnd])

/-! ### Elements as parts -/

def partOf : Element → Part
  | .anyRun => .anyRun
  | .anyChar => .anyChar
  | .exactly c => .exactly c

/-- A pattern without classes is written from its elements. -/
theorem written_elements {cs : List Char} (noClass : '[' ∉ cs) :
    Written ((elements cs).map partOf) cs := by
  fun_induction elements cs with
  | case1 => exact .nil
  | case2 => exact .backslash
  | case3 c rest inductionHypothesis =>
      exact .cons (.escaped c) (inductionHypothesis fun member =>
        noClass (List.mem_cons_of_mem _ (List.mem_cons_of_mem _ member)))
  | case4 c rest single pair inductionHypothesis =>
      have noBracket : c ≠ '[' := fun same => noClass (same ▸ List.mem_cons_self)
      have noBackslash : c ≠ '\\' := by
        rintro rfl
        cases rest with
        | nil => exact single rfl rfl
        | cons d rest => exact pair d rest rfl rfl
      have first := written_part noBracket noBackslash
      have same : part c
          = partOf (if c = '*' then .anyRun else if c = '?' then .anyChar else .exactly c) := by
        rw [part, apply_ite partOf, apply_ite partOf]
        rfl
      rw [same] at first
      exact .cons first (inductionHypothesis fun member => noClass (List.mem_cons_of_mem _ member))

theorem wholeExpressions_elements (es : List Element) :
    wholeExpressions (es.map partOf) = (wholePieces es).map (Piece.regexIn true) := by
  have same : Part.regex ∘ partOf = Piece.regexIn true ∘ piece := by
    funext e
    cases e <;> rfl
  rw [wholeExpressions, wholePieces, List.map_cons, List.map_append, List.map_map, List.map_map,
    same]
  rfl

theorem fits_elements (es : List Element) (text : List Char) :
    Fits (es.map partOf) text ↔ Matches es text := by
  have same : (fun e => Part.Accepts (partOf e)) = Element.Accepts := by
    funext e
    cases e <;> rfl
  rw [Fits, Like.matches_iff_pieces]
  simp only [List.forall₂_map_left_iff, same]

/-- A pattern without classes is the chain of its elements, and is refused if that is too large. -/
theorem toRegex_eq {pattern : String} (noClass : '[' ∉ pattern.toList) :
    toRegex pattern
      = if Regex.Parser.size (chain ((wholePieces (elements pattern.toList)).map
            (Piece.regexIn true))) ≤ Regex.Parser.sizeLimit then
          .ok (chain ((wholePieces (elements pattern.toList)).map (Piece.regexIn true)))
        else .error .badPattern := by
  rw [← wholeExpressions_elements]
  exact toRegex_of_expression? (expression?_written (written_elements noClass))

/-- A pattern without classes matches the keys that its elements match. -/
theorem isMatch_iff {pattern : String} {r : Regex} (noClass : '[' ∉ pattern.toList)
    (accepted : toRegex pattern = .ok r) (key : String) :
    r.isMatch key = true ↔ Matches (elements pattern.toList) key.toList := by
  have same : r = chain ((wholePieces (elements pattern.toList)).map (Piece.regexIn true)) := by
    rw [toRegex_eq noClass] at accepted
    split at accepted
    next =>
      cases accepted
      rfl
    next => cases accepted
  rw [same, ← wholeExpressions_elements, isMatch_wholeExpressions, fits_elements]

/-! ### A head and a star -/

/-- A text that a pattern takes for itself. -/
def IsPlain (text : String) : Prop := ∀ c ∈ text.toList, c ∉ signs

instance (text : String) : Decidable (IsPlain text) := List.decidableBAll _ _

theorem elements_cons {c : Char} (noBackslash : c ≠ '\\') (rest : List Char) :
    elements (c :: rest)
      = (if c = '*' then .anyRun else if c = '?' then .anyChar else .exactly c) :: elements rest := by
  rw [elements]
  · exact fun same => absurd same noBackslash
  · exact fun _ _ same => absurd same noBackslash

/-- A head without classes and backslashes, with a star behind it, matches its own
continuations. -/
theorem matches_own {head : List Char} (noBackslash : '\\' ∉ head) (rest : List Char) :
    Matches (elements (head ++ ['*'])) (head ++ rest) := by
  induction head with
  | nil => exact Like.matches_anyRun rest
  | cons c head inductionHypothesis =>
      have later := inductionHypothesis fun member => noBackslash (List.mem_cons_of_mem _ member)
      have plain : c ≠ '\\' := fun same => noBackslash (same ▸ List.mem_cons_self)
      rw [List.cons_append, List.cons_append, elements_cons plain]
      split
      · exact ⟨[c], head ++ rest, rfl, later⟩
      · split
        · exact ⟨c, head ++ rest, rfl, later⟩
        · exact ⟨head ++ rest, rfl, later⟩

/-- A head without signs, with a star behind it, matches its continuations only. -/
theorem matches_head_iff {head : List Char} (plain : ∀ c ∈ head, c ∉ signs) (text : List Char) :
    Matches (elements (head ++ ['*'])) text ↔ head <+: text := by
  induction head generalizing text with
  | nil => exact iff_of_true (Like.matches_anyRun text) (List.nil_prefix)
  | cons c head inductionHypothesis =>
      have literal := plain c List.mem_cons_self
      simp only [signs, List.mem_cons, List.not_mem_nil, or_false, not_or] at literal
      obtain ⟨star, mark, -, backslash⟩ := literal
      rw [List.cons_append, elements_cons backslash, if_neg star, if_neg mark]
      have later := inductionHypothesis fun d member => plain d (List.mem_cons_of_mem _ member)
      constructor
      · rintro ⟨back, rfl, matched⟩
        exact (List.prefix_cons_inj c).2 ((later back).1 matched)
      · rintro ⟨back, rfl⟩
        exact ⟨head ++ back, rfl, (later _).2 (List.prefix_append head back)⟩

/-! ### Oversized patterns -/

/-- A number of stars, and more text behind them. -/
def starsBefore (n : Nat) (rest : String) : String :=
  String.ofList (List.replicate n '*' ++ rest.toList)

theorem elements_starsBefore (n : Nat) (rest : String) :
    elements (starsBefore n rest).toList = List.replicate n .anyRun ++ elements rest.toList := by
  rw [starsBefore, String.toList_ofList]
  induction n with
  | zero => rfl
  | succ n inductionHypothesis =>
      rw [List.replicate_succ, List.cons_append, elements_cons (by decide), if_pos rfl,
        inductionHypothesis]
      rfl

/-- Each star takes ten steps of the expression. -/
theorem sizeAll_stars (n : Nat) :
    Regex.sizeAll ((List.replicate n Element.anyRun).map fun e => (piece e).regexIn true)
      = 10 * n := by
  induction n with
  | zero => rfl
  | succ n inductionHypothesis =>
      rw [List.replicate_succ, List.map_cons, Regex.sizeAll, inductionHypothesis]
      show 10 + 10 * n = _
      omega

/-- A pattern of too many stars is refused for its size. -/
theorem toRegex_stars {n : Nat} {rest : String} (noClass : '[' ∉ rest.toList)
    (large : Regex.Parser.sizeLimit < 10 * n) :
    toRegex (starsBefore n rest) = .error .badPattern := by
  have plain : '[' ∉ (starsBefore n rest).toList := by
    rw [starsBefore, String.toList_ofList]
    intro member
    rcases List.mem_append.1 member with star | other
    · exact absurd (List.eq_of_mem_replicate star) (by decide)
    · exact noClass other
  rw [toRegex_eq plain, elements_starsBefore, if_neg]
  unfold wholePieces
  rw [List.map_cons, Regex.size_chain, Regex.sizeAll, List.map_append, Regex.sizeAll_append,
    List.map_append, List.map_append, Regex.sizeAll_append, List.map_map]
  have stars := sizeAll_stars n
  unfold Function.comp
  omega

end Recordkeeper.Glob
