import Recordkeeper.Proofs.Json.Values
import Recordkeeper.Relational.Binding

/-!
Contract: values on their way into a column and back.

Owns:
- texts in JSON documents, which are shorter than the documents;
- the values that a field of a kind can hold, and the cells that its column is for;
- `decode_stored_iff`, which says exactly which values come back.

Does not own: statements, and what else a column does to a cell.

A text in a field of structured values is bound as it is and decoded as a document.  So a text that
is a document comes back as the value of the document.  Lists are bound as their JSON text, which
is read with its own limits.
-/

set_option autoImplicit false

namespace Recordkeeper

open Sql

/-! ### Texts in documents -/

namespace Json.Parser

theorem length_hex4? {cs rest : List Char} {n : Nat} (read : hex4? cs = some (n, rest)) :
    rest.length < cs.length := by
  match cs with
  | [] | [_] | [_, _] | [_, _, _] => cases read
  | a :: b :: c :: d :: others =>
      obtain ⟨a, -, read⟩ := Option.bind_eq_some_iff.1 read
      obtain ⟨b, -, read⟩ := Option.bind_eq_some_iff.1 read
      obtain ⟨c, -, read⟩ := Option.bind_eq_some_iff.1 read
      obtain ⟨d, -, read⟩ := Option.bind_eq_some_iff.1 read
      cases read
      simp only [List.length_cons]
      omega

theorem length_codePoint? {cs rest : List Char} {c : Char} (read : codePoint? cs = some (c, rest)) :
    rest.length < cs.length := by
  obtain ⟨⟨high, front⟩, first, read⟩ := Option.bind_eq_some_iff.1 read
  have shorter := length_hex4? first
  dsimp only at read
  split at read
  next => cases read
  next =>
    split at read
    next =>
      split at read
      next pair =>
        obtain ⟨⟨low, back⟩, second, read⟩ := Option.bind_eq_some_iff.1 read
        have further := length_hex4? second
        dsimp only at read
        split at read
        next =>
          obtain ⟨-, rfl⟩ := Prod.mk.inj (Option.some.inj read)
          simp only [List.length_cons] at shorter
          omega
        next => cases read
      next => cases read
    next =>
      obtain ⟨-, rfl⟩ := Prod.mk.inj (Option.some.inj read)
      exact shorter

/-- Every character of a string takes one of the text at least, and so does the closing quote. -/
theorem length_string {fuel : Nat} {cs acc rest : List Char} {s : String}
    (read : string fuel cs acc = .ok (s, rest)) :
    s.toList.length + rest.length < acc.length + cs.length := by
  induction fuel generalizing cs acc with
  | zero => cases read
  | succ fuel inductionHypothesis =>
      cases cs with
      | nil => cases read
      | cons c cs =>
          have onward {c : Char} {more : List Char} (fewer : more.length ≤ cs.length)
              (read : string fuel more (c :: acc) = .ok (s, rest)) :
              s.toList.length + rest.length < acc.length + (cs.length + 1) := by
            have later := inductionHypothesis read
            rw [List.length_cons] at later
            omega
          unfold string at read
          rw [List.length_cons]
          split at read
          next =>
            cases read
            rw [String.toList_ofList, List.length_reverse]
            omega
          next =>
            split at read
            next =>
              split at read
              next more =>
                split at read
                next point =>
                  have shorter := length_codePoint? point
                  exact onward (by rw [List.length_cons]; omega) read
                next => cases read
              next e more _ =>
                split at read
                next => exact onward (by rw [List.length_cons]; omega) read
                next => cases read
              next => cases read
            next =>
              split at read
              next => cases read
              next => exact onward le_rfl read

/-- Only a quote begins a text.  Every other sign begins a document of its own kind. -/
theorem exists_string_of_value {fuel depth : Nat} {cs rest : List Char} {s : String}
    (read : value (fuel + 1) depth cs = .ok (.text s, rest)) :
    ∃ more, skipBlanks cs = '"' :: more ∧ quotedText ('"' :: more) = .ok (s, rest) := by
  unfold value at read
  split at read
  next => cases read
  next c more front =>
    split at read
    next quote =>
      obtain ⟨⟨t, after⟩, own, read⟩ := exists_of_bind read
      cases read
      subst quote
      exact ⟨more, front, own⟩
    next =>
      split at read
      next =>
        split at read
        next => cases read
        next =>
          split at read
          next => cases read
          next =>
            obtain ⟨items, -, read⟩ := exists_of_bind read
            cases read
      next =>
        split at read
        next =>
          split at read
          next => cases read
          next =>
            split at read
            next => cases read
            next =>
              split at read
              next => cases read
              next =>
                obtain ⟨fields, -, read⟩ := exists_of_bind read
                cases read
        next =>
          split at read
          next =>
            obtain ⟨n, -, read⟩ := exists_of_bind read
            cases read
          next =>
            split at read
            next =>
              obtain ⟨n, -, read⟩ := exists_of_bind read
              cases read
            next =>
              split at read
              next => cases read
              next =>
                split at read
                next => cases read
                next => split at read <;> cases read

/-- A text in a document is shorter than the document. -/
theorem length_value_text {fuel depth : Nat} {cs rest : List Char} {s : String}
    (read : value fuel depth cs = .ok (.text s, rest)) : s.toList.length < cs.length := by
  cases fuel with
  | zero => cases read
  | succ fuel =>
      obtain ⟨more, front, own⟩ := exists_string_of_value read
      have blanks : (skipBlanks cs).length ≤ cs.length := (List.dropWhile_sublist _).length_le
      have shorter : s.toList.length + rest.length < 0 + more.length := length_string own
      rw [front, List.length_cons] at blanks
      omega

/-- No text is the document of itself. -/
theorem parse_ne_text (s : String) : Json.parse s ≠ .ok (.text s) := by
  intro read
  obtain ⟨⟨doc, rest⟩, own, read⟩ := exists_of_bind read
  dsimp only at read
  split at read
  next =>
    cases read
    exact absurd (length_value_text own) (Nat.lt_irrefl _)
  next => cases read

end Json.Parser

/-! ### Fields -/

namespace FieldKind

/-- What a field of a kind can hold. -/
def Holds : FieldKind → Value → Prop
  | .bool, .bool _ | .int, .int _ | .text, .text _ | .bytes, .bytes _ | .json, .text _ => True
  | .float, .float x => x.isFinite
  | .json, .list items => Value.areCarried items
  | _, .null => True
  | _, _ => False

/-- The cells that a column of the type of a kind is for. -/
def Takes : FieldKind → Cell → Prop
  | .bool, .integer _ | .int, .integer _ | .float, .real _ | .bytes, .blob _ => True
  | .text, .text _ | .json, .text _ => True
  | _, .null => True
  | _, _ => False

/-- What comes back from a column.  A structured text does unless it is a document, and then it
must be the text of an object as objects are written.  A list does if its text is read as it. -/
def Returns : FieldKind → Value → Prop
  | .json, .text s => ∀ doc, Json.parse s = .ok doc → ∃ fields, doc = .object fields ∧ doc.render = s
  | .json, .list items => (Value.list items).ReadsBack Json.Parser.depthLimit
  | _, _ => True

end FieldKind

namespace Relational

open Json.Parser

/-- A text that is decoded as structured. -/
theorem structured_text_iff (s : String) : structured s = .text s
    ↔ ∀ doc, Json.parse s = .ok doc → ∃ fields, doc = .object fields ∧ doc.render = s := by
  unfold structured
  cases read : Json.parse s with
  | error failure => exact iff_of_true rfl (by rintro _ ⟨⟩)
  | ok doc =>
      have only (claim : Json → Prop) : (∀ other, Except.ok doc = (Except.ok other : Except Failure Json)
          → claim other) ↔ claim doc :=
        ⟨fun all => all doc rfl, fun own other same => Except.ok.inj same ▸ own⟩
      rw [only]
      dsimp only
      cases doc with
      | object fields =>
          show Value.text (Json.render (.object fields)) = .text s ↔ _
          simp
      | text t =>
          refine iff_of_false (fun same => ?_) (by rintro ⟨_, ⟨⟩, _⟩)
          cases same
          exact parse_ne_text s read
      | number n =>
          refine iff_of_false (fun same => ?_) (by rintro ⟨_, ⟨⟩, _⟩)
          rw [Value.ofJson] at same
          split at same <;> cases same
      | null | bool _ | array _ =>
          exact iff_of_false (fun same => by cases same) (by rintro ⟨_, ⟨⟩, _⟩)

theorem structured_list_iff {items : List Value} (carried : Value.areCarried items) :
    structured (Value.list items).toJson.render = .list items
      ↔ (Value.list items).ReadsBack depthLimit := by
  rw [← Value.reread_toJson_iff (.list items) carried, structured, Json.parse,
    document_render _ (Value.fieldsOnce_toJson (.list items))]
  cases reread (Value.list items).toJson depthLimit with
  | error failure => exact iff_of_false nofun nofun
  | ok doc =>
      show Value.ofJson doc = _ ↔ Except.ok (Value.ofJson doc) = _
      simp

theorem bind_float {x : Binary64} (finite : x.isFinite) : bind (.float x) = .real x :=
  if_neg (by rw [Binary64.isNaN_of_finite finite]; exact Bool.false_ne_true)

/-- What a field holds is bound as what its column is for. -/
theorem takes_bind {kind : FieldKind} {v : Value} (holds : kind.Holds v) : kind.Takes (bind v) := by
  cases v with
  | float x =>
      cases kind with
      | float =>
          rw [bind_float holds]
          trivial
      | _ => cases holds
  | _ => cases kind <;> trivial

/-- What a field holds comes back from its column as it was if and only if it is a number, a
boolean, bytes or null, or a plain text, or its text is read as itself. -/
theorem decode_stored_iff {kind : FieldKind} {v : Value} (holds : kind.Holds v)
    {stored : Cell → Cell} (kept : ∀ cell, kind.Takes cell → stored cell = cell) :
    decode (some kind) (stored (bind v)) = v ↔ kind.Returns v := by
  rw [kept _ (takes_bind holds)]
  cases v with
  | null => cases kind <;> exact iff_of_true rfl trivial
  | bool b =>
      cases kind with
      | bool => cases b <;> exact iff_of_true rfl trivial
      | _ => cases holds
  | int n =>
      cases kind with
      | int => exact iff_of_true rfl trivial
      | _ => cases holds
  | float x =>
      cases kind with
      | float =>
          rw [bind_float holds]
          exact iff_of_true rfl trivial
      | _ => cases holds
  | bytes b =>
      cases kind with
      | bytes => exact iff_of_true rfl trivial
      | _ => cases holds
  | text s =>
      cases kind with
      | text => exact iff_of_true rfl trivial
      | json => exact structured_text_iff s
      | _ => cases holds
  | list items =>
      cases kind with
      | json => exact structured_list_iff holds
      | _ => cases holds

def quarter : Binary64 := .ofRatio false 1 4

/-- A list of a fraction, null and the text of a list. -/
def readings : Value := .list [.float quarter, .null, .text "[1]"]

theorem readings_stored : FieldKind.json.Holds readings ∧
    (∀ cell, FieldKind.json.Takes cell → id cell = cell) ∧
    decode (some .json) (id (bind readings)) = readings := by
  have quarterRead : (Json.parse quarter.toJsonText).map Value.ofJson = .ok (.float quarter) := by
    with_unfolding_all rfl
  have holds : FieldKind.json.Holds readings := by
    show Value.areCarried [.float quarter, .null, .text "[1]"]
    decide
  exact ⟨holds, fun _ _ => rfl,
    (decode_stored_iff holds fun _ _ => rfl).2 ⟨quarterRead, trivial, trivial, trivial⟩⟩

/-- The text of a number comes back as the number. -/
theorem digitText_becomes_number : FieldKind.json.Holds (.text "5") ∧
    bind (.text "5") = .text "5" ∧ decode (some .json) (bind (.text "5")) = .int 5 ∧
    decode (some .json) (bind (.text "5")) ≠ .text "5" := by
  have decoded : decode (some .json) (bind (.text "5")) = .int 5 := by with_unfolding_all rfl
  refine ⟨trivial, rfl, decoded, ?_⟩
  rw [decoded]
  exact nofun

end Relational

end Recordkeeper
