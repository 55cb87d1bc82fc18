import Recordkeeper.Proofs.Action
import Recordkeeper.Proofs.Json.Reading
import Recordkeeper.Proofs.Record

/-!
Contract: values and records on their way through JSON text.

Owns:
- the values that JSON carries, and which of them are read back from their text;
- the record that the text of a record is read as.

Does not own: bytes, and what a backend adds to a record.

A number with a fraction is read with more than one rounding.  Whether it is read as itself is a
condition on the number, which no bound on its size replaces.
-/

set_option autoImplicit false

namespace Recordkeeper

namespace Value

mutual

/-- No bytes, and finite floats only. -/
def isCarried : Value → Bool
  | .float x => x.isFinite
  | .bytes _ => false
  | .list items => areCarried items
  | _ => true
termination_by structural v => v

def areCarried : List Value → Bool
  | [] => true
  | v :: rest => isCarried v && areCarried rest
termination_by structural vs => vs

end

mutual

/-- Every float in the value is read from its JSON text as itself, and no more than `depth` lists
stand inside each other. -/
def ReadsBack : Value → Nat → Prop
  | .float x, _ => (Json.parse x.toJsonText).map ofJson = .ok (.float x)
  | .list _, 0 => False
  | .list items, depth + 1 => AllReadBack items depth
  | _, _ => True
termination_by structural v => v

def AllReadBack : List Value → Nat → Prop
  | [], _ => True
  | v :: rest, depth => ReadsBack v depth ∧ AllReadBack rest depth
termination_by structural vs => vs

end

mutual

theorem fieldsOnce_toJson (v : Value) : v.toJson.fieldsOnce := by
  match v with
  | .float x =>
      rw [toJson]
      split <;> rfl
  | .list items => exact itemsFieldsOnce_toJson items
  | .bool _ | .int _ | .text _ | .bytes _ | .null => rfl
termination_by structural v

theorem itemsFieldsOnce_toJson (vs : List Value) : Json.itemsFieldsOnce (toJsonItems vs) := by
  match vs with
  | [] => rfl
  | v :: rest =>
      rw [toJsonItems, Json.itemsFieldsOnce, fieldsOnce_toJson v, itemsFieldsOnce_toJson rest]
      rfl
termination_by structural vs

end

theorem ofJson_int (n : Int64) : ofJson (.number (.int n.toInt)) = .int n := by
  have bounded : Number.leastInt ≤ n.toInt ∧ n.toInt ≤ Number.greatestInt :=
    ⟨Int64.le_toInt n, Int64.toInt_le n⟩
  have whole : Number.toInt64? (.int n.toInt) = some n := by
    rw [Number.toInt64?, if_pos bounded, Int64.ofInt_toInt]
  rw [ofJson, whole]

mutual

/-- A value that JSON carries is the value of its document. -/
theorem ofJson_toJson_of_carried (v : Value) (carried : v.isCarried) : ofJson v.toJson = v := by
  match v with
  | .int n => exact ofJson_int n
  | .float x =>
      rw [toJson, if_pos (show x.isFinite from carried)]
      rfl
  | .list items =>
      rw [toJson, ofJson, ofJsonItems_toJsonItems items carried]
  | .bool _ | .text _ | .null => rfl
termination_by structural v

theorem ofJsonItems_toJsonItems (vs : List Value) (carried : areCarried vs) :
    ofJsonItems (toJsonItems vs) = vs := by
  match vs with
  | [] => rfl
  | v :: rest =>
      rw [areCarried, Bool.and_eq_true] at carried
      rw [toJsonItems, ofJsonItems, ofJson_toJson_of_carried v carried.1,
        ofJsonItems_toJsonItems rest carried.2]
termination_by structural vs

end

open Json.Parser

/-- Two outcomes in a row give the values that they give alone. -/
theorem map_cons_eq_ok {ε : Type} {first : Except ε Json} {others : Except ε (List Json)} {v : Value}
    {vs : List Value} :
    (do let x ← first; let xs ← others; return x :: xs : Except ε (List Json)).map ofJsonItems
        = .ok (v :: vs) ↔ first.map ofJson = .ok v ∧ others.map ofJsonItems = .ok vs := by
  cases first with
  | error failure => exact iff_of_false nofun fun both => nomatch both.1
  | ok x =>
      cases others with
      | error failure => exact iff_of_false nofun fun both => nomatch both.2
      | ok xs =>
          show Except.ok (ofJson x :: ofJsonItems xs) = _
            ↔ Except.ok (ofJson x) = _ ∧ Except.ok (ofJsonItems xs) = _
          simp

mutual

theorem reread_toJson_iff (v : Value) (carried : v.isCarried) (depth : Nat) :
    (reread v.toJson depth).map ofJson = .ok v ↔ v.ReadsBack depth := by
  match v with
  | .bool _ | .text _ | .null => exact iff_of_true (by cases depth <;> rfl) trivial
  | .int n =>
      have least : Number.leastInt ≤ n.toInt := Int64.le_toInt n
      have greatest : n.toInt ≤ significandLimit :=
        le_trans (Int64.toInt_le n) (by decide)
      refine iff_of_true ?_ trivial
      rw [toJson, reread, rereadNumber_int least greatest]
      exact congrArg Except.ok (ofJson_int n)
  | .float x =>
      have finite : x.isFinite := carried
      have shown : (Json.number (.float x)).render = x.toJsonText := if_pos finite
      rw [toJson, if_pos finite, reread, ReadsBack, ← shown, Json.parse,
        document_render _ rfl, reread]
  | .list items =>
      cases depth with
      | zero => exact iff_of_false nofun id
      | succ depth =>
          rw [ReadsBack, ← rereadItems_toJsonItems_iff items carried depth, toJson, reread]
          cases rereadItems (toJsonItems items) depth with
          | error failure => exact iff_of_false nofun nofun
          | ok docs =>
              show Except.ok (Value.list (ofJsonItems docs)) = Except.ok (Value.list items)
                ↔ Except.ok (ofJsonItems docs) = Except.ok items
              simp
termination_by structural v

theorem rereadItems_toJsonItems_iff (vs : List Value) (carried : areCarried vs) (depth : Nat) :
    (rereadItems (toJsonItems vs) depth).map ofJsonItems = .ok vs ↔ AllReadBack vs depth := by
  match vs with
  | [] => exact iff_of_true rfl trivial
  | v :: rest =>
      rw [areCarried, Bool.and_eq_true] at carried
      rw [toJsonItems, rereadItems, map_cons_eq_ok, AllReadBack,
        reread_toJson_iff v carried.1 depth, rereadItems_toJsonItems_iff rest carried.2 depth]
termination_by structural vs

end

end Value

/-! ### Records -/

namespace Json.Parser

/-- The fields that are read have the names of those that were written, and each of them was
read. -/
theorem rereadFields_fields {fs gs : Fields} {depth : Nat} (read : rereadFields fs depth = .ok gs) :
    gs.map Prod.fst = fs.map Prod.fst ∧
      ∀ f ∈ fs, ∃ doc, reread f.2 depth = .ok doc ∧ (f.1, doc) ∈ gs := by
  induction fs generalizing gs with
  | nil =>
      cases read
      exact ⟨rfl, nofun⟩
  | cons f fs inductionHypothesis =>
      obtain ⟨name, v⟩ := f
      rw [rereadFields] at read
      obtain ⟨first, firstRead, read⟩ := exists_of_bind read
      obtain ⟨others, othersRead, read⟩ := exists_of_bind read
      cases read
      obtain ⟨names, each⟩ := inductionHypothesis othersRead
      refine ⟨congrArg (name :: ·) names, List.forall_mem_cons.2 ⟨?_, fun f member => ?_⟩⟩
      · exact ⟨first, firstRead, List.mem_cons_self⟩
      · obtain ⟨doc, own, within⟩ := each f member
        exact ⟨doc, own, List.mem_cons_of_mem _ within⟩

theorem rereadFields_succeeds {fs : Fields} {depth : Nat}
    (each : ∀ f ∈ fs, ∃ doc, reread f.2 depth = .ok doc) : ∃ gs, rereadFields fs depth = .ok gs := by
  induction fs with
  | nil => exact ⟨[], rfl⟩
  | cons f fs inductionHypothesis =>
      obtain ⟨name, v⟩ := f
      obtain ⟨⟨doc, first⟩, others⟩ := List.forall_mem_cons.1 each
      obtain ⟨docs, rest⟩ := inductionHypothesis others
      refine ⟨(name, doc) :: docs, ?_⟩
      rw [rereadFields, first, rest]
      rfl

end Json.Parser

namespace Record

open Json.Parser

variable {r : Record} {doc : Json}

theorem fieldsOnce_toJson (r : Record) : r.toJson.fieldsOnce := by
  have values (entries : List (String × Value)) :
      Json.valuesFieldsOnce (entries.map fun f => (f.1, f.2.toJson)) := by
    induction entries with
    | nil => rfl
    | cons f rest inductionHypothesis =>
        rw [List.map_cons, Json.valuesFieldsOnce, Value.fieldsOnce_toJson, inductionHypothesis]
        rfl
  rw [toJson, Json.fieldsOnce, values r.entries, Bool.and_true, decide_eq_true_eq, List.map_map]
  exact r.nodup_names

/-- The text of a record is read as the fields of the record with what their values are read as. -/
theorem ofJson_reread (depth : Nat) (read : reread r.toJson (depth + 1) = .ok doc) :
    (∀ name, name ∈ (ofJson doc).names ↔ name ∈ r.names) ∧
      ∀ name v, r.get? name = some v → ∃ w, (reread v.toJson depth).map Value.ofJson = .ok w ∧
        (ofJson doc).get? name = some w := by
  rw [toJson, reread] at read
  cases fieldsRead : rereadFields (r.entries.map fun f => (f.1, f.2.toJson)) depth with
  | error failure =>
      rw [fieldsRead] at read
      cases read
  | ok gs =>
      rw [fieldsRead] at read
      cases read
      obtain ⟨names, each⟩ := rereadFields_fields fieldsRead
      rw [List.map_map] at names
      have once : (gs.map Prod.fst).Nodup := names ▸ r.nodup_names
      refine ⟨fun name => ?_, fun name v held => ?_⟩
      · rw [mem_names_ofJson, names]
        rfl
      · obtain ⟨w, own, member⟩ := each (name, v.toJson)
          (List.mem_map.2 ⟨(name, v), NameMap.get?_eq_some_iff.1 held, rfl⟩)
        refine ⟨Value.ofJson w, congrArg (Except.map Value.ofJson) own, ?_⟩
        rw [get?_ofJson once, Fields.get?, lookup_of_mem once member]
        rfl

/-- A record that JSON carries is read back from its text if and only if each of its values is. -/
theorem reread_toJson_iff (depth : Nat) (carried : ∀ name v, r.get? name = some v → v.isCarried) :
    (reread r.toJson (depth + 1)).map ofJson = .ok r
      ↔ ∀ name v, r.get? name = some v → v.ReadsBack depth := by
  constructor
  · intro returned name v held
    cases read : reread r.toJson (depth + 1) with
    | error failure =>
        rw [read] at returned
        cases returned
    | ok doc =>
        rw [read] at returned
        have same : ofJson doc = r := Except.ok.inj returned
        obtain ⟨w, own, found⟩ := (ofJson_reread depth read).2 name v held
        rw [same, held] at found
        obtain rfl := Option.some.inj found
        exact (Value.reread_toJson_iff v (carried name v held) depth).1 own
  · intro readBack
    have each (name : String) (v : Value) (held : r.get? name = some v) :=
      (Value.reread_toJson_iff v (carried name v held) depth).2 (readBack name v held)
    obtain ⟨gs, fieldsRead⟩ : ∃ gs, rereadFields (r.entries.map fun f => (f.1, f.2.toJson)) depth
        = .ok gs := by
      refine rereadFields_succeeds fun f member => ?_
      obtain ⟨entry, within, rfl⟩ := List.mem_map.1 member
      have own := each entry.1 entry.2 (NameMap.get?_eq_some_iff.2 within)
      cases read : reread entry.2.toJson depth with
      | error failure =>
          rw [read] at own
          cases own
      | ok doc => exact ⟨doc, rfl⟩
    have read : reread r.toJson (depth + 1) = .ok (.object gs) := by
      rw [toJson, reread, fieldsRead]
      rfl
    obtain ⟨names, values⟩ := ofJson_reread depth read
    rw [read]
    refine congrArg Except.ok (NameMap.ext_get? fun name => ?_)
    cases held : r.get? name with
    | none => rwa [NameMap.get?_eq_none_iff, names, ← NameMap.get?_eq_none_iff]
    | some v =>
        obtain ⟨w, own, found⟩ := values name v held
        rw [each name v held] at own
        obtain rfl := Except.ok.inj own
        exact found

end Record

end Recordkeeper
