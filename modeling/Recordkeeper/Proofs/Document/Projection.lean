import Mathlib.Data.List.TakeDrop
import Recordkeeper.Proofs.Action
import Recordkeeper.Proofs.Document.Stored
import Recordkeeper.Proofs.Json
import Recordkeeper.Proofs.Record

/-!
Contract: what a projection leaves of a document.

Owns:
- the fields of an object after one is set or removed;
- the field that each part of an including projection gives;
- records of objects, and records whose fields are renamed and left out;
- the object that the projection of a selection leaves of an object.

Does not own: the documents that are projected.
-/

set_option autoImplicit false

namespace Recordkeeper

/-! ### Fields -/

namespace Fields

variable {fields acc : Fields}

theorem names_insert (fields : Fields) (name : String) (value : Json) :
    (fields.insert name value).map Prod.fst
      = if name ∈ fields.map Prod.fst then fields.map Prod.fst else fields.map Prod.fst ++ [name] := by
  induction fields with
  | nil => rfl
  | cons entry rest inductionHypothesis =>
      obtain ⟨own, held⟩ := entry
      rw [insert]
      by_cases same : own = name
      · subst same
        rw [if_pos rfl, List.map_cons, List.map_cons, if_pos List.mem_cons_self]
      · have differs : ¬ name = own := fun reversed => same reversed.symm
        rw [if_neg same, List.map_cons, inductionHypothesis]
        simp only [List.map_cons, List.mem_cons, differs, false_or]
        split <;> rfl

theorem nodup_insert (once : (fields.map Prod.fst).Nodup) (name : String) (value : Json) :
    ((fields.insert name value).map Prod.fst).Nodup := by
  rw [names_insert]
  split
  next => exact once
  next new =>
    refine List.nodup_append.2 ⟨once, List.nodup_singleton name, fun own member other single => ?_⟩
    rw [List.mem_singleton.1 single]
    rintro rfl
    exact new member

/-- Fields that are set one after another: the last value of a name counts. -/
theorem get?_foldl_set (entries : List (String × Json)) (acc : Fields) (name : String) :
    (entries.foldl (fun (acc : Fields) e => acc.insert e.1 e.2) acc).get? name
      = (entries.reverse.lookup name).or (acc.get? name) := by
  induction entries generalizing acc with
  | nil => rfl
  | cons entry rest inductionHypothesis =>
      rw [List.foldl_cons, inductionHypothesis, List.reverse_cons, List.lookup_append, get?_insert,
        Option.or_assoc, lookup_cons_if]
      split <;> rfl

theorem nodup_foldl_set (entries : List (String × Json)) (once : (acc.map Prod.fst).Nodup) :
    ((entries.foldl (fun (acc : Fields) e => acc.insert e.1 e.2) acc).map Prod.fst).Nodup := by
  induction entries generalizing acc with
  | nil => exact once
  | cons entry rest inductionHypothesis => exact inductionHypothesis (nodup_insert once _ _)

theorem mem_foldl_set {entries : List (String × Json)} {name : String}
    (member : name ∈ (entries.foldl (fun (acc : Fields) e => acc.insert e.1 e.2) acc).map Prod.fst) :
    name ∈ acc.map Prod.fst ∨ name ∈ entries.map Prod.fst := by
  induction entries generalizing acc with
  | nil => exact Or.inl member
  | cons entry rest inductionHypothesis =>
      rcases inductionHypothesis member with set | later
      · rw [names_insert] at set
        split at set
        next => exact Or.inl set
        next =>
          rcases List.mem_append.1 set with old | new
          · exact Or.inl old
          · exact Or.inr (List.mem_singleton.1 new ▸ List.mem_cons_self)
      · exact Or.inr (List.mem_cons_of_mem _ later)

theorem foldl_set_nodup {entries : List (String × Json)}
    (once : ((acc ++ entries).map Prod.fst).Nodup) :
    entries.foldl (fun (acc : Fields) e => acc.insert e.1 e.2) acc = acc ++ entries := by
  induction entries generalizing acc with
  | nil => rw [List.append_nil, List.foldl_nil]
  | cons entry rest inductionHypothesis =>
      have new : entry.1 ∉ acc.map Prod.fst := by
        intro member
        rw [List.map_append, List.map_cons, List.nodup_append] at once
        exact once.2.2 _ member _ List.mem_cons_self rfl
      have shifted : acc ++ entry :: rest = (acc ++ [entry]) ++ rest := by simp
      rw [List.foldl_cons, insert_new new, shifted, inductionHypothesis (shifted ▸ once)]

theorem insert_tabulated (value : String → Json) {known : List String} (name : String) :
    insert (known.map fun n => (n, value n)) name (value name)
      = (if name ∈ known then known else known ++ [name]).map fun n => (n, value n) := by
  induction known with
  | nil => rfl
  | cons first rest inductionHypothesis =>
      rw [List.map_cons, insert]
      by_cases same : first = name
      · subst same
        rw [if_pos rfl, if_pos List.mem_cons_self, List.map_cons]
      · have differs : ¬ name = first := fun reversed => same reversed.symm
        rw [if_neg same, inductionHypothesis]
        simp only [List.mem_cons, differs, false_or]
        split <;> rfl

/-- Fields whose values are given by their names are set in an order of the names alone. -/
theorem exists_order (names known : List String) :
    ∃ order : List String, (∀ name, name ∈ order ↔ name ∈ known ∨ name ∈ names) ∧
      ∀ value : String → Json,
        (names.map fun n => (n, value n)).foldl (fun (acc : Fields) e => acc.insert e.1 e.2)
          (known.map fun n => (n, value n)) = order.map fun n => (n, value n) := by
  induction names generalizing known with
  | nil => exact ⟨known, by simp, fun value => rfl⟩
  | cons first rest inductionHypothesis =>
      obtain ⟨order, members, set⟩ :=
        inductionHypothesis (if first ∈ known then known else known ++ [first])
      refine ⟨order, fun name => ?_, fun value => ?_⟩
      · rw [members]
        split
        next old =>
          have among : name = first → name ∈ known := fun same => same ▸ old
          simp only [List.mem_cons]
          tauto
        next =>
          simp only [List.mem_append, List.mem_cons, List.not_mem_nil, or_false]
          tauto
      · rw [List.map_cons, List.foldl_cons, insert_tabulated, set]

/-- A field that is removed leaves the others, in another order. -/
theorem remove_perm (once : (fields.map Prod.fst).Nodup) (name : String) :
    (fields.remove name).Perm (fields.filter fun field => field.1 != name) := by
  have whole : fields.takeWhile (·.1 != name) ++ fields.dropWhile (·.1 != name) = fields :=
    List.takeWhile_append_dropWhile
  have before : ∀ field ∈ fields.takeWhile (·.1 != name), field.1 != name :=
    List.all_eq_true.1 List.all_takeWhile
  unfold remove
  rw [List.span_eq_takeWhile_dropWhile]
  cases dropped : fields.dropWhile (·.1 != name) with
  | nil =>
      rw [dropped, List.append_nil] at whole
      rw [whole] at before
      rw [List.filter_eq_self.2 before]
  | cons entry after =>
      have found : entry.1 = name := by
        have stopped := List.head?_dropWhile_not (·.1 != name) fields
        rw [dropped] at stopped
        exact bne_eq_false_iff_eq.1 stopped
      rw [dropped] at whole
      rw [← whole, List.map_append, List.map_cons, List.nodup_append] at once
      have rest : ∀ field ∈ after, field.1 != name := by
        intro field member
        refine bne_iff_ne.2 fun same => ?_
        rw [found, ← same] at once
        exact (List.nodup_cons.1 once.2.1).1 (List.mem_map_of_mem member)
      have kept : fields.filter (·.1 != name) = fields.takeWhile (·.1 != name) ++ after := by
        conv_lhs => rw [← whole]
        rw [List.filter_append, List.filter_eq_self.2 before, List.filter_cons_of_neg (by simp [found]),
          List.filter_eq_self.2 rest]
      rw [kept]
      dsimp only
      cases final : after.getLast? with
      | none =>
          rw [List.getLast?_eq_none_iff.1 final, List.append_nil]
      | some last =>
          have split := List.dropLast_append_getLast? last final
          dsimp only
          refine List.Perm.append_left _ ?_
          conv_rhs => rw [← split]
          exact (List.perm_append_singleton last _).symm

theorem nodup_remove (once : (fields.map Prod.fst).Nodup) (name : String) :
    ((fields.remove name).map Prod.fst).Nodup :=
  ((remove_perm once name).map Prod.fst).nodup_iff.2
    (once.sublist (List.filter_sublist.map Prod.fst))

theorem get?_remove (once : (fields.map Prod.fst).Nodup) (name other : String) :
    (fields.remove name).get? other = if other = name then none else fields.get? other := by
  rw [get?, lookup_perm (remove_perm once name) (nodup_remove once name), lookup_filter (· != name)]
  by_cases same : other = name
  · rw [if_pos same, same, bne_self_eq_false, if_neg Bool.false_ne_true]
  · rw [if_neg same, if_pos (bne_iff_ne.2 same)]
    rfl

end Fields

/-! ### Records -/

namespace Record

/-- An object with some of the fields of another one is a restricted record. -/
theorem ofJson_restrict {small big : Fields} (smallOnce : (small.map Prod.fst).Nodup)
    (bigOnce : (big.map Prod.fst).Nodup) {keep : String → Bool}
    (fields : ∀ name, small.get? name = if keep name then big.get? name else none) :
    ofJson (.object small) = (ofJson (.object big)).restrict keep := by
  refine NameMap.ext_get? fun name => ?_
  rw [restrict, NameMap.get?_filter, get?_ofJson smallOnce, get?_ofJson bigOnce, fields]
  generalize keep name = kept
  cases big.get? name <;> cases kept <;> rfl

theorem rename_restrict (r : Record) (newName : String → String) (keep : String → Bool) :
    (r.restrict fun n => keep (newName n)).rename newName = (r.rename newName).restrict keep := by
  unfold rename restrict
  rw [← NameMap.ofList_filter, List.filter_map]
  rfl

theorem restrict_congr {r : Record} {keep other : String → Bool}
    (same : ∀ name, (r.get? name).isSome → keep name = other name) :
    r.restrict keep = r.restrict other := by
  refine NameMap.ext_get? fun name => ?_
  rw [restrict, restrict, NameMap.get?_filter, NameMap.get?_filter]
  have agrees := same name
  cases held : r.get? name with
  | none => rfl
  | some v =>
      rw [held] at agrees
      rw [agrees rfl]

end Record

/-! ### Parts of a projection -/

namespace Document

/-- What a part of an including projection gives under its name, if anything; the id is kept
apart. -/
def projectedField (doc : Json) (name : String) (part : Json) : Outcome (Option Json) :=
  match flag? part with
  | some true => .ok (if name = idField then none else lookup doc name)
  | some false => .ok none
  | none => (evaluate doc part).map some

theorem includedFields_cons (doc : Json) (name : String) (part : Json)
    (rest : List (String × Json)) (acc : Fields) :
    includedFields doc ((name, part) :: rest) acc
      = projectedField doc name part >>= fun given =>
        includedFields doc rest (given.elim acc fun value => acc.insert name value) := by
  unfold projectedField
  rw [includedFields]
  cases flag? part with
  | none => cases evaluate doc part <;> rfl
  | some flag =>
      cases flag with
      | false => rfl
      | true =>
          show (if name = idField then _ else _) = _
          by_cases isId : name = idField
          · rw [if_pos isId, if_pos isId]
            rfl
          · rw [if_neg isId, if_neg isId]
            cases lookup doc name <;> rfl

variable {doc : Json} {parts : List (String × Json)} {acc kept : Fields}

theorem includedFields_nodup (included : includedFields doc parts acc = .ok kept)
    (once : (acc.map Prod.fst).Nodup) : (kept.map Prod.fst).Nodup := by
  induction parts generalizing acc with
  | nil =>
      cases included
      exact once
  | cons part rest inductionHypothesis =>
      rw [includedFields_cons] at included
      obtain ⟨given, -, others⟩ := exists_of_bind included
      refine inductionHypothesis others ?_
      cases given with
      | none => exact once
      | some value => exact Fields.nodup_insert once _ _

/-- A name holds what its part gives, and otherwise what it held before. -/
theorem includedFields_get? (included : includedFields doc parts acc = .ok kept)
    (once : (parts.map Prod.fst).Nodup) (name : String) :
    match parts.lookup name with
    | some part => ∃ given, projectedField doc name part = .ok given ∧
        kept.get? name = given.or (acc.get? name)
    | none => kept.get? name = acc.get? name := by
  induction parts generalizing acc with
  | nil =>
      cases included
      rfl
  | cons part rest inductionHypothesis =>
      obtain ⟨own, v⟩ := part
      rw [List.map_cons, List.nodup_cons] at once
      rw [includedFields_cons] at included
      obtain ⟨given, gave, others⟩ := exists_of_bind included
      have later := inductionHypothesis others once.2
      have step : (given.elim acc fun value => acc.insert own value).get? name
          = if name = own then given.or (acc.get? name) else acc.get? name := by
        cases given with
        | none => exact (ite_self _).symm
        | some value => exact Fields.get?_insert acc own name value
      rw [step] at later
      rw [lookup_cons_if]
      by_cases asked : name = own
      · subst asked
        have absent : rest.lookup name = none := by
          rw [List.lookup_eq_none_iff]
          intro entry member
          exact bne_iff_ne.2 fun same => once.1 (List.mem_map.2 ⟨entry, member, same.symm⟩)
        rw [absent, if_pos rfl] at later
        rw [if_pos rfl]
        exact ⟨given, gave, later⟩
      · rw [if_neg asked] at later ⊢
        exact later

theorem includedFields_succeeds
    (gives : ∀ part ∈ parts, ∃ given, projectedField doc part.1 part.2 = .ok given) (acc : Fields) :
    ∃ kept, includedFields doc parts acc = .ok kept := by
  induction parts generalizing acc with
  | nil => exact ⟨acc, rfl⟩
  | cons part rest inductionHypothesis =>
      obtain ⟨⟨given, gave⟩, others⟩ := List.forall_mem_cons.1 gives
      obtain ⟨kept, included⟩ := inductionHypothesis others
        (given.elim acc fun value => acc.insert part.1 value)
      refine ⟨kept, ?_⟩
      rw [includedFields_cons, gave]
      exact included

/-- A projection that names fields only, to be included or left out. -/
def Flags (spec : Json) : Prop :=
  ∃ fields : Fields, spec = .object fields ∧ ∀ field ∈ fields, (flag? field.2).isSome

theorem includedFields_flags (flags : ∀ part ∈ parts, (flag? part.2).isSome) (acc : Fields) :
    ∃ kept, includedFields doc parts acc = .ok kept := by
  refine includedFields_succeeds (fun part member => ?_) acc
  obtain ⟨flag, flagged⟩ := Option.isSome_iff_exists.1 (flags part member)
  unfold projectedField
  rw [flagged]
  cases flag <;> exact ⟨_, rfl⟩

/-- A projection that names fields only does not fail. -/
theorem project_flags {spec : Json} (flags : Flags spec) (doc : Json) :
    ∃ kept, project doc spec = .ok kept := by
  obtain ⟨fields, rfl, flagged⟩ := flags
  unfold project
  dsimp only
  split
  · obtain ⟨kept, included⟩ := @includedFields_flags doc fields flagged _
    rw [included]
    exact ⟨_, rfl⟩
  · split <;> exact ⟨_, rfl⟩

/-- What an including projection starts from: the id, if it stays and there is one. -/
def keptId (doc : Json) (stays : Bool) : Fields :=
  if stays then ((lookup doc idField).map fun id => (idField, id)).toList else []

theorem keptId_nodup (doc : Json) (stays : Bool) : ((keptId doc stays).map Prod.fst).Nodup := by
  unfold keptId
  cases stays with
  | false => exact List.nodup_nil
  | true => cases lookup doc idField <;> simp

theorem get?_keptId (doc : Json) (stays : Bool) (name : String) :
    (keptId doc stays).get? name = if name = idField ∧ stays then lookup doc idField else none := by
  unfold keptId
  cases stays with
  | false => simp [Fields.get?]
  | true =>
      cases lookup doc idField with
      | none => simp [Fields.get?]
      | some id =>
          show List.lookup name [(idField, id)] = _
          rw [lookup_cons_if]
          simp

theorem project_eq (doc : Json) {parts : Fields}
    (including : parts.any fun f => f.1 != idField && (flag? f.2).getD true) :
    project doc (.object parts)
      = (includedFields doc parts
          (keptId doc ((parts.get? idField).all fun v => flag? v == some true))).map .object := by
  have asked : (parts.any fun f => f.1 != "_id" && (flag? f.2).getD true) = true := including
  have start (stays : Bool) :
      (if stays then
        match lookup doc "_id" with
        | some id => [("_id", id)]
        | none => []
      else []) = keptId doc stays := by
    unfold keptId
    show (if stays then
      match lookup doc idField with
      | some id => [(idField, id)]
      | none => []
    else []) = _
    cases lookup doc idField <;> rfl
  have bound (outcome : Outcome Fields) :
      (outcome >>= fun kept => pure (Json.object kept)) = outcome.map .object := by
    cases outcome <;> rfl
  unfold project
  dsimp only
  rw [if_pos asked, bound]
  exact congrArg (fun first => (includedFields doc parts first).map Json.object) (start _)

/-! ### Selections -/

/-- The parts of the projection of a selection: every key that is selected, and the id left out
unless it is one of them. -/
def selectedParts (keys : List String) : Fields :=
  (keys.map (fun key => (key, Json.int 1))
    ++ if keys.contains idField then [] else [(idField, Json.int 0)]).foldl
      (fun acc f => acc.insert f.1 f.2) []

theorem Compiler.projection_eq (c : Compiler) {q : Query} (selects : q.select ≠ []) :
    c.projection q = some (.object (selectedParts (q.select.map c.key))) := by
  unfold projection
  rw [if_neg (by simpa using selects)]
  rfl

theorem selectedParts_nodup (keys : List String) :
    ((selectedParts keys).map Prod.fst).Nodup :=
  Fields.nodup_foldl_set _ List.nodup_nil

theorem get?_selectedParts (keys : List String) (name : String) :
    (selectedParts keys).get? name
      = if name ∈ keys then some (.int 1) else if name = idField then some (.int 0) else none := by
  unfold selectedParts
  rw [Fields.get?_foldl_set, List.reverse_append, List.lookup_append, ← List.map_reverse,
    lookup_tabulated fun _ => Json.int 1]
  by_cases withId : idField ∈ keys
  · rw [if_pos (by simpa using withId)]
    simp only [List.mem_reverse]
    by_cases selected : name ∈ keys
    · rw [if_pos selected, if_pos selected]
      rfl
    · have notId : name ≠ idField := by
        rintro rfl
        exact selected withId
      rw [if_neg selected, if_neg selected, if_neg notId]
      rfl
  · rw [if_neg (by simpa using withId)]
    simp only [List.mem_reverse, List.reverse_singleton, lookup_cons_if]
    by_cases isId : name = idField
    · rw [isId, if_neg withId, if_neg withId]
      rfl
    · rw [if_neg isId, if_neg isId]
      split <;> rfl

variable {keys : List String} {own : Fields}

theorem selectedParts_flags (keys : List String) :
    ∀ part ∈ selectedParts keys, (flag? part.2).isSome := by
  intro part member
  have held := (lookup_eq_some_iff_mem (selectedParts_nodup keys)).2 member
  rw [← Fields.get?, get?_selectedParts] at held
  split at held
  next => exact Option.some.inj held ▸ rfl
  next =>
    split at held
    next => exact Option.some.inj held ▸ rfl
    next => cases held

theorem Compiler.projection_flags {c : Compiler} {q : Query} {spec : Json}
    (projected : c.projection q = some spec) : Flags spec := by
  have selects : q.select ≠ [] := by
    intro none
    unfold projection at projected
    rw [none] at projected
    cases projected
  rw [c.projection_eq selects] at projected
  cases projected
  exact ⟨_, rfl, selectedParts_flags _⟩

theorem selectedParts_including (other : ∃ key ∈ keys, key ≠ idField) :
    (selectedParts keys).any fun f => f.1 != idField && (flag? f.2).getD true := by
  obtain ⟨key, selected, notId⟩ := other
  have held := get?_selectedParts keys key
  rw [if_pos selected] at held
  rw [List.any_eq_true]
  refine ⟨(key, .int 1), (lookup_eq_some_iff_mem (selectedParts_nodup keys)).1 held, ?_⟩
  rw [Bool.and_eq_true]
  exact ⟨bne_iff_ne.2 notId, rfl⟩

theorem selectedParts_keepId (keys : List String) :
    ((selectedParts keys).get? idField).all (fun v => flag? v == some true)
      = decide (idField ∈ keys) := by
  rw [get?_selectedParts]
  by_cases selected : idField ∈ keys
  · rw [if_pos selected, decide_eq_true selected]
    rfl
  · rw [if_neg selected, if_pos rfl, decide_eq_false selected]
    rfl

/-- Selected keys other than the id are included, with the id only if it is selected. -/
theorem project_including (noDots : ∀ key ∈ keys, '.' ∉ key.toList)
    (other : ∃ key ∈ keys, key ≠ idField) :
    ∃ small : Fields, project (.object own) (.object (selectedParts keys)) = .ok (.object small) ∧
      (small.map Prod.fst).Nodup ∧
      ∀ name, small.get? name = if name ∈ keys then own.get? name else none := by
  obtain ⟨small, included⟩ : ∃ small, includedFields (.object own) (selectedParts keys)
      (keptId (.object own) (decide (idField ∈ keys))) = .ok small :=
    includedFields_flags (selectedParts_flags keys) _
  refine ⟨small, ?_, includedFields_nodup included (keptId_nodup _ _), fun name => ?_⟩
  · rw [project_eq _ (selectedParts_including other), selectedParts_keepId, included]
    rfl
  · have held := includedFields_get? included (selectedParts_nodup keys) name
    have atId : lookup (.object own) idField = own.get? idField := lookup_plain (by decide) own
    rw [get?_keptId, atId, ← Fields.get?, get?_selectedParts] at held
    simp only [decide_eq_true_eq] at held
    by_cases selected : name ∈ keys
    · rw [if_pos selected] at held ⊢
      obtain ⟨given, gave, held⟩ := held
      cases gave
      rw [held]
      by_cases isId : name = idField
      · rw [if_pos isId, if_pos ⟨isId, isId ▸ selected⟩, isId]
        rfl
      · rw [if_neg isId, if_neg fun both => isId both.1, lookup_plain (noDots name selected),
          Option.or_none]
    · have notKept : ¬ (name = idField ∧ idField ∈ keys) := fun both => selected (both.1 ▸ both.2)
      rw [if_neg selected, if_neg notKept] at held
      rw [if_neg selected]
      split at held
      next part found =>
        obtain ⟨given, gave, held⟩ := held
        split at found
        next =>
          cases found
          cases gave
          exact held
        next => cases found
      next => exact held

/-- If the id alone is selected, it is what the projection leaves out. -/
theorem project_idOnly (selects : keys ≠ []) (only : ∀ key ∈ keys, key = idField) :
    project (.object own) (.object (selectedParts keys)) = .ok (.object (own.remove idField)) := by
  have folded (names : List String) (only : ∀ name ∈ names, name = idField) :
      (names.map fun name => (name, Json.int 1)).foldl (fun acc f => Fields.insert acc f.1 f.2)
        [(idField, Json.int 1)] = [(idField, .int 1)] := by
    induction names with
    | nil => rfl
    | cons name rest inductionHypothesis =>
        obtain ⟨rfl, others⟩ := List.forall_mem_cons.1 only
        exact inductionHypothesis others
  have parts : selectedParts keys = [(idField, .int 1)] := by
    cases keys with
    | nil => exact absurd rfl selects
    | cons key rest =>
        obtain ⟨rfl, others⟩ := List.forall_mem_cons.1 only
        unfold selectedParts
        rw [if_pos (by simp), List.append_nil]
        exact folded rest others
  rw [parts]
  rfl

end Document

end Recordkeeper
