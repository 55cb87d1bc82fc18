import Recordkeeper.Proofs.Document.Overlay
import Recordkeeper.Proofs.KeyValue.Overlay

/-!
Contract: a partial update overlays exactly the given fields.

Owns:
- `partialUpdate_overlays`: what a partial update leaves in a key-value store and in a document
  store, when it answers and when it fails, and with other clients at work in between.

Does not own: the way there in each of the stores.

A key-value repository reads the record, encodes it anew and writes it back, so its answer hangs on
the codec: a float that the JSON reader gives back as its neighbour is not what was set.
-/

set_option autoImplicit false

namespace Recordkeeper

open KeyValue (stored)
open Document (SessionId)

/-- With columns that lead back to the fields, a partial update that answers puts exactly the given
fields over the record that the id led to, and changes nothing else; one that fails changes nothing
at all.  In a key-value store the id then leads to the new record if and only if the codec reads its
values as themselves.  There, what others removed or let expire between the reading and the write
is not brought back. -/
theorem partialUpdate_overlays {σ τ E F : Type} {schema : Schema}
    (own : Document.Records.Distinguishes schema) :
    (∀ (k : KeyValue.Records σ E) (p : Part σ (World KeyValue.Store)), k.schema = schema →
      k.InMemory p → KeyValue.Records.accept schema k.config = .ok () →
      ∀ env : Environment σ, env.Apart (stored p) → ∀ s ctx id fields,
        (k.HoldsRecords (stored p s) → (∀ name v, fields.get? name = some v → v.isCarried) →
          ((k.hosted k.client env).updatePartial ctx id fields s).1 = .ok () →
          ∃ key e r, k.Overlaid p id fields s
            ((k.hosted k.client env).updatePartial ctx id fields s).2 key e r) ∧
        (∀ e, ((k.hosted k.client env).updatePartial ctx id fields s).1 = .error e →
          (stored p s).LivesAlike (p.view ((k.hosted k.client env).updatePartial ctx id fields s).2).now
            (stored p ((k.hosted k.client env).updatePartial ctx id fields s).2)) ∧
        ∀ others : σ → σ,
          let run := (k.hosted k.client env).updatePartialAmid others ctx id fields s
          ((∃ e, run.1 = .error e) ∧ stored p run.2 = stored p s) ∨
            ∃ t, stored p t = stored p s ∧
              ∀ key, (stored p (others t)).live? key (p.view run.2).now = none →
                ∀ moment, (p.view run.2).now ≤ moment →
                  (stored p run.2).live? key moment = none) ∧
    ∀ (d : Document.Records τ F) (p : Part τ Document.Store), d.schema = schema → p.Lawful →
      d.client = .memory p → d.env.Apart p.view →
      ∀ (session : Option SessionId) (s : τ) (ctx : Context) (id : Value) (fields : Record),
        (d.HoldsRecords session (p.view s) →
          (∀ name v, fields.get? name = some v → v.isCarried) →
          (d.updatePartial session ctx id fields s).1 = .ok () →
          ∃ cols before doc changed rest, d.Overlaid p session id fields s
            (d.updatePartial session ctx id fields s).2 cols before doc changed rest) ∧
        ∀ e, (d.updatePartial session ctx id fields s).1 = .error e → ∀ caller,
          (p.view (d.updatePartial session ctx id fields s).2).visible caller
            = (p.view s).visible caller := by
  refine ⟨?_, ?_⟩
  · rintro k p rfl memory accepted env apart s ctx id fields
    refine ⟨fun holds carried answered => ?_, fun e failed => ?_, fun others => ?_⟩
    · exact k.exists_overlaid memory accepted own.distinct apart holds carried answered
    · exact KeyValue.Records.updatePartial_error (k := k.hosted k.client env) memory.lawful
        memory.client apart failed
    · exact KeyValue.Records.updatePartialAmid_revives_nothing (k := k.hosted k.client env)
        memory.lawful memory.client apart others ctx id fields s
  · rintro d p rfl lawful client apart session s ctx id fields
    refine ⟨fun holds carried answered => ?_, fun e failed => ?_⟩
    · exact d.exists_overlaid lawful client apart own holds carried answered
    · exact d.updatePartial_failed lawful client apart failed

/-! ### A badge and a score -/

def badges : Schema where
  name := "badges"
  primaryKey := "id"
  fields :=
    [{ name := "id", column := "key", kind := .text },
      { name := "label", column := "l", kind := .text },
      { name := "rank", column := "r", kind := .int }]

theorem badges_distinguishes : Document.Records.Distinguishes badges where
  distinct := by decide
  notId := by decide

def badge : Record :=
  NameMap.empty.insert "id" (.text "1") |>.insert "label" (.text "new") |>.insert "rank" (.int 3)

def relabelling : Record := NameMap.empty.insert "label" (.text "old")

def badgeKept : World KeyValue.Store where
  store := KeyValue.Store.empty.put "badges:1" ⟨(onKeyValue badges).encode badge, none⟩

def badgeStored : World Document.Store where
  store := { collections :=
    NameMap.empty.insert "badges" { docs := [(onDocuments badges).toDoc badge] } }

theorem badge_isStorable : badge.IsStorable badges where
  declared := by decide
  carried := NameMap.forall_get?_insert rfl <| NameMap.forall_get?_insert rfl <|
    NameMap.forall_get?_insert rfl NameMap.forall_get?_empty

theorem badge_returned :
    (onKeyValue badges).decode "badges:1" ((onKeyValue badges).encode badge) = .ok badge := by
  refine ((onKeyValue badges).decode_encode_iff rfl badge_isStorable nofun _).2 ⟨by decide, ?_⟩
  exact fun _ => NameMap.forall_get?_insert trivial <| NameMap.forall_get?_insert trivial <|
    NameMap.forall_get?_insert trivial NameMap.forall_get?_empty

theorem badgeKept_holds : (onKeyValue badges).HoldsRecords badgeKept.store :=
  ((onKeyValue badges).holdsRecords_empty).put_own badge_isStorable badge_returned none

theorem badge_overlaid :
    Document.Records.Distinguishes badges ∧
      (∃ key e r, (onKeyValue badges).Overlaid .whole (.text "1") relabelling badgeKept
        ((onKeyValue badges).updatePartial .background (.text "1") relabelling badgeKept).2 key e r) ∧
      ∃ cols before doc changed rest, (onDocuments badges).Overlaid World.storePart none (.text "1")
        relabelling badgeStored
        ((onDocuments badges).updatePartial none .background (.text "1") relabelling badgeStored).2
        cols before doc changed rest := by
  have carried : ∀ name v, relabelling.get? name = some v → v.isCarried :=
    NameMap.forall_get?_insert rfl NameMap.forall_get?_empty
  have whole {α : Type} : (Part.whole : Part (World α) (World α)).Lawful := fun _ _ => rfl
  obtain ⟨inKeyValue, inDocuments⟩ := partialUpdate_overlays (σ := World KeyValue.Store)
    (τ := World Document.Store) (E := Json) (F := Json) badges_distinguishes
  obtain ⟨overlaid, -⟩ := inKeyValue (onKeyValue badges) .whole rfl ⟨rfl, rfl, whole⟩ rfl
    (World.environment .whole) (World.environment_apart whole) badgeKept .background (.text "1")
    relabelling
  obtain ⟨set, -⟩ := inDocuments (onDocuments badges) World.storePart rfl (fun _ _ => rfl) rfl
    (World.environment_apart whole) none badgeStored .background (.text "1") relabelling
  refine ⟨badges_distinguishes, overlaid badgeKept_holds carried (by decide +kernel),
    set ?_ carried (by decide +kernel)⟩
  rintro cols sees doc member
  cases sees
  rw [List.mem_singleton.1 (show doc ∈ [(onDocuments badges).toDoc badge] from member)]
  exact ⟨_, (onDocuments badges).holdsRecord_toDoc badge_isStorable.declared⟩

def scores : Schema where
  name := "scores"
  primaryKey := "id"
  fields :=
    [{ name := "id", column := "id", kind := .text },
      { name := "score", column := "score", kind := .float }]

/-- The float that is written 90.28571428571429. -/
def fine : Binary64 := ⟨4636053709268338981⟩

def score : Record := NameMap.empty.insert "id" (.text "1") |>.insert "score" (.int 0)

def rescoring : Record := NameMap.empty.insert "score" (.float fine)

def scoreKept : World KeyValue.Store where
  store := KeyValue.Store.empty.put "scores:1" ⟨(onKeyValue scores).encode score, none⟩

theorem score_isStorable : score.IsStorable scores where
  declared := by decide
  carried := NameMap.forall_get?_insert rfl <|
    NameMap.forall_get?_insert rfl NameMap.forall_get?_empty

theorem score_returned :
    (onKeyValue scores).decode "scores:1" ((onKeyValue scores).encode score) = .ok score := by
  refine ((onKeyValue scores).decode_encode_iff rfl score_isStorable nofun _).2 ⟨by decide, ?_⟩
  exact fun _ => NameMap.forall_get?_insert trivial <|
    NameMap.forall_get?_insert trivial NameMap.forall_get?_empty

theorem scoreKept_holds : (onKeyValue scores).HoldsRecords scoreKept.store :=
  ((onKeyValue scores).holdsRecords_empty).put_own score_isStorable score_returned none

/-- A partial update answers, and the id leads to a record with another score than was set. -/
theorem fineScore_missed :
    let k := onKeyValue scores
    let run := k.updatePartial .background (.text "1") rescoring scoreKept
    Document.Records.Distinguishes scores ∧ k.HoldsRecords (stored .whole scoreKept) ∧
      (∀ name v, rescoring.get? name = some v → v.isCarried) ∧ run.1 = .ok () ∧
      (k.findById .background (.text "1") scoreKept).1 = scores.ofRecord k.type score ∧
      (k.findById .background (.text "1") run.2).1
        ≠ scores.ofRecord k.type (score.overlay rescoring) := by
  intro k run
  have memory : k.InMemory .whole := ⟨rfl, rfl, fun _ _ => rfl⟩
  have shown : k.Shows .whole (.text "1") (stored .whole scoreKept)
      ⟨(onKeyValue scores).encode score, none⟩ score :=
    KeyValue.Records.shows_of_entry memory nofun (show k.keyFor (.text "1") = .ok "scores:1" from rfl)
      ((KeyValue.Store.entry?_put ..).trans (if_pos rfl)) score_returned
  refine ⟨⟨by decide, by decide⟩, scoreKept_holds,
    NameMap.forall_get?_insert (by decide) NameMap.forall_get?_empty, by decide +kernel,
    shown scoreKept .background rfl rfl rfl, fun same => ?_⟩
  have apart : (k.findById .background (.text "1") run.2).1.toOption.map Json.render
      ≠ (scores.ofRecord k.type (score.overlay rescoring)).toOption.map Json.render := by
    decide +kernel
  exact apart (congrArg (fun answer => answer.toOption.map Json.render) same)

end Recordkeeper
