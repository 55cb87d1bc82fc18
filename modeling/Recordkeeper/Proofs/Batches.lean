import Recordkeeper.Proofs.Document.Batch
import Recordkeeper.Proofs.KeyValue.Batch

/-!
Contract: batches that insert what they can report exactly what was stored.

Owns:
- `createBatch_accounts`: on keys and values and on documents, every entity of a batch is stored and
  counted or is reported as a failure, also when the context ends while the batch runs.

Does not own: the way there in each of the stores.
-/

set_option autoImplicit false

namespace Recordkeeper

variable {σ φ E : Type}

/-- What a batch of insertions answers and leaves: an outcome that accounts for every entity by its
position, and in the store one row for each position that is not among the failures.  Every entity
that the batch comes to after its context has ended is among them. -/
def BatchAccounted (env : Environment σ) (requests : Operations σ E)
    (gained : List (BatchRow E φ) → σ → σ → Prop) (ctx : Context) (entities : List E) (s : σ) :
    Prop :=
  ∃ outcome rows, (requests.createBatch ctx entities s).1.1 = .ok outcome ∧
    Accounts entities outcome (requests.createBatch ctx entities s).1.2 rows ∧
    gained rows s (requests.createBatch ctx entities s).2 ∧
    ∀ past, env.Ends ctx past → ∀ earlier entity later, entities = earlier ++ entity :: later →
      past (requests.createBatch ctx earlier s).2 → earlier.length ∈ outcome.failures.map (·.1)

/-- A batch on a key-value or a document store accounts for every entity, whatever becomes of the
single ones: what it reports is what the store has gained, whenever its context ends. -/
theorem createBatch_accounts {σ τ E F : Type} :
    (∀ (k : KeyValue.Records σ E) (p : Part σ (World KeyValue.Store)), k.Reaches p →
      ∀ ctx entities s, (∀ entity ∈ entities, ∀ e, ¬ RefusesId k.schema k.type entity e) →
        BatchAccounted k.env k.repository.toOperations
          (fun rows s t => k.Gained rows (p.view s) (p.view t)) ctx entities s) ∧
    ∀ (d : Document.Records τ F) (p : Part τ Document.Store), d.Reaches p →
      ∀ session requests, d.Opens session requests →
        ∀ ctx entities s, (∀ entity ∈ entities, ∀ e, ¬ RefusesId d.schema d.type entity e) →
          BatchAccounted d.env requests
            (fun rows s t => d.Gained session rows (p.view s) (p.view t)) ctx entities s := by
  constructor
  · intro k p reaches ctx entities s takes
    obtain ⟨outcome, rows, answered, accounts, gained⟩ :=
      KeyValue.Records.createBatch_gains reaches takes ctx s
    refine ⟨outcome, rows, answered, accounts, gained, ?_⟩
    rintro past ends earlier entity later rfl ended
    exact KeyValue.Records.createBatch_ended ends ended answered
  · intro d p reaches session requests opened ctx entities s takes
    obtain ⟨outcome, rows, answered, accounts, gained⟩ :=
      Document.Records.createBatch_gains reaches takes session (d.effective ctx s).1
        (d.effective ctx s).2
    rw [show p.view (d.effective ctx s).2 = p.view s from reaches.apart.observe s] at gained
    unfold BatchAccounted
    rw [opened.createBatch_eq]
    refine ⟨outcome, rows, answered, accounts, gained, ?_⟩
    rintro past ends earlier entity later rfl ended
    rw [opened.createBatch_eq] at ended
    obtain rfl := Except.ok.inj answered
    exact insertEach_failed
      (Document.Records.create_ended (ends.effective _ _) session entity ended) later

/-! ### Visits, interrupted -/

def visits : Schema where
  name := "visits"
  primaryKey := "id"
  idStrategy := .uuid
  fields :=
    [{ name := "id", column := "id", kind := .text },
      { name := "guest", column := "guest", kind := .text }]

def storeSide {α β : Type} : Part (α × β) α := ⟨Prod.fst, fun a s => (a, s.2)⟩

def logSide {α β : Type} : Part (α × β) β := ⟨Prod.snd, fun b s => (s.1, b)⟩

/-- The first insertion cancels the token 0. -/
def interruption {μ f : Type} : FaultPlan μ f := { cancelAfterWrites := some 1 }

def interrupt {α β : Type} (s : World α × β) : World α × β := (s.1.cancel 0, s.2)

def interruptedVisits :
    KeyValue.Records (World KeyValue.Store × CallLog KeyValue.Method) Json where
  client := .faulty interruption logSide interrupt (.memory storeSide)
  env := World.environment storeSide
  schema := visits
  config := {}
  type := .anyDocument

def interruptedDocs : Document.Records (World Document.Store × CallLog Document.Method) Json where
  client := .faulty interruption logSide interrupt (.memory (storeSide.inside World.storePart))
  env := World.environment storeSide
  schema := visits
  config := {}
  type := .anyDocument

def guests : List Json := ["ann", "bob", "cid"].map fun guest => .object [("guest", .text guest)]

def onlyFirst : BatchOutcome := ⟨1, [(1, .refused .cancelled), (2, .refused .cancelled)]⟩

theorem interruptedVisits_reaches : interruptedVisits.Reaches storeSide := by
  have memory : ({ interruptedVisits with client := .memory storeSide } :
      KeyValue.Records (World KeyValue.Store × CallLog KeyValue.Method) Json).InMemory storeSide :=
    ⟨rfl, rfl, fun _ _ => rfl⟩
  exact (KeyValue.Records.Reaches.memory memory).faulty interruption (fun _ _ => rfl)
    fun s => ⟨rfl, Int.le_refl _⟩

theorem interruptedDocs_reaches :
    interruptedDocs.Reaches (storeSide.inside World.storePart) := by
  have lawful : (storeSide : Part (World Document.Store × CallLog Document.Method) _).Lawful :=
    fun _ _ => rfl
  have memory : ({ interruptedDocs with client := .memory (storeSide.inside World.storePart) } :
      Document.Records (World Document.Store × CallLog Document.Method) Json).Reaches
        (storeSide.inside World.storePart) :=
    .memory (lawful.inside fun _ _ => rfl) rfl (World.environment_apart lawful)
  exact memory.faulty interruption (fun _ _ => rfl) fun _ => rfl

theorem interruptedVisits_accounted :
    interruptedVisits.Reaches storeSide ∧
      interruptedDocs.Reaches (storeSide.inside World.storePart) ∧
      (∀ guest ∈ guests, ∀ e, ¬ RefusesId visits .anyDocument guest e) ∧
      interruptedVisits.env.Ends { token := some 0 } (fun s => 0 ∈ s.1.surroundings.cancelled) ∧
      (interruptedVisits.repository.createBatch { token := some 0 } guests
        (⟨.empty, {}, 0⟩, {})).1.1 = .ok onlyFirst ∧
      BatchAccounted interruptedVisits.env interruptedVisits.repository.toOperations
        (fun rows s t => interruptedVisits.Gained rows s.1 t.1) { token := some 0 } guests
        (⟨.empty, {}, 0⟩, {}) ∧
      (interruptedDocs.repository.createBatch { token := some 0 } guests
        (⟨.new, {}, 0⟩, {})).1.1 = .ok onlyFirst ∧
      BatchAccounted interruptedDocs.env interruptedDocs.repository.toOperations
        (fun rows s t => interruptedDocs.Gained none rows s.1.store t.1.store) { token := some 0 }
        guests (⟨.new, {}, 0⟩, {}) := by
  obtain ⟨onKeys, onDocs⟩ := createBatch_accounts
    (σ := World KeyValue.Store × CallLog KeyValue.Method)
    (τ := World Document.Store × CallLog Document.Method) (E := Json) (F := Json)
  exact ⟨interruptedVisits_reaches, interruptedDocs_reaches, fun _ _ => anyDocument_takes,
    World.environment_ends (fun _ _ => rfl) rfl, by decide +kernel,
    onKeys interruptedVisits storeSide interruptedVisits_reaches _ guests _
      fun _ _ => anyDocument_takes,
    by decide +kernel,
    onDocs interruptedDocs (storeSide.inside World.storePart) interruptedDocs_reaches none _
      .repository _ guests _ fun _ _ => anyDocument_takes⟩

end Recordkeeper
