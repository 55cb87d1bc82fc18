import Mathlib.Data.Set.Card
import Recordkeeper.Proofs.KeyValue.Finding

/-!
Contract: a scan is complete and bounded, and pages of any size give the same answers.

Owns:
- the set of live keys that a pattern matches, and their number;
- reading exactly as far as the bound;
- repositories that differ in the size of their pages;
- `scan_bounded_complete`: both, for every store that calls lead to.

Does not own: which keys a pattern matches (`Proofs.KeyValue.Finding`).

The keys of a scan come in the order of the stripes, whatever the pages.  So a scan is compared with
one reading of this list, and the bound is met there key by key.
-/

set_option autoImplicit false

namespace Recordkeeper

namespace KeyValue

variable {σ E : Type} {k : Records σ E} {w : World Store} {r : Regex}

/-! ### Matching keys -/

/-- The live keys that match. -/
def Store.matched (s : Store) (r : Regex) (now : Instant) : Set String :=
  { key | r.isMatch key = true ∧ (s.live? key now).isSome }

theorem Store.Placed.ncard_matched {s : Store} (placed : s.Placed) (r : Regex) (now : Instant) :
    (s.matched r now).ncard = (s.matchedKeys r now).length := by
  have same : s.matched r now = ((s.matchedKeys r now).toFinset : Set String) := by
    ext key
    rw [List.coe_toFinset]
    exact placed.mem_matchedKeys.symm
  rw [same, Set.ncard_coe_finset, List.toFinset_card_of_nodup (placed.nodup_matchedKeys r now)]

namespace Records

/-- Every live key that matches holds a record. -/
def Decodes (k : Records σ E) (w : World Store) (r : Regex) : Prop :=
  ∀ key e, r.isMatch key = true → w.store.live? key w.now = some e →
    ∃ record, k.decode key e.value = .ok record

/-- The answer of a scan by the live keys that match: it is refused exactly if these are too many,
and else has each of them once, with the record that is stored there. -/
structure ScannedBy (k : Records σ E) (w : World Store) (r : Regex)
    (answer : Except Error (List (String × Record))) : Prop where
  refused_iff : (∃ e, answer = .error e ∧ e.kind = .invalidArgument) ↔
    k.config.maxScanKeys < (w.store.matched r w.now).ncard
  complete : (w.store.matched r w.now).ncard ≤ k.config.maxScanKeys →
    ∃ found, answer = .ok found ∧ (found.map (·.1)).Nodup ∧
      ∀ key record, (key, record) ∈ found ↔ r.isMatch key = true ∧
        ∃ e, w.store.live? key w.now = some e ∧ k.decode key e.value = .ok record

/-! ### Reading up to the bound -/

/-- Keys beyond the bound are refused once those before were read. -/
theorem readAll_full {keys : List String}
    (holds : ∀ key ∈ keys, ∃ e record,
      w.store.live? key w.now = some e ∧ k.decode key e.value = .ok record) :
    ∀ counted, counted ≤ k.config.maxScanKeys → k.config.maxScanKeys < counted + keys.length →
      k.readAll w counted keys
        = .error (.refused (.scanBound k.schema.name k.config.maxScanKeys)) := by
  induction keys with
  | nil =>
      intro counted within beyond
      exact absurd beyond (Nat.not_lt.2 within)
  | cons key rest inductionHypothesis =>
      intro counted within beyond
      rw [readAll]
      split
      next => rfl
      next small =>
        obtain ⟨e, record, held, decoded⟩ := holds key List.mem_cons_self
        rw [List.length_cons] at beyond
        have later := inductionHypothesis
          (fun other member => holds other (List.mem_cons_of_mem _ member)) (counted + 1)
          (by omega) (by omega)
        rw [held]
        dsimp only
        rw [decoded, later]
        rfl

theorem readAll_succeeds {keys : List String}
    (holds : ∀ key ∈ keys, ∃ e record,
      w.store.live? key w.now = some e ∧ k.decode key e.value = .ok record)
    (within : keys.length ≤ k.config.maxScanKeys) : ∃ found, k.readAll w 0 keys = .ok found := by
  cases read : k.readAll w 0 keys with
  | ok found => exact ⟨found, rfl⟩
  | error problem =>
      have live (key : String) (member : key ∈ keys) : (w.store.live? key w.now).isSome := by
        obtain ⟨e, -, held, -⟩ := holds key member
        exact Option.isSome_of_eq_some held
      rcases readAll_failed live read with full | ⟨key, member, e, refusal, held, refused⟩
      · omega
      · obtain ⟨own, record, same, decoded⟩ := holds key member
        obtain rfl := Option.some.inj (same.symm.trans held)
        rw [decoded] at refused
        cases refused

theorem readAll_scannedBy (placed : w.store.Placed) (decodes : k.Decodes w r) :
    k.ScannedBy w r (k.readAll w 0 (w.store.matchedKeys r w.now)) := by
  have holds (key : String) (member : key ∈ w.store.matchedKeys r w.now) : ∃ e record,
      w.store.live? key w.now = some e ∧ k.decode key e.value = .ok record := by
    obtain ⟨matched, live⟩ := placed.mem_matchedKeys.1 member
    obtain ⟨e, held⟩ := Option.isSome_iff_exists.1 live
    obtain ⟨record, decoded⟩ := decodes key e matched held
    exact ⟨e, record, held, decoded⟩
  have number := placed.ncard_matched r w.now
  by_cases full : k.config.maxScanKeys < (w.store.matchedKeys r w.now).length
  · rw [readAll_full holds 0 (Nat.zero_le _) (by omega)]
    exact ⟨iff_of_true ⟨_, rfl, rfl⟩ (number ▸ full), fun within => by omega⟩
  · obtain ⟨found, read⟩ := readAll_succeeds holds (Nat.le_of_not_lt full)
    have readAs := readAll_readAs (fun key member => (placed.mem_matchedKeys.1 member).2) read
    rw [read]
    refine ⟨iff_of_false (by rintro ⟨e, impossible, -⟩; cases impossible) (number ▸ full),
      fun _ => ⟨found, rfl, ?_, fun key record => ⟨fun member => ?_, ?_⟩⟩⟩
    · rw [readAs.keys_eq]
      exact placed.nodup_matchedKeys r w.now
    · obtain ⟨listed, stored⟩ := readAs.exists_of_entry member
      exact ⟨(placed.mem_matchedKeys.1 listed).1, stored⟩
    · rintro ⟨matched, e, held, decoded⟩
      have listed := placed.mem_matchedKeys.2 ⟨matched, Option.isSome_of_eq_some held⟩
      obtain ⟨own, other, same, read, member⟩ := readAs.exists_of_mem listed
      obtain rfl := Option.some.inj (same.symm.trans held)
      obtain rfl := Except.ok.inj (read.symm.trans decoded)
      exact member

/-! ### Pages of another size -/

/-- The same repository with pages of another size. -/
def paged (k : Records σ E) (size : Nat) : Records σ E :=
  { k with config := { k.config with scanBatchSize := size } }

theorem open?_paged {client : Client σ} {env : Environment σ} {schema : Schema} {config : Config}
    {type : EntityType E} {other : Records σ E} {size : Nat}
    (opened : open? client env schema config type = .ok k)
    (reopened : open? client env schema { config with scanBatchSize := size } type = .ok other) :
    other = k.paged size := by
  obtain ⟨⟨⟩, -, same⟩ := exists_of_bind opened
  obtain ⟨⟨⟩, -, sameOther⟩ := exists_of_bind reopened
  cases same
  cases sameOther
  rfl

theorem readAll_paged (k : Records σ E) (size : Nat) (w : World Store) (keys : List String) :
    ∀ counted, (k.paged size).readAll w counted keys = k.readAll w counted keys := by
  induction keys with
  | nil => exact fun _ => rfl
  | cons key rest inductionHypothesis =>
      intro counted
      rw [readAll, readAll, inductionHypothesis]
      rfl

theorem readable_paged (k : Records σ E) (size : Nat) (w : World Store) :
    (k.paged size).readable w = k.readable w := by
  unfold readable
  simp only [readAll_paged]
  rfl

theorem InMemory.paged {p : Part σ (World Store)} (memory : k.InMemory p) (size : Nat) :
    (k.paged size).InMemory p := ⟨memory.client, memory.env, memory.lawful⟩

theorem count_readable {p : Part σ (World Store)} (memory : k.InMemory p) {ctx : Context}
    (alive : (ctx.effective w.surroundings k.config.defaultTimeout).check w.surroundings = .ok ())
    (placed : w.store.Placed) (q : Query) :
    Yields p.view w (k.count ctx q) (do
      let plan ← Plan.compile q.unpaged
      let found ← k.readable w
      return (plan.execute (found.map (·.2))).length) w := by
  unfold count all
  refine (Yields.ofExcept _).bind fun plan => (effective_yields memory ctx).andThen ?_
  rw [bind_assoc]
  exact (scan_readable memory alive placed).bind fun found => .pure _

/-- Another repository scans and answers all queries in the same way. -/
structure AnswersAs (k other : Records σ E) (ctx : Context) (s : σ) : Prop where
  scan : (other.scan ctx s).1 = (k.scan ctx s).1
  query : ∀ q, (other.query ctx q s).1 = (k.query ctx q s).1
  findAll : ∀ q, (other.findAll ctx q s).1 = (k.findAll ctx q s).1
  queryOne : ∀ q, (other.queryOne ctx q s).1 = (k.queryOne ctx q s).1
  count : ∀ q, (other.count ctx q s).1 = (k.count ctx q s).1
  existsAny : ∀ q, (other.existsAny ctx q s).1 = (k.existsAny ctx q s).1

theorem paged_answersAs {p : Part σ (World Store)} (memory : k.InMemory p) {ctx : Context} {s : σ}
    (alive : ctx.check (p.view s).surroundings = .ok ())
    (lasting : k.config.defaultTimeout ≠ some 0) (placed : (p.view s).store.Placed) (size : Nat) :
    k.AnswersAs (k.paged size) ctx s := by
  have lives := Context.check_effective alive lasting
  have query (q : Query) : ((k.paged size).query ctx q s).1 = (k.query ctx q s).1 := by
    rw [(query_readable (memory.paged size) lives placed q s rfl).1, readable_paged]
    exact (query_readable memory lives placed q s rfl).1.symm
  refine ⟨?_, query, fun q => ?_, fun q => ?_, fun q => ?_, fun q => ?_⟩
  · rw [(scan_readable (memory.paged size) alive placed s rfl).1, readable_paged]
    exact (scan_readable memory alive placed s rfl).1.symm
  · exact (Action.answer_bind _ _ s).trans
      ((congrArg (· >>= _) (query q)).trans (Action.answer_bind _ _ s).symm)
  · exact (Action.answer_bind _ _ s).trans
      ((congrArg (· >>= _) (query q.firstOnly)).trans (Action.answer_bind _ _ s).symm)
  · rw [(count_readable (memory.paged size) lives placed q s rfl).1, readable_paged]
    exact (count_readable memory lives placed q s rfl).1.symm
  · have answer (k : Records σ E) : (k.existsAny ctx q s).1
        = (k.query ctx q.firstOnly s).1 >>= fun records => .ok !records.isEmpty :=
      Action.answer_bind _ _ s
    rw [answer, answer, query]

end Records

/-- In every store that calls can lead to, and for a pattern that the store accepts, a scan is refused
as an invalid argument exactly if more live keys match than the bound allows, provided that these hold
records; else it gives each of them once, with its record.  Whatever the pattern, pages of another
size give the same answers of scans and queries. -/
theorem scan_bounded_complete {p : Part σ (World Store)} {schema : Schema} {config : Config}
    {type : EntityType E} (lawful : p.Lawful)
    (opened : open? (Client.memory p) (World.environment p) schema config type = .ok k)
    (calls : List Call) {ctx : Context} {s : σ} (reached : (p.view s).store = (run calls .empty).2)
    (alive : ctx.check (p.view s).surroundings = .ok ()) :
    (∀ r, keyPattern k.pattern = .ok r → k.Decodes (p.view s) r →
      k.ScannedBy (p.view s) r (k.scan ctx s).1) ∧
    ∀ size other, open? (Client.memory p) (World.environment p) schema
        { config with scanBatchSize := size } type = .ok other →
      k.AnswersAs other ctx s := by
  obtain ⟨memory, accepted, sameSchema, sameConfig⟩ := open?_cases lawful opened
  have placed : (p.view s).store.Placed := by
    rw [reached]
    exact Store.placed_empty.run calls
  refine ⟨fun r compiled decodes => ?_, fun size other reopened => ?_⟩
  · rw [(Records.scan_yields memory alive compiled placed s rfl).1]
    exact Records.readAll_scannedBy placed decodes
  · rw [Records.open?_paged opened reopened]
    exact Records.paged_answersAs memory alive (Records.accept_settings accepted).2 placed size

theorem noteWorld_scanned :
    (∃ r, keyPattern notes.pattern = .ok r ∧ notes.Decodes noteWorld r ∧
      notes.ScannedBy noteWorld r (notes.scan .background noteWorld).1) ∧
    ∃ other, open? (Client.memory .whole) (World.environment .whole) notes.schema
        { notes.config with scanBatchSize := 7 } notes.type = .ok other ∧
      notes.AnswersAs other .background noteWorld := by
  have opened : open? (Client.memory .whole) (World.environment .whole) notes.schema notes.config
      notes.type = .ok notes := rfl
  have pattern : notes.pattern = "app:notes:*" := by decide
  obtain ⟨r, compiled⟩ : ∃ r, keyPattern "app:notes:*" = .ok r := ⟨_, by with_unfolding_all rfl⟩
  rw [← pattern] at compiled
  have readable : (notes.decode "app:notes:1" noteEntry.value).isOk = true := by decide +kernel
  have decodes : notes.Decodes noteWorld r := by
    intro key e _ live
    obtain ⟨rfl, rfl⟩ := live?_noteWorld live
    cases decoded : notes.decode "app:notes:1" noteEntry.value with
    | ok record => exact ⟨record, rfl⟩
    | error problem =>
        rw [decoded] at readable
        cases readable
  have alive : Context.background.check noteWorld.surroundings = .ok () := rfl
  obtain ⟨scans, answers⟩ :=
    scan_bounded_complete (fun _ _ => rfl) opened noteCalls (s := noteWorld) rfl alive
  exact ⟨⟨r, compiled, decodes, scans r compiled decodes⟩, _, rfl, answers 7 _ rfl⟩

/-! ### A pattern that the store refuses -/

/-- A repository whose name is a number of stars. -/
def starry (n : Nat) : Records (World Store) Json := documents (Glob.starsBefore n "") {}

theorem starry_opened {n : Nat} (positive : 0 < n) :
    open? (Client.memory .whole) (World.environment .whole) (starry n).schema (starry n).config
      (starry n).type = .ok (starry n) := by
  have named : (starry n).schema.name ≠ "" := by
    intro empty
    have stars : List.replicate n '*' ++ [] = [] := by
      rw [← String.toList_ofList (l := List.replicate n '*' ++ [])]
      exact congrArg String.toList empty
    obtain ⟨m, rfl⟩ := Nat.exists_eq_add_of_lt positive
    rw [Nat.zero_add] at stars
    cases stars
  have valid : (starry n).schema.validate = .ok () := by
    unfold Schema.validate
    rw [if_neg named]
    rfl
  unfold open? Records.accept
  rw [valid]
  rfl

theorem starry_pattern (n : Nat) : (starry n).pattern = Glob.starsBefore n ":*" := by
  refine String.toList_injective ?_
  simp [Records.pattern, Records.keyHead, starry, documents, Glob.starsBefore]

theorem Store.matched_empty (r : Regex) (now : Instant) : Store.empty.matched r now = ∅ := by
  refine Set.eq_empty_iff_forall_notMem.2 fun key member => ?_
  have missing : Store.empty.live? key now = none := by
    rw [Store.live?, Store.entry?, Store.stripe_eq, Store.stripeAt_empty]
    rfl
  have live := member.2
  rw [missing] at live
  cases live

/-- The store is asked for too large an expression, and refuses it. -/
theorem starry_scan {n : Nat} (large : Regex.Parser.sizeLimit < 10 * n) :
    ∃ failure,
      ((starry n).scan .background { store := .empty }).1 = .error (.keyValue failure) := by
  have memory : (starry n).InMemory .whole := ⟨rfl, rfl, fun _ _ => rfl⟩
  have alive : Context.background.check ({ store := .empty } : World Store).surroundings
      = .ok () := rfl
  obtain ⟨failure, refused⟩ : ∃ failure, keyPattern (starry n).pattern = .error failure := by
    rw [starry_pattern, keyPattern, Glob.toRegex_stars (by decide) large]
    exact ⟨_, rfl⟩
  exact ⟨failure, (Records.scan_refused memory alive refused _ rfl).1⟩

/-- Nothing is stored, so no key matches, and the scan fails all the same. -/
theorem manyStars_unscanned :
    open? (Client.memory .whole) (World.environment .whole) (starry 60000).schema
        (starry 60000).config (starry 60000).type = .ok (starry 60000) ∧
      (∀ r : Regex, (Store.empty.matched r 0).ncard ≤ (starry 60000).config.maxScanKeys) ∧
      ∃ failure,
        ((starry 60000).scan .background { store := .empty }).1 = .error (.keyValue failure) := by
  refine ⟨starry_opened (by decide), fun r => ?_, starry_scan (by decide)⟩
  rw [Store.matched_empty, Set.ncard_empty]
  exact Nat.zero_le _

end KeyValue

end Recordkeeper
