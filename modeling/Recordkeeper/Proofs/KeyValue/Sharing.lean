import Recordkeeper.Proofs.Alike
import Recordkeeper.Proofs.KeyValue.Finding

/-!
Contract: what a repository sees of a store that it shares.

Owns:
- requests for one key, which decide from its entry what to answer and what becomes of it;
- scans, which tell nothing of keys that do not match;
- states of two stores that agree on the keys a repository owns, and the requests of the
  repository, which answer alike from such states and keep the agreement.

Does not own: which keys two repositories own.
-/

set_option autoImplicit false

namespace Recordkeeper.KeyValue

variable {σ τ α β E : Type}

/-! ### Requests for one key -/

/-- What becomes of an entry. -/
inductive Change where
  | keep
  | write (e : Entry)
  | drop

def Change.apply (key : String) : Change → Store → Store
  | .keep, s => s
  | .write e, s => s.put key e
  | .drop, s => s.remove key

def Change.result (before : Option Entry) : Change → Option Entry
  | .keep => before
  | .write e => some e
  | .drop => none

namespace Store

theorem entry?_apply (change : Change) (key other : String) (s : Store) :
    entry? (change.apply key s) other
      = if other = key then change.result (s.entry? key) else s.entry? other := by
  cases change with
  | keep =>
      show s.entry? other = if other = key then s.entry? key else s.entry? other
      split
      next same => rw [same]
      next => rfl
  | write e => exact entry?_put s key e other
  | drop => exact entry?_remove s key other

theorem Placed.apply {s : Store} (placed : s.Placed) (key : String) (change : Change) :
    (change.apply key s).Placed := by
  cases change with
  | keep => exact placed
  | write e => exact placed.put key e
  | drop => exact placed.remove key

/-- A request that decides from the entry of one key what to answer and what becomes of it. -/
def Decides (key : String) (request : Store → β × Store)
    (decision : Option Entry → β × Change) : Prop :=
  ∀ s, request s = ((decision (s.entry? key)).1, (decision (s.entry? key)).2.apply key s)

variable (key : String) (now : Instant)

theorem decides_setIfMissing (value : Bytes) (ttl : Option Micros) :
    Decides key (setIfMissing key value ttl now) fun before =>
      match expiry now ttl, before.filter fun e => e.live now with
      | .ok _, some _ => (.ok false, .keep)
      | .ok expiresAt, none => (.ok true, .write ⟨value, expiresAt⟩)
      | .error failure, _ => (.error failure, .keep) := by
  intro s
  unfold setIfMissing live?
  cases expiry now ttl with
  | error failure => rfl
  | ok expiresAt =>
      dsimp only
      cases (s.entry? key).filter fun e => e.live now <;> rfl

theorem decides_setIfPresent (value : Bytes) :
    Decides key (setIfPresent key value now) fun before =>
      match before with
      | none => (.ok false, .keep)
      | some e =>
        if e.live now then (.ok true, .write { e with value := value })
        else (.ok false, .drop) := by
  intro s
  unfold setIfPresent
  cases s.entry? key with
  | none => rfl
  | some e =>
      dsimp only
      split <;> rfl

theorem decides_delete :
    Decides key (delete key now) fun before =>
      (.ok (before.filter fun e => e.live now).isSome, .drop) :=
  fun _ => rfl

theorem decides_expire (ttl : Micros) :
    Decides key (expire key ttl now) fun before =>
      match before with
      | none => (.ok false, .keep)
      | some e =>
        if e.live now then
          (.ok true, if ttl = 0 then .drop else .write { e with expiresAt := some (now + ttl) })
        else (.ok false, .drop) := by
  intro s
  unfold expire
  cases s.entry? key with
  | none => rfl
  | some e =>
      dsimp only
      split
      next =>
        split <;> rfl
      next => rfl

/-! ### Scans -/

theorem scanStripes_congr {r : Regex} {now : Instant} (count : Nat) {stripes others : List Stripe}
    (same : stripes.map (matching r now) = others.map (matching r now)) :
    ∀ (position : Nat) (found : List String),
      scanStripes r now count position stripes found
        = scanStripes r now count position others found := by
  induction stripes generalizing others with
  | nil =>
      rw [List.map_nil, eq_comm, List.map_eq_nil_iff] at same
      rw [same]
      exact fun _ _ => rfl
  | cons stripe rest inductionHypothesis =>
      cases others with
      | nil => cases same
      | cons other others =>
          obtain ⟨first, later⟩ := List.cons_eq_cons.1 same
          intro position found
          rw [scanStripes, scanStripes, first, inductionHypothesis later]

theorem matching_congr {r : Regex} {now : Instant} {stripe other : Stripe}
    (same : ∀ key, r.isMatch key = true → stripe.get? key = other.get? key) :
    matching r now stripe = matching r now other := by
  have filtered : (stripe.filter fun key e => e.live now && r.isMatch key)
      = other.filter fun key e => e.live now && r.isMatch key := by
    refine NameMap.ext_get? fun key => ?_
    rw [NameMap.get?_filter, NameMap.get?_filter]
    by_cases matched : r.isMatch key = true
    · rw [same key matched]
    · rw [Bool.eq_false_iff.2 matched]
      cases stripe.get? key <;> cases other.get? key <;> simp
  exact congrArg NameMap.names filtered

/-- Stores that agree on the matching keys cannot be told apart by scans. -/
theorem scan_congr {s t : Store} (placed : s.Placed) (placed' : t.Placed) {pattern : String}
    (same : ∀ r key, keyPattern pattern = .ok r → r.isMatch key = true →
      s.entry? key = t.entry? key) (cursor count : Nat) (now : Instant) :
    s.scan cursor pattern count now = t.scan cursor pattern count now := by
  unfold scan
  split
  next => rfl
  next =>
    cases compiled : keyPattern pattern with
    | error failure => rfl
    | ok r =>
        have stripes : s.stripes.toList.map (matching r now)
            = t.stripes.toList.map (matching r now) := by
          rw [toList_stripes, toList_stripes, List.map_map, List.map_map]
          refine List.map_congr_left fun i _ => matching_congr fun key matched => ?_
          rw [placed.get?_stripeAt, placed'.get?_stripeAt, same r key compiled matched]
        have rest : (s.stripes.toList.drop cursor).map (matching r now)
            = (t.stripes.toList.drop cursor).map (matching r now) := by
          rw [List.map_drop, List.map_drop, stripes]
        show Except.ok _ = Except.ok _
        rw [scanStripes_congr _ rest]

/-- What a scan lists matches. -/
theorem scan_isMatch {s : Store} {cursor count next : Nat} {pattern : String} {now : Instant}
    {keys : List String} (listed : s.scan cursor pattern count now = .ok (next, keys)) :
    ∃ r, keyPattern pattern = .ok r ∧ ∀ key ∈ keys, r.isMatch key = true := by
  have inside : cursor < stripeCount := by
    refine Nat.lt_of_not_le fun behind => ?_
    rw [scan, if_pos behind] at listed
    cases listed
  cases compiled : keyPattern pattern with
  | error failure =>
      rw [scan, if_neg (by omega), compiled] at listed
      cases listed
  | ok r =>
      obtain ⟨last, -, page⟩ := scan_page compiled inside count now s
      cases page.symm.trans listed
      refine ⟨r, rfl, fun key member => ?_⟩
      obtain ⟨i, -, reported⟩ := List.mem_flatMap.1 member
      exact (mem_matching.1 reported).1

end Store

/-! ### Stores that agree on some keys -/

/-- Worlds whose stores have the same entries under the keys that are owned. -/
structure AgreeOn (owned : String → Prop) (w v : World Store) : Prop where
  surroundings : w.surroundings = v.surroundings
  issued : w.issued = v.issued
  placed : w.store.Placed
  otherPlaced : v.store.Placed
  entries : ∀ key, owned key → w.store.entry? key = v.store.entry? key

namespace AgreeOn

variable {owned : String → Prop} {w v : World Store}

theorem now (agree : AgreeOn owned w v) : w.now = v.now :=
  congrArg Surroundings.now agree.surroundings

theorem live? (agree : AgreeOn owned w v) {key : String} (own : owned key) :
    w.store.live? key w.now = v.store.live? key v.now := by
  unfold Store.live? World.now
  rw [agree.entries key own, agree.surroundings]

theorem issue (agree : AgreeOn owned w v) :
    AgreeOn owned { w with issued := w.issued + 1 } { v with issued := v.issued + 1 } :=
  { agree with issued := congrArg (· + 1) agree.issued }

/-- Changes that depend on one owned key and change no other keep the agreement. -/
theorem decide (agree : AgreeOn owned w v) {key : String} (own : owned key)
    {request : Store → β × Store} {decision : Option Entry → β × Change}
    (decides : Store.Decides key request decision) :
    (request w.store).1 = (request v.store).1 ∧
      AgreeOn owned { w with store := (request w.store).2 }
        { v with store := (request v.store).2 } := by
  rw [decides, decides, agree.entries key own]
  refine ⟨rfl, agree.surroundings, agree.issued, agree.placed.apply key _,
    agree.otherPlaced.apply key _, fun other ownOther => ?_⟩
  dsimp only
  rw [Store.entry?_apply, Store.entry?_apply, agree.entries key own, agree.entries other ownOther]

end AgreeOn

/-- States of two machines in which a part of each agrees on the owned keys, whatever else they
hold, and whatever is put in these parts that changes owned keys only. -/
structure Shares (owned : String → Prop) (p : Part σ (World Store)) (q : Part τ (World Store))
    (related : σ → τ → Prop) : Prop where
  agree : ∀ s t, related s t → AgreeOn owned (p.view s) (q.view t)
  put : ∀ s t w v, related s t → AgreeOn owned w v →
    (∀ key, ¬ owned key → w.store.entry? key = Store.entry? (p.view s).store key) →
    (∀ key, ¬ owned key → v.store.entry? key = Store.entry? (q.view t).store key) →
    related (p.put w s) (q.put v t)

namespace Shares

variable {owned : String → Prop} {p : Part σ (World Store)} {q : Part τ (World Store)}
  {related : σ → τ → Prop} (shares : Shares owned p q related)

include shares

/-- A request that only looks. -/
theorem look {answer : World Store → β}
    (same : ∀ w v, AgreeOn owned w v → answer w = answer v) :
    Alike related (p.run fun w => (answer w, w)) (q.run fun w => (answer w, w)) := by
  intro s t relates
  have agree := shares.agree s t relates
  exact ⟨same _ _ agree, shares.put s t _ _ relates agree (fun _ _ => rfl) fun _ _ => rfl⟩

/-- A request that writes for one owned key. -/
theorem write {key : String} (own : owned key) {request : Instant → Store → β × Store}
    {decision : Instant → Option Entry → β × Change}
    (decides : ∀ now, Store.Decides key (request now) (decision now)) :
    Alike related (Client.memory.write p request) (Client.memory.write q request) := by
  intro s t relates
  have agree := shares.agree s t relates
  have moments := agree.now
  obtain ⟨same, left⟩ := agree.decide own (decides (p.view s).now)
  have frame (s : Store) (now : Instant) (other : String) (foreign : ¬ owned other) :
      Store.entry? (request now s).2 other = s.entry? other := by
    have apart : other ≠ key := fun equal => foreign (equal ▸ own)
    rw [decides now, Store.entry?_apply, if_neg apart]
  have answered : (request (p.view s).now (p.view s).store).1
      = (request (q.view t).now (q.view t).store).1 := by rw [same, moments]
  refine ⟨answered, ?_⟩
  refine shares.put s t _ _ relates ?_ (frame _ _) (frame _ _)
  rw [← moments]
  exact left

theorem environment :
    (World.environment p).Alike related (World.environment q) where
  observe s t relates := ⟨(shares.agree s t relates).surroundings, relates⟩
  freshId := by
    intro s t relates
    have agree := shares.agree s t relates
    refine ⟨congrArg (fun n => World.idText (n + 1)) agree.issued, ?_⟩
    exact shares.put s t _ _ relates agree.issue (fun _ _ => rfl) fun _ _ => rfl

end Shares

/-! ### Clients -/

/-- Clients that answer alike for the keys a repository owns, and for its pattern, which lists
owned keys only. -/
structure Client.Alike (related : σ → τ → Prop) (owned : String → Prop) (pattern : String)
    (client : Client σ) (other : Client τ) : Prop where
  get : ∀ key, owned key → Recordkeeper.Alike related (client.get key) (other.get key)
  setIfMissing : ∀ key value ttl, owned key →
    Recordkeeper.Alike related (client.setIfMissing key value ttl)
      (other.setIfMissing key value ttl)
  setIfPresent : ∀ key value, owned key →
    Recordkeeper.Alike related (client.setIfPresent key value) (other.setIfPresent key value)
  delete : ∀ key, owned key → Recordkeeper.Alike related (client.delete key) (other.delete key)
  expire : ∀ key ttl, owned key →
    Recordkeeper.Alike related (client.expire key ttl) (other.expire key ttl)
  ttl : ∀ key, owned key → Recordkeeper.Alike related (client.ttl key) (other.ttl key)
  scan : ∀ cursor count,
    Recordkeeper.Alike related (client.scan cursor pattern count)
      (other.scan cursor pattern count)
  listed : ∀ cursor count s next keys, (client.scan cursor pattern count s).1 = .ok (next, keys) →
    ∀ key ∈ keys, owned key
  pages : client.pages = other.pages

theorem Client.memory_alike {owned : String → Prop} {p : Part σ (World Store)}
    {q : Part τ (World Store)} {related : σ → τ → Prop} (shares : Shares owned p q related)
    {pattern : String}
    (own : ∀ r key, keyPattern pattern = .ok r → r.isMatch key = true → owned key) :
    (Client.memory p).Alike related owned pattern (Client.memory q) where
  get key owns := shares.look fun w v agree => by
    unfold Store.get
    rw [agree.live? owns]
  setIfMissing key value ttl owns := shares.write owns fun now =>
    Store.decides_setIfMissing key now value ttl
  setIfPresent key value owns := shares.write owns fun now =>
    Store.decides_setIfPresent key now value
  delete key owns := shares.write owns fun now => Store.decides_delete key now
  expire key ttl owns := shares.write owns fun now => Store.decides_expire key now ttl
  ttl key owns := shares.look fun w v agree => by
    unfold Store.ttl
    rw [agree.live? owns, agree.now]
  scan cursor count := shares.look fun w v agree => by
    rw [agree.now]
    exact Store.scan_congr agree.placed agree.otherPlaced
      (fun r key compiled matched => agree.entries key (own r key compiled matched)) cursor count _
  listed cursor count s next keys listed := by
    obtain ⟨r, compiled, matched⟩ := Store.scan_isMatch listed
    exact fun key member => own r key compiled (matched key member)
  pages := rfl

/-! ### Requests -/

namespace Records

/-- The same repository on another store, with other surroundings. -/
@[reducible] def hosted (k : Records σ E) (client : Client τ) (env : Environment τ) : Records τ E where
  client := client
  env := env
  schema := k.schema
  config := k.config
  type := k.type

/-- A repository owns the keys that go on from its head. -/
def Owns (k : Records σ E) (key : String) : Prop := k.keyHead.toList <+: key.toList

theorem owns_keyFor {k : Records σ E} {id : Value} {key : String}
    (built : k.keyFor id = .ok key) : k.Owns key := by
  obtain ⟨-, rfl⟩ := keyFor_cases built
  unfold Owns
  rw [String.toList_append]
  exact List.prefix_append _ _

/-- What was visited was listed. -/
theorem mem_of_visit {k : Records σ E} {ctx : Context} {keys : List String} :
    ∀ {seen : List String} {s : σ} {found : List (String × Record)} {after : List String},
      (k.visit ctx keys seen s).1 = .ok (found, after) → ∀ entry ∈ found, entry.1 ∈ keys := by
  induction keys with
  | nil =>
      intro seen s found after visited
      cases visited
      exact nofun
  | cons key rest inductionHypothesis =>
      intro seen s found after visited entry member
      rw [visit] at visited
      split at visited
      next => exact List.mem_cons_of_mem _ (inductionHypothesis visited entry member)
      next =>
        dsimp only at visited
        split at visited
        next =>
          obtain ⟨_, _, impossible, -⟩ := Action.exists_of_bind visited
          cases impossible
        next =>
          obtain ⟨raw, t, -, visited⟩ := Action.exists_of_bind visited
          cases raw with
          | none => exact List.mem_cons_of_mem _ (inductionHypothesis visited entry member)
          | some raw =>
              obtain ⟨r, t, -, visited⟩ := Action.exists_of_bind visited
              obtain ⟨⟨others, seen⟩, t, visitedRest, done⟩ := Action.exists_of_bind visited
              cases done
              rcases List.mem_cons.1 member with rfl | later
              · exact List.mem_cons_self
              · exact List.mem_cons_of_mem _ (inductionHypothesis visitedRest entry later)

theorem owns_of_scanFrom {k : Records σ E} {client : Client τ} {related : σ → τ → Prop}
    (clients : k.client.Alike related k.Owns k.pattern client) {ctx : Context} :
    ∀ {pages cursor : Nat} {seen : List String} {s : σ} {found : List (String × Record)},
      (k.scanFrom ctx pages cursor seen s).1 = .ok found → ∀ entry ∈ found, k.Owns entry.1 := by
  intro pages
  induction pages with
  | zero =>
      intro cursor seen s found scanned
      cases scanned
      exact nofun
  | succ pages inductionHypothesis =>
      intro cursor seen s found scanned
      obtain ⟨⟨next, keys⟩, t, called, scanned⟩ := Action.exists_of_bind scanned
      obtain ⟨u, listed⟩ := Action.exists_of_call called
      have owned := clients.listed cursor _ u next keys listed
      obtain ⟨⟨page, after⟩, t, visited, scanned⟩ := Action.exists_of_bind scanned
      have ownPage : ∀ entry ∈ page, k.Owns entry.1 := fun entry member =>
        owned _ (mem_of_visit visited entry member)
      dsimp only at scanned
      split at scanned
      next =>
        cases scanned
        exact ownPage
      next =>
        obtain ⟨others, t, scannedRest, done⟩ := Action.exists_of_bind scanned
        cases done
        intro entry member
        rcases List.mem_append.1 member with own | later
        · exact ownPage entry own
        · exact inductionHypothesis scannedRest entry later

/-- What comes after the key of an id only has to be alike for owned keys. -/
theorem keyFor_alike {k : Records σ E} {client : Client τ} {env : Environment τ}
    {related : σ → τ → Prop} {next : String → Action σ β} {next' : String → Action τ β}
    (id : Value) (rest : ∀ key, k.Owns key → Alike related (next key) (next' key)) :
    Alike related (Action.ofExcept (k.keyFor id) >>= next)
      (Action.ofExcept ((k.hosted client env).keyFor id) >>= next') := by
  refine (Alike.ofExcept _).bind fun key answered => ?_
  obtain ⟨_, built⟩ := answered
  exact rest key (owns_keyFor built)

section Requests

variable {k : Records σ E} {client : Client τ} {env : Environment τ} {related : σ → τ → Prop}
  (surrounded : k.env.Alike related env)
  (clients : k.client.Alike related k.Owns k.pattern client)

include surrounded

theorem call_alike {native : σ → Outcome α × σ} {native' : τ → Outcome α × τ}
    (alike : Alike related native native') (ctx : Context) :
    Alike related (k.call ctx native) ((k.hosted client env).call ctx native') :=
  .call surrounded alike ctx _

theorem effective_alike (ctx : Context) :
    Alike related (liftM (k.effective ctx) : Action σ Context)
      (liftM ((k.hosted client env).effective ctx) : Action τ Context) :=
  .lift (.effective surrounded ctx _)

include clients

theorem visit_alike (ctx : Context) {keys : List String} (owned : ∀ key ∈ keys, k.Owns key) :
    ∀ seen, Alike related (k.visit ctx keys seen) ((k.hosted client env).visit ctx keys seen) := by
  induction keys with
  | nil => exact fun seen => .pure _
  | cons key rest inductionHypothesis =>
      intro seen
      have later := inductionHypothesis fun other member =>
        owned other (List.mem_cons_of_mem _ member)
      rw [visit, visit]
      split
      next => exact later seen
      next =>
        dsimp only
        split
        next => exact .refuseFirst _ _ _
        next =>
          have own := clients.get key (owned key List.mem_cons_self)
          refine (call_alike surrounded own ctx).bind fun raw _ => ?_
          cases raw with
          | none => exact later _
          | some raw =>
              refine (Alike.ofExcept _).bind fun r _ => ?_
              exact (later _).bind fun _ _ => .pure _

theorem scanFrom_alike (ctx : Context) :
    ∀ pages cursor seen, Alike related (k.scanFrom ctx pages cursor seen)
      ((k.hosted client env).scanFrom ctx pages cursor seen) := by
  intro pages
  induction pages with
  | zero => exact fun _ _ => .pure _
  | succ pages inductionHypothesis =>
      intro cursor seen
      rw [scanFrom, scanFrom]
      refine (call_alike surrounded (clients.scan cursor _) ctx).bind fun page called => ?_
      obtain ⟨next, keys⟩ := page
      obtain ⟨s, called⟩ := called
      obtain ⟨t, listed⟩ := Action.exists_of_call called
      have owned := clients.listed cursor _ t next keys listed
      refine (visit_alike surrounded clients ctx owned seen).bind fun visited _ => ?_
      dsimp only
      split
      next => exact .pure _
      next => exact (inductionHypothesis next _).bind fun _ _ => .pure _

theorem scan_alike (ctx : Context) :
    Alike related (k.scan ctx) ((k.hosted client env).scan ctx) := by
  unfold scan
  rw [clients.pages]
  exact scanFrom_alike surrounded clients ctx _ _ _

theorem all_alike (ctx : Context) : Alike related (k.all ctx) ((k.hosted client env).all ctx) := by
  unfold all
  exact (scan_alike surrounded clients ctx).bind fun _ _ => .pure _

theorem insert_alike (ctx : Context) (ttl : Option Micros) (entity : E) :
    Alike related (k.insert ctx ttl entity) ((k.hosted client env).insert ctx ttl entity) := by
  unfold insert
  refine (Alike.ofExcept _).bind fun r _ => ?_
  refine (Alike.prepareId surrounded _ r).bind fun prepared _ => ?_
  obtain ⟨id, r⟩ := prepared
  cases id with
  | none => exact .refuse _
  | some id =>
      refine keyFor_alike id fun key own => ?_
      have writes := clients.setIfMissing key (k.encode r) ttl own
      refine (call_alike surrounded writes ctx).bind fun written _ => ?_
      dsimp only
      split
      next => exact .refuseFirst _ _ _
      next =>
        split
        next => exact .pure _
        next => exact .ofExcept _

theorem load_alike (ctx : Context) {key : String} (own : k.Owns key) :
    Alike related (k.load ctx key) ((k.hosted client env).load ctx key) := by
  unfold load
  refine (call_alike surrounded (clients.get key own) ctx).bind fun raw _ => ?_
  cases raw with
  | none => exact .refuse _
  | some raw => exact .ofExcept _

theorem storeExisting_alike (ctx : Context) {key : String} (own : k.Owns key) (r : Record) :
    Alike related (k.storeExisting ctx key r) ((k.hosted client env).storeExisting ctx key r) := by
  unfold storeExisting
  have writes := clients.setIfPresent key (k.encode r) own
  refine (call_alike surrounded writes ctx).bind fun written _ => ?_
  cases written with
  | true => exact .pure _
  | false => exact .refuse _

theorem create_alike (ctx : Context) (entity : E) :
    Alike related (k.create ctx entity) ((k.hosted client env).create ctx entity) :=
  (effective_alike surrounded ctx).bind fun ctx _ => insert_alike surrounded clients ctx none entity

theorem createBatch_alike (ctx : Context) (entities : List E) :
    Alike related (k.createBatch ctx entities) ((k.hosted client env).createBatch ctx entities) := by
  unfold createBatch
  refine (Alike.effective surrounded ctx _).bindState fun ctx => ?_
  refine (Alike.insertEach (insert_alike surrounded clients ctx none) entities 0).bindState ?_
  exact fun _ => .pureState _

theorem findById_alike (ctx : Context) (id : Value) :
    Alike related (k.findById ctx id) ((k.hosted client env).findById ctx id) := by
  unfold findById
  refine keyFor_alike id fun key own => ?_
  refine (effective_alike surrounded ctx).bind fun ctx _ => ?_
  exact (load_alike surrounded clients ctx own).bind fun _ _ => .ofExcept _

theorem query_alike (ctx : Context) (q : Query) :
    Alike related (k.query ctx q) ((k.hosted client env).query ctx q) := by
  unfold query
  refine (Alike.ofExcept _).bind fun plan _ => ?_
  refine (effective_alike surrounded ctx).bind fun ctx _ => ?_
  exact (all_alike surrounded clients ctx).bind fun _ _ => .pure _

theorem findAll_alike (ctx : Context) (q : Query) :
    Alike related (k.findAll ctx q) ((k.hosted client env).findAll ctx q) := by
  unfold findAll
  exact (query_alike surrounded clients ctx q).bind fun _ _ => .ofExcept _

theorem update_alike (ctx : Context) (entity : E) :
    Alike related (k.update ctx entity) ((k.hosted client env).update ctx entity) := by
  unfold update
  refine (Alike.ofExcept _).bind fun identified _ => ?_
  obtain ⟨id, r⟩ := identified
  refine keyFor_alike id fun key own => ?_
  refine (effective_alike surrounded ctx).bind fun ctx _ => ?_
  exact storeExisting_alike surrounded clients ctx own r

theorem updatePartial_alike (ctx : Context) (id : Value) (fields : Record) :
    Alike related (k.updatePartial ctx id fields)
      ((k.hosted client env).updatePartial ctx id fields) := by
  unfold updatePartial
  refine (Alike.ofExcept _).bind fun _ _ => ?_
  refine (effective_alike surrounded ctx).bind fun ctx _ => ?_
  refine keyFor_alike id fun key own => ?_
  refine (load_alike surrounded clients ctx own).bind fun r _ => ?_
  exact storeExisting_alike surrounded clients ctx own _

theorem delete_alike (ctx : Context) (id : Value) :
    Alike related (k.delete ctx id) ((k.hosted client env).delete ctx id) := by
  unfold delete
  refine keyFor_alike id fun key own => ?_
  refine (effective_alike surrounded ctx).bind fun ctx _ => ?_
  have removes := clients.delete key own
  refine (call_alike surrounded removes ctx).bind fun removed _ => ?_
  cases removed with
  | true => exact .pure _
  | false => exact .refuse _

theorem deleteSelected_alike (ctx : Context) (plan : Plan) {found : List (String × Record)}
    (owned : ∀ entry ∈ found, k.Owns entry.1) :
    Alike related (k.deleteSelected ctx plan found)
      ((k.hosted client env).deleteSelected ctx plan found) := by
  induction found with
  | nil => exact .pure _
  | cons entry rest inductionHypothesis =>
      obtain ⟨key, r⟩ := entry
      have later := inductionHypothesis fun other member =>
        owned other (List.mem_cons_of_mem _ member)
      rw [deleteSelected, deleteSelected]
      split
      next =>
        have removes := clients.delete key (owned (key, r) List.mem_cons_self)
        refine (call_alike surrounded removes ctx).bind fun removed _ => ?_
        exact later.bind fun _ _ => .pure _
      next => exact later

theorem deleteByCondition_alike (ctx : Context) (q : Query) :
    Alike related (k.deleteByCondition ctx q) ((k.hosted client env).deleteByCondition ctx q) := by
  unfold deleteByCondition
  refine (Alike.ofExcept _).bind fun _ _ => ?_
  refine (Alike.ofExcept _).bind fun plan _ => ?_
  refine (effective_alike surrounded ctx).bind fun ctx _ => ?_
  refine (scan_alike surrounded clients ctx).bind fun found scanned => ?_
  obtain ⟨s, scanned⟩ := scanned
  exact deleteSelected_alike surrounded clients ctx plan (owns_of_scanFrom clients scanned)

theorem queryOne_alike (ctx : Context) (q : Query) :
    Alike related (k.queryOne ctx q) ((k.hosted client env).queryOne ctx q) := by
  unfold queryOne
  exact (query_alike surrounded clients ctx _).bind fun _ _ => .ofExcept _

theorem count_alike (ctx : Context) (q : Query) :
    Alike related (k.count ctx q) ((k.hosted client env).count ctx q) := by
  unfold count
  refine (Alike.ofExcept _).bind fun plan _ => ?_
  refine (effective_alike surrounded ctx).bind fun ctx _ => ?_
  exact (all_alike surrounded clients ctx).bind fun _ _ => .pure _

theorem existsAny_alike (ctx : Context) (q : Query) :
    Alike related (k.existsAny ctx q) ((k.hosted client env).existsAny ctx q) := by
  unfold existsAny
  exact (query_alike surrounded clients ctx _).bind fun _ _ => .pure _

theorem createWithTtl_alike (ctx : Context) (entity : E) (span : Micros) :
    Alike related (k.createWithTtl ctx entity span)
      ((k.hosted client env).createWithTtl ctx entity span) := by
  unfold createWithTtl
  refine (Alike.ofExcept _).bind fun _ _ => ?_
  refine (effective_alike surrounded ctx).bind fun ctx _ => ?_
  exact insert_alike surrounded clients ctx (some span) entity

theorem expire_alike (ctx : Context) (id : Value) (span : Micros) :
    Alike related (k.expire ctx id span) ((k.hosted client env).expire ctx id span) := by
  unfold expire
  refine (Alike.ofExcept _).bind fun _ _ => ?_
  refine keyFor_alike id fun key own => ?_
  refine (effective_alike surrounded ctx).bind fun ctx _ => ?_
  have expires := clients.expire key span own
  refine (call_alike surrounded expires ctx).bind fun present _ => ?_
  cases present with
  | true => exact .pure _
  | false => exact .refuse _

theorem ttl_alike (ctx : Context) (id : Value) :
    Alike related (k.ttl ctx id) ((k.hosted client env).ttl ctx id) := by
  unfold ttl
  refine keyFor_alike id fun key own => ?_
  refine (effective_alike surrounded ctx).bind fun ctx _ => ?_
  have lifetime := clients.ttl key own
  refine (call_alike surrounded lifetime ctx).bind fun lifetime _ => ?_
  cases lifetime with
  | missing => exact .refuse _
  | noExpiry => exact .pure _
  | remaining span => exact .pure _

end Requests

end Records

end Recordkeeper.KeyValue
