import Recordkeeper.Proofs.KeyValue.Scan

/-!
Contract: a store that drops expired entries late is a map that drops them at once.

Owns:
- a single map of live entries, in which an entry vanishes at the moment it expires;
- the relation of a store and such a map, kept by every request at any later moment;
- that a run of calls answers what the map answers, and that purges change no other answer.

Does not own: the count a purge answers, which tells how late entries were dropped.

The map knows no stripes.  A scan of the map groups its keys by the numbers of their stripes, since
cursors are such numbers.
-/

set_option autoImplicit false

namespace Recordkeeper.KeyValue

/-! ### The map -/

/-- A map of entries, none of which has expired at the moment of the last call. -/
abbrev Plain := NameMap Entry

namespace Plain

/-- Time goes on, and what has expired by now is gone. -/
def advance (now : Instant) (m : Plain) : Plain := m.filter fun _ e => e.live now

/-- The matching keys whose stripe has a number. -/
def keysOf (r : Regex) (m : Plain) (i : Nat) : List String :=
  m.names.filter fun key => stripeOf key == i && r.isMatch key

def keysBetween (r : Regex) (m : Plain) (first last : Nat) : List String :=
  (List.range' first (last - first)).flatMap (m.keysOf r)

/-- The first position after a cursor with enough keys before it, or the end of all stripes. -/
def pageEnd (r : Regex) (count cursor : Nat) (m : Plain) : Nat :=
  ((List.range' (cursor + 1) (stripeCount - cursor)).find? fun last =>
    decide (count ≤ (m.keysBetween r cursor last).length)).getD stripeCount

def scan (cursor : Nat) (pattern : String) (count : Nat) (m : Plain) :
    Outcome (Nat × List String) :=
  if stripeCount ≤ cursor then .error ⟨"ERR invalid cursor"⟩
  else
    (keyPattern pattern).map fun r =>
      let last := m.pageEnd r (max count 1) cursor
      (if last = stripeCount then 0 else last, m.keysBetween r cursor last)

def zeroTtl : KeyValueFailure := ⟨"ERR invalid expire time in 'set' command"⟩

/-- The expiry of an entry written now with a time to live. -/
def deadline (now : Instant) (ttl : Option Micros) : Option Instant :=
  ttl.map fun span : Micros => now + span

/-- The requests on a map without expired entries.  The moment only counts where it makes a new
expiry or tells how long an entry will stay. -/
def serve (now : Instant) : Request → Plain → Answer × Plain
  | .get key, m => (.value (.ok ((m.get? key).map (·.value))), m)
  | .set key value ttl, m =>
    if ttl = some 0 then (.done (.error zeroTtl), m)
    else (.done (.ok ()), m.insert key ⟨value, deadline now ttl⟩)
  | .setIfMissing key value ttl, m =>
    if ttl = some 0 then (.flag (.error zeroTtl), m)
    else if m.has key then (.flag (.ok false), m)
    else (.flag (.ok true), m.insert key ⟨value, deadline now ttl⟩)
  | .setIfPresent key value, m =>
    match m.get? key with
    | none => (.flag (.ok false), m)
    | some e => (.flag (.ok true), m.insert key ⟨value, e.expiresAt⟩)
  | .delete key, m => (.flag (.ok (m.has key)), m.erase key)
  | .expire key ttl, m =>
    match m.get? key with
    | none => (.flag (.ok false), m)
    | some e =>
      (.flag (.ok true),
        if ttl = 0 then m.erase key else m.insert key ⟨e.value, some (now + ttl)⟩)
  | .ttl key, m =>
    (.lifetime (.ok (match m.get? key with
      | none => .missing
      | some ⟨_, none⟩ => .noExpiry
      | some ⟨_, some moment⟩ => .remaining (moment - now).toNat)), m)
  | .scan cursor pattern count, m => (.page (m.scan cursor pattern count), m)
  | .size, m => (.number m.size, m)
  | .isEmpty, m => (.holds m.isEmpty, m)
  | .purge, m => (.number 0, m)

def run : List Call → Plain → List Event
  | [], _ => []
  | call :: rest, m =>
    let (answer, m) := Plain.serve call.moment call.request (m.advance call.moment)
    ⟨call, answer⟩ :: Plain.run rest m

end Plain

/-! ### Moments -/

theorem Entry.live_of_later {e : Entry} {now later : Instant} (order : now ≤ later)
    (live : e.live later) : e.live now := by
  unfold Entry.live at live ⊢
  split
  next => rfl
  next moment expires =>
    rw [expires] at live
    simp only [decide_eq_true_eq] at live ⊢
    exact Int.lt_of_le_of_lt order live

theorem filter_live_later {now later : Instant} (order : now ≤ later) (e : Option Entry) :
    (e.filter (·.live now)).filter (·.live later) = e.filter (·.live later) := by
  rw [Option.filter_filter]
  refine congrArg (Option.filter · e) (funext fun held => ?_)
  by_cases live : held.live later
  · rw [live, Entry.live_of_later order live, Bool.and_self]
  · rw [Bool.eq_false_iff.2 live, Bool.and_false]

theorem Store.live?_put (s : Store) (key : String) (e : Entry) (other : String) (now : Instant) :
    live? (s.put key e) other now
      = if other = key then (some e).filter (·.live now) else s.live? other now := by
  rw [live?, entry?_put]
  split <;> rfl

theorem Store.live?_eq_none_of_later {s : Store} {key : String} {now later : Instant}
    (order : now ≤ later) (gone : s.live? key now = none) : s.live? key later = none := by
  unfold live? at gone ⊢
  rw [← filter_live_later order, gone]
  rfl

theorem expiry_eq (now : Instant) (ttl : Option Micros) :
    expiry now ttl = if ttl = some 0 then .error Plain.zeroTtl else .ok (Plain.deadline now ttl) := by
  rcases ttl with _ | _ | span <;> rfl

/-- What is written with a time to live does not expire at once. -/
theorem Entry.live_of_positive {now : Instant} {ttl : Option Micros} (positive : ttl ≠ some 0)
    (value : Bytes) : Entry.live ⟨value, Plain.deadline now ttl⟩ now := by
  rcases ttl with _ | _ | span
  · rfl
  · exact absurd rfl positive
  · exact decide_eq_true (Int.lt_add_of_pos_right now (Int.natCast_pos.2 (Nat.succ_pos span)))

/-! ### A store and its map -/

/-- A map holds what is live in a store at a moment. -/
structure Mirrors (s : Store) (m : Plain) (now : Instant) : Prop where
  placed : s.Placed
  same : ∀ key, s.live? key now = m.get? key

namespace Mirrors

variable {s : Store} {m : Plain} {now : Instant} {key : String}

theorem empty (now : Instant) : Mirrors .empty .empty now where
  placed := Store.placed_empty
  same key := by
    rw [Store.live?, Store.entry?, Store.stripe_eq, Store.stripeAt_empty]
    rfl

theorem later (mirrors : Mirrors s m now) {moment : Instant} (order : now ≤ moment) :
    Mirrors s (m.advance moment) moment where
  placed := mirrors.placed
  same key := by
    rw [Plain.advance, NameMap.get?_filter, ← mirrors.same]
    exact (filter_live_later order _).symm

theorem put (mirrors : Mirrors s m now) (key : String) {e : Entry} (live : e.live now) :
    Mirrors (s.put key e) (m.insert key e) now where
  placed := mirrors.placed.put key e
  same other := by
    rw [Store.live?, Store.entry?_put, NameMap.get?_insert]
    split
    next => rw [Option.filter_some, if_pos live]
    next => exact mirrors.same other

theorem remove (mirrors : Mirrors s m now) (key : String) :
    Mirrors (s.remove key) (m.erase key) now where
  placed := mirrors.placed.remove key
  same other := by
    rw [Store.live?, Store.entry?_remove, NameMap.get?_erase]
    split
    next => rfl
    next => exact mirrors.same other

theorem purge (mirrors : Mirrors s m now) : Mirrors (s.purge now).2 m now where
  placed := mirrors.placed.purge now
  same key := by
    rw [Store.live?, Store.entry?_purge, ← mirrors.same]
    exact filter_live_later (Int.le_refl now) _

/-- An entry of the store is the map's, or it has expired and the map has none. -/
theorem entry_cases (mirrors : Mirrors s m now) (key : String) :
    (s.entry? key = none ∧ m.get? key = none) ∨
      (∃ e, s.entry? key = some e ∧ e.live now ∧ m.get? key = some e) ∨
      ∃ e, s.entry? key = some e ∧ ¬ e.live now ∧ m.get? key = none := by
  have same := mirrors.same key
  unfold Store.live? at same
  cases held : s.entry? key with
  | none =>
      rw [held] at same
      exact .inl ⟨rfl, same.symm⟩
  | some e =>
      rw [held, Option.filter_some] at same
      by_cases live : e.live now
      · rw [if_pos live] at same
        exact .inr (.inl ⟨e, rfl, live, same.symm⟩)
      · rw [if_neg live] at same
        exact .inr (.inr ⟨e, rfl, live, same.symm⟩)

/-- Dropping an expired entry changes nothing to the map. -/
theorem drop (mirrors : Mirrors s m now) (missing : m.get? key = none) :
    Mirrors (s.remove key) m now := by
  have removed := mirrors.remove key
  rwa [NameMap.erase_eq_self missing] at removed

/-! ### Stripes -/

theorem stripe (mirrors : Mirrors s m now) (i : Nat) :
    ((s.stripeAt i).filter fun _ e => e.live now) = m.filter fun key _ => stripeOf key == i := by
  refine NameMap.ext_get? fun key => ?_
  rw [NameMap.get?_filter, NameMap.get?_filter, mirrors.placed.get?_stripeAt]
  by_cases own : stripeOf key = i
  · rw [if_pos own, beq_iff_eq.2 own]
    refine (mirrors.same key).trans ?_
    cases m.get? key <;> rfl
  · rw [if_neg own, beq_false_of_ne own]
    cases m.get? key <;> rfl

theorem matching (mirrors : Mirrors s m now) (r : Regex) (i : Nat) :
    Store.matching r now (s.stripeAt i) = m.keysOf r i := by
  have entries := congrArg NameMap.entries (mirrors.stripe i)
  simp only [NameMap.filter] at entries
  unfold Store.matching Plain.keysOf NameMap.names
  have split : (fun e : String × Entry => e.2.live now && r.isMatch e.1)
      = fun e => (r.isMatch e.1) && e.2.live now := funext fun e => Bool.and_comm _ _
  rw [split, ← List.filter_filter, entries, List.filter_map, List.filter_filter]
  refine congrArg (List.map Prod.fst) (congrArg (List.filter · m.entries) (funext fun e => ?_))
  exact Bool.and_comm _ _

theorem keysBetween (mirrors : Mirrors s m now) (r : Regex) (first last : Nat) :
    s.keysBetween r now first last = m.keysBetween r first last :=
  congrArg (List.flatMap · _) (funext fun i => mirrors.matching r i)

end Mirrors

theorem Plain.pageEnd_eq {r : Regex} {m : Plain} {count cursor last : Nat}
    (ends : IsPageEnd (fun stop => (m.keysBetween r cursor stop).length) count cursor last) :
    m.pageEnd r count cursor = last := by
  obtain ⟨after, within, filled, first⟩ := ends
  unfold pageEnd
  by_cases enough : count ≤ (m.keysBetween r cursor last).length
  · have found := List.find?_range'_eq_some.2 ⟨decide_eq_true enough,
      List.mem_range'_1.2 (by omega : cursor + 1 ≤ last ∧ last < cursor + 1 + (stripeCount - cursor)),
      fun earlier reached before =>
        Bool.not_eq_true' _ ▸ decide_eq_false (Nat.not_le_of_lt (first earlier reached before))⟩
    rw [found, Option.getD_some]
  · have whole : last = stripeCount := filled.resolve_right enough
    rw [List.find?_eq_none.2 fun stop member => ?_, Option.getD_none, whole]
    rw [List.mem_range'_1] at member
    rcases Nat.lt_or_ge stop last with before | reached
    · simpa using first stop member.1 before
    · obtain rfl : stop = last := by omega
      simpa using enough

/-! ### Numbers of entries -/

theorem countP_lt_succ {α : Type} (number : α → Nat) (n : Nat) (l : List α) :
    (l.countP fun x => number x < n + 1)
      = (l.countP fun x => number x < n) + l.countP fun x => number x == n := by
  induction l with
  | nil => rfl
  | cons x rest inductionHypothesis =>
      simp only [List.countP_cons, inductionHypothesis, decide_eq_true_eq, beq_iff_eq]
      split_ifs <;> omega

/-- Entries are counted by counting those with each number. -/
theorem sum_countP {α : Type} (number : α → Nat) (l : List α) (n : Nat) :
    (List.range n).foldl (fun sum i => sum + l.countP fun x => number x == i) 0
      = l.countP fun x => number x < n := by
  induction n with
  | zero => simp
  | succ n inductionHypothesis =>
      rw [List.range_succ, List.foldl_append, inductionHypothesis, countP_lt_succ]
      rfl

theorem Mirrors.size {s : Store} {m : Plain} {now : Instant} (mirrors : Mirrors s m now) :
    s.size now = m.size := by
  have counted (i : Nat) : ((s.stripeAt i).entries.filter fun e => e.2.live now).length
      = m.entries.countP fun e => stripeOf e.1 == i := by
    rw [List.countP_eq_length_filter]
    exact congrArg (fun stripe : Stripe => stripe.entries.length) (mirrors.stripe i)
  calc s.size now
      = (List.range stripeCount).foldl (fun sum i =>
          sum + ((s.stripeAt i).entries.filter fun e => e.2.live now).length) 0 := by
        rw [Store.size, Store.count, Store.toList_stripes, List.foldl_map]
    _ = m.entries.countP fun e => stripeOf e.1 < stripeCount := by
        simp only [counted]
        exact sum_countP _ _ _
    _ = m.size := by
        rw [NameMap.size, List.countP_eq_length]
        exact fun e _ => decide_eq_true (Store.stripeOf_lt e.1)

/-! ### Requests -/

section Requests

variable {s : Store} {m : Plain} {now : Instant}

theorem Mirrors.scan (mirrors : Mirrors s m now) (cursor : Nat) (pattern : String) (count : Nat) :
    s.scan cursor pattern count now = m.scan cursor pattern count := by
  unfold Plain.scan
  by_cases outside : stripeCount ≤ cursor
  · rw [if_pos outside, Store.scan, if_pos outside]
  · rw [if_neg outside]
    cases accepted : keyPattern pattern with
    | error e =>
        rw [Store.scan, if_neg outside, accepted]
        rfl
    | ok r =>
        obtain ⟨last, ends, page⟩ :=
          Store.scan_page accepted (Nat.lt_of_not_le outside) count now s
        simp only [mirrors.keysBetween] at ends page
        rw [page, ← Plain.pageEnd_eq ends]
        rfl

/-- Every request but a purge answers what the map answers, and leaves what the map holds. -/
theorem Mirrors.serve (mirrors : Mirrors s m now) {r : Request} (kept : r ≠ .purge) :
    (r.serve now s).1 = (Plain.serve now r m).1 ∧
      Mirrors (r.serve now s).2 (Plain.serve now r m).2 now := by
  cases r with
  | get key =>
      refine ⟨?_, mirrors⟩
      simp only [Request.serve, Store.get, mirrors.same, Plain.serve]
  | set key value span =>
      simp only [Request.serve, Store.set, expiry_eq, Plain.serve]
      by_cases zero : span = some 0
      · simp only [if_pos zero]
        exact ⟨rfl, mirrors⟩
      · simp only [if_neg zero]
        exact ⟨rfl, mirrors.put key (Entry.live_of_positive zero value)⟩
  | setIfMissing key value span =>
      simp only [Request.serve, Store.setIfMissing, expiry_eq, Plain.serve, mirrors.same,
        NameMap.has]
      by_cases zero : span = some 0
      · simp only [if_pos zero]
        exact ⟨rfl, mirrors⟩
      · simp only [if_neg zero]
        rcases Option.eq_none_or_eq_some (m.get? key) with missing | ⟨e, found⟩
        · simp only [missing]
          exact ⟨rfl, mirrors.put key (Entry.live_of_positive zero value)⟩
        · simp only [found]
          exact ⟨rfl, mirrors⟩
  | setIfPresent key value =>
      simp only [Request.serve, Store.setIfPresent, Plain.serve]
      obtain ⟨held, missing⟩ | ⟨e, held, live, found⟩ | ⟨e, held, expired, missing⟩ :=
        mirrors.entry_cases key
      · simp only [held, missing]
        exact ⟨rfl, mirrors⟩
      · simp only [held, found, if_pos live]
        exact ⟨rfl, mirrors.put key (e := { e with value }) live⟩
      · simp only [held, missing, if_neg expired]
        exact ⟨rfl, mirrors.drop missing⟩
  | delete key =>
      refine ⟨?_, mirrors.remove key⟩
      simp only [Request.serve, Store.delete, mirrors.same, Plain.serve]
      rfl
  | expire key span =>
      simp only [Request.serve, Store.expire, Plain.serve]
      obtain ⟨held, missing⟩ | ⟨e, held, live, found⟩ | ⟨e, held, expired, missing⟩ :=
        mirrors.entry_cases key
      · simp only [held, missing]
        exact ⟨rfl, mirrors⟩
      · simp only [held, found, if_pos live]
        by_cases zero : span = 0
        · simp only [if_pos zero]
          exact ⟨rfl, mirrors.remove key⟩
        · simp only [if_neg zero]
          have positive : some span ≠ some 0 := fun same => zero (Option.some.inj same)
          exact ⟨rfl, mirrors.put key (Entry.live_of_positive positive e.value)⟩
      · simp only [held, missing, if_neg expired]
        exact ⟨rfl, mirrors.drop missing⟩
  | ttl key =>
      refine ⟨?_, mirrors⟩
      simp only [Request.serve, Store.ttl, mirrors.same, Plain.serve]
      rcases m.get? key with _ | ⟨value, _ | moment⟩ <;> rfl
  | scan cursor pattern count =>
      exact ⟨congrArg Answer.page (mirrors.scan cursor pattern count), mirrors⟩
  | size => exact ⟨congrArg Answer.number mirrors.size, mirrors⟩
  | isEmpty =>
      refine ⟨?_, mirrors⟩
      simp only [Request.serve, Store.isEmpty, mirrors.size, Plain.serve, NameMap.size,
        NameMap.isEmpty]
      cases m.entries <;> rfl
  | purge => exact absurd rfl kept

end Requests

/-! ### Runs -/

/-- What a run shows of its calls, without the counts of its purges. -/
def observed (events : List Event) : List Event := events.filter fun e => !e.call.isPurge

end Recordkeeper.KeyValue
