import Recordkeeper.KeyValue.Store
import Recordkeeper.Proofs.NameMap

/-!
Contract: the requests of a key-value store, call by call.

Owns:
- requests and answers as data, calls with their moments, and the events that a run of calls
  leaves;
- the stripes of a store by number, and what a change of one key does to them;
- that every key stands in its own stripe, after any run.

Does not own: which keys have expired.
-/

set_option autoImplicit false

namespace Recordkeeper.KeyValue

/-! ### Calls -/

inductive Request where
  | get (key : String)
  | set (key : String) (value : Bytes) (ttl : Option Micros)
  | setIfMissing (key : String) (value : Bytes) (ttl : Option Micros)
  | setIfPresent (key : String) (value : Bytes)
  | delete (key : String)
  | expire (key : String) (ttl : Micros)
  | ttl (key : String)
  | scan (cursor : Nat) (pattern : String) (count : Nat)
  | size
  | isEmpty
  | purge
  deriving DecidableEq

inductive Answer where
  | value (outcome : Outcome (Option Bytes))
  | done (outcome : Outcome Unit)
  | flag (outcome : Outcome Bool)
  | lifetime (outcome : Outcome Lifetime)
  | page (outcome : Outcome (Nat × List String))
  | number (n : Nat)
  | holds (fact : Bool)

structure Call where
  moment : Instant
  request : Request
  deriving DecidableEq

def Call.isPurge (c : Call) : Bool := c.request = .purge

structure Event where
  call : Call
  answer : Answer

def Request.serve (now : Instant) : Request → Store → Answer × Store
  | .get key, s => (.value (s.get key now), s)
  | .set key value span, s => (s.set key value span now).map .done id
  | .setIfMissing key value span, s => (s.setIfMissing key value span now).map .flag id
  | .setIfPresent key value, s => (s.setIfPresent key value now).map .flag id
  | .delete key, s => (s.delete key now).map .flag id
  | .expire key span, s => (s.expire key span now).map .flag id
  | .ttl key, s => (.lifetime (s.ttl key now), s)
  | .scan cursor pattern count, s => (.page (s.scan cursor pattern count now), s)
  | .size, s => (.number (s.size now), s)
  | .isEmpty, s => (.holds (s.isEmpty now), s)
  | .purge, s => (s.purge now).map .number id

def run : List Call → Store → List Event × Store
  | [], s => ([], s)
  | call :: rest, s =>
    let (answer, s) := call.request.serve call.moment s
    let (events, s) := run rest s
    (⟨call, answer⟩ :: events, s)

namespace Store

/-! ### Stripes -/

def stripeAt (s : Store) (i : Nat) : Stripe := s.stripes[i]?.getD .empty

theorem toList_stripes (s : Store) : s.stripes.toList = (List.range stripeCount).map s.stripeAt := by
  refine List.ext_getElem (by simp) fun i below _ => ?_
  rw [List.getElem_map, List.getElem_range]
  have inside : i < stripeCount := by simpa using below
  simp [stripeAt, inside]

theorem stripe_eq (s : Store) (key : String) : s.stripe key = s.stripeAt (stripeOf key) := by
  unfold stripe stripeAt
  rw [Vector.getElem?_eq_getElem (stripeOf_lt key)]
  rfl

theorem stripeAt_empty (i : Nat) : empty.stripeAt i = .empty := by
  unfold stripeAt empty
  by_cases inside : i < stripeCount <;> simp [inside]

theorem stripeAt_setStripe (s : Store) (key : String) (stripe : Stripe) (i : Nat) :
    (s.setStripe key stripe).stripeAt i = if i = stripeOf key then stripe else s.stripeAt i := by
  unfold setStripe stripeAt
  rw [Vector.getElem?_set]
  by_cases own : stripeOf key = i
  · rw [if_pos own, if_pos own.symm, Option.getD_some]
  · rw [if_neg own, if_neg fun same => own same.symm]

theorem stripeAt_purge (s : Store) (now : Instant) (i : Nat) :
    (s.purge now).2.stripeAt i = (s.stripeAt i).filter fun _ e => e.live now := by
  unfold purge stripeAt
  dsimp only
  rw [Vector.getElem?_map]
  cases s.stripes[i]? <;> rfl

/-! ### Entries -/

theorem entry?_setStripe (s : Store) (key : String) (stripe : Stripe) (other : String) :
    entry? (s.setStripe key stripe) other
      = if stripeOf other = stripeOf key then stripe.get? other else s.entry? other := by
  unfold entry?
  rw [stripe_eq, stripeAt_setStripe, stripe_eq s]
  split <;> rfl

/-- What a key's stripe holds is what its own look-up finds. -/
theorem entry?_shared (s : Store) (key other : String) :
    (if stripeOf other = stripeOf key then (s.stripe key).get? other else s.entry? other)
      = s.entry? other := by
  split
  next shared =>
    rw [stripe_eq, ← shared, ← stripe_eq]
    rfl
  next => rfl

@[simp] theorem entry?_put (s : Store) (key : String) (e : Entry) (other : String) :
    entry? (s.put key e) other = if other = key then some e else s.entry? other := by
  rw [put, entry?_setStripe, NameMap.get?_insert]
  by_cases same : other = key
  · rw [if_pos same, if_pos same, if_pos (congrArg stripeOf same)]
  · rw [if_neg same, if_neg same, entry?_shared]

@[simp] theorem entry?_remove (s : Store) (key other : String) :
    entry? (s.remove key) other = if other = key then none else s.entry? other := by
  rw [remove, entry?_setStripe, NameMap.get?_erase]
  by_cases same : other = key
  · rw [if_pos same, if_pos same, if_pos (congrArg stripeOf same)]
  · rw [if_neg same, if_neg same, entry?_shared]

@[simp] theorem entry?_purge (s : Store) (now : Instant) (key : String) :
    entry? (s.purge now).2 key = s.live? key now := by
  unfold live? entry?
  rw [stripe_eq, stripeAt_purge, NameMap.get?_filter, ← stripe_eq]

/-! ### Every key in its own stripe -/

def Placed (s : Store) : Prop :=
  ∀ i key e, (s.stripeAt i).get? key = some e → stripeOf key = i

theorem Placed.get?_stripeAt {s : Store} (placed : s.Placed) (i : Nat) (key : String) :
    (s.stripeAt i).get? key = if stripeOf key = i then s.entry? key else none := by
  split
  next own =>
    rw [← own, ← stripe_eq]
    rfl
  next other => exact Option.eq_none_iff_forall_ne_some.2 fun e held => other (placed i key e held)

theorem placed_empty : empty.Placed := by
  intro i key e held
  rw [stripeAt_empty] at held
  cases held

theorem Placed.setStripe {s : Store} (placed : s.Placed) (key : String) {stripe : Stripe}
    (own : ∀ other e, stripe.get? other = some e → stripeOf other = stripeOf key) :
    (s.setStripe key stripe).Placed := by
  intro i other e held
  rw [stripeAt_setStripe] at held
  split at held
  next same => exact (own other e held).trans same.symm
  next => exact placed i other e held

theorem Placed.put {s : Store} (placed : s.Placed) (key : String) (e : Entry) :
    (s.put key e).Placed := by
  refine placed.setStripe key fun other held found => ?_
  rw [NameMap.get?_insert] at found
  split at found
  next same => rw [same]
  next =>
    rw [stripe_eq] at found
    exact placed _ other held found

theorem Placed.remove {s : Store} (placed : s.Placed) (key : String) : (s.remove key).Placed := by
  refine placed.setStripe key fun other held found => ?_
  rw [NameMap.get?_erase] at found
  split at found
  next => cases found
  next =>
    rw [stripe_eq] at found
    exact placed _ other held found

theorem Placed.purge {s : Store} (placed : s.Placed) (now : Instant) :
    (s.purge now).2.Placed := by
  intro i key e held
  rw [stripeAt_purge, NameMap.get?_filter] at held
  exact placed i key e (Option.filter_eq_some_iff.1 held).1

end Store

/-- A request leaves the store, writes or removes its own key, or drops what has expired. -/
theorem Request.serve_cases (now : Instant) (r : Request) (s : Store) :
    (r.serve now s).2 = s ∨ (∃ key e, (r.serve now s).2 = s.put key e) ∨
      (∃ key, (r.serve now s).2 = s.remove key) ∨ (r.serve now s).2 = (s.purge now).2 := by
  cases r with
  | get | ttl | scan | size | isEmpty => exact .inl rfl
  | set key value ttl =>
      simp only [serve, Store.set]
      split
      next => exact .inr (.inl ⟨key, _, rfl⟩)
      next => exact .inl rfl
  | setIfMissing key value ttl =>
      simp only [serve, Store.setIfMissing]
      split
      next =>
        split
        next => exact .inl rfl
        next => exact .inr (.inl ⟨key, _, rfl⟩)
      next => exact .inl rfl
  | setIfPresent key value =>
      simp only [serve, Store.setIfPresent]
      split
      next => exact .inl rfl
      next =>
        split
        next => exact .inr (.inl ⟨key, _, rfl⟩)
        next => exact .inr (.inr (.inl ⟨key, rfl⟩))
  | delete key => exact .inr (.inr (.inl ⟨key, rfl⟩))
  | expire key ttl =>
      simp only [serve, Store.expire]
      split
      next => exact .inl rfl
      next =>
        split
        next =>
          split
          next => exact .inr (.inr (.inl ⟨key, rfl⟩))
          next => exact .inr (.inl ⟨key, _, rfl⟩)
        next => exact .inr (.inr (.inl ⟨key, rfl⟩))
  | purge => exact .inr (.inr (.inr rfl))

theorem Store.Placed.serve {s : Store} (placed : s.Placed) (now : Instant) (r : Request) :
    (r.serve now s).2.Placed := by
  obtain same | ⟨key, e, same⟩ | ⟨key, same⟩ | same := r.serve_cases now s <;> rw [same]
  · exact placed
  · exact placed.put key e
  · exact placed.remove key
  · exact placed.purge now

theorem Store.Placed.run {s : Store} (placed : s.Placed) (calls : List Call) :
    (run calls s).2.Placed := by
  induction calls generalizing s with
  | nil => exact placed
  | cons call rest inductionHypothesis =>
      exact inductionHypothesis (placed.serve call.moment call.request)

end Recordkeeper.KeyValue
