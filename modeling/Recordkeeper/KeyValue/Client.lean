import Recordkeeper.KeyValue.Store
import Recordkeeper.World

/-!
Contract: what a repository asks of a key-value store.

Owns:
- the requests, over any state;
- the client of a store in memory.

Does not own: how the records of a repository are laid out in a store.
-/

set_option autoImplicit false

namespace Recordkeeper.KeyValue

/-- A client of a key-value store.  Expired keys behave as missing everywhere. -/
structure Client (σ : Type) where
  get : String → σ → Outcome (Option Bytes) × σ
  /-- Writes in any case; without a time to live the key does not expire. -/
  set : String → Bytes → Option Micros → σ → Outcome Unit × σ
  /-- Writes only where nothing is; answers whether it wrote. -/
  setIfMissing : String → Bytes → Option Micros → σ → Outcome Bool × σ
  /-- Writes only where something is, and keeps its expiry; answers whether it wrote. -/
  setIfPresent : String → Bytes → σ → Outcome Bool × σ
  /-- Answers whether something was removed. -/
  delete : String → σ → Outcome Bool × σ
  /-- A page of the keys that match a pattern and the cursor of the next page, zero after the
  last one.  A key may be reported more than once. -/
  scan : Nat → String → Nat → σ → Outcome (Nat × List String) × σ
  /-- Answers whether the key was there. -/
  expire : String → Micros → σ → Outcome Bool × σ
  ttl : String → σ → Outcome Lifetime × σ
  /-- Greatest number of pages of a scan. -/
  pages : Nat

namespace Client

/-- The client of a store in memory.  A page holds at least one stripe. -/
def memory {σ : Type} (p : Part σ (World Store)) : Client σ where
  get key := p.run fun w => (w.store.get key w.now, w)
  set key value ttl := write fun now => Store.set key value ttl now
  setIfMissing key value ttl := write fun now => Store.setIfMissing key value ttl now
  setIfPresent key value := write fun now => Store.setIfPresent key value now
  delete key := write fun now => Store.delete key now
  scan cursor pattern count := p.run fun w => (w.store.scan cursor pattern count w.now, w)
  expire key ttl := write fun now => Store.expire key ttl now
  ttl key := p.run fun w => (w.store.ttl key w.now, w)
  pages := stripeCount
where
  /-- A request that may change the store, given the present moment. -/
  write {β : Type} (request : Instant → Store → β × Store) : σ → β × σ :=
    p.run fun w => World.storePart.run (request w.now) w

end Client

end Recordkeeper.KeyValue
