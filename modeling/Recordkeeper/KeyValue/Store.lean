import Recordkeeper.Context
import Recordkeeper.KeyValue.Checksum
import Recordkeeper.NameMap
import Recordkeeper.Pattern.Glob

/-!
Contract: a key-value store in memory, with expiring entries.

Owns:
- entries spread over 256 stripes, in the order of keys within a stripe;
- the requests, for which an expired entry is missing;
- scans, whose cursor is the stripe to go on with.

Does not own: the clock, which every request is given as the present moment.
-/

set_option autoImplicit false

namespace Recordkeeper.KeyValue

structure Entry where
  value : Bytes
  expiresAt : Option Instant
  deriving DecidableEq, Repr, Inhabited

def Entry.live (e : Entry) (now : Instant) : Bool :=
  match e.expiresAt with
  | none => true
  | some moment => now < moment

def stripeCount : Nat := 256

def stripeOf (key : String) : Nat := (checksum (Text.Utf8.encode key)).toNat % stripeCount

abbrev Stripe := NameMap Entry

structure Store where
  stripes : Vector Stripe stripeCount

inductive Lifetime where
  | missing
  | noExpiry
  | remaining (span : Micros)
  deriving DecidableEq, Repr

/-- A result of the store or its failure. -/
abbrev Outcome (α : Type) := Except KeyValueFailure α

/-- The expiry of an entry written now; no entry may expire at once. -/
def expiry (now : Instant) (ttl : Option Micros) : Outcome (Option Instant) :=
  match ttl with
  | none => .ok none
  | some 0 => .error ⟨"ERR invalid expire time in 'set' command"⟩
  | some span => .ok (some (now + span))

def keyPattern (pattern : String) : Outcome Regex :=
  match Glob.toRegex pattern with
  | .ok r => .ok r
  | .error .unterminatedClass =>
    .error ⟨"ERR unterminated class in pattern '" ++ pattern ++ "'"⟩
  | .error .badPattern => .error ⟨"ERR bad pattern '" ++ pattern ++ "': <regex error>"⟩

namespace Store

def empty : Store := ⟨Vector.replicate stripeCount .empty⟩

theorem stripeOf_lt (key : String) : stripeOf key < stripeCount :=
  Nat.mod_lt _ (by decide)

def stripe (s : Store) (key : String) : Stripe := s.stripes.get ⟨stripeOf key, stripeOf_lt key⟩

def setStripe (s : Store) (key : String) (stripe : Stripe) : Store :=
  ⟨s.stripes.set (stripeOf key) stripe (stripeOf_lt key)⟩

def entry? (s : Store) (key : String) : Option Entry := (s.stripe key).get? key

def put (s : Store) (key : String) (e : Entry) : Store :=
  s.setStripe key ((s.stripe key).insert key e)

def remove (s : Store) (key : String) : Store := s.setStripe key ((s.stripe key).erase key)

def live? (s : Store) (key : String) (now : Instant) : Option Entry :=
  (s.entry? key).filter fun e => e.live now

/-! ### Requests -/

def get (key : String) (now : Instant) (s : Store) : Outcome (Option Bytes) :=
  .ok ((s.live? key now).map (·.value))

def set (key : String) (value : Bytes) (ttl : Option Micros) (now : Instant) (s : Store) :
    Outcome Unit × Store :=
  match expiry now ttl with
  | .ok expiresAt => (.ok (), s.put key ⟨value, expiresAt⟩)
  | .error e => (.error e, s)

def setIfMissing (key : String) (value : Bytes) (ttl : Option Micros) (now : Instant)
    (s : Store) : Outcome Bool × Store :=
  match expiry now ttl with
  | .ok expiresAt =>
    match s.live? key now with
    | some _ => (.ok false, s)
    | none => (.ok true, s.put key ⟨value, expiresAt⟩)
  | .error e => (.error e, s)

/-- Replaces the value of a live entry, which keeps its expiry.  An expired entry is dropped on
the way. -/
def setIfPresent (key : String) (value : Bytes) (now : Instant) (s : Store) :
    Outcome Bool × Store :=
  match s.entry? key with
  | none => (.ok false, s)
  | some e =>
    if e.live now then (.ok true, s.put key { e with value := value })
    else (.ok false, s.remove key)

def delete (key : String) (now : Instant) (s : Store) : Outcome Bool × Store :=
  (.ok (s.live? key now).isSome, s.remove key)

/-- Gives a live entry a new expiry; no time at all removes it. -/
def expire (key : String) (ttl : Micros) (now : Instant) (s : Store) : Outcome Bool × Store :=
  match s.entry? key with
  | none => (.ok false, s)
  | some e =>
    if e.live now then
      if ttl = 0 then (.ok true, s.remove key)
      else (.ok true, s.put key { e with expiresAt := some (now + ttl) })
    else (.ok false, s.remove key)

def ttl (key : String) (now : Instant) (s : Store) : Outcome Lifetime :=
  .ok (match s.live? key now with
    | none => .missing
    | some e =>
      match e.expiresAt with
      | none => .noExpiry
      | some moment => .remaining (moment - now).toNat)

def matching (r : Regex) (now : Instant) (stripe : Stripe) : List String :=
  (stripe.entries.filter fun e => e.2.live now && r.isMatch e.1).map (·.1)

/-- Reads stripes until at least one page of keys is found; answers the position after the last
stripe read.  A page always holds whole stripes. -/
def scanStripes (r : Regex) (now : Instant) (count : Nat) :
    Nat → List Stripe → List String → Nat × List String
  | position, [], found => (position, found)
  | position, stripe :: rest, found =>
    if count ≤ found.length then (position, found)
    else scanStripes r now count (position + 1) rest (found ++ matching r now stripe)

/-- One page of a scan and the cursor of the next one, zero after the last. -/
def scan (cursor : Nat) (pattern : String) (count : Nat) (now : Instant) (s : Store) :
    Outcome (Nat × List String) :=
  if stripeCount ≤ cursor then .error ⟨"ERR invalid cursor"⟩
  else do
    let r ← keyPattern pattern
    let (position, keys) := scanStripes r now (max count 1) cursor (s.stripes.toList.drop cursor) []
    return (if stripeCount ≤ position then 0 else position, keys)

def count (test : Entry → Bool) (s : Store) : Nat :=
  s.stripes.toList.foldl (fun n stripe => n + (stripe.entries.filter fun e => test e.2).length) 0

def size (now : Instant) (s : Store) : Nat := s.count (·.live now)

def isEmpty (now : Instant) (s : Store) : Bool := s.size now == 0

/-- Drops every expired entry; answers how many. -/
def purge (now : Instant) (s : Store) : Nat × Store :=
  let kept := s.stripes.map fun stripe => stripe.filter fun _ e => e.live now
  (s.count fun e => !e.live now, ⟨kept⟩)

end Store

end Recordkeeper.KeyValue
