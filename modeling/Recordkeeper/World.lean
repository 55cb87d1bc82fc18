import Recordkeeper.Repository
import Recordkeeper.Text.Base64

/-!
Contract: a store with a clock and a supply of ids, as a part of some state.

Owns:
- parts of a state, on which a request for the part acts;
- the state around a store in memory and the ids handed out, which are pairwise different.

Does not own: the requests of a store.
-/

set_option autoImplicit false

namespace Recordkeeper

structure Part (σ τ : Type) where
  view : σ → τ
  put : τ → σ → σ

namespace Part

variable {σ τ ρ : Type}

def whole : Part σ σ := ⟨id, fun t _ => t⟩

def inside (outer : Part σ τ) (inner : Part τ ρ) : Part σ ρ where
  view s := inner.view (outer.view s)
  put r s := outer.put (inner.put r (outer.view s)) s

def run {β : Type} (p : Part σ τ) (request : τ → β × τ) (s : σ) : β × σ :=
  let (b, t) := request (p.view s)
  (b, p.put t s)

def modify (p : Part σ τ) (change : τ → τ) (s : σ) : σ := p.put (change (p.view s)) s

end Part

structure World (α : Type) where
  store : α
  surroundings : Surroundings := {}
  /-- Number of ids handed out. -/
  issued : Nat := 0

namespace World

variable {α σ : Type}

/-- The digits of a number in base 16, filled up to a width. -/
def hexDigits : Nat → Nat → List Char
  | 0, _ => []
  | width + 1, n => hexDigits width (n / 16) ++ [Text.hexDigit (n % 16)]

/-- The id with a number, in the form of a random identifier of version 4. -/
def idText (n : Nat) : String :=
  "00000000-0000-4000-8000-" ++ String.ofList (hexDigits 12 n)

def now (w : World α) : Instant := w.surroundings.now

def sleep (span : Micros) (w : World α) : World α :=
  { w with surroundings := w.surroundings.sleep span }

def cancel (token : Token) (w : World α) : World α :=
  { w with surroundings := w.surroundings.cancel token }

def storePart : Part (World α) α := ⟨store, fun s w => { w with store := s }⟩

def environment (p : Part σ (World α)) : Environment σ where
  observe s := ((p.view s).surroundings, s)
  freshId := p.run fun w => (idText (w.issued + 1), { w with issued := w.issued + 1 })

end World

end Recordkeeper
