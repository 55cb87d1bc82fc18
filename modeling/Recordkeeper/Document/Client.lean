import Recordkeeper.Document.Store
import Recordkeeper.World

/-!
Contract: what a repository asks of a document store.

Owns:
- the requests, over any state; each carries the session it runs in, if any;
- the client of a store in memory.

Does not own: how the records of a repository are laid out in documents.
-/

set_option autoImplicit false

namespace Recordkeeper.Document

structure Client (σ : Type) where
  insertOne : Option SessionId → String → Json → σ → Outcome Unit × σ
  find : Option SessionId → String → Json → FindOptions → σ → Outcome (List Json) × σ
  count : Option SessionId → String → Json → σ → Outcome Nat × σ
  /-- Sets fields of the first match; answers how many documents matched. -/
  updateOne : Option SessionId → String → Json → Json → σ → Outcome Nat × σ
  /-- Replaces the first match, which keeps its id; answers how many documents matched. -/
  replaceOne : Option SessionId → String → Json → Json → σ → Outcome Nat × σ
  deleteMany : Option SessionId → String → Json → σ → Outcome Nat × σ
  aggregate : Option SessionId → String → List Json → σ → Outcome (List Json) × σ
  supportsTransactions : σ → Bool
  startSession : σ → Outcome SessionId × σ
  startTransaction : SessionId → σ → Outcome Unit × σ
  commitTransaction : SessionId → σ → Outcome Unit × σ
  abortTransaction : SessionId → σ → Outcome Unit × σ
  /-- Ends a session and aborts a transaction still open in it. -/
  endSession : SessionId → σ → σ

def Client.memory {σ : Type} (p : Part σ Store) : Client σ where
  insertOne session name doc := p.run (Store.insertOne session name doc)
  find session name filter options := p.run (Store.find session name filter options)
  count session name filter := p.run (Store.count session name filter)
  updateOne session name filter set := p.run (Store.updateOne session name filter set)
  replaceOne session name filter doc := p.run (Store.replaceOne session name filter doc)
  deleteMany session name filter := p.run (Store.deleteMany session name filter)
  aggregate session name pipeline := p.run (Store.aggregate session name pipeline)
  supportsTransactions s := (p.view s).transactions
  startSession := p.run Store.startSession
  startTransaction id := p.run (Store.startTransaction id)
  commitTransaction id := p.run (Store.commitTransaction id)
  abortTransaction id := p.run (Store.abortTransaction id)
  endSession id := p.modify (Store.endSession id)

end Recordkeeper.Document
