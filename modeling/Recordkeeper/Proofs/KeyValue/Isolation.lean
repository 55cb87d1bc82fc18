import Recordkeeper.Proofs.Document.Callback
import Recordkeeper.Proofs.KeyValue.Sharing

/-!
Contract: two repositories on one key-value store.

Owns:
- the operations of a key-value repository as data, and runs of the operations of two repositories
  while time passes and tokens are cancelled;
- `repositories_isolated`: on one store the repositories answer what they answer on two stores of
  their own, if neither name with its colon begins with the other;
- names of which one begins with the other, where one repository counts the records of the other.

Does not own: what a repository answers on a store of its own.

A repository owns the keys that go on from its head, and its pattern matches these keys only.  With
one prefix, no key goes on from both heads unless one of the heads goes on from the other.
-/

set_option autoImplicit false

namespace Recordkeeper.KeyValue

variable {σ τ α E F : Type}

/-! ### Operations -/

/-- An operation of a repository, by the type of its answer. -/
inductive Operation (E : Type) : Type → Type 1
  | request {α : Type} (ask : Ask E α) : Operation E α
  | createWithTtl (ctx : Context) (entity : E) (span : Micros) : Operation E (Except Error E)
  | expire (ctx : Context) (id : Value) (span : Micros) : Operation E (Except Error Unit)
  | ttl (ctx : Context) (id : Value) : Operation E (Except Error (Option Micros))
  | transaction (ctx : Context) (callback : Callback E) : Operation E (Ending Unit)

def Operation.perform (k : Records σ E) : Operation E α → StateM σ α
  | .request ask => ask.perform k.repository.toOperations
  | .createWithTtl ctx entity span => k.createWithTtl ctx entity span
  | .expire ctx id span => k.expire ctx id span
  | .ttl ctx id => k.ttl ctx id
  | .transaction ctx callback => k.repository.transaction ctx callback.body

section Requests

variable {k : Records σ E} {client : Client τ} {env : Environment τ} {related : σ → τ → Prop}
  (surrounded : k.env.Alike related env)
  (clients : k.client.Alike related k.Owns k.pattern client)

include surrounded clients

theorem Records.ask_alike (ask : Ask E α) :
    Alike related (ask.perform k.repository.toOperations)
      (ask.perform (k.hosted client env).repository.toOperations) := by
  cases ask with
  | create ctx entity => exact create_alike surrounded clients ctx entity
  | createBatch ctx entities => exact createBatch_alike surrounded clients ctx entities
  | findById ctx id => exact findById_alike surrounded clients ctx id
  | findAll ctx q => exact findAll_alike surrounded clients ctx q
  | update ctx entity => exact update_alike surrounded clients ctx entity
  | updatePartial ctx id fields => exact updatePartial_alike surrounded clients ctx id fields
  | delete ctx id => exact delete_alike surrounded clients ctx id
  | deleteByCondition ctx q => exact deleteByCondition_alike surrounded clients ctx q
  | query ctx q => exact query_alike surrounded clients ctx q
  | queryOne ctx q => exact queryOne_alike surrounded clients ctx q
  | count ctx q => exact count_alike surrounded clients ctx q
  | existsAny ctx q => exact existsAny_alike surrounded clients ctx q
  | aggregate ctx pipeline => exact .pureState none

theorem Operation.perform_alike (operation : Operation E α) :
    Alike related (operation.perform k) (operation.perform (k.hosted client env)) := by
  cases operation with
  | request ask => exact Records.ask_alike surrounded clients ask
  | createWithTtl ctx entity span =>
      exact Records.createWithTtl_alike surrounded clients ctx entity span
  | expire ctx id span => exact Records.expire_alike surrounded clients ctx id span
  | ttl ctx id => exact Records.ttl_alike surrounded clients ctx id
  | transaction ctx callback => exact fun _ _ relates => ⟨rfl, relates⟩

end Requests

/-! ### Two repositories -/

/-- What happens to two repositories: an operation of one of them, passing time, or the
cancellation of a token. -/
inductive Step (E F : Type) : Type 1
  | first {α : Type} (operation : Operation E α)
  | second {α : Type} (operation : Operation F α)
  | sleep (span : Micros)
  | cancel (token : Token)

/-- An answer with its type. -/
abbrev Reply := Σ α : Type, α

variable {X : Type}

def Step.perform (a : Records (World X) E) (b : Records (World X) F) :
    Step E F → World X → Reply × World X
  | .first operation, w => (operation.perform a w).map (⟨_, ·⟩) id
  | .second operation, w => (operation.perform b w).map (⟨_, ·⟩) id
  | .sleep span, w => (⟨Unit, ()⟩, w.sleep span)
  | .cancel token, w => (⟨Unit, ()⟩, w.cancel token)

def perform (a : Records (World X) E) (b : Records (World X) F) :
    List (Step E F) → World X → List Reply × World X
  | [], w => ([], w)
  | step :: rest, w =>
    let (reply, w) := step.perform a b w
    let (replies, w) := perform a b rest w
    (reply :: replies, w)

/-- One of two stores, with the clock and the ids around both. -/
def firstOf : Part (World (Store × Store)) (World Store) where
  view w := { w with store := w.store.1 }
  put v w := { v with store := (v.store, w.store.2) }

def secondOf : Part (World (Store × Store)) (World Store) where
  view w := { w with store := w.store.2 }
  put v w := { v with store := (w.store.1, v.store) }

/-- A repository on another store in memory. -/
def Records.on (k : Records σ E) (p : Part τ (World Store)) : Records τ E :=
  k.hosted (Client.memory p) (World.environment p)

/-- A store is divided between two owners, each of whom has a copy of the own part.  What nobody
owns is as it was. -/
structure Divided (first second : String → Prop) (before : Store) (w : World Store)
    (v : World (Store × Store)) : Prop where
  surroundings : w.surroundings = v.surroundings
  issued : w.issued = v.issued
  placed : w.store.Placed
  placedFirst : v.store.1.Placed
  placedSecond : v.store.2.Placed
  ofFirst : ∀ key, first key → w.store.entry? key = Store.entry? v.store.1 key
  ofSecond : ∀ key, second key → w.store.entry? key = Store.entry? v.store.2 key
  ofNobody : ∀ key, ¬ first key → ¬ second key → w.store.entry? key = before.entry? key

/-- Every store is divided into two copies of itself. -/
theorem divided_copies (first second : String → Prop) {w : World Store} (placed : w.store.Placed) :
    Divided first second w.store w { w with store := (w.store, w.store) } :=
  ⟨rfl, rfl, placed, placed, placed, fun _ _ => rfl, fun _ _ => rfl, fun _ _ _ => rfl⟩

section Owners

variable {first second : String → Prop} {before : Store}
  (apart : ∀ key, first key → ¬ second key)

include apart

theorem shares_first : Shares first .whole firstOf (Divided first second before) where
  agree w v divided := ⟨divided.surroundings, divided.issued, divided.placed, divided.placedFirst,
    divided.ofFirst⟩
  put w v w' v' divided agree frame _ := by
    refine ⟨agree.surroundings, agree.issued, agree.placed, agree.otherPlaced,
      divided.placedSecond, agree.entries, fun key own => ?_, fun key foreign nobody => ?_⟩
    · have foreign : ¬ first key := fun other => apart key other own
      exact (frame key foreign).trans (divided.ofSecond key own)
    · exact (frame key foreign).trans (divided.ofNobody key foreign nobody)

theorem shares_second : Shares second .whole secondOf (Divided first second before) where
  agree w v divided := ⟨divided.surroundings, divided.issued, divided.placed, divided.placedSecond,
    divided.ofSecond⟩
  put w v w' v' divided agree frame _ := by
    refine ⟨agree.surroundings, agree.issued, agree.placed, divided.placedFirst,
      agree.otherPlaced, fun key own => ?_, agree.entries, fun key nobody foreign => ?_⟩
    · exact (frame key (apart key own)).trans (divided.ofFirst key own)
    · exact (frame key foreign).trans (divided.ofNobody key nobody foreign)

end Owners

/-! ### Keys of two repositories -/

/-- A pattern without signs in its head matches keys of its repository only. -/
theorem Records.owns_of_isMatch {k : Records σ E} (plain : Glob.IsPlain k.keyHead)
    {r : Regex} {key : String} (compiled : keyPattern k.pattern = .ok r)
    (matched : r.isMatch key = true) : k.Owns key := by
  have noClass : '[' ∉ k.pattern.toList := by
    rw [toList_pattern, List.mem_append, not_or]
    exact ⟨fun member => plain '[' member (by decide), by decide⟩
  have matched := (Glob.isMatch_iff noClass (keyPattern_toRegex compiled) key).1 matched
  rw [toList_pattern] at matched
  exact (Glob.matches_head_iff plain key.toList).1 matched

theorem Records.toList_keyHead (k : Records σ E) :
    k.keyHead.toList = k.config.keyPrefix.toList ++ (k.schema.name ++ ":").toList := by
  simp [keyHead, String.toList_append]

theorem Records.plain_keyHead {k : Records σ E}
    (plainPrefix : Glob.IsPlain k.config.keyPrefix) (plainName : Glob.IsPlain k.schema.name) :
    Glob.IsPlain k.keyHead := by
  intro c member
  rw [toList_keyHead, String.toList_append] at member
  rcases List.mem_append.1 member with inPrefix | inName
  · exact plainPrefix c inPrefix
  · rcases List.mem_append.1 inName with inName | colon
    · exact plainName c inName
    · obtain rfl := List.mem_singleton.1 colon
      decide

theorem Records.not_owns {a : Records σ E} {b : Records τ F}
    (samePrefix : a.config.keyPrefix = b.config.keyPrefix)
    (notNested : ¬ (a.schema.name ++ ":").toList <+: (b.schema.name ++ ":").toList)
    (notAround : ¬ (b.schema.name ++ ":").toList <+: (a.schema.name ++ ":").toList)
    (key : String) (own : a.Owns key) : ¬ b.Owns key := by
  intro other
  unfold Owns at own other
  rw [toList_keyHead] at own other
  rw [← samePrefix] at other
  rcases List.prefix_or_prefix_of_prefix own other with nested | around
  · exact notNested ((List.prefix_append_right_inj _).1 nested)
  · exact notAround ((List.prefix_append_right_inj _).1 around)

/-! ### Isolation -/

section Isolation

variable {a : Records (World Store) E} {b : Records (World Store) F} {before : Store}
  (memory : a.InMemory .whole) (otherMemory : b.InMemory .whole)
  (plain : Glob.IsPlain a.keyHead) (otherPlain : Glob.IsPlain b.keyHead)
  (apart : ∀ key, a.Owns key → ¬ b.Owns key)

include memory otherMemory plain otherPlain apart

theorem Step.perform_alike (step : Step E F) :
    Alike (Divided a.Owns b.Owns before) (step.perform a b)
      (step.perform (a.on firstOf) (b.on secondOf)) := by
  intro w v divided
  cases step with
  | first operation =>
      have shares := @shares_first _ _ before apart
      have surrounded := shares.environment
      have clients := Client.memory_alike shares fun r key => a.owns_of_isMatch plain
      rw [← memory.env] at surrounded
      rw [← memory.client] at clients
      obtain ⟨same, left⟩ := operation.perform_alike surrounded clients w v divided
      exact ⟨congrArg (Sigma.mk _) same, left⟩
  | second operation =>
      have shares := @shares_second _ _ before apart
      have surrounded := shares.environment
      have clients := Client.memory_alike shares fun r key => b.owns_of_isMatch otherPlain
      rw [← otherMemory.env] at surrounded
      rw [← otherMemory.client] at clients
      obtain ⟨same, left⟩ := operation.perform_alike surrounded clients w v divided
      exact ⟨congrArg (Sigma.mk _) same, left⟩
  | sleep span =>
      exact ⟨rfl, { divided with
        surroundings := congrArg (fun s => s.sleep span) divided.surroundings }⟩
  | cancel token =>
      exact ⟨rfl, { divided with
        surroundings := congrArg (fun s => s.cancel token) divided.surroundings }⟩

theorem perform_divided (steps : List (Step E F)) :
    Alike (Divided a.Owns b.Owns before) (perform a b steps)
      (perform (a.on firstOf) (b.on secondOf) steps) := by
  induction steps with
  | nil => exact fun _ _ divided => ⟨rfl, divided⟩
  | cons step rest inductionHypothesis =>
      intro w v divided
      obtain ⟨same, left⟩ :=
        step.perform_alike memory otherMemory plain otherPlain apart w v divided
      obtain ⟨sameRest, leftRest⟩ := inductionHypothesis _ _ left
      exact ⟨List.cons_eq_cons.2 ⟨same, sameRest⟩, leftRest⟩

end Isolation

/-- Two repositories on one store, with one prefix and names that are plain text, answer all their
operations as they do on two stores of their own, if neither name with the colon behind it begins
with the other.  So what one of them stores is not returned, counted, overwritten or deleted by the
other. -/
theorem repositories_isolated {schema otherSchema : Schema} {config otherConfig : Config}
    {type : EntityType E} {otherType : EntityType F} {a : Records (World Store) E}
    {b : Records (World Store) F}
    (opened : open? (Client.memory .whole) (World.environment .whole) schema config type = .ok a)
    (otherOpened : open? (Client.memory .whole) (World.environment .whole) otherSchema otherConfig
      otherType = .ok b)
    (samePrefix : config.keyPrefix = otherConfig.keyPrefix)
    (plainPrefix : Glob.IsPlain config.keyPrefix) (plainName : Glob.IsPlain schema.name)
    (otherPlainName : Glob.IsPlain otherSchema.name)
    (notNested : ¬ (schema.name ++ ":").toList <+: (otherSchema.name ++ ":").toList)
    (notAround : ¬ (otherSchema.name ++ ":").toList <+: (schema.name ++ ":").toList)
    {w : World Store} {v : World (Store × Store)} (start : Divided a.Owns b.Owns w.store w v)
    (steps : List (Step E F)) :
    (perform a b steps w).1 = (perform (a.on firstOf) (b.on secondOf) steps v).1 ∧
      Divided a.Owns b.Owns w.store (perform a b steps w).2
        (perform (a.on firstOf) (b.on secondOf) steps v).2 := by
  obtain ⟨memory, -, rfl, rfl⟩ := open?_cases (fun _ _ => rfl) opened
  obtain ⟨otherMemory, -, rfl, rfl⟩ := open?_cases (fun _ _ => rfl) otherOpened
  have plain := Records.plain_keyHead plainPrefix plainName
  have otherPlain := Records.plain_keyHead (samePrefix ▸ plainPrefix) otherPlainName
  have apart := Records.not_owns samePrefix notNested notAround
  exact perform_divided memory otherMemory plain otherPlain apart steps w v start

/-! ### Names with a colon in them -/

def user : Records (World Store) Json := documents "user" { keyPrefix := "app:" }

def users : Records (World Store) Json := documents "users" { keyPrefix := "app:" }

/-- A document with the id 1. -/
def numberOne : Json := .object [("id", .text "1")]

def fresh : World Store := { store := .empty }

def mixedSteps : List (Step Json Json) :=
  [.second (.createWithTtl .background numberOne 7), .first (.request (.create .background numberOne)),
    .first (.request (.deleteByCondition .background {})), .sleep 5,
    .second (.request (.count .background {}))]

theorem user_isolated :
    let apart := perform (user.on firstOf) (users.on secondOf) mixedSteps
      { fresh with store := (fresh.store, fresh.store) }
    (perform user users mixedSteps fresh).1 = apart.1 ∧
      Divided user.Owns users.Owns fresh.store (perform user users mixedSteps fresh).2 apart.2 := by
  have opened : open? (Client.memory .whole) (World.environment .whole) user.schema user.config
      user.type = .ok user := rfl
  have otherOpened : open? (Client.memory .whole) (World.environment .whole) users.schema
      users.config users.type = .ok users := rfl
  exact repositories_isolated opened otherOpened rfl (by decide) (by decide) (by decide)
    (by decide) (by decide) (divided_copies _ _ Store.placed_empty) mixedSteps

def orders : Records (World Store) Json := documents "order" {}

def lines : Records (World Store) Json := documents "order:line" {}

/-- Where a name goes on from another with a colon, the repository with the shorter name counts and
deletes what was stored through the other. -/
theorem lineOfOrder_counted :
    open? (Client.memory .whole) (World.environment .whole) orders.schema orders.config orders.type
        = .ok orders ∧
      open? (Client.memory .whole) (World.environment .whole) lines.schema lines.config lines.type
        = .ok lines ∧
      orders.config = lines.config ∧ orders.schema.name ≠ lines.schema.name ∧
      Glob.IsPlain orders.schema.name ∧ Glob.IsPlain lines.schema.name ∧
      let stored := lines.create .background numberOne fresh
      stored.1.isOk ∧ (orders.count .background {} stored.2).1.toOption = some 1 ∧
        (orders.deleteByCondition .background {} stored.2).1.toOption = some 1 := by
  refine ⟨rfl, rfl, rfl, by decide, by decide, by decide, ?_⟩
  decide +kernel

end Recordkeeper.KeyValue
