import Recordkeeper.Proofs.KeyValue.Reading
import Recordkeeper.Proofs.Pattern.Glob

/-!
Contract: a repository on a key-value store finds its own records.

Owns:
- repositories that were opened on a store in memory, and the settings this takes;
- `keyFor_matches`: the key of a record matches the pattern of its repository, where no class and
  no backslash is in the head of both;
- `own_records_found`: what the requests that scan work on, among which is every live record under
  a key of the repository.

Does not own: what is under the keys of other repositories.

Key and pattern share their head, which is plain text in the one and pattern text in the other.  A
star or a question mark in it matches more than itself.  A bracket or a backslash may match
anything but itself, and only the prefix is searched for brackets when a repository is opened.
-/

set_option autoImplicit false

namespace Recordkeeper.KeyValue

variable {σ E : Type} {p : Part σ (World Store)} {schema : Schema} {config : Config}
  {type : EntityType E} {k : Records σ E}

/-! ### Opening -/

/-- What is known of a repository that was opened on a store in memory. -/
theorem open?_cases (lawful : p.Lawful)
    (opened : open? (Client.memory p) (World.environment p) schema config type = .ok k) :
    k.InMemory p ∧ Records.accept k.schema k.config = .ok () ∧ k.schema = schema ∧
      k.config = config := by
  obtain ⟨⟨⟩, accepted, same⟩ := exists_of_bind opened
  cases same
  exact ⟨⟨rfl, rfl, lawful⟩, accepted, rfl, rfl⟩

theorem Records.accept_schema (accepted : Records.accept schema config = .ok ()) :
    schema.validate = .ok () := by
  obtain ⟨⟨⟩, -, rest⟩ := exists_of_bind accepted
  obtain ⟨⟨⟩, valid, -⟩ := exists_of_bind rest
  exact valid

/-- Settings that are accepted have no sign but a backslash in the prefix, and no empty timeout. -/
theorem Records.accept_settings (accepted : Records.accept schema config = .ok ()) :
    (∀ c ∈ config.keyPrefix.toList, c ∉ Config.globCharacters) ∧
      config.defaultTimeout ≠ some 0 := by
  obtain ⟨⟨⟩, valid, -⟩ := exists_of_bind accepted
  unfold Config.validate at valid
  split at valid
  next => cases valid
  next =>
    split at valid
    next => cases valid
    next =>
      split at valid
      next => cases valid
      next plain =>
        split at valid
        next => cases valid
        next positive =>
          refine ⟨fun c member sign => plain ?_, positive⟩
          exact List.any_eq_true.2 ⟨c, member, List.contains_iff_mem.2 sign⟩

/-! ### Keys and the pattern -/

theorem keyPattern_toRegex {pattern : String} {r : Regex} (accepted : keyPattern pattern = .ok r) :
    Glob.toRegex pattern = .ok r := by
  unfold keyPattern at accepted
  split at accepted
  next _ _ => cases accepted; assumption
  next => cases accepted
  next => cases accepted

namespace Records

theorem keyFor_cases {id : Value} {key : String} (built : k.keyFor id = .ok key) :
    id.coerced ≠ "" ∧ key = k.keyHead ++ id.coerced := by
  obtain ⟨⟨⟩, -, built⟩ := exists_of_bind built
  dsimp only at built
  split at built
  next => cases built
  next nonempty =>
    cases built
    exact ⟨nonempty, rfl⟩

theorem toList_pattern (k : Records σ E) : k.pattern.toList = k.keyHead.toList ++ ['*'] :=
  String.toList_append

/-- The key of a record matches the pattern of its repository. -/
theorem keyFor_matches (noClass : '[' ∉ k.keyHead.toList) (noBackslash : '\\' ∉ k.keyHead.toList)
    {r : Regex} (compiled : keyPattern k.pattern = .ok r) {id : Value} {key : String}
    (built : k.keyFor id = .ok key) : r.isMatch key = true := by
  obtain ⟨-, rfl⟩ := keyFor_cases built
  have noClassAtAll : '[' ∉ k.pattern.toList := by
    rw [toList_pattern]
    simpa using noClass
  refine (Glob.isMatch_iff noClassAtAll (keyPattern_toRegex compiled) _).2 ?_
  rw [toList_pattern, String.toList_append]
  exact Glob.matches_own noBackslash _

/-! ### What the requests find -/

/-- The requests that scan work on some records: every live one under a key of the repository is
among them, and none is repeated. -/
structure Finds (k : Records σ E) (p : Part σ (World Store)) (ctx : Context) (s : σ)
    (found : List (String × Record)) : Prop where
  once : (found.map (·.1)).Nodup
  own : ∀ id key e, k.keyFor id = .ok key →
    (p.view s).store.live? key (p.view s).now = some e →
      ∃ r, k.decode key e.value = .ok r ∧ (key, r) ∈ found
  query : ∀ q, (k.query ctx q s).1
    = (Plan.compile q).map fun plan => plan.execute (found.map (·.2))
  count : ∀ q, (k.count ctx q s).1
    = (Plan.compile q.unpaged).map fun plan => (plan.execute (found.map (·.2))).length
  existsAny : ∀ q, (k.existsAny ctx q s).1
    = (Plan.compile q.firstOnly).map fun plan => !(plan.execute (found.map (·.2))).isEmpty
  deleted : ∀ q plan, q.checkDelete = .ok () → Plan.compile q = .ok plan →
    (k.deleteByCondition ctx q s).1 = .ok (chosen plan found).length ∧
      ∀ key, Store.entry? (p.view (k.deleteByCondition ctx q s).2).store key
        = if key ∈ (chosen plan found).map (·.1) then none
          else Store.entry? (p.view s).store key

theorem finds_of_readAll (memory : k.InMemory p) {ctx : Context} {s : σ}
    (alive : ctx.check (p.view s).surroundings = .ok ())
    (lasting : k.config.defaultTimeout ≠ some 0) {r : Regex}
    (compiled : keyPattern k.pattern = .ok r) (placed : (p.view s).store.Placed)
    (matched : ∀ id key, k.keyFor id = .ok key → r.isMatch key = true)
    {found : List (String × Record)}
    (read : k.readAll (p.view s) 0 ((p.view s).store.matchedKeys r (p.view s).now) = .ok found) :
    k.Finds p ctx s found := by
  have readAs := readAll_readAs (fun key member => (placed.mem_matchedKeys.1 member).2) read
  refine ⟨?_, fun id key e built held => ?_, fun q => ?_, fun q => ?_, fun q => ?_,
    fun q plan conditionsOnly planned => ?_⟩
  · rw [readAs.keys_eq]
    exact placed.nodup_matchedKeys r _
  · have listed := placed.mem_matchedKeys.2 ⟨matched id key built, Option.isSome_of_eq_some held⟩
    obtain ⟨other, r, same, decoded, member⟩ := readAs.exists_of_mem listed
    rw [held] at same
    cases same
    exact ⟨r, decoded, member⟩
  · rw [(query_yields memory alive lasting compiled placed q s rfl).1, read]
    cases Plan.compile q <;> rfl
  · rw [(count_yields memory alive lasting compiled placed q s rfl).1, read]
    cases Plan.compile q.unpaged <;> rfl
  · rw [(existsAny_yields memory alive lasting compiled placed q s rfl).1, read]
    cases Plan.compile q.firstOnly <;> rfl
  · obtain ⟨answered, left⟩ := deleteByCondition_yields memory alive lasting compiled placed
      conditionsOnly planned read s rfl
    refine ⟨answered, fun key => ?_⟩
    rw [left]
    exact Store.entry?_removeAll _ _ key

end Records

/-- Where no class is in the name and no backslash in the name and the prefix, the key of a record
matches the pattern of its repository.  In every store that calls can lead to, a scan then finds
every live record under a key of the repository, unless it meets too many keys or a value that is
no record. -/
theorem own_records_found (lawful : p.Lawful)
    (opened : open? (Client.memory p) (World.environment p) schema config type = .ok k)
    (noClass : '[' ∉ schema.name.toList) (noBackslash : '\\' ∉ schema.name.toList)
    (noEscape : '\\' ∉ config.keyPrefix.toList) {r : Regex}
    (compiled : keyPattern k.pattern = .ok r) :
    (∀ id key, k.keyFor id = .ok key → r.isMatch key = true) ∧
      ∀ calls ctx s, (p.view s).store = (run calls .empty).2 →
        ctx.check (p.view s).surroundings = .ok () →
        (∃ found, k.Finds p ctx s found) ∨
          config.maxScanKeys < ((p.view s).store.matchedKeys r (p.view s).now).length ∨
          k.Unreadable (p.view s) ((p.view s).store.matchedKeys r (p.view s).now) := by
  obtain ⟨memory, accepted, rfl, rfl⟩ := open?_cases lawful opened
  obtain ⟨plainPrefix, lasting⟩ := Records.accept_settings accepted
  have noBracket : '[' ∉ k.config.keyPrefix.toList := fun member =>
    plainPrefix '[' member (by decide)
  have matched : ∀ id key, k.keyFor id = .ok key → r.isMatch key = true := by
    intro id key
    refine Records.keyFor_matches ?_ ?_ compiled <;>
      simp [Records.keyHead, String.toList_append, noBracket, noClass, noEscape, noBackslash]
  refine ⟨matched, fun calls ctx s reached alive => ?_⟩
  have placed : (p.view s).store.Placed := by
    rw [reached]
    exact Store.placed_empty.run calls
  cases read : k.readAll (p.view s) 0 ((p.view s).store.matchedKeys r (p.view s).now) with
  | error problem =>
      have failed := Records.readAll_failed
        (fun key member => (placed.mem_matchedKeys.1 member).2) read
      rw [Nat.zero_add] at failed
      exact .inr failed
  | ok found =>
      exact .inl ⟨found,
        Records.finds_of_readAll memory alive lasting compiled placed matched read⟩

/-- A repository of documents with texts for ids, on a store that is all of the state. -/
def documents (name : String) (config : Config) : Records (World Store) Json where
  client := .memory .whole
  env := World.environment .whole
  schema := { name, primaryKey := "id", fields := [⟨"id", "id", .text, true, false⟩] }
  config := config
  type := .anyDocument

def notes : Records (World Store) Json :=
  documents "notes" { keyPrefix := "app:", scanBatchSize := 2, defaultTimeout := some 50 }

def noteEntry : Entry := ⟨Text.Utf8.encode "\x7b\"id\":\"1\"\x7d", none⟩

def noteCalls : List Call := [⟨0, .set "app:notes:1" noteEntry.value none⟩]

def noteWorld : World Store := { store := (run noteCalls .empty).2 }

theorem entry?_noteWorld (key : String) :
    noteWorld.store.entry? key = if key = "app:notes:1" then some noteEntry else none := by
  refine (Store.entry?_put .empty "app:notes:1" noteEntry key).trans ?_
  rw [Store.entry?, Store.stripe_eq, Store.stripeAt_empty]
  rfl

theorem live?_noteWorld {key : String} {e : Entry}
    (live : noteWorld.store.live? key noteWorld.now = some e) :
    key = "app:notes:1" ∧ e = noteEntry := by
  rw [Store.live?, entry?_noteWorld] at live
  split at live
  next same =>
    obtain ⟨found, -⟩ := Option.filter_eq_some_iff.1 live
    exact ⟨same, (Option.some.inj found).symm⟩
  next => cases live

theorem note_found :
    ∃ r found, keyPattern notes.pattern = .ok r ∧ notes.Finds .whole .background noteWorld found ∧
      ∃ record, ("app:notes:1", record) ∈ found := by
  have opened : open? (Client.memory .whole) (World.environment .whole) notes.schema notes.config
      notes.type = .ok notes := rfl
  have pattern : notes.pattern = "app:notes:*" := by decide
  have readable : (notes.decode "app:notes:1" noteEntry.value).isOk = true := by decide +kernel
  have placed : noteWorld.store.Placed := Store.placed_empty.run noteCalls
  have held : noteWorld.store.live? "app:notes:1" 0 = some noteEntry := by
    rw [Store.live?, entry?_noteWorld, if_pos rfl]
    rfl
  obtain ⟨r, compiled⟩ : ∃ r, keyPattern "app:notes:*" = .ok r := ⟨_, by with_unfolding_all rfl⟩
  rw [← pattern] at compiled
  have finds := (own_records_found (fun _ _ => rfl) opened (by decide) (by decide) (by decide)
    compiled).2 noteCalls .background noteWorld rfl rfl
  obtain ⟨found, finds⟩ | full | ⟨key, -, e, problem, live, refused⟩ := finds
  · obtain ⟨record, -, member⟩ := finds.own (.text "1") "app:notes:1" noteEntry (by decide) held
    exact ⟨r, found, compiled, finds, record, member⟩
  · have own : ∀ key ∈ noteWorld.store.matchedKeys r 0, key = "app:notes:1" := by
      intro key member
      obtain ⟨e, live⟩ := Option.isSome_iff_exists.1 (placed.mem_matchedKeys.1 member).2
      exact (live?_noteWorld live).1
    have same := List.eq_replicate_of_mem own
    have once := placed.nodup_matchedKeys r 0
    rw [same] at once
    have few := List.nodup_replicate.1 once
    have many : 100000 < (noteWorld.store.matchedKeys r 0).length := full
    omega
  · obtain ⟨rfl, rfl⟩ := live?_noteWorld live
    rw [refused] at readable
    cases readable

def bracketed : Records (World Store) Json := documents "a[b]" {}

/-- The brackets of a name are taken for a class, which matches one of the letters between them. -/
theorem bracketedName_missed :
    open? (Client.memory .whole) (World.environment .whole) bracketed.schema bracketed.config
        bracketed.type = .ok bracketed ∧
      bracketed.keyFor (.text "1") = .ok "a[b]:1" ∧
      ∃ r, keyPattern bracketed.pattern = .ok r ∧ r.isMatch "a[b]:1" = false := by
  have missed : ((keyPattern "a[b]:*").toOption.map (·.isMatch "a[b]:1")) = some false := by
    decide +kernel
  have pattern : bracketed.pattern = "a[b]:*" := by decide
  refine ⟨rfl, by decide, ?_⟩
  rw [pattern]
  cases compiled : keyPattern "a[b]:*" with
  | error failure =>
      rw [compiled] at missed
      cases missed
  | ok r =>
      rw [compiled] at missed
      exact ⟨r, rfl, Option.some.inj missed⟩

end Recordkeeper.KeyValue
