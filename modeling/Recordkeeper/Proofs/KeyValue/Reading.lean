import Recordkeeper.KeyValue.Repository
import Recordkeeper.Proofs.Action
import Recordkeeper.Proofs.KeyValue.Scan

/-!
Contract: what a repository reads from a store in memory.

Owns:
- computations that give one answer from every state with one view;
- the records under a list of keys, read in its order and bounded;
- `scan_yields`: a scan reads the matching live keys, each once, whatever the size of its pages,
  or is refused with its pattern;
- the answers of the requests that scan, and what a deletion leaves.

Does not own: which keys the pattern of a repository matches.

Time stands still while a repository works here, so a key that was listed is still live when it is
read.
-/

set_option autoImplicit false

namespace Recordkeeper

variable {σ τ α β : Type}

/-! ### Answers from a view -/

/-- From every state with a view the computation gives an answer and leaves a view. -/
def Yields (view : σ → τ) (t : τ) (f : σ → β × σ) (answer : β) (after : τ) : Prop :=
  ∀ s, view s = t → (f s).1 = answer ∧ view (f s).2 = after

namespace Yields

variable {view : σ → τ} {t u v : τ}

theorem ofExcept (r : Except Error α) : Yields view t (Action.ofExcept r : Action σ α) r t :=
  fun _ same => ⟨rfl, same⟩

theorem pure (a : α) : Yields view t (Pure.pure a : Action σ α) (.ok a) t :=
  fun _ same => ⟨rfl, same⟩

theorem refuse (reason : Refusal) :
    Yields view t (Action.refuse reason : Action σ α) (.error (.refused reason)) t :=
  ofExcept _

theorem run {p : Part σ τ} (lawful : p.Lawful) (request : τ → β × τ) :
    Yields p.view t (p.run request) (request t).1 (request t).2 := by
  rintro s rfl
  exact ⟨rfl, Part.view_run lawful request s⟩

/-- A step that succeeds, and what comes after it. -/
theorem andThen {action : Action σ α} {next : α → Action σ β} {a : α} {answer : Except Error β}
    (first : Yields view t action (.ok a) u) (rest : Yields view u (next a) answer v) :
    Yields view t (action >>= next) answer v := by
  intro s same
  obtain ⟨done, left⟩ := first s same
  rw [Action.run_bind]
  generalize action s = outcome at done left
  obtain ⟨given, after⟩ := outcome
  cases done
  exact rest after left

theorem stop {action : Action σ α} (next : α → Action σ β) {e : Error}
    (first : Yields view t action (.error e) u) :
    Yields view t (action >>= next) (.error e) u := by
  intro s same
  obtain ⟨failed, left⟩ := first s same
  rw [Action.run_bind]
  generalize action s = outcome at failed left
  obtain ⟨given, after⟩ := outcome
  cases failed
  exact ⟨rfl, left⟩

/-- Steps that only read compose as their answers do. -/
theorem bind {action : Action σ α} {next : α → Action σ β} {first : Except Error α}
    {rest : α → Except Error β} (reads : Yields view t action first t)
    (goesOn : ∀ a, Yields view t (next a) (rest a) t) :
    Yields view t (action >>= next) (first >>= rest) t := by
  cases first with
  | error e => exact reads.stop next
  | ok a => exact reads.andThen (goesOn a)

theorem call {env : Environment σ} {ctx : Context} {ε : Type} {native : σ → Except ε α × σ}
    {answer : Except ε α} (alive : ∀ s, view s = t →
      ctx.check (env.observe s).1 = .ok () ∧ view (env.observe s).2 = t)
    (yields : Yields view t native answer u) (wrap : ε → Error) :
    Yields view t (Action.call env ctx wrap native) (answer.mapError wrap) u := by
  intro s same
  obtain ⟨live, kept⟩ := alive s same
  obtain ⟨done, left⟩ := yields _ kept
  rw [Action.run_call, live]
  exact ⟨congrArg (Except.mapError wrap) done, left⟩

end Yields

/-- A context that lives goes on living with a default timeout, if that is not zero. -/
theorem Context.check_effective {ctx : Context} {s : Surroundings} {timeout : Option Micros}
    (alive : ctx.check s = .ok ()) (positive : timeout ≠ some 0) :
    (ctx.effective s timeout).check s = .ok () := by
  unfold effective
  split
  next span noDeadline =>
    unfold check at alive ⊢
    split at alive
    next => cases alive
    next quiet =>
      have nonzero : span ≠ 0 := fun zero => positive (congrArg some zero)
      have later : s.now < s.now + (span : Int) :=
        Int.lt_add_of_pos_right s.now (Int.natCast_pos.2 (Nat.pos_of_ne_zero nonzero))
      refine (if_neg quiet).trans (if_neg ?_)
      rw [withDeadline, noDeadline]
      exact fun passed => Int.not_le.2 later (of_decide_eq_true passed)
  next => exact alive

namespace KeyValue

variable {E : Type}

/-! ### Keys -/

namespace Store

theorem keysBetween_append (r : Regex) (now : Instant) (s : Store) {first middle last : Nat}
    (before : first ≤ middle) (after : middle ≤ last) :
    s.keysBetween r now first middle ++ s.keysBetween r now middle last
      = s.keysBetween r now first last := by
  unfold keysBetween
  rw [← List.flatMap_append]
  obtain ⟨front, rfl⟩ := Nat.exists_eq_add_of_le before
  obtain ⟨back, rfl⟩ := Nat.exists_eq_add_of_le after
  rw [Nat.add_sub_cancel_left, Nat.add_sub_cancel_left,
    show first + front + back - first = front + back by omega, List.range'_append_1]

/-- The live keys that match, in the order of a scan. -/
def matchedKeys (s : Store) (r : Regex) (now : Instant) : List String :=
  s.keysBetween r now 0 stripeCount

theorem Placed.mem_matchedKeys {s : Store} (placed : s.Placed) {r : Regex} {now : Instant}
    {key : String} : key ∈ s.matchedKeys r now ↔ r.isMatch key ∧ (s.live? key now).isSome := by
  rw [Store.matchedKeys, placed.mem_keysBetween]
  exact and_iff_right ⟨Nat.zero_le _, stripeOf_lt key⟩

theorem Placed.nodup_matchedKeys {s : Store} (placed : s.Placed) (r : Regex) (now : Instant) :
    (s.matchedKeys r now).Nodup :=
  placed.nodup_keysBetween r now 0 stripeCount

def removeAll (s : Store) (keys : List String) : Store := keys.foldl remove s

theorem entry?_removeAll (keys : List String) :
    ∀ (s : Store) (key : String),
      entry? (s.removeAll keys) key = if key ∈ keys then none else s.entry? key := by
  induction keys with
  | nil => exact fun s key => (if_neg List.not_mem_nil).symm
  | cons first rest inductionHypothesis =>
      intro s key
      show entry? ((s.remove first).removeAll rest) key = _
      rw [inductionHypothesis, entry?_remove]
      by_cases own : key = first
      · rw [if_pos own, ite_self, own, if_pos List.mem_cons_self]
      · rw [if_neg own]
        simp only [List.mem_cons, own, false_or]

end Store

namespace Records

/-! ### Records under keys -/

/-- The records under keys, when some keys were counted before.  Keys without a live entry are
passed over. -/
def readAll (k : Records σ E) (w : World Store) :
    Nat → List String → Except Error (List (String × Record))
  | _, [] => .ok []
  | counted, key :: rest =>
    if k.config.maxScanKeys < counted + 1 then
      refuse (.scanBound k.schema.name k.config.maxScanKeys)
    else
      match w.store.live? key w.now with
      | none => k.readAll w (counted + 1) rest
      | some e => do
        let r ← k.decode key e.value
        (k.readAll w (counted + 1) rest).map ((key, r) :: ·)

theorem readAll_append (k : Records σ E) (w : World Store) (front back : List String) :
    ∀ counted, k.readAll w counted (front ++ back) = (do
      let found ← k.readAll w counted front
      (k.readAll w (counted + front.length) back).map (found ++ ·)) := by
  induction front with
  | nil =>
      intro counted
      show _ = (k.readAll w counted back).map ([] ++ ·)
      rw [List.nil_append]
      cases k.readAll w counted back <;> rfl
  | cons key front inductionHypothesis =>
      intro counted
      have counts : counted + (key :: front).length = counted + 1 + front.length := by
        rw [List.length_cons]
        omega
      rw [counts, List.cons_append, readAll, readAll]
      split
      next => rfl
      next =>
        cases w.store.live? key w.now with
        | none => exact inductionHypothesis (counted + 1)
        | some e =>
            dsimp only
            rw [inductionHypothesis]
            cases k.decode key e.value with
            | error problem => rfl
            | ok r =>
                cases k.readAll w (counted + 1) front with
                | error problem => rfl
                | ok found =>
                    show ((k.readAll w _ back).map _).map _ = (k.readAll w _ back).map _
                    cases k.readAll w (counted + 1 + front.length) back <;> rfl

/-- A list of keys is read as records without their keys falling out of step. -/
def ReadAs (k : Records σ E) (w : World Store) (keys : List String)
    (found : List (String × Record)) : Prop :=
  List.Forall₂ (fun key entry => entry.1 = key ∧
    ∃ e, w.store.live? key w.now = some e ∧ k.decode key e.value = .ok entry.2) keys found

/-- Some value under the keys is no record. -/
def Unreadable (k : Records σ E) (w : World Store) (keys : List String) : Prop :=
  ∃ key ∈ keys, ∃ e problem, w.store.live? key w.now = some e ∧
    k.decode key e.value = .error problem

/-- Live keys that are read are read one and all. -/
theorem readAll_readAs {k : Records σ E} {w : World Store} {keys : List String} {counted : Nat}
    {found : List (String × Record)} (live : ∀ key ∈ keys, (w.store.live? key w.now).isSome)
    (read : k.readAll w counted keys = .ok found) : k.ReadAs w keys found := by
  induction keys generalizing counted found with
  | nil =>
      cases read
      exact .nil
  | cons key rest inductionHypothesis =>
      rw [readAll] at read
      split at read
      next => cases read
      next =>
        obtain ⟨e, held⟩ := Option.isSome_iff_exists.1 (live key List.mem_cons_self)
        rw [held] at read
        obtain ⟨r, decoded, read⟩ := exists_of_bind read
        cases others : k.readAll w (counted + 1) rest with
        | error problem =>
            rw [others] at read
            cases read
        | ok found =>
            rw [others] at read
            cases read
            exact .cons ⟨rfl, e, held, decoded⟩ (inductionHypothesis
              (fun other member => live other (List.mem_cons_of_mem _ member)) others)

/-- Reading live keys fails where there are too many, or where one of them holds no record. -/
theorem readAll_failed {k : Records σ E} {w : World Store} {keys : List String} {counted : Nat}
    {problem : Error} (live : ∀ key ∈ keys, (w.store.live? key w.now).isSome)
    (failed : k.readAll w counted keys = .error problem) :
    k.config.maxScanKeys < counted + keys.length ∨ k.Unreadable w keys := by
  induction keys generalizing counted with
  | nil => cases failed
  | cons key rest inductionHypothesis =>
      rw [readAll] at failed
      rw [List.length_cons]
      split at failed
      next => exact .inl (by omega)
      next =>
        obtain ⟨e, held⟩ := Option.isSome_iff_exists.1 (live key List.mem_cons_self)
        rw [held] at failed
        cases decoded : k.decode key e.value with
        | error refused => exact .inr ⟨key, List.mem_cons_self, e, refused, held, decoded⟩
        | ok r =>
            have later : k.readAll w (counted + 1) rest = .error problem := by
              dsimp only at failed
              rw [decoded] at failed
              cases others : k.readAll w (counted + 1) rest with
              | error refused =>
                  rw [others] at failed
                  cases failed
                  rfl
              | ok found =>
                  rw [others] at failed
                  cases failed
            obtain full | ⟨other, member, bad⟩ := inductionHypothesis
              (fun other member => live other (List.mem_cons_of_mem _ member)) later
            · exact .inl (by omega)
            · exact .inr ⟨other, List.mem_cons_of_mem _ member, bad⟩

namespace ReadAs

variable {k : Records σ E} {w : World Store} {keys : List String}
  {found : List (String × Record)}

theorem keys_eq (readAs : k.ReadAs w keys found) : found.map (·.1) = keys := by
  induction readAs with
  | nil => rfl
  | cons step _ inductionHypothesis => rw [List.map_cons, step.1, inductionHypothesis]

theorem exists_of_mem (readAs : k.ReadAs w keys found) {key : String} (member : key ∈ keys) :
    ∃ e r, w.store.live? key w.now = some e ∧ k.decode key e.value = .ok r ∧ (key, r) ∈ found := by
  induction readAs with
  | nil => cases member
  | @cons _ entry _ _ step _ inductionHypothesis =>
      obtain ⟨same, e, held, read⟩ := step
      rcases List.mem_cons.1 member with rfl | later
      · obtain ⟨name, r⟩ := entry
        obtain rfl : name = key := same
        exact ⟨e, r, held, read, List.mem_cons_self⟩
      · obtain ⟨e, r, held, read, inRest⟩ := inductionHypothesis later
        exact ⟨e, r, held, read, List.mem_cons_of_mem _ inRest⟩

theorem exists_of_entry (readAs : k.ReadAs w keys found) {entry : String × Record}
    (member : entry ∈ found) :
    entry.1 ∈ keys ∧
      ∃ e, w.store.live? entry.1 w.now = some e ∧ k.decode entry.1 e.value = .ok entry.2 := by
  induction readAs with
  | nil => cases member
  | cons step _ inductionHypothesis =>
      rcases List.mem_cons.1 member with rfl | later
      · obtain ⟨same, e, held, read⟩ := step
        subst same
        exact ⟨List.mem_cons_self, e, held, read⟩
      · obtain ⟨listed, own⟩ := inductionHypothesis later
        exact ⟨List.mem_cons_of_mem _ listed, own⟩

end ReadAs

/-- What a scan reads. -/
def readable (k : Records σ E) (w : World Store) : Except Error (List (String × Record)) := do
  let r ← (keyPattern k.pattern).mapError Error.keyValue
  k.readAll w 0 (w.store.matchedKeys r w.now)

theorem exists_pattern {k : Records σ E} {w : World Store} {found : List (String × Record)}
    (read : k.readable w = .ok found) :
    ∃ r, keyPattern k.pattern = .ok r ∧
      k.readAll w 0 (w.store.matchedKeys r w.now) = .ok found := by
  obtain ⟨r, compiled, read⟩ := exists_of_bind read
  cases accepted : keyPattern k.pattern with
  | error failure =>
      rw [accepted] at compiled
      cases compiled
  | ok regex =>
      rw [accepted] at compiled
      cases compiled
      exact ⟨r, rfl, read⟩

/-- The records a plan selects, with their keys. -/
def chosen (plan : Plan) (found : List (String × Record)) : List (String × Record) :=
  found.filter fun entry => plan.selects entry.2

theorem chosen_cons (plan : Plan) (key : String) (r : Record) (rest : List (String × Record)) :
    chosen plan ((key, r) :: rest)
      = if plan.selects r then (key, r) :: chosen plan rest else chosen plan rest :=
  List.filter_cons

/-! ### Scans of a store in memory -/

/-- A repository on a store in memory, with the clock and the ids around the store. -/
structure InMemory (k : Records σ E) (p : Part σ (World Store)) : Prop where
  client : k.client = Client.memory p
  env : k.env = World.environment p
  lawful : p.Lawful

section Memory

variable {k : Records σ E} {p : Part σ (World Store)} {w v : World Store} {ctx : Context}
  (memory : k.InMemory p)

include memory

theorem effective_yields (ctx : Context) :
    Yields p.view w (liftM (k.effective ctx) : Action σ Context)
      (.ok (ctx.effective w.surroundings k.config.defaultTimeout)) w := by
  rintro s rfl
  unfold effective
  rw [memory.env]
  exact ⟨rfl, rfl⟩

theorem call_yields (alive : ctx.check w.surroundings = .ok ()) {native : σ → Outcome α × σ}
    {answer : Outcome α} (yields : Yields p.view w native answer v) :
    Yields p.view w (k.call ctx native) (answer.mapError Error.keyValue) v := by
  refine Yields.call ?_ yields Error.keyValue
  rintro s rfl
  rw [memory.env]
  exact ⟨alive, rfl⟩

theorem call_ended {e : Error} (ended : ctx.check w.surroundings = .error e)
    (native : σ → Outcome α × σ) : Yields p.view w (k.call ctx native) (.error e) w := by
  rintro s rfl
  unfold call
  rw [Action.run_call, memory.env]
  have stopped : ctx.check ((World.environment p).observe s).1 = .error e := ended
  rw [stopped]
  exact ⟨rfl, rfl⟩

theorem get_yields (alive : ctx.check w.surroundings = .ok ()) (key : String) :
    Yields p.view w (k.call ctx (k.client.get key))
      (.ok ((w.store.live? key w.now).map (·.value))) w := by
  have native : Yields p.view w (k.client.get key) (w.store.get key w.now) w := by
    rw [memory.client]
    exact .run memory.lawful _
  exact call_yields memory alive native

theorem delete_yields (alive : ctx.check w.surroundings = .ok ()) (key : String) :
    Yields p.view w (k.call ctx (k.client.delete key))
      (.ok (w.store.live? key w.now).isSome) { w with store := w.store.remove key } := by
  have native : Yields p.view w (k.client.delete key) (w.store.delete key w.now).1
      { w with store := w.store.remove key } := by
    rw [memory.client]
    exact .run memory.lawful _
  exact call_yields memory alive native

theorem page_yields (alive : ctx.check w.surroundings = .ok ()) (cursor : Nat) (pattern : String)
    (count : Nat) :
    Yields p.view w (k.call ctx (k.client.scan cursor pattern count))
      ((w.store.scan cursor pattern count w.now).mapError Error.keyValue) w := by
  refine call_yields memory alive ?_
  rw [memory.client]
  exact .run memory.lawful _

/-- New keys of one page are read in their order, and are seen from then on. -/
theorem visit_yields (alive : ctx.check w.surroundings = .ok ()) :
    ∀ (keys seen : List String), keys.Nodup → (∀ key ∈ keys, key ∉ seen) →
      Yields p.view w (k.visit ctx keys seen)
        ((k.readAll w seen.length keys).map fun found => (found, keys.reverse ++ seen)) w := by
  intro keys
  induction keys with
  | nil => exact fun seen _ _ => .pure _
  | cons key rest inductionHypothesis =>
      intro seen once unseen
      obtain ⟨fresh, once⟩ := List.nodup_cons.1 once
      have later : ∀ other ∈ rest, other ∉ key :: seen := by
        intro other member again
        rcases List.mem_cons.1 again with rfl | before
        · exact fresh member
        · exact unseen other (List.mem_cons_of_mem _ member) before
      have goesOn := inductionHypothesis (key :: seen) once later
      have unread : seen.contains key = false :=
        Bool.eq_false_iff.2 fun contained =>
          unseen key List.mem_cons_self (List.contains_iff_mem.1 contained)
      rw [visit, unread, readAll, if_neg Bool.false_ne_true]
      dsimp only [List.length_cons]
      split
      next => exact (Yields.refuse _).stop _
      next =>
        rw [List.reverse_cons, List.append_assoc, List.singleton_append]
        refine (get_yields memory alive key).andThen ?_
        cases w.store.live? key w.now with
        | none => exact goesOn
        | some e =>
            show Yields _ _ (Action.ofExcept (k.decode key e.value) >>= _) _ _
            dsimp only
            cases k.decode key e.value with
            | error problem => exact (Yields.ofExcept _).stop _
            | ok r =>
                refine (Yields.ofExcept _).andThen ?_
                rw [List.length_cons] at goesOn
                show Yields _ _ _ (((k.readAll w _ rest).map _).map _) _
                cases all : k.readAll w (seen.length + 1) rest with
                | error problem =>
                    rw [all] at goesOn
                    exact goesOn.stop _
                | ok found =>
                    rw [all] at goesOn
                    exact goesOn.andThen (.pure _)

/-- What is left of a scan at a cursor: the keys seen so far are in the stripes before it. -/
theorem scanFrom_yields (alive : ctx.check w.surroundings = .ok ()) {r : Regex}
    (accepted : keyPattern k.pattern = .ok r) (placed : w.store.Placed) :
    ∀ (pages cursor : Nat) (seen : List String), cursor < stripeCount →
      stripeCount ≤ cursor + pages → (∀ key ∈ seen, stripeOf key < cursor) →
      Yields p.view w (k.scanFrom ctx pages cursor seen)
        (k.readAll w seen.length (w.store.keysBetween r w.now cursor stripeCount)) w := by
  intro pages
  induction pages with
  | zero =>
      intro cursor _ inside enough
      omega
  | succ pages inductionHypothesis =>
      intro cursor seen inside enough before
      obtain ⟨last, ⟨after, within, -, -⟩, page⟩ :=
        Store.scan_page accepted inside k.config.scanBatchSize w.now w.store
      have once := placed.nodup_keysBetween r w.now cursor last
      have unseen : ∀ key ∈ w.store.keysBetween r w.now cursor last, key ∉ seen := by
        intro key member again
        have above := (placed.mem_keysBetween.1 member).1.1
        have below := before key again
        omega
      have listed := page_yields memory alive cursor k.pattern k.config.scanBatchSize
      rw [page] at listed
      have visited := visit_yields memory alive _ seen once unseen
      rw [scanFrom, ← Store.keysBetween_append r w.now w.store (Nat.le_of_lt after) within,
        readAll_append]
      refine listed.andThen ?_
      dsimp only
      cases all : k.readAll w seen.length (w.store.keysBetween r w.now cursor last) with
      | error problem =>
          rw [all] at visited
          exact visited.stop _
      | ok found =>
          rw [all] at visited
          refine visited.andThen ?_
          dsimp only
          by_cases whole : last = stripeCount
          · rw [if_pos whole, if_pos rfl, whole, Store.keysBetween_self]
            show Yields _ _ _ (Except.ok (found ++ [])) _
            rw [List.append_nil]
            exact .pure found
          · have below : ∀ key ∈ (w.store.keysBetween r w.now cursor last).reverse ++ seen,
                stripeOf key < last := by
              intro key member
              rcases List.mem_append.1 member with own | earlier
              · exact (placed.mem_keysBetween.1 (List.mem_reverse.1 own)).1.2
              · have first := before key earlier
                omega
            have goesOn := inductionHypothesis last _ (by omega) (by omega) below
            rw [List.length_append, List.length_reverse, Nat.add_comm] at goesOn
            rw [if_neg whole, if_neg (by omega)]
            exact goesOn.bind fun rest => .pure (found ++ rest)

theorem pages_memory : k.client.pages = stripeCount := by
  rw [memory.client]
  rfl

/-- A scan reads the live keys that match, each once, in an order that no size of pages changes. -/
theorem scan_yields (alive : ctx.check w.surroundings = .ok ()) {r : Regex}
    (accepted : keyPattern k.pattern = .ok r) (placed : w.store.Placed) :
    Yields p.view w (k.scan ctx) (k.readAll w 0 (w.store.matchedKeys r w.now)) w := by
  rw [scan, pages_memory memory]
  exact scanFrom_yields memory alive accepted placed stripeCount 0 [] (by decide)
    (Nat.le_add_left _ _) nofun

theorem scan_refused (alive : ctx.check w.surroundings = .ok ()) {failure : KeyValueFailure}
    (refused : keyPattern k.pattern = .error failure) :
    Yields p.view w (k.scan ctx) (.error (.keyValue failure)) w := by
  have listed := page_yields memory alive 0 k.pattern k.config.scanBatchSize
  have page : w.store.scan 0 k.pattern k.config.scanBatchSize w.now = .error failure := by
    rw [Store.scan, refused]
    rfl
  rw [page] at listed
  rw [scan, pages_memory memory]
  exact listed.stop _

theorem scan_readable (alive : ctx.check w.surroundings = .ok ()) (placed : w.store.Placed) :
    Yields p.view w (k.scan ctx) (k.readable w) w := by
  unfold readable
  cases compiled : keyPattern k.pattern with
  | error failure => exact scan_refused memory alive compiled
  | ok r => exact scan_yields memory alive compiled placed

theorem scan_ended {e : Error} (ended : ctx.check w.surroundings = .error e) :
    Yields p.view w (k.scan ctx) (.error e) w := by
  rw [scan, pages_memory memory]
  exact (call_ended memory ended _).stop _

/-- A query works on what a scan reads. -/
theorem query_readable
    (alive : (ctx.effective w.surroundings k.config.defaultTimeout).check w.surroundings = .ok ())
    (placed : w.store.Placed) (q : Query) :
    Yields p.view w (k.query ctx q) (do
      let plan ← Plan.compile q
      let found ← k.readable w
      return plan.execute (found.map (·.2))) w := by
  unfold query all
  refine (Yields.ofExcept _).bind fun plan => (effective_yields memory ctx).andThen ?_
  rw [bind_assoc]
  exact (scan_readable memory alive placed).bind fun found => .pure _

theorem query_ended {e : Error}
    (ended : (ctx.effective w.surroundings k.config.defaultTimeout).check w.surroundings
      = .error e) (q : Query) :
    Yields p.view w (k.query ctx q) (Plan.compile q >>= fun _ => .error e) w := by
  unfold query all
  refine (Yields.ofExcept _).bind fun plan => (effective_yields memory ctx).andThen ?_
  rw [bind_assoc]
  exact (scan_ended memory ended).stop _

/-- Deletion of the selected ones among records that are there. -/
theorem deleteSelected_yields (plan : Plan) :
    ∀ (found : List (String × Record)) (w : World Store), ctx.check w.surroundings = .ok () →
      (found.map (·.1)).Nodup → (∀ entry ∈ found, (w.store.live? entry.1 w.now).isSome) →
      Yields p.view w (k.deleteSelected ctx plan found)
        (.ok (chosen plan found).length)
        { w with store := w.store.removeAll ((chosen plan found).map (·.1)) } := by
  intro found
  induction found with
  | nil => exact fun w _ _ _ => .pure _
  | cons entry rest inductionHypothesis =>
      intro w alive once live
      obtain ⟨key, record⟩ := entry
      obtain ⟨fresh, once⟩ := List.nodup_cons.1 once
      have liveRest : ∀ other ∈ rest, (w.store.live? other.1 w.now).isSome :=
        fun other member => live other (List.mem_cons_of_mem _ member)
      rw [deleteSelected]
      by_cases selected : plan.selects record
      · have kept : ∀ other ∈ rest,
            ((w.store.remove key).live? other.1 w.now).isSome := by
          intro other member
          have apart : other.1 ≠ key := fun same =>
            fresh (List.mem_map.2 ⟨other, member, same⟩)
          rw [Store.live?, Store.entry?_remove, if_neg apart]
          exact liveRest other member
        have removed := delete_yields memory alive key
        rw [live (key, record) List.mem_cons_self] at removed
        rw [if_pos selected, chosen_cons, if_pos selected]
        have others := inductionHypothesis { w with store := w.store.remove key } alive once kept
        exact removed.andThen (others.andThen (.pure _))
      · rw [if_neg selected, chosen_cons, if_neg selected]
        exact inductionHypothesis w alive once liveRest

/-! ### Requests that scan -/

section Requests

variable {r : Regex} (alive : ctx.check w.surroundings = .ok ())
  (lasting : k.config.defaultTimeout ≠ some 0) (accepted : keyPattern k.pattern = .ok r)
  (placed : w.store.Placed)

include alive lasting accepted placed

theorem all_yields :
    Yields p.view w (k.all (ctx.effective w.surroundings k.config.defaultTimeout)) (do
      let found ← k.readAll w 0 (w.store.matchedKeys r w.now)
      return found.map (·.2)) w :=
  (scan_yields memory (Context.check_effective alive lasting) accepted placed).bind
    fun _ => .pure _

theorem query_yields (q : Query) :
    Yields p.view w (k.query ctx q) (do
      let plan ← Plan.compile q
      let found ← k.readAll w 0 (w.store.matchedKeys r w.now)
      return plan.execute (found.map (·.2))) w := by
  unfold query
  refine (Yields.ofExcept _).bind fun plan => (effective_yields memory ctx).andThen ?_
  have answered := (all_yields memory alive lasting accepted placed).bind fun records =>
    .pure (plan.execute records)
  rwa [bind_assoc] at answered

theorem count_yields (q : Query) :
    Yields p.view w (k.count ctx q) (do
      let plan ← Plan.compile q.unpaged
      let found ← k.readAll w 0 (w.store.matchedKeys r w.now)
      return (plan.execute (found.map (·.2))).length) w := by
  unfold count
  refine (Yields.ofExcept _).bind fun plan => (effective_yields memory ctx).andThen ?_
  have answered := (all_yields memory alive lasting accepted placed).bind fun records =>
    .pure (plan.execute records).length
  rwa [bind_assoc] at answered

theorem existsAny_yields (q : Query) :
    Yields p.view w (k.existsAny ctx q) (do
      let plan ← Plan.compile q.firstOnly
      let found ← k.readAll w 0 (w.store.matchedKeys r w.now)
      return !(plan.execute (found.map (·.2))).isEmpty) w := by
  unfold existsAny
  have answered := (query_yields memory alive lasting accepted placed q.firstOnly).bind
    fun records => .pure !records.isEmpty
  simp only [bind_assoc] at answered
  exact answered

/-- A deletion answers how many of the records it selects, and removes their keys. -/
theorem deleteByCondition_yields {q : Query} {plan : Plan} {found : List (String × Record)}
    (conditionsOnly : q.checkDelete = .ok ()) (compiled : Plan.compile q = .ok plan)
    (read : k.readAll w 0 (w.store.matchedKeys r w.now) = .ok found) :
    Yields p.view w (k.deleteByCondition ctx q)
      (.ok (chosen plan found).length)
      { w with store := w.store.removeAll ((chosen plan found).map (·.1)) } := by
  have live : ∀ key ∈ w.store.matchedKeys r w.now, (w.store.live? key w.now).isSome :=
    fun key member => (placed.mem_matchedKeys.1 member).2
  have readAs := readAll_readAs live read
  have scanned := scan_yields memory (Context.check_effective alive lasting) accepted placed
  rw [read] at scanned
  have once : (found.map (·.1)).Nodup := by
    rw [readAs.keys_eq]
    exact placed.nodup_matchedKeys r w.now
  have present : ∀ entry ∈ found, (w.store.live? entry.1 w.now).isSome := by
    intro entry member
    have listed : entry.1 ∈ found.map (·.1) := List.mem_map.2 ⟨entry, member, rfl⟩
    rw [readAs.keys_eq] at listed
    exact live entry.1 listed
  unfold deleteByCondition
  rw [conditionsOnly, compiled]
  refine (Yields.ofExcept _).andThen ((Yields.ofExcept _).andThen ?_)
  refine (effective_yields memory ctx).andThen (scanned.andThen ?_)
  exact deleteSelected_yields memory plan found w (Context.check_effective alive lasting) once
    present

end Requests

end Memory

end Records

end KeyValue

end Recordkeeper
