import Mathlib.Data.List.Nodup
import Recordkeeper.Proofs.KeyValue.Requests

/-!
Contract: a scan that follows its cursors misses nothing and repeats nothing.

Owns:
- the keys between two positions of a store, and the position at which a page ends;
- a scan followed page by page, amid any calls of others between the pages;
- that the scan ends, that it reports no key twice, and that it reports every matching key that
  stays live.

Does not own: which keys a pattern matches.

A page holds whole stripes and a key never leaves its stripe.  So the stripes read so far divide
the keys into those that were reported if they were there, and those that can still be reported.
-/

set_option autoImplicit false

namespace Recordkeeper.KeyValue

/-! ### Keys between two positions -/

namespace Store

/-- The matching live keys of the stripes from a position on and before another. -/
def keysBetween (r : Regex) (now : Instant) (s : Store) (first last : Nat) : List String :=
  (List.range' first (last - first)).flatMap fun i => matching r now (s.stripeAt i)

variable {r : Regex} {now : Instant} {s : Store}

theorem mem_matching {stripe : Stripe} {key : String} :
    key ∈ matching r now stripe ↔
      r.isMatch key ∧ ((stripe.get? key).filter fun e => e.live now).isSome := by
  unfold matching
  rw [List.mem_map]
  constructor
  · rintro ⟨⟨name, e⟩, member, rfl⟩
    obtain ⟨held, passed⟩ := List.mem_filter.1 member
    obtain ⟨live, matched⟩ := Bool.and_eq_true_iff.1 passed
    rw [NameMap.get?_eq_some_iff.2 held, Option.filter_some, if_pos live]
    exact ⟨matched, rfl⟩
  · rintro ⟨matched, present⟩
    obtain ⟨e, found⟩ := Option.isSome_iff_exists.1 present
    obtain ⟨held, live⟩ := Option.filter_eq_some_iff.1 found
    exact ⟨(key, e), List.mem_filter.2
      ⟨NameMap.get?_eq_some_iff.1 held, Bool.and_eq_true_iff.2 ⟨live, matched⟩⟩, rfl⟩

theorem nodup_matching (r : Regex) (now : Instant) (stripe : Stripe) :
    (matching r now stripe).Nodup :=
  stripe.nodup_names.sublist (List.filter_sublist.map _)

/-- The keys between two positions are the matching live keys whose own stripe is between them. -/
theorem Placed.mem_keysBetween (placed : s.Placed) {first last : Nat} {key : String} :
    key ∈ s.keysBetween r now first last ↔
      (first ≤ stripeOf key ∧ stripeOf key < last) ∧ r.isMatch key ∧
        (s.live? key now).isSome := by
  unfold keysBetween live?
  rw [List.mem_flatMap]
  constructor
  · rintro ⟨i, member, reported⟩
    obtain ⟨matched, present⟩ := mem_matching.1 reported
    rw [placed.get?_stripeAt] at present
    split at present
    next own =>
      rw [own]
      rw [List.mem_range'_1] at member
      exact ⟨by omega, matched, present⟩
    next => cases present
  · rintro ⟨⟨above, below⟩, matched, present⟩
    refine ⟨stripeOf key, List.mem_range'_1.2 (by omega), mem_matching.2 ⟨matched, ?_⟩⟩
    rw [placed.get?_stripeAt, if_pos rfl]
    exact present

theorem Placed.nodup_keysBetween (placed : s.Placed) (r : Regex) (now : Instant)
    (first last : Nat) : (s.keysBetween r now first last).Nodup := by
  have own {i : Nat} {key : String} (member : key ∈ matching r now (s.stripeAt i)) :
      stripeOf key = i := by
    obtain ⟨e, found⟩ := Option.isSome_iff_exists.1 (mem_matching.1 member).2
    exact placed i key e (Option.filter_eq_some_iff.1 found).1
  unfold keysBetween
  refine List.nodup_flatMap.2 ⟨fun i _ => nodup_matching r now _, ?_⟩
  refine (List.pairwise_lt_range' 1).imp fun {i j} less key inFirst inSecond => ?_
  exact Nat.ne_of_lt less ((own inFirst).symm.trans (own inSecond))

/-! ### One page -/

theorem keysBetween_self (r : Regex) (now : Instant) (s : Store) (position : Nat) :
    s.keysBetween r now position position = [] := by
  rw [keysBetween, Nat.sub_self]
  rfl

theorem keysBetween_cons (r : Regex) (now : Instant) (s : Store) {first last : Nat}
    (before : first < last) :
    s.keysBetween r now first last
      = matching r now (s.stripeAt first) ++ s.keysBetween r now (first + 1) last := by
  obtain ⟨more, rfl⟩ := Nat.exists_eq_add_of_lt before
  rw [keysBetween, keysBetween, show first + more + 1 - first = more + 1 by omega,
    show first + more + 1 - (first + 1) = more by omega, List.range'_succ, List.flatMap_cons]

theorem drop_stripes (s : Store) {position : Nat} (inside : position < stripeCount) :
    s.stripes.toList.drop position
      = s.stripeAt position :: s.stripes.toList.drop (position + 1) := by
  rw [toList_stripes, List.drop_eq_getElem_cons (by simpa using inside), List.getElem_map,
    List.getElem_range]

end Store

/-- Where a page ends: after the first stripe with which enough keys are found, or after the last
of all stripes. -/
structure IsPageEnd (found : Nat → Nat) (count cursor last : Nat) : Prop where
  after : cursor < last
  within : last ≤ stripeCount
  filled : last = stripeCount ∨ count ≤ found last
  first : ∀ earlier, cursor < earlier → earlier < last → found earlier < count

namespace Store

/-- Reading goes on until enough keys are found, and collects the keys on the way. -/
theorem scanStripes_eq (r : Regex) (now : Instant) (count : Nat) (s : Store) :
    ∀ (left position : Nat) (found : List String), position + left = stripeCount →
      ∃ last, position ≤ last ∧ last ≤ stripeCount ∧
        scanStripes r now count position (s.stripes.toList.drop position) found
          = (last, found ++ s.keysBetween r now position last) ∧
        (last = stripeCount ∨
          count ≤ (found ++ s.keysBetween r now position last).length) ∧
        ∀ earlier, position ≤ earlier → earlier < last →
          (found ++ s.keysBetween r now position earlier).length < count := by
  intro left
  induction left with
  | zero =>
      intro position found whole
      refine ⟨position, Nat.le_refl _, by omega, ?_, .inl (by omega), by omega⟩
      have finished : s.stripes.toList.drop position = [] :=
        List.drop_eq_nil_of_le (by simpa using Nat.le_of_eq whole.symm)
      rw [finished, keysBetween_self, List.append_nil]
      rfl
  | succ left inductionHypothesis =>
      intro position found whole
      rw [drop_stripes s (by omega), scanStripes]
      split
      next enough =>
        refine ⟨position, Nat.le_refl _, by omega, ?_, .inr ?_, by omega⟩
        · rw [keysBetween_self, List.append_nil]
        · rwa [keysBetween_self, List.append_nil]
      next short =>
        obtain ⟨last, after, within, same, filled, first⟩ :=
          inductionHypothesis (position + 1) (found ++ matching r now (s.stripeAt position))
            (by omega)
        have joined {stop : Nat} (behind : position < stop) :
            found ++ matching r now (s.stripeAt position) ++ s.keysBetween r now (position + 1) stop
              = found ++ s.keysBetween r now position stop := by
          rw [keysBetween_cons r now s behind, List.append_assoc]
        rw [joined (by omega)] at same filled
        refine ⟨last, by omega, within, same, filled, fun earlier reached before => ?_⟩
        rcases Nat.eq_or_lt_of_le reached with rfl | later
        · rw [keysBetween_self, List.append_nil]
          exact Nat.lt_of_not_le short
        · rw [← joined later]
          exact first earlier later before

/-- A page holds the keys from its cursor to its end, and names the end as the next cursor. -/
theorem scan_page {pattern : String} {r : Regex} (accepted : keyPattern pattern = .ok r)
    {cursor : Nat} (inside : cursor < stripeCount) (count : Nat) (now : Instant) (s : Store) :
    ∃ last, IsPageEnd (fun stop => (s.keysBetween r now cursor stop).length) (max count 1) cursor
        last ∧
      s.scan cursor pattern count now
        = .ok (if last = stripeCount then 0 else last, s.keysBetween r now cursor last) := by
  obtain ⟨last, after, within, same, filled, first⟩ :=
    scanStripes_eq r now (max count 1) s (stripeCount - cursor) cursor [] (by omega)
  simp only [List.nil_append] at same filled first
  have moved : cursor ≠ last := by
    rintro rfl
    rcases filled with finished | enough
    · omega
    · rw [keysBetween_self, List.length_nil] at enough
      omega
  refine ⟨last, ⟨by omega, within, filled, fun e reached => first e (by omega)⟩, ?_⟩
  have ends : (stripeCount ≤ last) = (last = stripeCount) := by
    rw [eq_iff_iff]
    omega
  rw [scan, if_neg (by omega), accepted]
  show Except.ok _ = _
  simp only [same, ends]

end Store

/-! ### Following the cursors -/

/-- What happens before a page is read, and when it is read. -/
structure Turn where
  before : List Call
  moment : Instant

/-- A page with the store it was read from. -/
structure Page where
  store : Store
  moment : Instant
  next : Nat
  keys : List String

def Page.sees (page : Page) (key : String) : Prop := (page.store.live? key page.moment).isSome

/-- Follows a scan from a cursor on until the cursor zero, for a number of pages at most. -/
def follow (pattern : String) (count : Nat) :
    Nat → (Nat → Turn) → Nat → Store → Outcome (List Page)
  | 0, _, _, _ => .ok []
  | limit + 1, turns, cursor, s => do
    let s := (run (turns 0).before s).2
    let (next, keys) ← s.scan cursor pattern count (turns 0).moment
    let page : Page := ⟨s, (turns 0).moment, next, keys⟩
    if next = 0 then return [page]
    else
      let pages ← follow pattern count limit (fun i => turns (i + 1)) next s
      return page :: pages

theorem follow_page {pattern : String} {count limit cursor next : Nat} {turns : Nat → Turn}
    {s : Store} {keys : List String}
    (page : (run (turns 0).before s).2.scan cursor pattern count (turns 0).moment
      = .ok (next, keys)) :
    follow pattern count (limit + 1) turns cursor s
      = (if next = 0 then .ok []
        else follow pattern count limit (fun i => turns (i + 1)) next
          (run (turns 0).before s).2).map
          (⟨(run (turns 0).before s).2, (turns 0).moment, next, keys⟩ :: ·) := by
  rw [follow]
  dsimp only
  rw [page]
  show (if next = 0 then _ else _) = _
  split
  next => rfl
  next => rfl

def reported (pages : List Page) : List String := pages.flatMap (·.keys)

/-- What is true of the pages read from a cursor on. -/
structure Visits (r : Regex) (cursor : Nat) (pages : List Page) : Prop where
  ended : (pages.getLast?.map (·.next)) = some 0
  short : pages.length ≤ stripeCount - cursor
  ahead : ∀ key ∈ reported pages, cursor ≤ stripeOf key
  once : (reported pages).Nodup
  sound : ∀ page ∈ pages, ∀ key ∈ page.keys, r.isMatch key ∧ page.sees key
  complete : ∀ key, r.isMatch key → cursor ≤ stripeOf key →
    (∀ page ∈ pages, page.sees key) → key ∈ reported pages

section Pages

variable {r : Regex} {s : Store} {now : Instant} {cursor last : Nat}

theorem visits_last (placed : s.Placed) (after : cursor < last) (whole : last = stripeCount) :
    Visits r cursor [⟨s, now, 0, s.keysBetween r now cursor last⟩] := by
  have keys : reported [⟨s, now, 0, s.keysBetween r now cursor last⟩]
      = s.keysBetween r now cursor last := List.append_nil _
  refine ⟨rfl, ?_, fun key member => ?_, ?_, fun page member key found => ?_,
    fun key matched above seen => ?_⟩
  · rw [List.length_singleton]
    omega
  · rw [keys] at member
    exact (placed.mem_keysBetween.1 member).1.1
  · rw [keys]
    exact placed.nodup_keysBetween r now cursor last
  · obtain rfl := List.mem_singleton.1 member
    exact (placed.mem_keysBetween.1 found).2
  · rw [keys, placed.mem_keysBetween, whole]
    exact ⟨⟨above, Store.stripeOf_lt key⟩, matched, seen _ List.mem_cons_self⟩

theorem Visits.cons {pages : List Page} (visits : Visits r last pages) (placed : s.Placed)
    (after : cursor < last) (within : last < stripeCount) :
    Visits r cursor (⟨s, now, last, s.keysBetween r now cursor last⟩ :: pages) := by
  have keys : reported (⟨s, now, last, s.keysBetween r now cursor last⟩ :: pages)
      = s.keysBetween r now cursor last ++ reported pages := List.flatMap_cons
  refine ⟨?_, ?_, fun key member => ?_, ?_, fun page member key found => ?_,
    fun key matched above seen => ?_⟩
  · have ended := visits.ended
    cases pages with
    | nil => cases ended
    | cons page rest => rwa [List.getLast?_cons_cons]
  · have short := visits.short
    rw [List.length_cons]
    omega
  · rw [keys] at member
    rcases List.mem_append.1 member with own | later
    · exact (placed.mem_keysBetween.1 own).1.1
    · exact Nat.le_trans (Nat.le_of_lt after) (visits.ahead key later)
  · -- The page's keys are of stripes before `last`, all later ones of stripes from `last` on.
    rw [keys]
    refine (placed.nodup_keysBetween r now cursor last).append visits.once fun key own later => ?_
    have below := (placed.mem_keysBetween.1 own).1.2
    have above := visits.ahead key later
    omega
  · rcases List.mem_cons.1 member with rfl | later
    · exact (placed.mem_keysBetween.1 found).2
    · exact visits.sound page later key found
  · rw [keys]
    refine List.mem_append.2 ?_
    by_cases below : stripeOf key < last
    · exact .inl (placed.mem_keysBetween.2 ⟨⟨above, below⟩, matched, seen _ List.mem_cons_self⟩)
    · exact .inr (visits.complete key matched (by omega) fun page member =>
        seen page (List.mem_cons_of_mem _ member))

end Pages

theorem follow_visits {pattern : String} {r : Regex} (accepted : keyPattern pattern = .ok r)
    (count : Nat) :
    ∀ (limit : Nat) (turns : Nat → Turn) (cursor : Nat) (s : Store), s.Placed →
      cursor < stripeCount → stripeCount ≤ cursor + limit →
      ∃ pages, follow pattern count limit turns cursor s = .ok pages ∧ Visits r cursor pages := by
  intro limit
  induction limit with
  | zero =>
      intro _ cursor _ _ inside enough
      omega
  | succ limit inductionHypothesis =>
      intro turns cursor s placed inside enough
      have placed' := placed.run (turns 0).before
      obtain ⟨last, ⟨after, within, -, -⟩, page⟩ :=
        Store.scan_page accepted inside count (turns 0).moment (run (turns 0).before s).2
      rw [follow_page page]
      by_cases whole : last = stripeCount
      · rw [if_pos whole, if_pos rfl]
        exact ⟨_, rfl, visits_last placed' after whole⟩
      · obtain ⟨pages, followed, visits⟩ :=
          inductionHypothesis (fun i => turns (i + 1)) last _ placed' (by omega) (by omega)
        rw [if_neg whole, if_neg (by omega), followed]
        exact ⟨_, rfl, visits.cons placed' after (by omega)⟩

/-- Following the cursors from zero on ends after at most one page for each stripe, whatever
others do between the pages.  Every matching key that is live whenever a page is read is reported
exactly once, no key is reported twice, and every reported key matches and was live when its page
was read. -/
theorem follow_visits_once {pattern : String} {r : Regex} (accepted : keyPattern pattern = .ok r)
    (count : Nat) (turns : Nat → Turn) :
    ∃ pages, follow pattern count stripeCount turns 0 .empty = .ok pages ∧
      pages.length ≤ stripeCount ∧ (pages.getLast?.map (·.next)) = some 0 ∧
      (∀ key, r.isMatch key → (∀ page ∈ pages, page.sees key) →
        (reported pages).count key = 1) ∧
      (reported pages).Nodup ∧
      ∀ page ∈ pages, ∀ key ∈ page.keys, r.isMatch key ∧ page.sees key := by
  obtain ⟨pages, followed, visits⟩ := follow_visits accepted count stripeCount turns 0 .empty
    Store.placed_empty (by decide) (Nat.le_add_left _ _)
  refine ⟨pages, followed, visits.short, visits.ended, fun key matched seen => ?_, visits.once,
    visits.sound⟩
  exact List.count_eq_one_of_mem visits.once
    (visits.complete key matched (Nat.zero_le _) seen)

/-- Between the pages one key is deleted, one expires and one comes new. -/
def crossedTurns : Nat → Turn
  | 0 => ⟨[⟨0, .set "k1" [1] none⟩, ⟨0, .set "k2" [2] (some 5)⟩, ⟨1, .set "k3" [3] none⟩], 2⟩
  | 1 => ⟨[⟨3, .delete "k1"⟩, ⟨4, .setIfMissing "k4" [4] none⟩], 6⟩
  | i + 2 => ⟨[⟨7, .purge⟩], 7 + i⟩

theorem crossedTurns_visited :
    ∃ r, keyPattern "k[0-9]*" = .ok r ∧
      ∃ pages, follow "k[0-9]*" 0 stripeCount crossedTurns 0 .empty = .ok pages ∧
        pages.length ≤ stripeCount ∧ (pages.getLast?.map (·.next)) = some 0 ∧
        (∀ key, r.isMatch key → (∀ page ∈ pages, page.sees key) →
          (reported pages).count key = 1) ∧
        (reported pages).Nodup ∧
        ∀ page ∈ pages, ∀ key ∈ page.keys, r.isMatch key ∧ page.sees key := by
  obtain ⟨r, accepted⟩ : ∃ r, keyPattern "k[0-9]*" = .ok r := ⟨_, by with_unfolding_all rfl⟩
  exact ⟨r, accepted, follow_visits_once accepted 0 crossedTurns⟩

end Recordkeeper.KeyValue
