import DhtCrawler.QueueModel

/-! The representation invariant of the pending hash queue. -/

namespace DhtCrawler

open FiniteMap PendingHashQueue
open Except (Safe Sure)

variable {key : QueuedHash → Instant ×ₗ ℕ}

namespace PendingHashQueue

/-- The invariant after `n` inserts into a queue of the given capacity. -/
structure Inv (capacity n : ℕ) (q : PendingHashQueue) : Prop where
  capacity_eq : q.capacity = max capacity 1
  sequence_eq : q.sequence = n
  name : ∀ h e, q.entries.get h = some e → e.infoHash = h
  sequence_le : ∀ h e, q.entries.get h = some e → e.sequence ≤ n
  sequence_inj : ∀ h h' e e', q.entries.get h = some e → q.entries.get h' = some e' →
    e.sequence = e'.sequence → h = h'
  latest : ∀ h e, q.entries.get h = some e → e.orderKey = toLex (e.latestAt, e.sequence)
  expiry : IsIndex q.expiry q.entries (fun _ => true) QueuedHash.expiryKey
  retryExpiry : IsIndex q.retryExpiry q.entries (fun e => e.isRetry) QueuedHash.expiryKey
  waiting : IsIndex q.waiting q.entries (fun e => !e.ready) QueuedHash.readyKey
  readyFresh : IsIndex q.readyFresh q.entries (fun e => e.ready && !e.isRetry) QueuedHash.orderKey
  readyRetry : IsIndex q.readyRetry q.entries (fun e => e.ready && e.isRetry) QueuedHash.readyKey
  len_le : q.entries.len ≤ q.capacity
  retry_le : q.entries.count (fun e => e.isRetry) ≤ q.retryQuota

variable {e e' : QueuedHash} {h : String}

lemma sequence_of_expiryKey (h : e.expiryKey = e'.expiryKey) :
    e.sequence = e'.sequence := congrArg (fun k => (ofLex k).2) h

lemma sequence_of_readyKey (h : e.readyKey = e'.readyKey) :
    e.sequence = e'.sequence := congrArg (fun k => (ofLex k).2) h

lemma sequence_of_orderKey (h : e.orderKey = e'.orderKey) :
    e.sequence = e'.sequence := congrArg (fun k => (ofLex k).2) h

lemma inv_new (capacity : ℕ) (ttl : Duration) : Inv capacity 0 (new capacity ttl) where
  capacity_eq := rfl
  sequence_eq := rfl
  name h e he := by simp [new] at he
  sequence_le h e he := by simp [new] at he
  sequence_inj h h' e e' he := by simp [new] at he
  latest h e he := by simp [new] at he
  expiry := .empty
  retryExpiry := .empty
  waiting := .empty
  readyFresh := .empty
  readyRetry := .empty
  len_le := by simp [new]
  retry_le := by simp [new]

variable {capacity n : ℕ} {q : PendingHashQueue}

lemma Inv.keyUnique (hq : Inv capacity n q)
    (hkey : ∀ {e e' : QueuedHash}, key e = key e' → e.sequence = e'.sequence) (he : q.entries.get h = some e) :
    KeyUnique q.entries key h e := by
  intro h' e' he' hk
  exact hq.sequence_inj h' h e' e he' he (hkey hk)

lemma Inv.keyUnique_next (hq : Inv capacity n q)
    (hkey : ∀ {e e' : QueuedHash}, key e = key e' → e.sequence = e'.sequence) (he : e.sequence = n + 1) :
    KeyUnique q.entries key h e := by
  intro h' e' he' hk
  have hle := hq.sequence_le h' e' he'
  have heq := hkey hk
  omega

/-! ### Removal -/

lemma remove_fst_entries (q : PendingHashQueue) (h : String) : (q.remove h).1.entries = q.entries.erase h := by
  unfold remove
  cases he : q.entries.get h with
  | none => exact (erase_of_get_none he).symm
  | some e => rfl

@[simp]
lemma remove_snd (q : PendingHashQueue) (h : String) : (q.remove h).2 = q.entries.get h := by
  unfold remove
  cases he : q.entries.get h <;> rfl

@[simp]
lemma remove_capacity (q : PendingHashQueue) (h : String) : (q.remove h).1.capacity = q.capacity := by
  unfold remove
  cases he : q.entries.get h <;> rfl

lemma remove_none (he : q.entries.get h = none) : (q.remove h).1 = q := by
  unfold remove
  rw [he]

lemma Inv.distinct (hq : Inv capacity n q) : q.entries.Distinct QueuedHash.sequence :=
  fun h e he h' e' he' hs => hq.sequence_inj h' h e' e he' he hs

lemma Inv.remove (hq : Inv capacity n q) (h : String) : Inv capacity n (q.remove h).1 := by
  unfold PendingHashQueue.remove
  cases he : q.entries.get h with
  | none => exact hq
  | some e =>
    exact
      { capacity_eq := hq.capacity_eq
        sequence_eq := hq.sequence_eq
        name := fun h' e' he' => hq.name h' e' (get_of_get_erase he').2
        sequence_le := fun h' e' he' => hq.sequence_le h' e' (get_of_get_erase he').2
        sequence_inj := fun h₁ h₂ e₁ e₂ h₁' h₂' => hq.distinct.erase h h₂ e₂ h₂' h₁ e₁ h₁'
        latest := fun h' e' he' => hq.latest h' e' (get_of_get_erase he').2
        expiry := hq.expiry.erase he (hq.keyUnique sequence_of_expiryKey he)
        retryExpiry := hq.retryExpiry.erase he (hq.keyUnique sequence_of_expiryKey he)
        waiting := hq.waiting.erase he (hq.keyUnique sequence_of_readyKey he)
        readyFresh := hq.readyFresh.erase he (hq.keyUnique sequence_of_orderKey he)
        readyRetry := hq.readyRetry.erase he (hq.keyUnique sequence_of_readyKey he)
        len_le := (len_erase_le _ _).trans hq.len_le
        retry_le := by
          have hcount := count_erase he fun e => e.isRetry
          have hle := hq.retry_le
          change (q.entries.erase h).count (fun e => e.isRetry) ≤ q.retryQuota
          omega }

/-! ### Insertion -/

def numbered (q : PendingHashQueue) (e : QueuedHash) : QueuedHash :=
  { e with orderKey := toLex (e.latestAt, wrappingSucc q.sequence) }

lemma Inv.numbered_sequence (hq : Inv capacity n q) (hn : n + 1 < 2 ^ 64) (e : QueuedHash) :
    (q.numbered e).sequence = n + 1 := by
  change wrappingSucc q.sequence = n + 1
  rw [hq.sequence_eq, wrappingSucc_of_lt hn]

lemma Inv.index_insert (hq : Inv capacity n q) {index : FiniteMap (Instant ×ₗ ℕ) String}
    {p : QueuedHash → Bool} (hi : IsIndex index q.entries p key)
    (hkey : ∀ {e e' : QueuedHash}, key e = key e' → e.sequence = e'.sequence)
    (hnew : q.entries.get e.infoHash = none) (hseq : e.sequence = n + 1) :
    IsIndex (if p e then index.insert (key e) e.infoHash else index)
      (q.entries.insert e.infoHash e) p key := by
  split_ifs with hp
  · exact hi.insert_listed hnew hp (hq.keyUnique_next hkey hseq)
  · exact hi.insert_unlisted hnew (by simpa using hp)

lemma Inv.insert (hq : Inv capacity n q) (hn : n + 1 < 2 ^ 64) (hnew : q.entries.get e.infoHash = none)
    (hlen : q.entries.len < q.capacity)
    (hretry : e.isRetry = true → q.entries.count (fun e => e.isRetry) < q.retryQuota) :
    Inv capacity (n + 1) (q.insert e) := by
  have hseq := hq.numbered_sequence hn e
  have hnew' : q.entries.get (q.numbered e).infoHash = none := hnew
  have hfresh : ∀ h' e', q.entries.get h' = some e' → e'.sequence = (q.numbered e).sequence → h' = e.infoHash := by
    intro h' e' he' heq
    have hle := hq.sequence_le h' e' he'
    omega
  exact
    { capacity_eq := hq.capacity_eq
      sequence_eq := hseq
      name := forall_insert rfl fun h' e' _ => hq.name h' e'
      sequence_le := forall_insert hseq.le fun h' e' _ he' => (hq.sequence_le h' e' he').trans (Nat.le_succ n)
      sequence_inj := fun h₁ h₂ e₁ e₂ he₁ he₂ => hq.distinct.insert hfresh h₂ e₂ he₂ h₁ e₁ he₁
      latest := forall_insert rfl fun h' e' _ => hq.latest h' e'
      expiry := hq.index_insert hq.expiry sequence_of_expiryKey hnew' hseq
      retryExpiry := hq.index_insert hq.retryExpiry sequence_of_expiryKey hnew' hseq
      waiting := by
        have hi := hq.index_insert hq.waiting sequence_of_readyKey hnew' hseq
        have hready : (q.numbered e).ready = e.ready := rfl
        cases hr : e.ready <;> simpa [PendingHashQueue.insert, numbered, hr] using hi
      readyFresh := hq.index_insert hq.readyFresh sequence_of_orderKey hnew' hseq
      readyRetry := hq.index_insert hq.readyRetry sequence_of_readyKey hnew' hseq
      len_le := by
        change (q.entries.insert e.infoHash (q.numbered e)).len ≤ q.capacity
        rw [len_insert_new hnew]
        exact hlen
      retry_le := by
        change (q.entries.insert e.infoHash (q.numbered e)).count (fun e => e.isRetry) ≤ q.retryQuota
        rw [count_insert_new hnew]
        have hle := hq.retry_le
        split_ifs with hr
        · exact hretry hr
        · exact hle }

/-! ### The operations -/

def pushInserts (kind : QueuePushKind) : ℕ := if kind = .stale then 0 else 1

lemma freshEntry_infoHash (q : PendingHashQueue) (event : HashDiscovered) (now : Instant) :
    (q.freshEntry event now).infoHash = event.infoHash := rfl

lemma updatedEntry_infoHash (q : PendingHashQueue) (e : QueuedHash) (event : HashDiscovered) :
    (q.updatedEntry e event).infoHash = e.infoHash := by
  dsimp only [updatedEntry]
  split_ifs <;> rfl

lemma updatedEntry_isRetry (q : PendingHashQueue) (e : QueuedHash) (event : HashDiscovered) :
    (q.updatedEntry e event).isRetry = e.isRetry := by
  dsimp only [updatedEntry]
  split_ifs <;> rfl

lemma Inv.reinsert (hq : Inv capacity n q) (hn : n + 1 < 2 ^ 64) (he : q.entries.get h = some e)
    (hname : e'.infoHash = h) (hretry : e'.isRetry = e.isRetry) :
    Inv capacity (n + 1) ((q.remove h).1.insert e') := by
  have hlen := len_erase_old he
  have hcount := count_erase he fun e => e.isRetry
  have hle := hq.len_le
  have hrle := hq.retry_le
  refine (hq.remove h).insert hn ?_ ?_ ?_
  · rw [remove_fst_entries, hname, get_erase, if_pos rfl]
  · rw [remove_fst_entries, remove_capacity]
    omega
  · intro hr
    rw [remove_fst_entries, retryQuota, remove_capacity, ← retryQuota]
    rw [hretry] at hr
    rw [if_pos hr] at hcount
    omega

lemma Inv.victim (hq : Inv capacity n q) {k : Instant ×ₗ ℕ}
    (hv : q.retryExpiry.first.or q.expiry.first = some (k, h)) : ∃ e, q.entries.get h = some e := by
  cases hr : q.retryExpiry.first with
  | none =>
    rw [hr, Option.none_or] at hv
    exact hq.expiry.get_entry (first_eq_some_iff.mp hv).1
  | some x =>
    rw [hr, Option.some_or] at hv
    cases hv
    exact hq.retryExpiry.get_entry (first_eq_some_iff.mp hr).1

inductive PushStep (q : PendingHashQueue) (event : HashDiscovered) (now : Instant) :
    PendingHashQueue → QueuePushKind → Prop where
  | stale : PushStep q event now q .stale
  | updated {e : QueuedHash} (he : q.entries.get event.infoHash = some e) :
      PushStep q event now ((q.remove event.infoHash).1.insert (q.updatedEntry e event)) .updated
  | inserted (he : q.entries.get event.infoHash = none) (hlen : q.entries.len < q.capacity) :
      PushStep q event now (q.insert (q.freshEntry event now)) .inserted
  | evicted {k : Instant ×ₗ ℕ} {h : String} {old : QueuedHash}
      (he : q.entries.get event.infoHash = none) (hlen : q.capacity ≤ q.entries.len)
      (hv : q.retryExpiry.first.or q.expiry.first = some (k, h)) (hold : q.entries.get h = some old)
      (hnewer : old.isRetry = true ∨ old.latestAt < event.discoveredAt) :
      PushStep q event now ((q.remove h).1.insert (q.freshEntry event now))
        (if old.isRetry then .evictedRetry else .evictedOldest)

lemma push_step (q : PendingHashQueue) (event : HashDiscovered) (now : Instant) :
    (∃ q' kind, q.push event now = .ok (q', kind) ∧ PushStep q event now q' kind) ∨
      q.push event now = .error .unwrap ∧
        ∃ k h, q.retryExpiry.first.or q.expiry.first = some (k, h) ∧ q.entries.get h = none := by
  unfold PendingHashQueue.push
  by_cases hstale : now - event.discoveredAt > q.ttl
  · rw [if_pos hstale]
    exact Or.inl ⟨q, .stale, rfl, .stale⟩
  rw [if_neg hstale]
  cases he : q.entries.get event.infoHash with
  | some e =>
    have hrem : q.remove event.infoHash = ((q.remove event.infoHash).1, some e) :=
      Prod.ext rfl (by rw [remove_snd, he])
    rw [hrem]
    exact Or.inl ⟨_, .updated, rfl, .updated he⟩
  | none =>
    have hrem : q.remove event.infoHash = (q, none) :=
      Prod.ext (remove_none he) (by rw [remove_snd, he])
    rw [hrem]
    by_cases hlen : q.entries.len < q.capacity
    · rw [if_pos hlen]
      exact Or.inl ⟨_, .inserted, rfl, .inserted he hlen⟩
    rw [if_neg hlen]
    cases hv : q.retryExpiry.first.or q.expiry.first with
    | none => exact Or.inl ⟨q, .stale, rfl, .stale⟩
    | some x =>
      cases hold : q.entries.get x.2 with
      | none =>
        refine Or.inr ⟨?_, x.1, x.2, rfl, hold⟩
        dsimp only
        rw [hold]
        rfl
      | some old =>
        refine Or.inl ?_
        dsimp only
        rw [hold, unwrap_some]
        dsimp only [bind, Except.bind]
        by_cases hnewer : (!old.isRetry && decide (event.discoveredAt ≤ old.latestAt)) = true
        · rw [if_pos hnewer]
          exact ⟨q, .stale, rfl, .stale⟩
        · rw [if_neg hnewer]
          simp only [Bool.and_eq_true, Bool.not_eq_true', decide_eq_true_eq, not_and_or,
            Bool.not_eq_false, not_le] at hnewer
          exact ⟨_, _, rfl, .evicted he (not_lt.mp hlen) hv hold hnewer⟩

lemma Inv.push_ok (hq : Inv capacity n q) (event : HashDiscovered) (now : Instant) :
    ∃ q' kind, q.push event now = .ok (q', kind) ∧ PushStep q event now q' kind := by
  rcases push_step q event now with h | ⟨_, k, h, hv, hnone⟩
  · exact h
  · obtain ⟨e, he⟩ := hq.victim hv
    rw [hnone] at he
    cases he

lemma Inv.pushStep (hq : Inv capacity n q) {event : HashDiscovered} {now : Instant}
    {q' : PendingHashQueue} {kind : QueuePushKind} (hs : PushStep q event now q' kind)
    (hn : n + pushInserts kind < 2 ^ 64) : Inv capacity (n + pushInserts kind) q' := by
  cases hs with
  | stale => exact hq
  | @updated e he =>
    refine hq.reinsert hn he ?_ (updatedEntry_isRetry q e event)
    rw [updatedEntry_infoHash, hq.name _ _ he]
  | inserted he hlen => exact hq.insert hn he hlen (fun h => nomatch h)
  | @evicted k h old he hlen hv hold hnewer =>
    have hone : pushInserts (if old.isRetry = true then .evictedRetry else .evictedOldest) = 1 := by
      split_ifs <;> rfl
    rw [hone] at hn ⊢
    refine (hq.remove h).insert hn ?_ ?_ (fun h => nomatch h)
    · rw [remove_fst_entries, freshEntry_infoHash, get_erase, he]
      exact ite_self none
    · have hshort := len_erase_old hold
      have hle := hq.len_le
      rw [remove_fst_entries, remove_capacity]
      omega

lemma defer_cases (q : PendingHashQueue) (e : QueuedHash) (record : RetryRecord) :
    q.defer e record = ((q.remove e.infoHash).1, false) ∨
      (q.defer e record = ((q.remove e.infoHash).1.insert (deferredEntry e record), true) ∧
        (q.remove e.infoHash).1.entries.len < (q.remove e.infoHash).1.capacity ∧
        (q.remove e.infoHash).1.retryExpiry.len < (q.remove e.infoHash).1.retryQuota) := by
  dsimp only [defer]
  by_cases hfull : (decide ((q.remove e.infoHash).1.entries.len ≥ (q.remove e.infoHash).1.capacity) ||
      decide ((q.remove e.infoHash).1.retryExpiry.len ≥ (q.remove e.infoHash).1.retryQuota)) = true
  · exact Or.inl (if_pos hfull)
  · refine Or.inr ⟨if_neg hfull, ?_⟩
    simpa only [Bool.or_eq_true, decide_eq_true_eq, not_or, not_le] using hfull

/-- An entry that is not queued is deferred if neither the queue nor its retries are full. -/
lemma defer_absent (hname : q.entries.get e.infoHash = none) (record : RetryRecord) :
    q.defer e record =
      if q.capacity ≤ q.entries.len ∨ q.retryQuota ≤ q.retryExpiry.len then (q, false)
      else (q.insert (deferredEntry e record), true) := by
  dsimp only [defer]
  rw [remove_none hname]
  simp only [ge_iff_le, Bool.or_eq_true, decide_eq_true_eq]

def deferInserts (stored : Bool) : ℕ := if stored then 1 else 0

/-! ### Rules for the loops -/

/-- The entry of a hash is marked as ready. -/
def promoted (q : PendingHashQueue) (key : Instant ×ₗ ℕ) (hash : String) (entry : QueuedHash) : PendingHashQueue :=
  { q with
    waiting := q.waiting.erase key
    entries := q.entries.insert hash { entry with ready := true }
    readyRetry := if entry.isRetry then q.readyRetry.insert key hash else q.readyRetry
    readyFresh := if entry.isRetry then q.readyFresh else q.readyFresh.insert entry.orderKey hash }

/-- A round of `promote_ready` is the last one, or marks the entry that waits for the least instant. -/
lemma promoteStep_round {P : ForInStep PendingHashQueue → Prop} (now : Instant)
    (hdone : (∀ key ∈ q.waiting.keys, now < (ofLex key).1) → P (.done q))
    (hyield : ∀ key hash entry, q.waiting.get key = some hash → (ofLex key).1 ≤ now →
      q.entries.get hash = some entry → P (.yield (q.promoted key hash entry))) :
    Safe (fun _ => ∃ key hash, q.waiting.get key = some hash ∧ q.entries.get hash = none)
      (promoteStep now q) P := by
  unfold promoteStep
  cases hfirst : q.waiting.first with
  | none =>
    refine hdone fun key hkey => ?_
    rw [first_eq_none_iff.mp hfirst] at hkey
    exact absurd hkey (Finset.notMem_empty key)
  | some x =>
    obtain ⟨key, hash⟩ := x
    obtain ⟨hget, hleast⟩ := first_eq_some_iff.mp hfirst
    dsimp only
    by_cases hlater : (ofLex key).1 > now
    · rw [if_pos hlater]
      exact hdone fun k hk => hlater.trans_le (Prod.Lex.monotone_fst_ofLex (hleast k hk))
    rw [if_neg hlater]
    cases hentry : q.entries.get hash with
    | none => exact ⟨key, hash, hget, hentry⟩
    | some entry =>
      have hround := hyield key hash entry hget (not_lt.mp hlater) hentry
      unfold promoted at hround
      rw [unwrap_some, Except.ok_bind]
      by_cases hretry : entry.isRetry = true
      · simp only [if_pos hretry] at hround ⊢
        exact hround
      · simp only [if_neg hretry] at hround ⊢
        exact hround

lemma promoteReady_rule {P : PendingHashQueue → Prop} (hq : P q)
    (hpromote : ∀ q key hash entry, P q → q.entries.get hash = some entry → P (q.promoted key hash entry))
    (now : Instant) : Safe (fun _ => True) (q.promoteReady now) P := by
  refine Loop.safe_run (fun q' hq' => ?_) _ hq
  refine (promoteStep_round now (fun _ => hq') fun key hash entry _ _ hentry => ?_).weaken fun _ _ => trivial
  exact hpromote q' key hash entry hq' hentry

lemma expire_rule {P : PendingHashQueue × ℕ → Prop} (hq : P (q, 0))
    (hremove : ∀ s hash, P s → P ((s.1.remove hash).1, s.2 + 1)) (now : Instant) : P (q.expire now) := by
  refine Loop.iterate_inv (fun s hs => ?_) _ hq
  unfold expireStep
  cases s.1.expiry.first with
  | none => exact hs
  | some x =>
    dsimp only
    split_ifs
    · exact hs
    · exact hremove s x.2 hs

lemma popChoice_rule {P : PendingHashQueue × Option QueuedHash → Prop}
    (hnone : ∀ k, P ({ q with freshDispatches := k }, none))
    (hremove : ∀ k hash, P ({ q with freshDispatches := k }.remove hash)) : P q.popChoice := by
  unfold popChoice
  split_ifs <;> dsimp only <;> split
  · exact hnone _
  · exact hremove _ _
  · exact hnone _
  · exact hremove _ _

section

variable (hq : Inv capacity n q)
include hq

lemma Inv.defer (e : QueuedHash) (record : RetryRecord) (hn : n + deferInserts (q.defer e record).2 < 2 ^ 64) :
    Inv capacity (n + deferInserts (q.defer e record).2) (q.defer e record).1 := by
  rcases defer_cases q e record with h | ⟨h, hlen, hquota⟩
  · rw [h]
    exact hq.remove e.infoHash
  · rw [h] at hn ⊢
    refine (hq.remove e.infoHash).insert hn ?_ hlen ?_
    · rw [remove_fst_entries]
      simp [deferredEntry]
    · intro _
      rw [← (hq.remove e.infoHash).retryExpiry.len_eq_count]
      exact hquota

lemma Inv.promote {key : Instant ×ₗ ℕ} (hw : q.waiting.get key = some h) (he : q.entries.get h = some e) :
    Inv capacity n (q.promoted key h e) := by
  obtain ⟨hready, hkey⟩ := (hq.waiting.get_iff he key).mp hw
  have hwait : e.ready = false := by simpa using hready
  exact
    { capacity_eq := hq.capacity_eq
      sequence_eq := hq.sequence_eq
      name := forall_insert (hq.name h e he) fun h' e' _ => hq.name h' e'
      sequence_le := forall_insert (hq.sequence_le h e he) fun h' e' _ => hq.sequence_le h' e'
      sequence_inj := fun h₁ h₂ e₁ e₂ he₁ he₂ =>
        hq.distinct.insert (v := { e with ready := true }) (hq.distinct h e he) h₂ e₂ he₂ h₁ e₁ he₁
      latest := forall_insert (hq.latest h e he) fun h' e' _ => hq.latest h' e'
      expiry := hq.expiry.update he rfl rfl
      retryExpiry := hq.retryExpiry.update he rfl rfl
      waiting := by
        rw [hkey]
        exact hq.waiting.replace (w := { e with ready := true }) he
          (hq.keyUnique sequence_of_readyKey he) rfl
      readyFresh := by
        have hu := hq.keyUnique sequence_of_orderKey he
        have hi := hq.readyFresh.replace (w := { e with ready := true }) he hu rfl
        rw [erase_of_get_none (hq.readyFresh.get_key_none he (by simp [hwait]) hu)] at hi
        cases hr : e.isRetry <;> simpa [promoted, hr] using hi
      readyRetry := by
        have hu := hq.keyUnique sequence_of_readyKey he
        have hi := hq.readyRetry.replace (w := { e with ready := true }) he hu rfl
        rw [erase_of_get_none (hq.readyRetry.get_key_none he (by simp [hwait]) hu), ← hkey] at hi
        cases hr : e.isRetry <;> simpa [promoted, hr] using hi
      len_le := by
        change (q.entries.insert h { e with ready := true }).len ≤ q.capacity
        rw [len_insert_old he]
        exact hq.len_le
      retry_le := by
        have hsame := count_insert_old he { e with ready := true } fun e => e.isRetry
        have hle := hq.retry_le
        change (q.entries.insert h { e with ready := true }).count (fun e => e.isRetry) ≤ q.retryQuota
        dsimp only at hsame
        omega }

lemma Inv.waiting_queued : ¬∃ key hash, q.waiting.get key = some hash ∧ q.entries.get hash = none := by
  rintro ⟨key, hash, hw, hnone⟩
  obtain ⟨e, he⟩ := hq.waiting.get_entry hw
  cases hnone.symm.trans he

lemma Inv.promoteStep (now : Instant) :
    Sure (promoteStep now q) (Loop.Round (Inv capacity n)
      (fun q' => Inv capacity n q' ∧ ∀ k ∈ q'.waiting.keys, now < (ofLex k).1)
      (fun q => q.waiting.len) q.waiting.len) := by
  refine (promoteStep_round now (fun hlater => ⟨hq, hlater⟩) fun key hash e hw _ he => ?_).weaken
    fun _ => hq.waiting_queued
  have hshort := len_erase_old hw
  refine ⟨hq.promote hw he, ?_⟩
  change (q.waiting.erase key).len < q.waiting.len
  omega

lemma Inv.promoteReady (now : Instant) :
    Sure (q.promoteReady now) fun q' =>
      Inv capacity n q' ∧ ∀ k ∈ q'.waiting.keys, now < (ofLex k).1 :=
  Loop.safe_exit (fun q => q.waiting.len) (fun _ hq => hq.promoteStep now) _ hq
    (Nat.lt_succ_self _)

lemma Inv.expire (now : Instant) : Inv capacity n (q.expire now).1 :=
  expire_rule (P := fun s => Inv capacity n s.1) hq (fun _ hash hs => hs.remove hash) now

lemma Inv.withFreshDispatches (k : ℕ) : Inv capacity n { q with freshDispatches := k } :=
  { hq with }

lemma Inv.popChoice : Inv capacity n q.popChoice.1 :=
  popChoice_rule (P := fun r => Inv capacity n r.1) hq.withFreshDispatches
    fun k hash => (hq.withFreshDispatches k).remove hash

lemma Inv.popNewestReady (now : Instant) :
    Sure (q.popNewestReady now) fun r => Inv capacity n r.1 :=
  ((hq.expire now).promoteReady now).bind fun _ h => h.1.popChoice

end

/-! ### Runs -/

end PendingHashQueue

inductive QueueOp where
  | push (event : HashDiscovered) (now : Instant)
  | defer (entry : QueuedHash) (record : RetryRecord)
  | remove (hash : String)
  | promoteReady (now : Instant)
  | expire (now : Instant)
  | popNewestReady (now : Instant)

namespace PendingHashQueue

def call (q : PendingHashQueue) : QueueOp → Except Panic (PendingHashQueue × ℕ)
  | .push event now => do
      let (q', kind) ← q.push event now
      .ok (q', pushInserts kind)
  | .defer entry record => .ok ((q.defer entry record).1, deferInserts (q.defer entry record).2)
  | .remove hash => .ok ((q.remove hash).1, 0)
  | .promoteReady now => do
      let q' ← q.promoteReady now
      .ok (q', 0)
  | .expire now => .ok ((q.expire now).1, 0)
  | .popNewestReady now => do
      let (q', _) ← q.popNewestReady now
      .ok (q', 0)

inductive Reached (capacity : ℕ) (ttl : Duration) : ℕ → PendingHashQueue → Prop where
  | new : Reached capacity ttl 0 (new capacity ttl)
  | call {n k q q'} (op : QueueOp) (hq : Reached capacity ttl n q)
      (hop : q.call op = .ok (q', k)) : Reached capacity ttl (n + k) q'

variable {capacity n : ℕ} {q : PendingHashQueue}

lemma Inv.call (hq : Inv capacity n q) (op : QueueOp) :
    Sure (q.call op) fun r =>
      n + r.2 < 2 ^ 64 → Inv capacity (n + r.2) r.1 := by
  cases op with
  | push event now =>
    obtain ⟨q', kind, hok, hstep⟩ := hq.push_ok event now
    simp only [PendingHashQueue.call, hok]
    exact fun hn => hq.pushStep hstep hn
  | defer entry record => exact fun hn => hq.defer entry record hn
  | remove hash => exact fun _ => hq.remove hash
  | promoteReady now => exact (hq.promoteReady now).bind fun _ h _ => h.1
  | expire now => exact fun _ => hq.expire now
  | popNewestReady now => exact (hq.popNewestReady now).bind fun _ h _ => h

lemma Reached.inv {ttl : Duration} (hr : Reached capacity ttl n q) (hn : n < 2 ^ 64) : Inv capacity n q := by
  induction hr with
  | new => exact inv_new capacity ttl
  | @call n k q q' op _ hop ih =>
    have hq := ih (by omega)
    exact (hq.call op).of_ok hop hn

lemma Inv.pressureLen_eq (hq : Inv capacity n q) :
    q.pressureLen = q.entries.count fun e => !e.isRetry || e.ready := by
  have hsum := count_or_add_count_and q.entries (fun e => e.isRetry) fun e => !e.isRetry || e.ready
  have hall : q.entries.count (fun e => e.isRetry || (!e.isRetry || e.ready)) = q.entries.len := by
    rw [← count_true]
    congr 1
    funext e
    cases e.isRetry <;> rfl
  have hboth : q.entries.count (fun e => e.isRetry && (!e.isRetry || e.ready)) =
      q.entries.count fun e => e.ready && e.isRetry := by
    congr 1
    funext e
    cases e.isRetry <;> cases e.ready <;> rfl
  have hretry := hq.retryExpiry.len_eq_count
  have hready := hq.readyRetry.len_eq_count
  have hle : q.entries.count (fun e => e.isRetry) ≤ q.entries.len := count_le_len _ _
  rw [pressureLen, hretry, hready]
  omega

/-- **The representation of the queue.** Every queued hash stands once in `expiry`, once in exactly one of the
three scheduling indexes and, if it is a retry, once in `retryExpiry`, under the key of its stored entry; no
index names anything else; the sizes keep their bounds and the pressure counts the fresh entries and the due
retries. -/
theorem queue_representation {ttl : Duration} (hr : Reached capacity ttl n q) (hn : n < 2 ^ 64) :
    (∀ h e, q.entries.get h = some e → (∀ k, q.expiry.get k = some h ↔ k = toLex (e.expiresAt, e.sequence)) ∧
      (∀ k, q.waiting.get k = some h ↔ e.ready = false ∧ k = toLex (e.readyAt, e.sequence)) ∧
      (∀ k, q.readyFresh.get k = some h ↔ (e.ready = true ∧ e.isRetry = false) ∧ k = e.orderKey) ∧
      (∀ k, q.readyRetry.get k = some h ↔
        (e.ready = true ∧ e.isRetry = true) ∧ k = toLex (e.readyAt, e.sequence)) ∧
      (∀ k, q.retryExpiry.get k = some h ↔ e.isRetry = true ∧ k = toLex (e.expiresAt, e.sequence))) ∧
    (∀ k h, q.expiry.get k = some h ∨ q.waiting.get k = some h ∨ q.readyFresh.get k = some h ∨
      q.readyRetry.get k = some h ∨ q.retryExpiry.get k = some h → ∃ e, q.entries.get h = some e) ∧
    q.entries.len ≤ max capacity 1 ∧ q.retryExpiry.len ≤ max (max capacity 1 / 4) 1 ∧
    q.pressureLen = q.entries.count (fun e => !e.isRetry || e.ready) ∧
    ∀ op, ∃ r, q.call op = .ok r := by
  have hq := hr.inv hn
  refine ⟨fun h e he => ?_, fun k h hk => ?_, ?_, ?_, hq.pressureLen_eq, fun op => ?_⟩
  · refine ⟨fun k => ?_, fun k => ?_, fun k => ?_, fun k => ?_, fun k => ?_⟩
    · rw [hq.expiry.get_iff he, and_iff_right rfl]
      rfl
    · rw [hq.waiting.get_iff he, Bool.not_eq_true']
      rfl
    · rw [hq.readyFresh.get_iff he, Bool.and_eq_true, Bool.not_eq_true']
    · rw [hq.readyRetry.get_iff he, Bool.and_eq_true]
      rfl
    · rw [hq.retryExpiry.get_iff he]
      rfl
  · rcases hk with hk | hk | hk | hk | hk
    · exact hq.expiry.get_entry hk
    · exact hq.waiting.get_entry hk
    · exact hq.readyFresh.get_entry hk
    · exact hq.readyRetry.get_entry hk
    · exact hq.retryExpiry.get_entry hk
  · exact hq.capacity_eq ▸ hq.len_le
  · rw [hq.retryExpiry.len_eq_count, ← hq.capacity_eq]
    exact hq.retry_le
  · obtain ⟨r, hok, _⟩ := (hq.call op).exists
    exact ⟨r, hok⟩

theorem queue_representation_push : ∃ q, Reached 2 hashQueueTtl 1 q ∧ q.entries.len ≤ 2 := by
  let event : HashDiscovered :=
    { infoHash := "aa", peerAddr := none, sourceNode := none, source := .announce, discoveredAt := 5 }
  have hr : Reached 2 hashQueueTtl (0 + 1) ((new 2 hashQueueTtl).insert
      ((new 2 hashQueueTtl).freshEntry event 7)) := .call (.push event 7) .new rfl
  exact ⟨_, hr, (queue_representation hr (by decide)).2.2.1⟩

end PendingHashQueue

end DhtCrawler
