import DhtCrawler.QueuePops

/-! What a full queue gives up for a new hash. -/

namespace DhtCrawler.PendingHashQueue

open FiniteMap Option

variable {capacity n : ℕ} {q q' : PendingHashQueue} {now : Instant} {ttl : Duration} {event : HashDiscovered}
  {h : String} {e : QueuedHash}

variable {victim : String} {old : QueuedHash} {kind : QueuePushKind}

/-! ### Lifetimes -/

lemma updatedEntry_expiresAt (q : PendingHashQueue) (e : QueuedHash) (event : HashDiscovered) :
    (q.updatedEntry e event).expiresAt =
      if e.isRetry then e.expiresAt else (q.updatedEntry e event).latestAt + q.ttl := by
  dsimp only [updatedEntry]
  split_ifs with hretry hretry' hretry' <;> first | rfl | contradiction

lemma Stems.lifetime {op : QueueOp} (hs : Stems q op h e)
    (hq : ∀ h e, q.entries.get h = some e → e.isRetry = false → e.expiresAt = e.latestAt + q.ttl)
    (hfresh : e.isRetry = false) : e.expiresAt = e.latestAt + q.ttl := by
  cases hs with
  | kept he => exact hq h e he hfresh
  | promoted he hnow hdue =>
    have hlifetime := hq h _ he hfresh
    exact hlifetime
  | pushed event now orderKey =>
    change event.discoveredAt + q.ttl = max event.discoveredAt event.discoveredAt + q.ttl
    rw [max_self]
  | @updated old he event orderKey =>
    have hold : old.isRetry = false := (updatedEntry_isRetry q old event).symm.trans hfresh
    change (q.updatedEntry old event).expiresAt = (q.updatedEntry old event).latestAt + q.ttl
    rw [updatedEntry_expiresAt, if_neg (Bool.eq_false_iff.mp hold)]
  | deferred e record orderKey => exact nomatch (show true = false from hfresh)

lemma Reached.lifetime (hr : Reached capacity ttl n q) (hn : n < 2 ^ 64) :
    ∀ h e, q.entries.get h = some e → e.isRetry = false → e.expiresAt = e.latestAt + q.ttl := by
  induction hr with
  | new =>
    intro h e he
    cases he
  | @call n k q q' op hq hop ih =>
    intro h e he hfresh
    have hinv := hq.inv (by omega)
    rw [((call_frame q op).of_ok hop).1]
    exact (hinv.call_stems hop he).lifetime (ih (by omega)) hfresh

/-! ### The victim -/

lemma Inv.retry_victim (hq : Inv capacity n q) (he : q.entries.get h = some e) (hretry : e.isRetry = true) :
    ∃ k victim old, q.retryExpiry.first.or q.expiry.first = some (k, victim) ∧
      q.entries.get victim = some old ∧ old.isRetry = true ∧
      ∀ h' e', q.entries.get h' = some e' → e'.isRetry = true → old.expiryKey ≤ e'.expiryKey := by
  have hlisted : ∀ h' e', q.entries.get h' = some e' → e'.isRetry = true → e'.expiryKey ∈ q.retryExpiry.keys :=
    fun h' e' he' hretry' => mem_keys_of_get (hq.retryExpiry.get_key he' hretry')
  cases hfirst : q.retryExpiry.first with
  | none =>
    have hmem := hlisted h e he hretry
    rw [first_eq_none_iff.mp hfirst] at hmem
    exact absurd hmem (Finset.notMem_empty _)
  | some x =>
    obtain ⟨k, victim⟩ := x
    obtain ⟨hkey, hleast⟩ := first_eq_some_iff.mp hfirst
    obtain ⟨old, hold, hretry', rfl⟩ := (hq.retryExpiry k victim).mp hkey
    exact ⟨_, victim, old, rfl, hold, hretry', fun h' e' he' hre' => hleast _ (hlisted h' e' he' hre')⟩

lemma Inv.fresh_victim (hq : Inv capacity n q) (hfresh : ∀ h e, q.entries.get h = some e → e.isRetry = false)
    (he : q.entries.get h = some e) :
    ∃ k victim old, q.retryExpiry.first.or q.expiry.first = some (k, victim) ∧
      q.entries.get victim = some old ∧ old.isRetry = false ∧
      ∀ h' e', q.entries.get h' = some e' → old.expiresAt ≤ e'.expiresAt := by
  have hlisted : ∀ h' e', q.entries.get h' = some e' → e'.expiryKey ∈ q.expiry.keys :=
    fun h' e' he' => mem_keys_of_get (hq.expiry.get_key he' rfl)
  have hnone : q.retryExpiry.first = none := by
    rw [first_eq_none_iff, Finset.eq_empty_iff_forall_notMem]
    intro k hk
    obtain ⟨name, hname⟩ := mem_keys.mp hk
    obtain ⟨e', he', hretry, -⟩ := (hq.retryExpiry k name).mp hname
    exact Bool.eq_false_iff.mp (hfresh name e' he') hretry
  rw [hnone, none_or]
  cases hfirst : q.expiry.first with
  | none =>
    have hmem := hlisted h e he
    rw [first_eq_none_iff.mp hfirst] at hmem
    exact absurd hmem (Finset.notMem_empty _)
  | some x =>
    obtain ⟨k, victim⟩ := x
    obtain ⟨hkey, hleast⟩ := first_eq_some_iff.mp hfirst
    obtain ⟨old, hold, -, rfl⟩ := (hq.expiry k victim).mp hkey
    refine ⟨_, victim, old, rfl, hold, hfresh victim old hold, fun h' e' he' => ?_⟩
    exact Prod.Lex.monotone_fst _ _ (hleast _ (hlisted h' e' he'))

lemma push_full {k : Instant ×ₗ ℕ} 
    (hlive : now - event.discoveredAt ≤ q.ttl) (hname : q.entries.get event.infoHash = none)
    (hfull : q.capacity ≤ q.entries.len) (hv : q.retryExpiry.first.or q.expiry.first = some (k, victim))
    (hold : q.entries.get victim = some old) :
    q.push event now = if !old.isRetry && decide (event.discoveredAt ≤ old.latestAt) then .ok (q, .stale)
      else .ok ((q.remove victim).1.insert (q.freshEntry event now),
        if old.isRetry then .evictedRetry else .evictedOldest) := by
  have hremove : q.remove event.infoHash = (q, none) :=
    Prod.ext (remove_none hname) ((remove_snd q _).trans hname)
  unfold PendingHashQueue.push
  rw [if_neg (not_lt.mpr hlive), hremove]
  rw [if_neg (not_lt.mpr hfull), hv]
  dsimp only
  rw [hold, unwrap_some, Except.ok_bind]

/-! ### Replacement -/

structure Replaced (victim : String) (event : HashDiscovered) (q q' : PendingHashQueue) : Prop where
  gone : q'.entries.get victim = none
  present : ∃ e, q'.entries.get event.infoHash = some e
  others : ∀ h, h ≠ victim → h ≠ event.infoHash → q'.entries.get h = q.entries.get h

lemma get_insert_numbered (q : PendingHashQueue) (new : QueuedHash) (h : String) :
    (q.insert new).entries.get h = if h = new.infoHash then some (q.numbered new) else q.entries.get h :=
  get_insert q.entries new.infoHash h (q.numbered new)

lemma replaced_insert (hname : q.entries.get event.infoHash = none)
    (hold : q.entries.get victim = some old) :
    Replaced victim event q ((q.remove victim).1.insert (q.freshEntry event now)) := by
  have hne : victim ≠ event.infoHash := by
    rintro rfl
    rw [hname] at hold
    cases hold
  refine ⟨?_, ⟨_, (get_insert_numbered _ _ _).trans (if_pos rfl)⟩, fun h hvictim hevent => ?_⟩
  · rw [get_insert_numbered, freshEntry_infoHash, if_neg hne, remove_fst_entries, get_erase_self]
  · rw [get_insert_numbered, freshEntry_infoHash, if_neg hevent, remove_fst_entries, get_erase_ne _ hvictim]

lemma PushStep.others (hs : PushStep q event now q' kind)
    (hroom : q.entries.len < q.capacity) (hname : ∀ h e, q.entries.get h = some e → e.infoHash = h)
    (hne : h ≠ event.infoHash) : q'.entries.get h = q.entries.get h := by
  cases hs with
  | stale => rfl
  | @updated old he =>
    rw [get_insert_numbered, updatedEntry_infoHash, hname _ _ he, if_neg hne, remove_fst_entries,
      get_erase_ne _ hne]
  | inserted he hlen => rw [get_insert_numbered, freshEntry_infoHash, if_neg hne]
  | evicted he hlen => exact absurd hroom (not_lt.mpr hlen)

lemma PushStep.queued (hs : PushStep q event now q' kind)
    (hname : ∀ h e, q.entries.get h = some e → e.infoHash = h) (he : q.entries.get event.infoHash = some e) :
    ∃ e', q'.entries.get event.infoHash = some e' ∧ e'.readyAt = e.readyAt ∧
      (e.isRetry = true → e'.expiresAt = e.expiresAt) := by
  cases hs with
  | stale => exact ⟨e, he, rfl, fun _ => rfl⟩
  | @updated old hold =>
    cases hold.symm.trans he
    refine ⟨(q.remove event.infoHash).1.numbered (q.updatedEntry e event), ?_, ?_, fun hretry => ?_⟩
    · rw [get_insert_numbered, updatedEntry_infoHash, hname _ _ he, if_pos rfl]
    · exact updatedEntry_readyAt q e event
    · exact (updatedEntry_expiresAt q e event).trans (if_pos hretry)
  | inserted hnone =>
    rw [hnone] at he
    cases he
  | evicted hnone =>
    rw [hnone] at he
    cases he

/-- **The replacement policy of the queue.** Before `2^64` inserts, a live event for a hash that a full queue does
not hold replaces the retry that expires first; without retries it replaces an entry with the earliest last
announcement, if it is newer than that, and otherwise nothing happens. -/
theorem queue_replacement (hr : Reached capacity ttl n q) (hn : n < 2 ^ 64) (event : HashDiscovered)
    (now : Instant) :
    ∃ q' kind, q.push event now = .ok (q', kind) ∧
      (now - event.discoveredAt ≤ ttl → q.entries.get event.infoHash = none → q.capacity ≤ q.entries.len →
        ((∃ h e, q.entries.get h = some e ∧ e.isRetry = true) →
          kind = .evictedRetry ∧ ∃ victim old, q.entries.get victim = some old ∧ old.isRetry = true ∧
            (∀ h e, q.entries.get h = some e → e.isRetry = true →
              toLex (old.expiresAt, old.sequence) ≤ toLex (e.expiresAt, e.sequence)) ∧
            Replaced victim event q q') ∧
        ((∀ h e, q.entries.get h = some e → e.isRetry = false) → ∃ victim old, q.entries.get victim = some old ∧
            (∀ h e, q.entries.get h = some e → old.latestAt ≤ e.latestAt) ∧
            (old.latestAt < event.discoveredAt → kind = .evictedOldest ∧ Replaced victim event q q') ∧
            (event.discoveredAt ≤ old.latestAt → kind = .stale ∧ q' = q))) ∧
      (q.entries.len < q.capacity → ∀ h, h ≠ event.infoHash → q'.entries.get h = q.entries.get h) ∧
      ∀ e, q.entries.get event.infoHash = some e → ∃ e', q'.entries.get event.infoHash = some e' ∧
        e'.readyAt = e.readyAt ∧ (e.isRetry = true → e'.expiresAt = e.expiresAt) := by
  have hinv := hr.inv hn
  obtain ⟨q', kind, hpush, hs⟩ := hinv.push_ok event now
  refine ⟨q', kind, hpush, fun hlive hname hfull => ⟨fun hretry => ?_, fun hfresh => ?_⟩,
    fun hroom h hne => hs.others hroom hinv.name hne, fun e he => hs.queued hinv.name he⟩
  · rw [← hr.ttl_eq] at hlive
    obtain ⟨h, e, he, hre⟩ := hretry
    obtain ⟨k, victim, old, hv, hold, hold', hleast⟩ := hinv.retry_victim he hre
    have hfulled := push_full hlive hname hfull hv hold
    rw [hold', hpush] at hfulled
    cases hfulled
    exact ⟨rfl, victim, old, hold, hold', hleast, replaced_insert hname hold⟩
  · rw [← hr.ttl_eq] at hlive
    have hpos : q.entries.len ≠ 0 := by
      have hcapacity := hinv.capacity_eq
      omega
    obtain ⟨h, hsome⟩ := not_forall.mp (mt len_eq_zero.mpr hpos)
    obtain ⟨e, he⟩ := ne_none_iff_exists'.mp hsome
    obtain ⟨k, victim, old, hv, hold, hold', hfirst⟩ := hinv.fresh_victim hfresh he
    have hoffset := hr.lifetime hn
    have hleast : ∀ h e, q.entries.get h = some e → old.latestAt ≤ e.latestAt := by
      intro h e he
      have hle := hfirst h e he
      rw [hoffset victim old hold hold', hoffset h e he (hfresh h e he)] at hle
      exact Nat.le_of_add_le_add_right hle
    have hfulled := push_full hlive hname hfull hv hold
    rw [hold', hpush] at hfulled
    refine ⟨victim, old, hold, hleast, fun hnewer => ?_, fun holder => ?_⟩
    · rw [decide_eq_false (not_le.mpr hnewer)] at hfulled
      cases hfulled
      exact ⟨rfl, replaced_insert hname hold⟩
    · rw [decide_eq_true holder] at hfulled
      cases hfulled
      exact ⟨rfl, rfl⟩

def fullQueue : PendingHashQueue := (new 1 hashQueueTtl).insert ((new 1 hashQueueTtl).freshEntry (exampleEvent "aa" none 0) 0)

theorem queue_replacement_newer :
    ∃ n q' victim, Reached 1 hashQueueTtl n fullQueue ∧
      fullQueue.push (exampleEvent "bb" none (secs 5)) (secs 5) = .ok (q', .evictedOldest) ∧
      Replaced victim (exampleEvent "bb" none (secs 5)) fullQueue q' := by
  have hpush : (new 1 hashQueueTtl).push (exampleEvent "aa" none 0) 0 = .ok (fullQueue, .inserted) :=
    push_new (by decide) rfl (by decide)
  have hr := ((Timed.new 0).push le_rfl hpush).reached
  have hname : (fullQueue.entries.get "bb").isNone := by decide +kernel
  have hfresh : fullQueue.entries.count (fun e => e.isRetry) = 0 := by decide +kernel
  have hqueued : (fullQueue.entries.get "aa").any (fun e => e.latestAt < secs 5) = true := by decide +kernel
  obtain ⟨e, he, holder⟩ := (any_eq_true _ _).mp hqueued
  obtain ⟨q', kind, hok, hpolicy, -⟩ := queue_replacement hr (by decide) (exampleEvent "bb" none (secs 5)) (secs 5)
  obtain ⟨-, hoverflow⟩ := hpolicy (by decide) (isNone_iff_eq_none.mp hname) (by decide +kernel)
  obtain ⟨victim, old, -, hleast, hnewer, -⟩ := hoverflow (count_eq_zero.mp hfresh)
  obtain ⟨rfl, hreplaced⟩ := hnewer ((hleast "aa" e he).trans_lt (of_decide_eq_true holder))
  exact ⟨_, q', victim, hr, hok, hreplaced⟩

/-! ### Numbers that come around -/

def evictsNewer (q : PendingHashQueue) : Bool :=
  (q.entries.get "cc").isNone && decide (q.capacity ≤ q.entries.len) &&
    decide (q.entries.count (fun e => e.isRetry) = 0) &&
    (q.push (exampleEvent "cc" none (secs 20)) (secs 20)).isOkAnd fun r =>
      r.2 == .evictedOldest && (r.1.entries.get "bb").isNone &&
        (q.entries.get "bb").any fun e => (q.entries.get "aa").any fun e' => e'.latestAt < e.latestAt

/-- When the numbers have come around, the older hash has lost its expiry key, and a full queue gives up the
newer one for a third. -/
theorem newer_entry_evicted :
    ∃ capacity ttl n q event now q' h e h' e', Reached capacity ttl n q ∧ now - event.discoveredAt ≤ ttl ∧
      q.entries.get event.infoHash = none ∧ q.capacity ≤ q.entries.len ∧
      (∀ h e, q.entries.get h = some e → e.isRetry = false) ∧
      q.push event now = .ok (q', .evictedOldest) ∧ q.entries.get h = some e ∧ q'.entries.get h = none ∧
      q.entries.get h' = some e' ∧ e'.latestAt < e.latestAt := by
  obtain ⟨n, hr⟩ := timed_collided
  have hrun : (collided.push (exampleEvent "bb" none 0) 0).isOkAnd (fun r =>
      (r.1.push (exampleEvent "bb" none (secs 10)) (secs 10)).isOkAnd fun r => r.1.evictsNewer) = true := by
    decide +kernel
  obtain ⟨⟨moved, kind⟩, hmoved, hrun⟩ := Except.isOkAnd_eq_true.mp hrun
  obtain ⟨⟨q, kind'⟩, hrenewed, hevicts⟩ := Except.isOkAnd_eq_true.mp hrun
  have hq := ((hr.push le_rfl hmoved).push (Nat.zero_le _) hrenewed).reached
  simp only [evictsNewer, Bool.and_eq_true, decide_eq_true_iff, isNone_iff_eq_none] at hevicts
  obtain ⟨⟨⟨hname, hfull⟩, hfresh⟩, hpush⟩ := hevicts
  obtain ⟨⟨q', kind''⟩, hpush, hgone⟩ := Except.isOkAnd_eq_true.mp hpush
  simp only [Bool.and_eq_true, beq_iff_eq, isNone_iff_eq_none, any_eq_true,
    decide_eq_true_iff] at hgone
  obtain ⟨⟨rfl, hgone⟩, e, he, e', he', holder⟩ := hgone
  exact ⟨2, hashQueueTtl, _, q, exampleEvent "cc" none (secs 20), secs 20, q', "bb", e, "aa", e', hq, by decide, hname, hfull,
    count_eq_zero.mp hfresh, hpush, he, hgone, he', holder⟩

end DhtCrawler.PendingHashQueue
