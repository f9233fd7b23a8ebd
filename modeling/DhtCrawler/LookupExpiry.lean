import DhtCrawler.BudgetRules
import DhtCrawler.LookupBookkeeping

/-! The expiry of queries is complete although its queue is not sorted. -/

namespace DhtCrawler

open FiniteMap Meter

namespace RateBucket

variable {b : RateBucket} {burst rate : ℚ} {log newer older : List ℕ} {out now s : ℕ}

lemma Conforms.wasted (h : b.Conforms burst rate log out now) : b.Conforms burst rate log 0 now := by
  refine { h with current := nofun, metered := h.metered.lower ?_ }
  rw [Nat.cast_zero, add_zero]
  exact le_add_of_nonneg_right (Nat.cast_nonneg _)

lemma length_le_after (hlog : log = newer ++ older) (hnewer : ∀ t ∈ newer, s ≤ t) (now : ℕ) :
    newer.length ≤ after log (now - (now + 1 - s : ℕ) : ℤ) := by
  have hall : newer.countP (fun t : ℕ => (now - (now + 1 - s : ℕ) : ℤ) < (t : ℤ)) = newer.length := by
    refine List.countP_eq_length.mpr fun t ht => decide_eq_true ?_
    have hle := hnewer t ht
    omega
  unfold after
  rw [hlog, List.countP_append, hall]
  exact Nat.le_add_right _ _

lemma Conforms.length_le (h : b.Conforms burst rate log 0 now) (hburst : burst ≤ 2 ^ 32)
    (hrate : rate ≤ 2 ^ 32) (hlog : log = newer ++ older) (hnewer : ∀ t ∈ newer, s ≤ t)
    (hnow : now < s + secs 300) : newer.length ≤ 2 ^ 41 := by
  have hspan : now + 1 - s ≤ secs 300 := Nat.sub_le_iff_le_add'.mpr hnow
  have hseconds : ((now + 1 - s : ℕ) : ℚ) / 1000000000 ≤ 300 := by
    rw [div_le_iff₀ (by norm_num)]
    have hcast : ((now + 1 - s : ℕ) : ℚ) ≤ (secs 300 : ℕ) := Nat.cast_le.mpr hspan
    refine hcast.trans ?_
    norm_num [secs]
  have hnonneg : 0 ≤ ((now + 1 - s : ℕ) : ℚ) / 1000000000 := by positivity
  have hafter := h.after_add_le (now + 1 - s)
  have hcount : (newer.length : ℚ) ≤ after log (now - (now + 1 - s : ℕ) : ℤ) :=
    Nat.cast_le.mpr (length_le_after hlog hnewer now)
  have hgain : rate * (((now + 1 - s : ℕ) : ℚ) / 1000000000) ≤ 2 ^ 32 * 300 :=
    mul_le_mul hrate hseconds hnonneg (by norm_num)
  have hbound : (newer.length : ℚ) ≤ (2 ^ 41 : ℕ) := by
    rw [Nat.cast_zero, add_zero] at hafter
    push_cast
    linarith
  exact_mod_cast hbound

end RateBucket

namespace PeerLookup

def lookupNumber (n : ℕ) : ℕ := n % (2 ^ 64 - 1) + 1

lemma lookupNumber_succ (n : ℕ) : max (wrappingSucc (lookupNumber n)) 1 = lookupNumber (n + 1) := by
  unfold wrappingSucc lookupNumber
  omega

lemma lookupNumber_far {m n : ℕ} (hlt : m < n) (h : lookupNumber m = lookupNumber n) :
    m + (2 ^ 64 - 1) ≤ n := by
  unfold lookupNumber at h
  omega

lemma lookupDeadline_mono {t t' : Instant} (h : t ≤ t') (duration : Duration) :
    lookupDeadline t duration ≤ lookupDeadline t' duration :=
  Nat.add_le_add_right h _

lemma lookupDeadline_le (t : Instant) (duration : Duration) : lookupDeadline t duration ≤ t + secs 300 :=
  Nat.add_le_add_left (min_le_right _ _) _

lemma lt_lookupDeadline {duration : Duration} (h : 0 < duration) (t : Instant) : t < lookupDeadline t duration :=
  Nat.lt_add_of_pos_right (lt_min h (by decide))

lemma lookupDuration_pos (ms : ℕ) : 0 < lookupDuration ms := by
  unfold lookupDuration millis
  exact Nat.mul_pos (lt_min (lt_max_of_lt_right Nat.one_pos) (by decide)) (by decide)

lemma LookupState.Popped.deadline_eq {state state' : LookupState} {node : NodeTuple} {sourceSeed : Bool}
    (h : state.Popped node sourceSeed state') : state'.deadline = state.deadline := by
  cases h with
  | source => rfl
  | frontier => rfl

namespace PeerLookupActor

variable {σ σ' : PeerLookupActor} {options : PeerLookupOptions} {log : List Instant} {now : Instant}
  {cause : Cause}

/-! ### Where a pending query stands -/

def startRate (options : PeerLookupOptions) : ℚ := options.maxLookupsPerSecond.toNat

def startBurst (options : PeerLookupOptions) : ℚ :=
  if startRate options ≤ 0 then 0 else max (options.burst.toNat : ℚ) 1

def Begun (log : List Instant) (id : ℕ) (deadline : Instant) : Prop :=
  ∃ newer t older, log = newer ++ t :: older ∧ id = lookupNumber older.length ∧ (∀ t' ∈ newer, t ≤ t') ∧
    deadline ≤ t + secs 300

structure Owned (σ : PeerLookupActor) (log : List Instant) (query : PendingQuery) (sentAt : Instant) : Prop where
  deadline : ∃ state, σ.active.get query.lookupId = some state ∧ state.deadline = query.deadline
  recent : ∃ newest older n, log = newest ++ older ∧ (∀ t ∈ newest, sentAt ≤ t) ∧
    query.lookupId = lookupNumber n ∧ n < older.length ∧ older.length ≤ n + 1 + 2 ^ 41

/-- Nothing in front of the record of the query is due later than a query sent with it. -/
structure Placed (σ : PeerLookupActor) (log : List Instant) (key : PendingKey) (query : PendingQuery)
    (sentAt : Instant) : Prop where
  past : sentAt ≤ σ.clock
  place : ∃ before after, σ.pendingExpiry = before ++ (query.deadline, key) :: after ∧
    ∀ r ∈ before, r.1 ≤ lookupDeadline sentAt σ.queryTimeout
  due : query.deadline = lookupDeadline sentAt σ.queryTimeout ∨
    lookupDeadline sentAt σ.queryTimeout ≤ σ.clock ∨ Owned σ log query sentAt

structure Logged (options : PeerLookupOptions) (σ : PeerLookupActor) (log : List Instant) : Prop where
  paid : σ.requestBudget.Conforms (startBurst options) (startRate options) log 0 σ.clock
  numbered : σ.nextLookupId = lookupNumber log.length
  positive : 0 < σ.queryTimeout
  begun : ∀ id state, σ.active.get id = some state → Begun log id state.deadline
  horizon : ∀ r ∈ σ.pendingExpiry, r.1 ≤ lookupDeadline σ.clock σ.queryTimeout
  placed : ∀ key query, σ.pending.get key = some query → ∃ sentAt, Placed σ log key query sentAt

lemma startRate_le (options : PeerLookupOptions) : startRate options ≤ 2 ^ 32 := by
  have hlt : options.maxLookupsPerSecond.toNat ≤ 2 ^ 32 := options.maxLookupsPerSecond.toNat_lt.le
  unfold startRate
  exact_mod_cast hlt

lemma startBurst_le (options : PeerLookupOptions) : startBurst options ≤ 2 ^ 32 := by
  have hlt : options.burst.toNat ≤ 2 ^ 32 := options.burst.toNat_lt.le
  unfold startBurst
  split_ifs
  · norm_num
  · exact max_le (by exact_mod_cast hlt) (by norm_num)

lemma logged_new (options : PeerLookupOptions) (netmode : NetMode) (socketV4 socketV6 : Bool)
    (now : Instant) : Logged options (new options netmode socketV4 socketV6 now) [] where
  paid := RateBucket.conforms_new (Nat.cast_nonneg _) _ (Nat.cast_nonneg _) true now
  numbered := rfl
  positive := lookupDuration_pos _
  begun := fun _ _ h => nomatch h
  horizon := nofun
  placed := fun _ _ h => nomatch h

/-! ### Acts -/

/-- The lookup of a query that stays pending goes on with its deadline, and the query keeps its place. -/
structure Stays (σ σ' : PeerLookupActor) (key : PendingKey) (query : PendingQuery) : Prop where
  pending : σ.pending.get key = some query
  active : ∀ state, σ.active.get query.lookupId = some state →
    ∃ state', σ'.active.get query.lookupId = some state' ∧ state'.deadline = state.deadline
  place : ∀ before after, σ.pendingExpiry = before ++ (query.deadline, key) :: after →
    ∃ before' after', σ'.pendingExpiry = before' ++ (query.deadline, key) :: after' ∧ before' ⊆ before

structure Sent (σ σ' : PeerLookupActor) (key : PendingKey) (query : PendingQuery) : Prop where
  active : ∃ state state', σ.active.get query.lookupId = some state ∧ σ.clock < state.deadline ∧
    σ'.active.get query.lookupId = some state' ∧ state'.deadline = state.deadline ∧
    query.deadline = min (lookupDeadline σ'.clock σ.queryTimeout) state.deadline
  place : σ'.pendingExpiry = σ.pendingExpiry ++ [(query.deadline, key)]

structure Effect (σ σ' : PeerLookupActor) : Prop where
  clock : σ.clock ≤ σ'.clock
  queryTimeout : σ'.queryTimeout = σ.queryTimeout
  nextLookupId : σ'.nextLookupId = σ.nextLookupId
  active : ∀ id state', σ'.active.get id = some state' →
    ∃ state, σ.active.get id = some state ∧ state'.deadline = state.deadline
  records : ∀ r ∈ σ'.pendingExpiry, r ∈ σ.pendingExpiry ∨ r.1 ≤ lookupDeadline σ'.clock σ.queryTimeout
  pending : ∀ key query, σ'.pending.get key = some query → Stays σ σ' key query ∨ Sent σ σ' key query

lemma insert_deadline {lookupId : ℕ} {state : LookupState} (hstate : σ.active.get lookupId = some state)
    (next : LookupState) (hdeadline : next.deadline = state.deadline) :
    (∀ id state', (σ.active.insert lookupId next).get id = some state' →
      ∃ state, σ.active.get id = some state ∧ state'.deadline = state.deadline) ∧
    ∀ id state, σ.active.get id = some state →
      ∃ state', (σ.active.insert lookupId next).get id = some state' ∧ state'.deadline = state.deadline := by
  refine ⟨fun id state' hstate' => ?_, fun id old hold => ?_⟩
  · exact forall_insert (P := fun id state' => ∃ state, σ.active.get id = some state ∧
      state'.deadline = state.deadline) ⟨state, hstate, hdeadline⟩ (fun _ s _ hs => ⟨s, hs, rfl⟩) id state' hstate'
  · rw [get_insert]
    split_ifs with hid
    · rw [hid, hstate] at hold
      cases hold
      exact ⟨next, rfl, hdeadline⟩
    · exact ⟨old, hold, rfl⟩

lemma active_awaited (σ : PeerLookupActor) (lookupId : ℕ) (node : NodeTuple) (sourceSeed sent : Bool)
    (next : LookupState) (clock : Instant) (dropped : Finset ℕ) (future : ℕ → Look) (key : PendingKey) :
    (((σ.attempted lookupId node sourceSeed next sent).pass clock dropped future).awaitReply lookupId key
      next).active = σ.active.insert lookupId { next with outstanding := next.outstanding + 1 } :=
  insert_insert _ _ _ _

lemma place_tail {r r' : Instant × PendingKey} {rest before after : List (Instant × PendingKey)}
    (hfirst : σ.pendingExpiry = r' :: rest) (hne : r ≠ r') (hplace : σ.pendingExpiry = before ++ r :: after) :
    ∃ before' after', rest = before' ++ r :: after' ∧ before' ⊆ before := by
  rw [hfirst] at hplace
  cases before with
  | nil => exact absurd (List.cons.inj hplace).1.symm hne
  | cons first before => exact ⟨before, after, (List.cons.inj hplace).2, List.subset_cons_self _ _⟩

lemma place_append {r : Instant × PendingKey} {records before after : List (Instant × PendingKey)}
    (hplace : records = before ++ r :: after) (last : Instant × PendingKey) :
    ∃ before' after', records ++ [last] = before' ++ r :: after' ∧ before' ⊆ before := by
  refine ⟨before, after ++ [last], ?_, List.Subset.refl _⟩
  rw [hplace, List.append_assoc, List.cons_append]

lemma effect_of_records (hclock : σ.clock ≤ σ'.clock) (htimeout : σ'.queryTimeout = σ.queryTimeout)
    (hnext : σ'.nextLookupId = σ.nextLookupId) (hrecords : σ'.pendingExpiry = σ.pendingExpiry)
    (hactive : ∀ id state', σ'.active.get id = some state' →
      ∃ state, σ.active.get id = some state ∧ state'.deadline = state.deadline)
    (hpending : ∀ key query, σ'.pending.get key = some query → σ.pending.get key = some query ∧
      ∀ state, σ.active.get query.lookupId = some state →
        ∃ state', σ'.active.get query.lookupId = some state' ∧ state'.deadline = state.deadline) :
    Effect σ σ' := by
  refine ⟨hclock, htimeout, hnext, hactive, fun r hr => .inl (hrecords ▸ hr), fun key query hquery => ?_⟩
  obtain ⟨hold, hstays⟩ := hpending key query hquery
  refine .inl ⟨hold, hstays, fun before after hplace => ?_⟩
  exact ⟨before, after, hrecords.trans hplace, List.Subset.refl _⟩

lemma Act.effect (hact : Act cause σ σ') : Effect σ σ' := by
  cases hact with
  | pass clock dropped future hclock hdropped =>
    exact effect_of_records hclock rfl rfl rfl (fun _ state hs => ⟨state, hs, rfl⟩)
      fun _ _ hquery => ⟨hquery, fun state hs => ⟨state, hs, rfl⟩⟩
  | charge requestBudget taken htake =>
    exact effect_of_records le_rfl rfl rfl rfl (fun _ state hs => ⟨state, hs, rfl⟩)
      fun _ _ hquery => ⟨hquery, fun state hs => ⟨state, hs, rfl⟩⟩
  | @unsent _ _ lookupId node sourceSeed state state' clock dropped future hstate hmay hpop hclock hdropped =>
    obtain ⟨hactive, hstays⟩ := insert_deadline hstate { state' with queried := state'.queried + 1 }
      hpop.deadline_eq
    exact effect_of_records hclock rfl rfl rfl hactive fun _ query hquery => ⟨hquery, hstays query.lookupId⟩
  | @sent _ _ lookupId node sourceSeed state state' clock dropped future hstate hmay hpop hclock hdropped =>
    have hdeadline := hpop.deadline_eq
    have hlive := (mayQuery_iff.mp hmay).2.1
    obtain ⟨hactive, hstays⟩ := insert_deadline hstate
      { state' with queried := state'.queried + 1, outstanding := state'.outstanding + 1 } hdeadline
    refine ⟨hclock, rfl, rfl, fun id s hs => ?_, List.forall_mem_append.mpr ⟨fun r => .inl,
      List.forall_mem_singleton.mpr (.inr (min_le_left _ _))⟩, fun key query hquery => ?_⟩
    · rw [active_awaited] at hs
      exact hactive id s hs
    · rw [get_pending_awaitReply] at hquery
      split_ifs at hquery with hkey
      · cases hquery
        subst hkey
        refine .inr ⟨⟨state, _, hstate, hlive, get_insert_self _ _ _, hdeadline, ?_⟩, rfl⟩
        exact congrArg (min _) hdeadline
      · refine .inl ⟨hquery, fun s hs => ?_, fun before after hplace => place_append hplace _⟩
        rw [active_awaited]
        exact hstays query.lookupId s hs
  | finish lookupId =>
    refine effect_of_records le_rfl rfl rfl rfl
      (fun _ state hs => ⟨state, (get_active_finishLookup.mp hs).2, rfl⟩) fun key query hquery => ?_
    obtain ⟨hquery, hne⟩ := get_pending_finishLookup.mp hquery
    exact ⟨hquery, fun state hs => ⟨state, get_active_finishLookup.mpr ⟨hne, hs⟩, rfl⟩⟩
  | @answer _ key query state next response discovered hquery hstate hdeadline hlearn =>
    obtain ⟨_, _, _, hnext, -⟩ := hlearn.frame
    obtain ⟨hactive, hstays⟩ := insert_deadline hstate next (by rw [hnext])
    exact effect_of_records le_rfl rfl rfl rfl hactive
      fun _ q hq => ⟨(get_of_get_erase hq).2, hstays q.lookupId⟩
  | dropRecord deadline key pendingExpiry hfirst hended =>
    refine ⟨le_rfl, rfl, rfl, fun _ state hs => ⟨state, hs, rfl⟩, fun r hr => ?_, fun k q hq => ?_⟩
    · rw [hfirst]
      exact .inl (List.mem_cons_of_mem _ hr)
    · refine .inl ⟨hq, fun state hs => ⟨state, hs, rfl⟩, fun before after hplace => ?_⟩
      refine place_tail hfirst (fun hrecord => ?_) hplace
      -- the record of a query that is still pending is not dropped
      obtain ⟨rfl, rfl⟩ := Prod.mk.inj hrecord
      change σ.pending.get k = some q at hq
      rw [hq, Option.filter_some, if_pos (decide_eq_true rfl)] at hended
      cases hended
  | @timeout _ key query state pendingExpiry hfirst hquery hstate hdue =>
    obtain ⟨hactive, hstays⟩ := insert_deadline hstate { state with outstanding := state.outstanding - 1 } rfl
    refine ⟨le_rfl, rfl, rfl, hactive, fun r hr => ?_, fun k q hq => ?_⟩
    · rw [hfirst]
      exact .inl (List.mem_cons_of_mem _ hr)
    · obtain ⟨hne, hq⟩ := get_of_get_erase hq
      exact .inl ⟨hq, hstays q.lookupId, fun before after hplace =>
        place_tail hfirst (fun hrecord => hne (Prod.mk.inj hrecord).2) hplace⟩

lemma Act.paid {burst rate : ℚ} (hact : Act cause σ σ')
    (h : σ.requestBudget.Conforms burst rate log 0 σ.clock) :
    σ'.requestBudget.Conforms burst rate log 0 σ'.clock := by
  cases hact with
  | pass clock dropped future hclock => exact h.later hclock
  | charge requestBudget taken htake => exact (h.tryTakeOne htake).1.wasted
  | unsent lookupId clock dropped future hstate hmay hpop hclock => exact h.later hclock
  | sent lookupId clock dropped future hstate hmay hpop hclock => exact h.later hclock
  | _ => exact h

/-! ### Runs -/

lemma Logged.recent (h : Logged options σ log) {lookupId : ℕ} {state : LookupState}
    (hstate : σ.active.get lookupId = some state) (hlive : σ.clock < state.deadline) :
    ∃ n, lookupId = lookupNumber n ∧ n < log.length ∧ log.length ≤ n + 1 + 2 ^ 41 := by
  obtain ⟨newer, t, older, hlog, hid, hnewer, hdeadline⟩ := h.begun lookupId state hstate
  have hfew := h.paid.length_le (startBurst_le options) (startRate_le options) hlog hnewer
    (hlive.trans_le hdeadline)
  have hlength : log.length = newer.length + (older.length + 1) := by
    rw [hlog, List.length_append, List.length_cons]
  exact ⟨older.length, hid, by omega, by omega⟩

lemma Placed.stays {key : PendingKey} {query : PendingQuery} {sentAt : Instant} (heffect : Effect σ σ')
    (hstays : Stays σ σ' key query) (h : Placed σ log key query sentAt) : Placed σ' log key query sentAt := by
  obtain ⟨hpast, ⟨before, after, hplace, hbefore⟩, hdue⟩ := h
  obtain ⟨before', after', hplace', hsub⟩ := hstays.place before after hplace
  refine ⟨hpast.trans heffect.clock, ⟨before', after', hplace', fun r hr => ?_⟩, ?_⟩
  · rw [heffect.queryTimeout]
    exact hbefore r (hsub hr)
  · rw [heffect.queryTimeout]
    refine hdue.imp_right (Or.imp (fun hlate => hlate.trans heffect.clock) fun howned => ?_)
    obtain ⟨state, hstate, hdeadline⟩ := howned.deadline
    obtain ⟨state', hstate', hdeadline'⟩ := hstays.active state hstate
    exact ⟨⟨state', hstate', hdeadline'.trans hdeadline⟩, howned.recent⟩

lemma Logged.sent {key : PendingKey} {query : PendingQuery} (heffect : Effect σ σ')
    (hsent : Sent σ σ' key query) (h : Logged options σ log) : Placed σ' log key query σ'.clock := by
  obtain ⟨state, state', hstate, hlive, hstate', hsame, hdeadline⟩ := hsent.active
  refine ⟨le_rfl, ⟨σ.pendingExpiry, [], hsent.place, fun r hr => ?_⟩, ?_⟩
  · rw [heffect.queryTimeout]
    exact (h.horizon r hr).trans (lookupDeadline_mono heffect.clock _)
  · rw [heffect.queryTimeout]
    rcases min_choice (lookupDeadline σ'.clock σ.queryTimeout) state.deadline with heq | heq
    · exact .inl (hdeadline.trans heq)
    · obtain ⟨n, hid, hlt, hle⟩ := h.recent hstate hlive
      have howner : state'.deadline = query.deadline := hsame.trans (hdeadline.trans heq).symm
      exact .inr (.inr ⟨⟨state', hstate', howner⟩, [], log, n, rfl, nofun, hid, hlt, hle⟩)

lemma Logged.act (hact : Act cause σ σ') (h : Logged options σ log) : Logged options σ' log := by
  have heffect := hact.effect
  refine ⟨hact.paid h.paid, heffect.nextLookupId.trans h.numbered, heffect.queryTimeout ▸ h.positive,
    fun id state' hstate' => ?_, fun r hr => ?_, fun key query hquery => ?_⟩
  · obtain ⟨state, hstate, hdeadline⟩ := heffect.active id state' hstate'
    rw [hdeadline]
    exact h.begun id state hstate
  · rw [heffect.queryTimeout]
    rcases heffect.records r hr with hold | hnew
    · exact (h.horizon r hold).trans (lookupDeadline_mono heffect.clock _)
    · exact hnew
  · rcases heffect.pending key query hquery with hstays | hsent
    · obtain ⟨sentAt, hplaced⟩ := h.placed key query hstays.pending
      exact ⟨sentAt, hplaced.stays heffect hstays⟩
    · exact ⟨σ'.clock, h.sent heffect hsent⟩

lemma Logged.steadies (hsteps : Steadies σ σ') (h : Logged options σ log) : Logged options σ' log := by
  induction hsteps with
  | refl => exact h
  | tail _ hstep ih => exact hstep.elim fun _ hact => ih.act hact

lemma Logged.opened {requestBudget : RateBucket} (hopen : σ.Opening requestBudget)
    (h : Logged options σ log) (request : PeerLookupRequest) (published : Published) :
    Logged options (σ.opened request published requestBudget) (σ.clock :: log) := by
  have hpaid := (h.paid.tryTakeOne hopen.paid).1
  have hpast : ∀ t ∈ log, t ≤ σ.clock := fun t ht => (h.paid.metered.past t ht).trans h.paid.last_le
  refine ⟨hpaid.spend, ?_, h.positive, forall_insert ?_ fun id state _ hstate => ?_, h.horizon,
    fun key query hquery => ?_⟩
  · change max (wrappingSucc σ.nextLookupId) 1 = _
    rw [h.numbered, lookupNumber_succ, List.length_cons]
  · exact ⟨[], σ.clock, log, rfl, h.numbered, nofun, lookupDeadline_le _ _⟩
  · obtain ⟨newer, t, older, hlog, hnumber, hnewer, hdeadline⟩ := h.begun id state hstate
    refine ⟨σ.clock :: newer, t, older, ?_, hnumber, ?_, hdeadline⟩
    · rw [hlog, List.cons_append]
    · refine List.forall_mem_cons.mpr ⟨hpast t ?_, hnewer⟩
      rw [hlog]
      exact List.mem_append_right _ List.mem_cons_self
  · obtain ⟨sentAt, hsent, hplace, hdue⟩ := h.placed key query hquery
    refine ⟨sentAt, hsent, hplace, ?_⟩
    rcases hdue with hfull | hlate | ⟨⟨state, hstate, hdeadline⟩, newest, older, n, hlog, hnewest, hid, hlt, hle⟩
    · exact .inl hfull
    · exact .inr (.inl hlate)
    by_cases hreplaced : query.lookupId = σ.nextLookupId
    · refine .inr (.inl ?_)
      have hlength : log.length = newest.length + older.length := by
        rw [hlog, List.length_append]
      have hfar := lookupNumber_far (m := n) (n := log.length) (by omega) (by rw [← hid, hreplaced, h.numbered])
      by_contra hearly
      have hfew := h.paid.length_le (startBurst_le options) (startRate_le options) hlog hnewest
        ((not_le.mp hearly).trans_le (lookupDeadline_le _ _))
      omega
    · refine .inr (.inr ⟨⟨state, ?_, hdeadline⟩, σ.clock :: newest, older, n, ?_, ?_, hid, hlt, hle⟩)
      · exact (get_insert_ne _ hreplaced _).trans hstate
      · rw [hlog, List.cons_append]
      · exact List.forall_mem_cons.mpr ⟨hsent, hnewest⟩

lemma logged_invariant (options : PeerLookupOptions) :
    Invariant options fun σ => ∃ log, Logged options σ log where
  start := fun netmode socketV4 socketV6 now => ⟨[], logged_new options netmode socketV4 socketV6 now⟩
  act := fun hact _ ⟨log, h⟩ => ⟨log, h.act hact⟩
  opened := fun hopen _ ⟨_, h⟩ request published => ⟨_, h.opened hopen request published⟩

/-! ### Expiry -/

def Cleared (now : Instant) (σ : PeerLookupActor) : Prop :=
  ∀ key query, σ.pending.get key = some query → now < query.deadline ∨
    ∀ state, σ.active.get query.lookupId = some state → state.deadline ≤ now

lemma Logged.cleared (h : Logged options σ log) (hclock : σ.clock = now) (hfront : ∀ deadline key rest,
    σ.pendingExpiry = (deadline, key) :: rest → now < deadline) : Cleared now σ := by
  subst hclock
  intro key query hquery
  obtain ⟨sentAt, -, ⟨before, after, hplace, hbefore⟩, hdue⟩ := h.placed key query hquery
  cases before with
  | nil => exact .inl (hfront _ _ _ hplace)
  | cons first before =>
    have hfirst : σ.clock < lookupDeadline sentAt σ.queryTimeout :=
      (hfront first.1 first.2 _ hplace).trans_le (hbefore first List.mem_cons_self)
    rcases hdue with hfull | hlate | howned
    · exact .inl (hfull ▸ hfirst)
    · exact absurd hlate (not_le.mpr hfirst)
    · obtain ⟨state, hstate, hdeadline⟩ := howned.deadline
      rcases lt_or_ge σ.clock query.deadline with hlater | hpassed
      · exact .inl hlater
      · refine .inr fun state' hstate' => ?_
        cases hstate.symm.trans hstate'
        exact hdeadline.trans_le hpassed

lemma Cleared.act (hact : Act cause σ σ') (hpositive : 0 < σ.queryTimeout) (hclock : now ≤ σ.clock)
    (h : Cleared now σ) : Cleared now σ' := by
  have heffect := hact.effect
  intro key query hquery
  rcases heffect.pending key query hquery with hstays | hsent
  · refine (h key query hstays.pending).imp_right fun hdue state' hstate' => ?_
    obtain ⟨state, hstate, hdeadline⟩ := heffect.active _ state' hstate'
    exact hdeadline.trans_le (hdue state hstate)
  · obtain ⟨state, state', hstate, hlive, hstate', hsame, hdeadline⟩ := hsent.active
    rw [hdeadline]
    refine .inl (lt_min ?_ (hclock.trans_lt hlive))
    exact (hclock.trans heffect.clock).trans_lt (lt_lookupDeadline hpositive _)

lemma Cleared.steadies (hsteps : Steadies σ σ') (hpositive : 0 < σ.queryTimeout) (hclock : now ≤ σ.clock)
    (h : Cleared now σ) : Cleared now σ' := by
  have hall : (0 < σ'.queryTimeout ∧ now ≤ σ'.clock) ∧ Cleared now σ' := by
    induction hsteps with
    | refl => exact ⟨⟨hpositive, hclock⟩, h⟩
    | tail _ hstep ih =>
      obtain ⟨cause, hact⟩ := hstep
      obtain ⟨⟨hpositive', hclock'⟩, hcleared⟩ := ih
      have heffect := hact.effect
      exact ⟨⟨heffect.queryTimeout ▸ hpositive', hclock'.trans heffect.clock⟩,
        hcleared.act hact hpositive' hclock'⟩
  exact hall.2

lemma expire_cleared (h : Logged options σ log) (hsound : σ.Sound) (hawake : σ.Awake)
    (iteration : Iteration ℕ) : Except.Sure (σ.expire iteration σ.clock) (Cleared σ.clock) := by
  obtain ⟨hexp, hfront⟩ := expireQueries_spec ⟨hsound, .refl⟩ hawake
  have hbut : AwakeBut (iteration.order (σ.expireQueries σ.clock).2) (σ.expireQueries σ.clock).1 :=
    fun id state hstate => (hexp.awake id state hstate).imp_left iteration.mem_order.mpr
  have hlogged := h.steadies (Caused.steadies hexp.ran.acts)
  have hcleared := hlogged.cleared hexp.clock hfront
  unfold expire
  refine (dispatchAll_spec _ ⟨hexp.ran.sound, .refl⟩ hbut).bind fun σ' hsettled => ?_
  obtain ⟨hdone, -⟩ := finishAll_spec ((iteration.order σ'.look.active.keys).filter fun id =>
    σ'.look.completeAt id σ.clock) ⟨hsettled.toRan.look, hsettled.awake⟩
  exact hcleared.steadies (Caused.steadies hdone.acts) hlogged.positive hexp.clock.ge

/-- **Expiry is complete.** After a maintenance tick every pending query is due later than the tick, and so is its
lookup. -/
theorem expiry_complete (h : Reachable options σ) (future : ℕ → Look) (iteration : Iteration ℕ) :
    ∃ σ', σ.handle future (.maintenance iteration) = .ok σ' ∧
      ∀ key query, σ'.pending.get key = some query → σ.clock + (future 0).elapsed < query.deadline ∧
        ∃ state, σ'.active.get query.lookupId = some state ∧ σ.clock + (future 0).elapsed < state.deadline := by
  obtain ⟨hsound, hawake⟩ := h.sound
  obtain ⟨log, hlogged⟩ := (logged_invariant options).reachable h
  have hsound' := hsound.handle future
  have hlook := hlogged.steadies (steadies_look σ future)
  have hexpire := (expire_spec ⟨hsound', .refl⟩ hawake iteration).and
    (expire_cleared hlook hsound' hawake iteration)
  obtain ⟨σ', hrun, ⟨hsettled, hdeadline⟩, hcleared⟩ := hexpire.exists
  refine ⟨σ', hrun, fun key query hquery => ?_⟩
  obtain ⟨state, hstate⟩ := hsettled.sound.owned key query hquery
  have hlive := hdeadline _ state hstate
  refine ⟨(hcleared key query hquery).resolve_right fun hended => ?_, state, hstate, hlive⟩
  exact absurd (hended state hstate) (not_le.mpr hlive)

/-! ### A hidden query -/

def lapse (elapsed : Duration) : ℕ → Look
  | 0 => ⟨elapsed, ∅, true⟩
  | _ => ⟨0, ∅, true⟩

def hidingOptions : PeerLookupOptions := { chainOptions with queryTimeoutMs := 1500 }

def hidingEvents : List ((ℕ → Look) × Event) :=
  [(lapse 0, .request ⟨default, 0, [chainNode 0 0, chainNode 0 1]⟩ noNodes),
    (lapse (secs 1), .request ⟨default, 1, [chainNode 1 0]⟩ noNodes),
    (lapse (millis 200), .response (chainKey 0 0 1) (chainResponse 0 0))]

theorem expiry_complete_hidden :
    ∃ σ, Reachable hidingOptions σ ∧ σ.clock = millis 1200 ∧
      σ.pendingExpiry.map Prod.fst = [millis 1500, millis 2500, secs 2] ∧
      σ.pending.get (chainKey 0 1 3) = some ⟨1, secs 2⟩ ∧
      ∀ iteration, ∃ σ', σ.handle (lapse (secs 1)) (.maintenance iteration) = .ok σ' ∧
        ∀ key query, σ'.pending.get key = some query → millis 2200 < query.deadline := by
  have htest : ((new hidingOptions .ipv6Only false true 0).runEvents hidingEvents).isOkAnd
      (fun σ => decide (σ.clock = millis 1200 ∧
        σ.pendingExpiry.map Prod.fst = [millis 1500, millis 2500, secs 2] ∧
        σ.pending.get (chainKey 0 1 3) = some ⟨1, secs 2⟩)) = true := by
    decide +kernel
  obtain ⟨σ, hrun, htest⟩ := Except.isOkAnd_eq_true.mp htest
  obtain ⟨hclock, hrecords, hpending⟩ := of_decide_eq_true htest
  have hreach : Reachable hidingOptions σ := (Reachable.start _ _ _ _).runEvents hrun
  refine ⟨σ, hreach, hclock, hrecords, hpending, fun iteration => ?_⟩
  obtain ⟨σ', hrun, hdue⟩ := expiry_complete hreach (lapse (secs 1)) iteration
  refine ⟨σ', hrun, fun key query hquery => ?_⟩
  have hlater := (hdue key query hquery).1
  rw [hclock] at hlater
  exact hlater

end PeerLookupActor

end PeerLookup

end DhtCrawler
