import DhtCrawler.LookupReplies

/-! The bookkeeping of the lookup actor, exact as long as neither the 56 bits of the transaction ids nor the 64 of
the lookup ids have come around: up to then no pending query is overwritten and no lookup replaced. -/

namespace DhtCrawler.PeerLookup.PeerLookupActor

open FiniteMap List Finset Nat RateBucket

variable {σ σ' : PeerLookupActor} {options : PeerLookupOptions} {cause : Cause}

structure Within (σ : PeerLookupActor) : Prop where
  queries : σ.queries.length ≤ 2 ^ 56
  started : σ.started ≤ 2 ^ 64 - 1

def pendingOf (σ : PeerLookupActor) (id : ℕ) : ℕ := σ.pending.count fun query => query.lookupId == id

/-- The lookups are numbered as they were started, and `outstanding` counts their pending queries. -/
structure Counted (σ : PeerLookupActor) : Prop where
  nextLookupId : σ.started < 2 ^ 64 - 1 → σ.nextLookupId = σ.started + 1
  numbered : ∀ id state, σ.active.get id = some state → id ≤ σ.started
  outstanding : ∀ id state, σ.active.get id = some state → state.outstanding = σ.pendingOf id

lemma Act.within (hact : Act cause σ σ') (h : σ'.Within) : σ.Within := by
  cases hact with
  | unsent => exact ⟨(le_succ _).trans h.queries, h.started⟩
  | sent => exact ⟨(le_succ _).trans h.queries, h.started⟩
  | _ => exact ⟨h.queries, h.started⟩

lemma pendingOf_eq_zero (h : σ.Sound) {id : ℕ} (hid : σ.active.get id = none) : σ.pendingOf id = 0 := by
  refine count_eq_zero.mpr fun key query hquery => ?_
  obtain ⟨state, hstate⟩ := h.owned key query hquery
  refine beq_eq_false_iff_ne.mpr fun heq => ?_
  rw [heq, hid] at hstate
  cases hstate

lemma Counted.pass (h : σ.Counted) (clock : Instant) (dropped : Finset ℕ) (future : ℕ → Look) :
    (σ.pass clock dropped future).Counted := { h with }

variable {lookupId n : ℕ} {state state' : LookupState}

lemma Counted.numbered_insert (h : σ.Counted) (hstate : σ.active.get lookupId = some state) (id : ℕ)
    (s : LookupState) (hs : (σ.active.insert lookupId state').get id = some s) : id ≤ σ.started :=
  forall_insert (P := fun id _ => id ≤ σ.started) (h.numbered lookupId state hstate)
    (fun id s _ hs => h.numbered id s hs) id s hs

lemma Counted.ended (h : σ.Counted) {key : PendingKey} {query : PendingQuery}
    (hquery : σ.pending.get key = some query) (hstate : σ.active.get query.lookupId = some state)
    (hless : state'.outstanding = state.outstanding - 1) (id : ℕ) (s : LookupState)
    (hs : (σ.active.insert query.lookupId state').get id = some s) :
    s.outstanding = (σ.pending.erase key).count fun q => q.lookupId == id := by
  have hcount := count_erase hquery fun q => q.lookupId == id
  rw [get_insert] at hs
  split_ifs at hs with hid
  · cases hs
    subst hid
    rw [if_pos (beq_self_eq_true _)] at hcount
    rw [hless, h.outstanding _ _ hstate, pendingOf, ← hcount, Nat.add_sub_cancel]
  · rw [if_neg (by simpa using Ne.symm hid)] at hcount
    rw [h.outstanding id s hs, pendingOf, ← hcount, Nat.add_zero]

lemma Counted.opened (h : σ.Counted) (hsound : σ.Sound) (hbound : σ.started + 1 ≤ 2 ^ 64 - 1)
    (request : PeerLookupRequest) (published : Published) (requestBudget : RateBucket) :
    (σ.opened request published requestBudget).Counted := by
  have hnext := h.nextLookupId hbound
  have hnew : σ.active.get σ.nextLookupId = none := by
    refine Option.eq_none_iff_forall_ne_some.mpr fun state hget => ?_
    have hle := h.numbered _ state hget
    omega
  unfold PeerLookupActor.opened openLookup
  refine ⟨fun hlt => ?_, forall_insert hnext.le fun id state _ hstate => ?_,
    forall_insert ?_ fun id state _ hstate => h.outstanding id state hstate⟩
  · dsimp only at hlt ⊢
    rw [succ_counter (by omega), hnext]
  · exact (h.numbered id state hstate).trans (le_succ _)
  · exact (pendingOf_eq_zero hsound hnew).symm

lemma Counted.attempted (h : σ.Counted) {node : NodeTuple} {sourceSeed : Bool}
    (hstate : σ.active.get lookupId = some state) (hsame : state'.outstanding = state.outstanding)
    (sent : Bool) : (σ.attempted lookupId node sourceSeed state' sent).Counted :=
  ⟨h.nextLookupId, h.numbered_insert hstate,
    forall_insert (hsame.trans (h.outstanding lookupId state hstate)) fun id s _ hs => h.outstanding id s hs⟩

lemma Counted.finishLookup (h : σ.Counted) (lookupId : ℕ) : (σ.finishLookup lookupId).Counted := by
  refine ⟨h.nextLookupId, fun id state hstate => ?_, fun id state hstate => ?_⟩
  · exact h.numbered id state (get_active_finishLookup.mp hstate).2
  · obtain ⟨hne, hold⟩ := get_active_finishLookup.mp hstate
    rw [h.outstanding id state hold]
    refine count_congr fun key => ?_
    unfold PeerLookupActor.finishLookup
    rw [get_retain]
    cases σ.pending.get key with
    | none => rfl
    | some query =>
      by_cases hid : query.lookupId = lookupId
      · simp [hid, Ne.symm hne]
      · simp [hid]

lemma Counted.awaitReply (h : σ.Counted) {key : PendingKey} (hstate : σ.active.get lookupId = some state)
    (hnew : σ.pending.get key = none) : (σ.awaitReply lookupId key state).Counted := by
  unfold PeerLookupActor.awaitReply
  refine ⟨h.nextLookupId, h.numbered_insert hstate, fun id s hs => ?_⟩
  unfold pendingOf
  rw [count_insert_new hnew]
  rw [get_insert] at hs
  split_ifs at hs with hid
  · cases hs
    rw [hid, if_pos (beq_self_eq_true _), h.outstanding lookupId state hstate, pendingOf]
  · rw [if_neg (by simpa using Ne.symm hid), h.outstanding id s hs, pendingOf, Nat.add_zero]

lemma counted_invariant (options : PeerLookupOptions) :
    Invariant options fun σ => σ.Within → σ.Issuing ∧ σ.Counted where
  start := fun _ _ _ _ _ => ⟨⟨rfl, trivial, fun _ _ h => nomatch h⟩, fun _ => rfl, fun _ _ h => (nomatch h),
    fun _ _ h => nomatch h⟩
  opened := fun hopen hsound ih request published hwithin => by
    obtain ⟨hissuing, h⟩ := ih ⟨hwithin.queries, (le_succ _).trans hwithin.started⟩
    exact ⟨hissuing.of_pending rfl rfl fun _ _ hget => hget, h.opened hsound hwithin.started request published _⟩
  act := by
    intro cause σ σ' hact hsound ih hwithin
    obtain ⟨hissuing, h⟩ := ih (hact.within hwithin)
    refine ⟨hact.issuing (fun _ => hissuing) hwithin.queries, ?_⟩
    cases hact with
    | unsent lookupId clock dropped future hstate hmay hpop =>
      refine Counted.pass ?_ clock dropped future
      refine h.attempted hstate ?_ false
      exact hpop.outstanding_eq
    | @sent _ _ lookupId node sourceSeed state state' clock dropped future hstate hmay hpop =>
      have hpass : ((σ.attempted lookupId node sourceSeed
          { state' with queried := state'.queried + 1 } true).pass clock dropped future).Counted := by
        refine Counted.pass ?_ clock dropped future
        refine h.attempted hstate ?_ true
        exact hpop.outstanding_eq
      exact hpass.awaitReply (get_insert_self _ _ _) (hissuing.fresh hwithin.queries node)
    | finish lookupId => exact h.finishLookup lookupId
    | answer key response hquery hstate hdeadline hlearn =>
      obtain ⟨_, _, _, rfl, -⟩ := hlearn.frame
      exact ⟨h.nextLookupId, h.numbered_insert hstate, h.ended hquery hstate rfl⟩
    | timeout key pendingExpiry hfirst hquery hstate =>
      exact ⟨h.nextLookupId, h.numbered_insert hstate, h.ended hquery hstate rfl⟩
    | _ => exact { h with }

structure Configured (options : PeerLookupOptions) (σ : PeerLookupActor) : Prop where
  maxActiveLookups : σ.maxActiveLookups = options.maxActiveLookups.toNat
  maxQueries : σ.maxQueries = options.maxQueries.toNat
  maxConcurrentQueries : σ.maxConcurrentQueries = max options.maxConcurrentQueries.toNat 1

lemma configured_invariant (options : PeerLookupOptions) : Invariant options (Configured options) where
  start := fun _ _ _ _ => ⟨rfl, rfl, rfl⟩
  opened := fun _ _ h _ _ => { h with }
  act := by
    intro cause σ σ' hact _ h
    cases hact with
    | _ => exact { h with }

/-! ### The bookkeeping between steps -/

structure Bookkept (σ : PeerLookupActor) : Prop where
  owned : ∀ key query, σ.pending.get key = some query → ∃ state, σ.active.get query.lookupId = some state
  outstanding : ∀ id state, σ.active.get id = some state →
    1 ≤ state.outstanding ∧ state.outstanding ≤ σ.maxConcurrentQueries
  queried : ∀ id state, σ.active.get id = some state → state.queried ≤ σ.maxQueries
  frontier : ∀ id state, σ.active.get id = some state →
    state.frontier.length ≤ 64 ∧ state.sourceNodes.length ≤ 8
  active : σ.active.len ≤ σ.maxActiveLookups

lemma Reachable.bookkept (h : Reachable options σ) : σ.Bookkept := by
  obtain ⟨hsound, hawake⟩ := h.sound
  refine ⟨hsound.owned, fun id state hstate => ?_, fun id state hstate => ?_, fun id state hstate => ?_,
    hsound.room⟩
  · exact ⟨hawake id state hstate, (hsound.limited id state hstate).outstanding⟩
  · exact (hsound.limited id state hstate).queried
  · exact ⟨(hsound.limited id state hstate).frontier, (hsound.limited id state hstate).sourceNodes⟩

lemma Sound.wake (h : σ.Sound) {id : ℕ} (hpos : 1 ≤ σ.pendingOf id) :
    ∃ key query, σ.pending.get key = some query ∧ query.lookupId = id ∧
      (query.deadline, key) ∈ σ.pendingExpiry := by
  by_contra hnone
  refine absurd (count_eq_zero.mpr fun key query hquery => ?_) (Nat.ne_of_gt hpos)
  refine beq_eq_false_iff_ne.mpr fun hid => hnone ⟨key, query, hquery, hid, ?_⟩
  exact h.recorded key query hquery

lemma pendingOf_finishLookup (σ : PeerLookupActor) (id : ℕ) : (σ.finishLookup id).pendingOf id = 0 :=
  count_eq_zero.mpr fun _ _ hquery => beq_eq_false_iff_ne.mpr (get_pending_finishLookup.mp hquery).2

/-- **The bookkeeping of the lookups.** The limits hold in every run; `outstanding` counts the pending queries of a
lookup, so that it is woken, as long as the counters have not come around. -/
theorem lookup_bookkeeping (options : PeerLookupOptions) (σ : PeerLookupActor) (h : Reachable options σ) :
    σ.Bookkept ∧ Configured options σ ∧
      (σ.queries.length ≤ 2 ^ 56 → σ.started ≤ 2 ^ 64 - 1 → ∀ id state, σ.active.get id = some state →
        state.outstanding = σ.pendingOf id ∧ ∃ key query, σ.pending.get key = some query ∧
          query.lookupId = id ∧ (query.deadline, key) ∈ σ.pendingExpiry) ∧
      (∀ id, (σ.finishLookup id).pendingOf id = 0 ∧ (σ.active.get id = none → σ.pendingOf id = 0)) ∧
      (∀ future event, ∃ σ', σ.handle future event = .ok σ') ∧
      ∀ future iteration σ', σ.handle future (.maintenance iteration) = .ok σ' →
        ∀ id state, σ'.active.get id = some state → σ.clock + (future 0).elapsed < state.deadline := by
  obtain ⟨hsound, hawake⟩ := h.sound
  refine ⟨h.bookkept, (configured_invariant options).reachable h, fun hqueries hstarted id state hstate => ?_,
    fun id => ?_, fun future event => ?_, fun future iteration σ' hrun => ?_⟩
  · have hcount := ((counted_invariant options).reachable h ⟨hqueries, hstarted⟩).2.outstanding id state hstate
    exact ⟨hcount, hsound.wake (hcount ▸ hawake id state hstate)⟩
  · exact ⟨pendingOf_finishLookup σ id, pendingOf_eq_zero hsound⟩
  · obtain ⟨σ', hrun, _⟩ := (handle_spec hsound hawake future event).exists
    exact ⟨σ', hrun⟩
  · exact ((expire_spec ⟨hsound.handle future, .refl⟩ hawake iteration).of_ok hrun).2

/-! ### Sample requests -/

def calm : ℕ → Look := fun _ => ⟨0, ∅, true⟩

def chainEntry (family : UInt8) (n : ℕ) : List UInt8 :=
  [0, 0, 0, 0, 0, 0, 0, 0, 0, 0, 0, 0, 0, 0, 0, 0, 0, 0, 0, 0,
    0x26, family, 0, 0, 0, 0, 0, 0, 0, .ofNat (n / 2 ^ 48), .ofNat (n / 2 ^ 40), .ofNat (n / 2 ^ 32),
    .ofNat (n / 2 ^ 24), .ofNat (n / 2 ^ 16), .ofNat (n / 2 ^ 8), .ofNat n, 0x1a, 0xe1]

def chainNode (family : UInt8) (n : ℕ) : NodeTuple := compactV6 (chainEntry family n)

def chainResponse (family : UInt8) (n : ℕ) : DhtResponse where
  id := none
  nodes := none
  nodes6 := some (chainEntry family n)
  values := none
  samples := none
  interval := none
  num := none

def chainOptions : PeerLookupOptions where
  maxLookupsPerSecond := 1
  burst := 2
  maxActiveLookups := 2
  maxQueries := 2 ^ 57
  maxConcurrentQueries := 1
  lookupTimeoutMs := 2000
  queryTimeoutMs := 500

def noNodes : Published where
  nodes := []
  limit := 0
  snapshot := ⟨.empty, .empty⟩
  built := by
    change (PrefixIndex.new [] >>= fun v4 => .ok (RoutingSnapshot.mk v4 .empty)) = _
    rw [RoutingSnapshot.new_nil]
    rfl

def chainRequests : List ((ℕ → Look) × Event) :=
  [(calm, .request ⟨default, 0, [chainNode 1 0]⟩ noNodes),
    (calm, .request ⟨default, 1, [chainNode 0 0]⟩ noNodes)]

def chainKey (family : UInt8) (n tid : ℕ) : PendingKey :=
  ⟨(chainNode family n).addr, taggedTid lookupTidTag tid⟩

/-! ### A run in which a transaction id comes around -/

def busyOptions : PeerLookupOptions :=
  { chainOptions with
    maxLookupsPerSecond := 4294967295
    burst := 1
    maxQueries := 1 }

/-- A request with a single node to ask. -/
def singleRequest : Event := .request ⟨default, 0, [chainNode 0 0]⟩ noNodes

/-- A nanosecond passes before the event, and none while it is handled. -/
def ticking (sent : Bool) : ℕ → Look
  | 0 => ⟨1, ∅, sent⟩
  | _ + 1 => ⟨0, ∅, sent⟩

lemma look_still {sent : Bool} (h : σ.future = fun _ => ⟨0, ∅, sent⟩) : σ.look = σ := by
  have hdropped : σ.dropped ∪ ∅ = σ.dropped := union_empty _
  unfold look
  rw [h, hdropped]
  cases σ
  cases h
  rfl

lemma send_still {addr : SocketAddr} {sent : Bool} (h : σ.future = fun _ => ⟨0, ∅, sent⟩)
    (hipv4 : addr.isIpv4 = false) (hsocket : σ.socketV6 = true) : σ.send addr = (σ, sent) := by
  unfold send
  rw [hipv4, if_neg Bool.false_ne_true, if_pos hsocket, look_still h, h]

/-- A lookup that may ask one node: it waits for the answer, or is over if the query could not be sent. -/
lemma dispatchMore_single {node : NodeTuple} {sent : Bool} (hfuture : σ.future = fun _ => ⟨0, ∅, sent⟩)
    (hipv4 : node.addr.isIpv4 = false) (hsocket : σ.socketV6 = true) (hstate : σ.active.get lookupId = some state)
    (hmay : σ.mayQuery state = true) (hfrontier : state.frontier = []) (hsource : state.sourceNodes = [node])
    (houtstanding : state.outstanding = 0) (hmax : state.maxQueries = state.queried + 1)
    (hlast : σ.maxQueries = state.queried + 1) :
    let next : LookupState := { state with sourceNodes := [], queried := state.queried + 1 }
    let σ₁ := σ.attempted lookupId node true next sent
    σ.dispatchMore lookupId =
      .ok (if sent then σ₁.awaitReply lookupId (σ.nextKey node) next else σ₁.finishLookup lookupId) := by
  intro next σ₁
  set σ₂ := if sent then σ₁.awaitReply lookupId (σ.nextKey node) next else σ₁ with hσ₂
  have hfuture₂ : σ₂.future = fun _ => ⟨0, ∅, sent⟩ := by rw [hσ₂]; split_ifs <;> exact hfuture
  have hfirst : dispatchStep lookupId σ = .ok (.yield σ₂) := by
    have hquery : σ.nextQuery lookupId = .ok (some (node, true, next)) := by
      simp [nextQuery, hstate, hmay, LookupState.popClosest, hsource, next]
    have hattempt : σ.attempt lookupId node true next = (σ₁, sent) := by
      unfold attempt
      rw [send_still (by exact hfuture) hipv4 (by exact hsocket)]
      rfl
    cases sent <;> simp [dispatchStep, look_still hfuture, hquery, hattempt, hσ₂, nextKey]
  have hsecond : dispatchStep lookupId σ₂ = .ok (.done σ₂) := by
    have hnone : σ₂.nextQuery lookupId = .ok none := by
      cases sent <;> simp [nextQuery, σ₂, σ₁, awaitReply, attempted, mayQuery, next, hlast]
    simp [dispatchStep, look_still hfuture₂, hnone]
  have hcomplete : σ₂.completeAt lookupId σ₂.clock = !sent := by
    obtain ⟨hclosed, hdeadline, hpeers, -, -⟩ := mayQuery_iff.mp hmay
    have hget : σ₂.active.get lookupId = some { next with outstanding := sent.toNat } := by
      cases sent <;> simp [σ₂, σ₁, awaitReply, attempted, next, houtstanding]
    have hclosed₂ : σ₂.isClosed state.peerTx = false := by rw [hσ₂]; split_ifs <;> exact hclosed
    have hclock : σ₂.clock = σ.clock := by rw [hσ₂]; split_ifs <;> rfl
    rw [completeAt, hget, Option.any_some, hclock, Bool.eq_iff_iff, LookupState.isComplete_iff]
    cases sent <;> simp [next, hclosed₂, hdeadline, hpeers, hmax]
  have hbacklog : σ.backlog lookupId = 1 := by simp [backlog_of_get hstate, hfrontier, hsource]
  simp only [dispatchMore, hbacklog, Loop.run, hfirst, hsecond, Except.ok_bind, look_still hfuture₂, finishIfComplete,
    hcomplete]
  cases sent <;> simp [σ₂]

/-- The actor has issued `n` transaction ids and takes a request of the next nanosecond. -/
structure Ready (n : ℕ) (σ : PeerLookupActor) : Prop where
  socketV4 : σ.socketV4 = false
  socketV6 : σ.socketV6 = true
  maxQueries : σ.maxQueries = 1
  maxConcurrentQueries : σ.maxConcurrentQueries = 1
  lookupTimeout : σ.lookupTimeout = secs 2
  dropped : σ.dropped = ∅
  budget : σ.requestBudget.tryTakeOne (σ.clock + 1) = (⟨4294967295, 1, 0, σ.clock + 1⟩, true)
  room : σ.active.len < σ.maxActiveLookups
  nextTid : σ.nextTid = n + 1
  nextLookupId : σ.nextLookupId = n + 1

/-- The lookup of a single request has been opened. -/
def taken (σ : PeerLookupActor) (sent : Bool) : PeerLookupActor :=
  { σ with
    future := fun _ => ⟨0, ∅, sent⟩
    clock := σ.clock + 1
    requestBudget := ⟨4294967295, 1, 0, σ.clock + 1⟩ }.openLookup ⟨default, 0, [chainNode 0 0]⟩ [] [chainNode 0 0]
      (σ.clock + 1)

/-- The state of a lookup that has tried its only node. -/
def tried (clock : Instant) : LookupState :=
  ⟨default, 0, [], [], {(chainNode 0 0).addr}, ∅, 1, 0, clock + 1 + secs 2, 1⟩

lemma tryTakeOne_refilled {tokens : ℚ} {t now : Instant} (htokens : 0 ≤ tokens) (h : t < now) :
    (RateBucket.mk 4294967295 1 tokens t).tryTakeOne now = (⟨4294967295, 1, 0, now⟩, true) := by
  have helapsed : (1 : ℚ) ≤ ((now - t : ℕ) : ℚ) := by exact_mod_cast Nat.sub_pos_of_lt h
  have hpos : 0 < elapsedSecs t now := by unfold elapsedSecs; positivity
  have hfull : (1 : ℚ) ≤ tokens + elapsedSecs t now * 4294967295 := by unfold elapsedSecs; linarith
  simp [tryTakeOne, tryTakeExact, refill, hpos, hfull]

lemma Ready.handle_single (h : Ready n σ) (sent : Bool) :
    σ.handle (ticking sent) singleRequest = .ok
      (let σ₁ := (σ.taken sent).attempted (n + 1) (chainNode 0 0) true (tried σ.clock) sent
      if sent then σ₁.awaitReply (n + 1) (chainKey 0 0 (n + 1)) (tried σ.clock) else σ₁.finishLookup (n + 1)) := by
  have hclosest : noNodes.snapshot.closestNodes default (min 1 maxFrontierNodes) (some true) = .ok [] := by
    decide +kernel
  have hdistinct : distinctNodes maxSourceNodes ∅ [chainNode 0 0] = ([chainNode 0 0], {(chainNode 0 0).addr}) := by
    decide +kernel
  have hfilter : [chainNode 0 0].filter (fun node => node.addr.isIpv6) = [chainNode 0 0] := rfl
  have hhandle : σ.handle (ticking sent) singleRequest = (σ.taken sent).dispatchMore σ.nextLookupId := by
    simp [handle, look, dispatchEvent, singleRequest, startLookup, isClosed, ticking, h.dropped, h.room.not_ge,
      h.budget, beginLookup, filterIpv6, h.socketV4, h.socketV6, h.maxQueries, hclosest, hdistinct, hfilter, taken]
  set state : LookupState := { tried σ.clock with sourceNodes := [chainNode 0 0], queried := 0 }
  have htaken : (σ.taken sent).active.get σ.nextLookupId = some state := by
    simp [taken, openLookup, lookupDeadline, h.lookupTimeout, h.maxQueries, state, tried, secs]
  have hmay : (σ.taken sent).mayQuery state = true := by
    have hclosed : (σ.taken sent).isClosed state.peerTx = false := by simp [isClosed, taken, openLookup, h.dropped]
    refine mayQuery_iff.mpr ⟨hclosed, ?_, (by decide : 0 < maxPeersPerLookup), ?_, ?_⟩
    · exact lt_add_of_pos_right _ (by decide)
    · exact h.maxQueries ▸ one_pos
    · exact h.maxConcurrentQueries ▸ one_pos
  have hdispatch := dispatchMore_single (σ := σ.taken sent) rfl rfl h.socketV6 htaken hmay rfl rfl rfl rfl h.maxQueries
  have hkey : (σ.taken sent).nextKey (chainNode 0 0) = chainKey 0 0 (n + 1) := by
    simp [nextKey, taken, openLookup, h.nextTid, chainKey]
  rw [hhandle, hdispatch, hkey, h.nextLookupId]
  rfl

/-- The first lookup waits for its only query, and no other lookup is open. -/
structure Stalled (n : ℕ) (σ : PeerLookupActor) : Prop extends Ready (n + 1) σ where
  first : ∃ state, σ.active.get 1 = some state
  only : ∀ key query, σ.pending.get key = some query → query.lookupId = 1 → key = chainKey 0 0 1

lemma stalled_start : ∃ σ, Reachable busyOptions σ ∧ Stalled 0 σ := by
  have hnew : Ready 0 (new busyOptions .ipv6Only false true 0) :=
    { socketV4 := rfl
      socketV6 := rfl
      maxQueries := rfl
      maxConcurrentQueries := rfl
      lookupTimeout := rfl
      dropped := rfl
      budget := tryTakeOne_refilled (by decide) (lt_succ_self _)
      room := by decide
      nextTid := rfl
      nextLookupId := rfl }
  refine ⟨_, (Reachable.start _ _ _ _).step _ _ (hnew.handle_single true), { hnew with 
    budget := tryTakeOne_refilled le_rfl (lt_succ_self _)
    room := by decide +kernel
    nextTid := rfl
    nextLookupId := rfl
    first := ⟨_, get_insert_self _ _ _⟩
    only := ?_ }⟩
  intro key query hquery _
  by_contra hkey
  exact absurd ((get_insert_ne _ hkey _).symm.trans hquery) (by simp [attempted, taken, openLookup, new])

lemma Stalled.refused (h : Stalled n σ) (hn : n + 3 < 2 ^ 64) :
    ∃ σ', σ.handle (ticking false) singleRequest = .ok σ' ∧ Stalled (n + 1) σ' := by
  refine ⟨_, h.handle_single false, { h.toReady with
    budget := tryTakeOne_refilled le_rfl (lt_succ_self _)
    room := ?_
    nextTid := ?_
    nextLookupId := ?_
    first := ?_
    only := ?_ }⟩
  · refine Nat.lt_of_le_of_lt ?_ h.room
    simp [finishLookup, attempted, taken, openLookup, h.nextLookupId, len_erase_le]
  · exact (congrArg (fun tid => max (wrappingSucc tid) 1) h.nextTid).trans (succ_counter hn)
  · exact (congrArg (fun id => max (wrappingSucc id) 1) h.nextLookupId).trans (succ_counter hn)
  · obtain ⟨state, hstate⟩ := h.first
    refine ⟨state, ?_⟩
    simp [finishLookup, attempted, taken, openLookup, h.nextLookupId, get_erase, hstate]
  · intro key query hquery
    exact h.only key query (Option.filter_eq_some_iff.mp ((get_retain _ _ _).symm.trans hquery)).1

lemma Stalled.sent (h : Stalled n σ) : ∃ σ' deadline, σ.handle (ticking true) singleRequest = .ok σ' ∧
    σ'.active.get 1 = σ.active.get 1 ∧
    σ'.pending = σ.pending.insert (chainKey 0 0 (n + 2)) ⟨n + 2, deadline⟩ := by
  refine ⟨_, _, h.handle_single true, ?_, rfl⟩
  simp [awaitReply, attempted, taken, openLookup, h.nextLookupId, get_insert]

lemma stalled_exists (n : ℕ) (hn : n + 2 < 2 ^ 64) : ∃ σ, Reachable busyOptions σ ∧ Stalled n σ := by
  induction n with
  | zero => exact stalled_start
  | succ n ih =>
    obtain ⟨σ, hreach, h⟩ := ih (lt_of_succ_lt hn)
    obtain ⟨σ', hrun, h'⟩ := h.refused hn
    exact ⟨σ', hreach.step _ _ hrun, h'⟩

/-- The bookkeeping is lost when the counter of the transaction ids comes around: after `2 ^ 56 - 1` queries that
could not be sent, a lookup asks the endpoint the first one still waits for, under the same id, and takes its place
in the pending queries. -/
theorem lookup_bookkeeping_wraps :
    ¬∀ options σ, Reachable options σ → ∀ id state, σ.active.get id = some state →
      state.outstanding = σ.pendingOf id ∧ 1 ≤ state.outstanding := by
  intro hall
  obtain ⟨σ, hreach, h⟩ := stalled_exists (2 ^ 56 - 1) (by norm_num)
  obtain ⟨σ', deadline, hrun, hactive, hpending⟩ := h.sent
  obtain ⟨first, hfirst⟩ := h.first
  obtain ⟨hcount, hpos⟩ := hall busyOptions σ' (hreach.step _ _ hrun) 1 first (hactive.trans hfirst)
  have hkey : chainKey 0 0 (2 ^ 56 - 1 + 2) = chainKey 0 0 1 := by
    unfold chainKey taggedTid
    norm_num
  refine absurd (count_eq_zero.mpr fun key query hquery => ?_) (Nat.ne_of_gt (hcount ▸ hpos))
  refine beq_eq_false_iff_ne.mpr fun hid => ?_
  rw [hpending, get_insert] at hquery
  split_ifs at hquery with hk
  · cases hquery
    exact absurd hid (by norm_num)
  · exact hk (hkey ▸ h.only key query hquery hid)

theorem lookup_bookkeeping_sample : ∃ σ, Reachable chainOptions σ ∧ σ.active.len = 2 ∧ σ.Bookkept ∧
    ∀ id state, σ.active.get id = some state → state.outstanding = σ.pendingOf id := by
  have htest : ((new chainOptions .ipv6Only false true 0).runEvents chainRequests).isOkAnd
      (fun σ => decide (σ.active.len = 2 ∧ σ.queries.length = 2 ∧ σ.started = 2)) = true := by
    decide +kernel
  obtain ⟨σ, hrun, htest⟩ := Except.isOkAnd_eq_true.mp htest
  obtain ⟨hlen, hqueries, hstarted⟩ := of_decide_eq_true htest
  have hreach : Reachable chainOptions σ := (Reachable.start _ _ _ _).runEvents hrun
  obtain ⟨hbook, -, hcount, -⟩ := lookup_bookkeeping chainOptions σ hreach
  refine ⟨σ, hreach, hlen, hbook, fun id state hstate => ?_⟩
  exact (hcount (by rw [hqueries]; norm_num) (by rw [hstarted]; norm_num) id state hstate).1

end DhtCrawler.PeerLookup.PeerLookupActor
