import DhtCrawler.LookupSteps

/-! The handlers of the lookup actor never panic, are sequences of acts, and leave no lookup without a query
under way. -/

namespace DhtCrawler.PeerLookup.PeerLookupActor

open FiniteMap List Option LookupState Except

variable {start base σ σ' : PeerLookupActor} {lookupId : ℕ} {now : Instant} {cause : Cause}

variable {state : LookupState} {future : ℕ → Look} {event : Event}

/-- The actor has come from `start` to `σ` by acts of one cause, and is sound. -/
structure Ran (cause : Cause) (start σ : PeerLookupActor) : Prop where
  sound : σ.Sound
  acts : Caused cause start σ

lemma Ran.act (h : Ran cause start σ) (hact : Act cause σ σ') : Ran cause start σ' :=
  ⟨hact.sound h.sound, h.acts.tail hact⟩

lemma Ran.look (h : Ran cause start σ) : Ran cause start σ.look := h.act (act_look cause σ)

lemma clock_le_look (σ : PeerLookupActor) : σ.clock ≤ σ.look.clock := Nat.le_add_right _ _

def AwakeBut (ids : List ℕ) (σ : PeerLookupActor) : Prop :=
  ∀ id state, σ.active.get id = some state → id ∈ ids ∨ 1 ≤ state.outstanding

def Awake (σ : PeerLookupActor) : Prop :=
  ∀ id state, σ.active.get id = some state → 1 ≤ state.outstanding

lemma awakeBut_nil : AwakeBut [] σ ↔ σ.Awake := by
  simp [AwakeBut, Awake]

/-! ### Dispatch -/

def Halted (lookupId : ℕ) (σ : PeerLookupActor) : Prop :=
  ∀ state, σ.active.get lookupId = some state → state.outstanding = 0 →
    state.isComplete (σ.isClosed state.peerTx) σ.clock = true

lemma isClosed_look {peerTx : ℕ} (h : σ.isClosed peerTx = true) : σ.look.isClosed peerTx = true := by
  unfold isClosed at h ⊢
  rw [decide_eq_true_eq] at h ⊢
  exact Finset.mem_union_left _ h

lemma Halted.look (h : Halted lookupId σ) : Halted lookupId σ.look := by
  intro state hstate hzero
  rcases isComplete_iff.mp (h state hstate hzero) with hclosed | hdeadline | hrest
  · exact isComplete_iff.mpr (Or.inl (isClosed_look hclosed))
  · exact isComplete_iff.mpr (Or.inr (Or.inl (hdeadline.trans (clock_le_look σ))))
  · exact isComplete_iff.mpr (Or.inr (Or.inr hrest))

lemma halted_of_mayQuery (h : σ.Sound) (hstate : σ.active.get lookupId = some state)
    (hmay : σ.mayQuery state = false) : Halted lookupId σ := by
  intro state' hstate' hzero
  rw [hstate] at hstate'
  cases hstate'
  have hconcurrent := h.concurrent
  have hmax := (h.limited _ _ hstate).maxQueries
  rw [isComplete_iff, hmax]
  rw [← Bool.not_eq_true, mayQuery_iff] at hmay
  by_contra hnot
  simp only [not_or, not_and, not_le, Bool.not_eq_true, ge_iff_le] at hnot
  obtain ⟨hclosed, hdeadline, hpeers, hbudget, _⟩ := hnot
  exact hmay ⟨hclosed, hdeadline, hpeers, hbudget hzero, by omega⟩

lemma nextQuery_spec (h : σ.Sound) (lookupId : ℕ) :
    Sure (σ.nextQuery lookupId) fun
      | none => Halted lookupId σ
      | some (node, sourceSeed, next) => ∃ state state', σ.active.get lookupId = some state ∧
          σ.mayQuery state = true ∧ state.Popped node sourceSeed state' ∧
          next = { state' with queried := state'.queried + 1 } := by
  unfold nextQuery
  cases hstate : σ.active.get lookupId with
  | none =>
    intro state hsome
    rw [hstate] at hsome
    cases hsome
  | some state =>
    dsimp only
    cases hmay : σ.mayQuery state with
    | false =>
      rw [if_neg Bool.false_ne_true]
      exact halted_of_mayQuery h hstate hmay
    | true =>
      rw [if_pos rfl]
      refine state.popClosest_spec.bind fun r hr => ?_
      match r, hr with
      | none, hr =>
        intro state' hstate' hzero
        rw [hstate] at hstate'
        cases hstate'
        exact isComplete_iff.mpr
          (Or.inr (Or.inr (Or.inr (Or.inr ⟨hzero, hr.2, hr.1⟩))))
      | some (node, sourceSeed, state'), hr => exact ⟨state, state', rfl, hmay, hr, rfl⟩

structure Dispatching (cause : Cause) (start base : PeerLookupActor) (lookupId : ℕ) (σ : PeerLookupActor) :
    Prop where
  ran : Ran cause start σ
  others : ∀ id, id ≠ lookupId → σ.active.get id = base.active.get id
  clock : base.clock ≤ σ.clock

lemma Dispatching.look (h : Dispatching cause start base lookupId σ) :
    Dispatching cause start base lookupId σ.look :=
  ⟨h.ran.look, h.others, h.clock.trans (clock_le_look σ)⟩

lemma backlog_of_get (h : σ.active.get lookupId = some state) :
    σ.backlog lookupId = state.sourceNodes.length + state.frontier.length := by
  unfold backlog
  rw [h]

lemma dispatchStep_spec (hserves : cause.Serves lookupId) (h : Dispatching cause start base lookupId σ) :
    Sure (dispatchStep lookupId σ)
      (Loop.Round (Dispatching cause start base lookupId)
        (fun σ' => Dispatching cause start base lookupId σ' ∧ Halted lookupId σ')
        (fun σ' => σ'.backlog lookupId) (σ.backlog lookupId)) := by
  unfold dispatchStep
  have hlook := h.look
  have hbacklog : σ.look.backlog lookupId = σ.backlog lookupId := rfl
  rw [← hbacklog]
  generalize σ.look = σ at hlook
  refine (nextQuery_spec hlook.ran.sound lookupId).bind fun r hr => ?_
  match r, hr with
  | none, hr => exact ⟨hlook, hr⟩
  | some (node, sourceSeed, next), ⟨state, state', hstate, hmay, hpop, hnext⟩ =>
    subst hnext
    obtain ⟨clock, dropped, future, sent, hclock, hdropped, hattempt⟩ :=
      attempt_eq σ lookupId node sourceSeed { state' with queried := state'.queried + 1 }
    have hlt := hpop.backlog_lt
    dsimp only
    rw [hattempt, backlog_of_get hstate]
    cases sent with
    | true =>
      refine ⟨⟨hlook.ran.act (.sent lookupId clock dropped future hstate hmay hpop hclock hdropped hserves),
        fun id hid => ?_, hlook.clock.trans hclock⟩, ?_⟩
      · exact (get_insert_ne _ hid _).trans ((get_insert_ne _ hid _).trans (hlook.others id hid))
      · dsimp only
        rw [backlog_of_get (get_insert_self _ _ _)]
        exact hlt
    | false =>
      refine ⟨⟨hlook.ran.act (.unsent lookupId clock dropped future hstate hmay hpop hclock hdropped hserves),
        fun id hid => ?_, hlook.clock.trans hclock⟩, ?_⟩
      · exact (get_insert_ne _ hid _).trans (hlook.others id hid)
      · dsimp only
        rw [backlog_of_get (get_insert_self _ _ _)]
        exact hlt

structure Dispatched (cause : Cause) (start base : PeerLookupActor) (lookupId : ℕ) (σ : PeerLookupActor) :
    Prop extends Dispatching cause start base lookupId σ where
  awake : ∀ state, σ.active.get lookupId = some state → 1 ≤ state.outstanding

lemma dispatchMore_spec (h : Ran cause start σ) (lookupId : ℕ) (hserves : cause.Serves lookupId) :
    Sure (σ.dispatchMore lookupId) (Dispatched cause start σ lookupId) := by
  unfold dispatchMore
  refine (Loop.safe_exit (fun σ' : PeerLookupActor => σ'.backlog lookupId)
    (fun _ hd => dispatchStep_spec hserves hd) _ ⟨h, fun _ _ => rfl, le_rfl⟩ (Nat.lt_succ_self _)).bind
    fun σ' hσ' => ?_
  obtain ⟨hd, hhalt⟩ := hσ'
  have hd := hd.look
  have hhalt := hhalt.look
  dsimp only
  generalize σ'.look = σ' at hd hhalt
  unfold finishIfComplete completeAt
  cases hstate : σ'.active.get lookupId with
  | none =>
    rw [any_none, if_neg Bool.false_ne_true]
    refine ⟨hd, fun state hsome => ?_⟩
    rw [hstate] at hsome
    cases hsome
  | some state =>
    rw [any_some]
    cases hcomplete : state.isComplete (σ'.isClosed state.peerTx) σ'.clock with
    | true =>
      rw [if_pos rfl]
      refine ⟨⟨hd.ran.act (.finish lookupId hserves), fun id hid => ?_, hd.clock⟩, fun state hsome => ?_⟩
      · exact (get_erase_ne _ hid).trans (hd.others id hid)
      · exact absurd rfl (get_active_finishLookup.mp hsome).1
    | false =>
      rw [if_neg Bool.false_ne_true]
      refine ⟨hd, fun state' hsome => ?_⟩
      rw [hstate] at hsome
      cases hsome
      by_contra hzero
      rw [hhalt state hstate (by omega)] at hcomplete
      cases hcomplete

lemma Dispatched.awakeBut {ids : List ℕ} (h : Dispatched cause start base lookupId σ)
    (hbase : AwakeBut (lookupId :: ids) base) : AwakeBut ids σ := by
  intro id state hstate
  by_cases hid : id = lookupId
  · exact Or.inr (h.awake state (hid ▸ hstate))
  · rw [h.others id hid] at hstate
    rcases hbase id state hstate with hmem | hpos
    · exact Or.inl ((mem_cons.mp hmem).resolve_left hid)
    · exact Or.inr hpos

/-! ### Requests and responses -/

structure Settled (cause : Cause) (start σ : PeerLookupActor) : Prop extends Ran cause start σ where
  awake : σ.Awake

/-- A dispatch of its own, for a lookup that may have no query under way. -/
lemma dispatchMore_own (h : σ.Sound) (hbut : AwakeBut [lookupId] σ) :
    Sure (σ.dispatchMore lookupId) (Settled (.dispatch lookupId) σ) := by
  have hran : Ran (.dispatch lookupId) σ σ := ⟨h, .refl⟩
  exact (dispatchMore_spec hran lookupId rfl).mono
    fun _ hσ' => ⟨hσ'.ran, awakeBut_nil.mp (hσ'.awakeBut hbut)⟩

lemma awakeBut_insert (h : σ.Awake) (next : LookupState) (hactive : σ'.active = σ.active.insert lookupId next) :
    AwakeBut [lookupId] σ' := by
  unfold AwakeBut
  rw [hactive]
  exact forall_insert (.inl (mem_singleton_self _)) fun id state _ hstate => .inr (h id state hstate)

/-- How an event is handled. A request starts nothing or opens a lookup, which a dispatch follows. A response is
ignored, or comes too late for its lookup, or the lookup learns it and goes on. -/
inductive Handled (σ : PeerLookupActor) : Event → PeerLookupActor → Prop where
  | refused {request published σ'}
      (hacts : Caused .request σ σ') : Handled σ (.request request published) σ'
  | opened {request published requestBudget σ'} (hopen : σ.Opening requestBudget)
      (hacts : Caused (.dispatch σ.nextLookupId) (σ.opened request published requestBudget) σ') :
      Handled σ (.request request published) σ'
  | ignored {key response} (hnone : σ.pending.get key = none) :
      Handled σ (.response key response) σ
  | late {key response query}
      (hquery : σ.pending.get key = some query) :
      Handled σ (.response key response) (σ.finishLookup query.lookupId)
  | learned {key response query state next discovered σ'} (hquery : σ.pending.get key = some query)
      (hstate : σ.active.get query.lookupId = some state) (hdeadline : σ.clock < state.deadline)
      (hlearn : state.Learns response σ.netmode next discovered)
      (hacts : Caused (.dispatch query.lookupId) (σ.answered key query.lookupId next
        (discovered.map fun peer => ⟨query.lookupId, state.infoHash, peer⟩)) σ') :
      Handled σ (.response key response) σ'
  | swept {iteration σ'} (hacts : Caused .maintenance σ σ') :
      Handled σ (.maintenance iteration) σ'

/-- The event is handled, and every lookup has a query under way. -/
structure Served (σ : PeerLookupActor) (event : Event) (σ' : PeerLookupActor) : Prop where
  handled : Handled σ event σ'
  sound : σ'.Sound
  awake : σ'.Awake

section

variable (h : σ.Sound) (hawake : σ.Awake)
include h hawake

lemma startLookup_spec (request : PeerLookupRequest) (published : Published) :
    Sure (σ.startLookup request published.snapshot σ.clock) (Served σ (.request request published)) := by
  unfold startLookup
  split_ifs with hclosed hfull
  · exact ⟨.refused .refl, h, hawake⟩
  · exact ⟨.refused .refl, h, hawake⟩
  cases htake : σ.requestBudget.tryTakeOne σ.clock with
  | mk requestBudget taken =>
    have hcharge : Act .request σ { σ with requestBudget } := .charge requestBudget taken htake
    have hrefused : Served σ (.request request published) { σ with requestBudget } :=
      ⟨.refused (.single hcharge), hcharge.sound h, hawake⟩
    cases taken with
    | false => exact hrefused
    | true =>
      have hopen : σ.Opening requestBudget := ⟨Nat.lt_of_not_le hfull, htake⟩
      dsimp only
      unfold beginLookup
      rw [RoutingSnapshot.closestNodes_spec published.built, ok_bind]
      dsimp only
      split_ifs with hempty
      · exact hrefused
      · have hbut : AwakeBut [σ.nextLookupId] (σ.opened request published requestBudget) :=
          awakeBut_insert hawake _ rfl
        exact (dispatchMore_own (h.opened hopen request published) hbut).mono
          fun σ' hσ' => ⟨.opened hopen hσ'.acts, hσ'.sound, hσ'.awake⟩

omit h hawake in
lemma finishLookup_erase {key : PendingKey} {query : PendingQuery} (hquery : σ.pending.get key = some query) :
    { σ with pending := σ.pending.erase key }.finishLookup query.lookupId = σ.finishLookup query.lookupId := by
  have hpending : ((σ.pending.erase key).retain fun _ q => q.lookupId != query.lookupId) =
      σ.pending.retain fun _ q => q.lookupId != query.lookupId := by
    ext k : 1
    rw [get_retain, get_retain, get_erase]
    split_ifs with hk
    · rw [hk, hquery, filter_none, filter_some, bne_self_eq_false, if_neg Bool.false_ne_true]
    · rfl
  unfold PeerLookupActor.finishLookup
  rw [hpending]

omit h hawake in
lemma Awake.finishLookup (h : σ.Awake) (lookupId : ℕ) : (σ.finishLookup lookupId).Awake :=
  fun id state hstate => h id state (get_active_finishLookup.mp hstate).2

lemma handleResponse_spec (key : PendingKey) (response : DhtResponse) :
    Sure (σ.handleResponse key response σ.clock) (Served σ (.response key response)) := by
  unfold handleResponse
  cases hquery : σ.pending.get key with
  | none => exact ⟨.ignored hquery, h, hawake⟩
  | some query =>
    obtain ⟨state, hstate⟩ := h.owned key query hquery
    dsimp only
    rw [hstate]
    dsimp only
    split_ifs with hdeadline
    · rw [finishLookup_erase hquery]
      exact ⟨.late hquery, h.finishLookup query.lookupId, hawake.finishLookup _⟩
    · obtain ⟨next, discovered, hlearn, heq⟩ := learn_eq σ key query.lookupId state response
      have hlive := Nat.lt_of_not_le hdeadline
      rw [heq]
      have hact := Act.answer key response hquery hstate hlive hlearn
      exact (dispatchMore_own (hact.sound h) (awakeBut_insert hawake _ rfl)).mono
        fun σ' hσ' => ⟨.learned hquery hstate hlive hlearn hσ'.acts, hσ'.sound, hσ'.awake⟩

end

/-! ### Expiry -/

structure Expiring (start : PeerLookupActor) (now : Instant) (s : PeerLookupActor × Finset ℕ) : Prop where
  ran : Ran .maintenance start s.1
  clock : s.1.clock = now
  awake : ∀ id state, s.1.active.get id = some state → id ∈ s.2 ∨ 1 ≤ state.outstanding

lemma expireStep_spec {s : PeerLookupActor × Finset ℕ} (h : Expiring start now s) :
    Loop.Round (Expiring start now)
      (fun s' => Expiring start now s' ∧ ∀ deadline key rest,
        s'.1.pendingExpiry = (deadline, key) :: rest → now < deadline)
      (fun s' => s'.1.pendingExpiry.length) s.1.pendingExpiry.length (expireStep now s) := by
  unfold expireStep
  split
  · rename_i hnil
    refine ⟨h, fun deadline key rest hcons => ?_⟩
    rw [hnil] at hcons
    cases hcons
  · rename_i deadline key rest hfirst
    have hlen : rest.length < s.1.pendingExpiry.length := by
      rw [hfirst, length_cons]
      exact Nat.lt_succ_self _
    split_ifs with hdue
    · refine ⟨h, fun deadline' key' rest' hcons => ?_⟩
      rw [hfirst] at hcons
      cases hcons
      exact hdue
    · dsimp only
      split
      · rename_i hended
        exact ⟨⟨h.ran.act (.dropRecord deadline key rest hfirst hended), h.clock, h.awake⟩, hlen⟩
      · rename_i query hsome
        obtain ⟨hquery, hdeadline⟩ := filter_eq_some_iff.mp hsome
        obtain ⟨state, hstate⟩ := h.ran.sound.owned key query hquery
        have hdeadline : query.deadline = deadline := of_decide_eq_true hdeadline
        have hact := h.ran.act (.timeout key rest (hdeadline ▸ hfirst) hquery hstate
          (by rw [hdeadline, h.clock]; exact Nat.le_of_not_lt hdue))
        unfold timeOut
        dsimp only
        rw [hstate]
        exact ⟨⟨hact, h.clock, forall_insert (.inl (Finset.mem_insert_self _ _))
          fun id s' _ hs' => (h.awake id s' hs').imp_left (Finset.mem_insert_of_mem ·)⟩, hlen⟩

lemma expireQueries_spec (h : Ran .maintenance start σ) (hawake : σ.Awake) :
    Expiring start σ.clock (σ.expireQueries σ.clock) ∧ ∀ deadline key rest,
      (σ.expireQueries σ.clock).1.pendingExpiry = (deadline, key) :: rest → σ.clock < deadline := by
  unfold expireQueries
  exact Loop.iterate_exit (fun s : PeerLookupActor × Finset ℕ => s.1.pendingExpiry.length)
    (fun s hs => expireStep_spec hs) _
    ⟨h, rfl, fun id state hstate => Or.inr (hawake id state hstate)⟩ (Nat.lt_succ_self _)

lemma dispatchAll_spec (ids : List ℕ) (h : Ran .maintenance start σ) (hawake : AwakeBut ids σ) :
    Sure (ids.foldlM dispatchMore σ) (Settled .maintenance start) := by
  induction ids generalizing σ with
  | nil => exact ⟨h, awakeBut_nil.mp hawake⟩
  | cons id rest ih =>
    rw [foldlM_cons]
    exact (dispatchMore_spec h id trivial).bind fun σ' hσ' => ih hσ'.ran (hσ'.awakeBut hawake)

lemma finishAll_spec (ids : List ℕ) (h : Settled .maintenance start σ) :
    Settled .maintenance start (ids.foldl finishLookup σ) ∧ ∀ id state,
      (ids.foldl finishLookup σ).active.get id = some state → σ.active.get id = some state ∧ id ∉ ids := by
  induction ids generalizing σ with
  | nil => exact ⟨h, fun id state hstate => ⟨hstate, not_mem_nil⟩⟩
  | cons id rest ih =>
    obtain ⟨hrest, hget⟩ := ih (σ := σ.finishLookup id)
      ⟨h.toRan.act (.finish id trivial), h.awake.finishLookup id⟩
    refine ⟨hrest, fun j state hstate => ?_⟩
    obtain ⟨hfinish, hmem⟩ := hget j state hstate
    obtain ⟨hne, hold⟩ := get_active_finishLookup.mp hfinish
    exact ⟨hold, fun hcons => (mem_cons.mp hcons).elim hne hmem⟩

lemma expire_spec (h : Ran .maintenance start σ) (hawake : σ.Awake) (iteration : Iteration ℕ) :
    Sure (σ.expire iteration σ.clock) fun σ' =>
      Settled .maintenance start σ' ∧ ∀ id state, σ'.active.get id = some state → σ.clock < state.deadline := by
  unfold expire
  obtain ⟨hexp, -⟩ := expireQueries_spec h hawake
  have hbut : AwakeBut (iteration.order (σ.expireQueries σ.clock).2) (σ.expireQueries σ.clock).1 :=
    fun id state hstate => (hexp.awake id state hstate).imp_left iteration.mem_order.mpr
  refine (dispatchAll_spec _ hexp.ran hbut).bind fun σ₁ h₁ => ?_
  have hlook : Settled .maintenance start σ₁.look := ⟨h₁.toRan.look, h₁.awake⟩
  generalize σ₁.look = σ₂ at hlook
  obtain ⟨hdone, hget⟩ := finishAll_spec
    ((iteration.order σ₂.active.keys).filter fun id => σ₂.completeAt id σ.clock) hlook
  refine ⟨hdone, fun id state hstate => ?_⟩
  obtain ⟨hold, hmem⟩ := hget id state hstate
  -- a lookup past its deadline is complete, and every complete one was finished
  by_contra hlate
  refine hmem (mem_filter.mpr ⟨iteration.mem_order.mpr (mem_keys_of_get hold), ?_⟩)
  unfold completeAt
  rw [hold, any_some]
  exact isComplete_iff.mpr (Or.inr (Or.inl (Nat.le_of_not_lt hlate)))

/-! ### Runs -/

lemma steadies_look (σ : PeerLookupActor) (future : ℕ → Look) : Steadies σ { σ with future }.look := by
  have hpass : Act .request σ { σ with future } :=
    .pass σ.clock σ.dropped future le_rfl (Finset.Subset.refl _)
  exact .tail (.single ⟨_, hpass⟩) ⟨_, act_look .request _⟩

lemma Sound.handle (h : σ.Sound) (future : ℕ → Look) : { σ with future }.look.Sound :=
  Steadies.sound (steadies_look σ future) h

lemma handle_spec (h : σ.Sound) (hawake : σ.Awake) (future : ℕ → Look) (event : Event) :
    Sure (σ.handle future event) (Served { σ with future }.look event) := by
  have hlook := h.handle future
  unfold handle
  cases event with
  | request request published => exact startLookup_spec hlook hawake request published
  | response key response => exact handleResponse_spec hlook hawake key response
  | maintenance iteration =>
    exact (expire_spec ⟨hlook, .refl⟩ hawake iteration).mono
      fun _ hσ' => ⟨.swept hσ'.1.acts, hσ'.1.sound, hσ'.1.awake⟩

variable {options : PeerLookupOptions}

lemma Reachable.sound (h : Reachable options σ) : σ.Sound ∧ σ.Awake := by
  induction h with
  | start netmode socketV4 socketV6 now =>
    refine ⟨sound_new options netmode socketV4 socketV6 now, fun id state hstate => ?_⟩
    rw [new, get_empty] at hstate
    cases hstate
  | step future event _ hrun ih =>
    have hserved := (handle_spec ih.1 ih.2 future event).of_ok hrun
    exact ⟨hserved.sound, hserved.awake⟩

lemma Reachable.handled (h : Reachable options σ)
    (hrun : σ.handle future event = .ok σ') : Handled { σ with future }.look event σ' :=
  ((handle_spec h.sound.1 h.sound.2 future event).of_ok hrun).handled

lemma Handled.steadies (h : Handled σ event σ') :
    Steadies σ σ' ∨ ∃ request published requestBudget, event = .request request published ∧
      σ.Opening requestBudget ∧ Steadies (σ.opened request published requestBudget) σ' := by
  cases h with
  | refused hacts => exact .inl (Caused.steadies hacts)
  | opened hopen hacts => exact .inr ⟨_, _, _, rfl, hopen, Caused.steadies hacts⟩
  | ignored => exact .inl .refl
  | @late _ _ query =>
    have hact : Act .maintenance σ (σ.finishLookup query.lookupId) := .finish _ trivial
    exact .inl (.single ⟨_, hact⟩)
  | @learned key response _ _ _ _ _ hquery hstate hdeadline hlearn hacts =>
    exact .inl (.head ⟨_, .answer key response hquery hstate hdeadline hlearn⟩ (Caused.steadies hacts))
  | swept hacts => exact .inl (Caused.steadies hacts)

lemma Reachable.steadies (h : Reachable options σ)
    (hrun : σ.handle future event = .ok σ') :
    Steadies σ σ' ∨ ∃ request published requestBudget, event = .request request published ∧
      { σ with future }.look.Opening requestBudget ∧
      Steadies ({ σ with future }.look.opened request published requestBudget) σ' :=
  (h.handled hrun).steadies.imp_left (steadies_look σ future).trans

def runEvents (σ : PeerLookupActor) (events : List ((ℕ → Look) × Event)) : Except Panic PeerLookupActor :=
  events.foldlM (fun σ e => σ.handle e.1 e.2) σ

lemma Reachable.runEvents {events : List ((ℕ → Look) × Event)} (h : Reachable options σ)
    (hrun : σ.runEvents events = .ok σ') : Reachable options σ' := by
  induction events generalizing σ with
  | nil =>
    cases hrun
    exact h
  | cons e events ih =>
    obtain ⟨σ₁, h₁, hrest⟩ := bind_eq_ok.mp hrun
    exact ih (h.step e.1 e.2 h₁) hrest

structure Invariant (options : PeerLookupOptions) (P : PeerLookupActor → Prop) : Prop where
  start : ∀ netmode socketV4 socketV6 now, P (new options netmode socketV4 socketV6 now)
  act : ∀ {cause : Cause} {σ σ' : PeerLookupActor}, Act cause σ σ' → σ.Sound → P σ → P σ'
  opened : ∀ {σ : PeerLookupActor} {requestBudget : RateBucket}, σ.Opening requestBudget → σ.Sound → P σ →
    ∀ request published, P (σ.opened request published requestBudget)

section

variable {P : PeerLookupActor → Prop} (h : Invariant options P)
include h

lemma Invariant.steadies (hsteps : Steadies σ σ') (hsound : σ.Sound) (hP : P σ) : P σ' := by
  induction hsteps with
  | refl => exact hP
  | tail hprev hstep ih => exact hstep.elim fun _ hact => h.act hact (Steadies.sound hprev hsound) ih

lemma Invariant.reachable (hσ : Reachable options σ) : P σ := by
  induction hσ with
  | start netmode socketV4 socketV6 now => exact h.start netmode socketV4 socketV6 now
  | @step σ σ' future event hprev hrun ih =>
    obtain ⟨hsound, -⟩ := hprev.sound
    rcases hprev.steadies hrun with hsteps | ⟨request, published, _, -, hopen, hsteps⟩
    · exact h.steadies hsteps hsound ih
    · have hlook := h.steadies (steadies_look σ future) hsound ih
      have hsound := hsound.handle future
      exact h.steadies hsteps (hsound.opened hopen request published)
        (h.opened hopen hsound hlook request published)

end

end DhtCrawler.PeerLookup.PeerLookupActor
