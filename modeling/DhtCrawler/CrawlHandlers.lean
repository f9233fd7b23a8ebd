import DhtCrawler.CrawlSteps

/-! The handlers of the crawl actor keep it sound and are sequences of acts. -/

namespace DhtCrawler.CrawlActor

open FiniteMap List ResponsiveReservoir Except NodePool Ran

open ResponsiveReservoir (Kept Failed)
open NodePool (Aged Probed Drained)

variable {σ σ' : CrawlActor} {now : Instant} {reserved : Set ℕ} {k : ℕ} {b : Bool} {start : Phase} {stage : Stage}
  {key : PendingKey} {req : PendingRequest} {node : NodeTuple} {slot : ℕ}

variable {events : List (Instant × Event)} {p q : Phase}

/-! ### Ending a request -/

lemma Ran.markTimeout (h : Ran stage start now reserved ⟨k, b, σ⟩) (req : PendingRequest)
    (at' : Instant) : Ran stage start now reserved ⟨k, b, σ.markTimeout req at'⟩ := by
  unfold CrawlActor.markTimeout
  split_ifs
  · exact h.sources _ _ _ h.sound.bootstrap
  · exact h

lemma Ran.markSuccess (h : Ran stage start now reserved ⟨k, b, σ⟩) (req : PendingRequest) (addr : SocketAddr)
    (at' : Instant) : Ran stage start now reserved ⟨k, b, σ.markSuccess req addr at'⟩ := by
  unfold CrawlActor.markSuccess
  split_ifs
  · exact h.sources _ _ _ h.sound.bootstrap
  · exact h

lemma finish_responsive (σ : CrawlActor) (key : PendingKey) (req : PendingRequest) :
    (σ.finish key req).responsive = σ.responsive := by
  rw [finish_eq]

lemma fail_spec (h : Inv ∅ σ.responsive) (key : PendingKey)
    (req : PendingRequest) (now : Instant) :
    Sure (σ.fail key req now) fun σ' =>
      ∃ responsive, Inv ∅ responsive ∧
        Failed req.node.addr req.dispatchedAt now σ.responsive responsive ∧
        σ' = ({ σ.finish key req with responsive } : CrawlActor).markTimeout req now := by
  unfold fail
  dsimp only
  rw [finish_responsive]
  exact (h.recordFailure req.node.addr req.dispatchedAt now).bind fun x ⟨hinv, hjudged⟩ =>
    ⟨x.1, inv_of_subset_empty hinv, hjudged.failed h, rfl⟩

lemma sendFailed_ran (h : Ran .receive start now ∅ ⟨k, b, σ⟩) (key : PendingKey) :
    Sure (σ.sendFailed key now) fun σ' =>
      Ran .receive start now ∅ ⟨k, b, σ'⟩ := by
  unfold sendFailed
  cases hreq : σ.pending.get key with
  | none => exact h
  | some req =>
    refine (fail_spec h.sound.reservoir key req now).mono fun σ' ⟨responsive, hinv, hfailed, hσ'⟩ => ?_
    rw [hσ']
    exact (h.finish hreq hinv (.inl hfailed)).markTimeout req now

def Unexpired (now : Instant) (σ : CrawlActor) : Prop :=
  ∀ deadline key pendingExpiry, σ.pendingExpiry = (deadline, key) :: pendingExpiry → now < deadline

lemma markTimeout_pendingExpiry (σ : CrawlActor) (req : PendingRequest) (now : Instant) :
    (σ.markTimeout req now).pendingExpiry = σ.pendingExpiry := by
  unfold markTimeout
  split_ifs
  · rfl
  · rfl

lemma expirePending_ran (h : Ran .expire start now ∅ ⟨k, b, σ⟩) :
    Sure (σ.expirePending now) fun σ' =>
      Ran .expire start now ∅ ⟨k, b, σ'⟩ ∧ Unexpired now σ' := by
  unfold expirePending
  refine Loop.safe_exit (P := fun σ => Ran .expire start now ∅ ⟨k, b, σ⟩) (fun σ => σ.pendingExpiry.length)
    (fun σ h => ?_) _ h (Nat.lt_succ_self _)
  unfold expireStep
  cases hq : σ.pendingExpiry with
  | nil => exact ⟨h, fun d key rest hd => by rw [hq] at hd; cases hd⟩
  | cons record pendingExpiry =>
    obtain ⟨deadline, key⟩ := record
    dsimp only
    by_cases hlate : deadline > now
    · rw [if_pos hlate]
      refine ⟨h, fun d key' rest hd => ?_⟩
      rw [hq] at hd
      cases hd
      exact hlate
    rw [if_neg hlate]
    cases hreq : (σ.pending.get key).filter fun req => req.deadline = deadline with
    | none => exact ⟨h.dropRecord hq hreq, Nat.lt_succ_self _⟩
    | some req =>
      obtain ⟨hget, hdeadline⟩ := Option.filter_eq_some_iff.mp hreq
      have hdeadline : req.deadline = deadline := of_decide_eq_true hdeadline
      subst hdeadline
      refine (fail_spec (σ := { σ with pendingExpiry }) h.sound.reservoir key req now).bind
        fun σ' ⟨responsive, hinv, ht, hσ'⟩ => ?_
      rw [hσ']
      refine ⟨(h.timeout hq hget hinv ht).markTimeout req now, ?_⟩
      dsimp only
      rw [markTimeout_pendingExpiry, finish_eq]
      exact Nat.lt_succ_self _

/-! ### Events -/

lemma admitAll_ran (h : Ran .receive start now reserved ⟨k, b, σ⟩) (nodes : List NodeTuple) :
    Sure (σ.admitAll nodes now) fun σ' =>
      Ran .receive start now reserved ⟨k, b, σ'⟩ := by
  unfold admitAll
  refine Safe.bind (P := fun pool => Ran .receive start now reserved ⟨k, b, { σ with pool }⟩)
    (safe_foldlM (fun pool node _ hpool => ?_) h) fun pool hpool => hpool
  obtain ⟨x, hadmission, haged⟩ := (admitNode_spec hpool.sound.recent node now).exists
  rw [hadmission]
  exact hpool.admission hadmission haged

lemma handleResponse_ran (h : Ran .receive start now ∅ ⟨k, b, σ⟩) (key : PendingKey) (response : DhtResponse) :
    Sure (σ.handleResponse key response now) fun σ' =>
      Ran .receive start now ∅ ⟨k, b, σ'⟩ := by
  unfold handleResponse
  cases hreq : σ.pending.get key with
  | none => exact h
  | some req => ?_
  have hnode : (responsiveNode req response).addr = req.node.addr := by
    unfold responsiveNode
    split
    · rfl
    · rfl
  have hresponsive : ((σ.finish key req).markSuccess req key.addr now).responsive = σ.responsive := by
    unfold CrawlActor.markSuccess
    split_ifs
    · exact finish_responsive σ key req
    · exact finish_responsive σ key req
  dsimp only
  rw [hresponsive]
  refine (h.sound.reservoir.record _ now req.dispatchedAt).bind fun responsive ⟨hinv, hrecorded⟩ => ?_
  refine admitAll_ran ?_ _
  have hanswered := hrecorded.answered h.sound.reservoir
  rw [hnode] at hanswered
  have hran := (h.finish hreq (inv_of_subset_empty hinv)
    (.inr hanswered)).markSuccess req key.addr now
  unfold CrawlActor.markSuccess at hran ⊢
  split_ifs at hran ⊢
  · exact hran
  · exact hran

lemma bootstrapResolved_ran (h : Ran stage start now ∅ ⟨k, b, σ⟩) (hresolving : 0 < σ.resolving)
    (candidates : List SocketAddr) :
    Safe (· = .capacityOverflow) (σ.bootstrapResolved candidates now) fun σ' =>
      Ran stage start now ∅ ⟨k, b, σ'⟩ := by
  unfold bootstrapResolved
  refine (BootstrapSourcePool.select_safe _ candidates _ now).bind fun _ _ => ?_
  refine h.sources _ _ _ fun hdisabled => ?_
  rw [(h.sound.bootstrap hdisabled).1] at hresolving
  exact absurd hresolving (Nat.lt_irrefl 0)

lemma publishSnapshot_ran (h : Ran stage start now ∅ ⟨k, b, σ⟩) :
    Sure (σ.publishSnapshot now) fun σ' =>
      Ran stage start now ∅ ⟨k, b, σ'⟩ := by
  unfold publishSnapshot
  exact (h.sound.reservoir.snapshot _ now).bind fun x ⟨hinv, hkept, _⟩ =>
    (h.reservoir hinv hkept).sources _ _ _ h.sound.bootstrap

/-! ### Dispatch -/

lemma chooseTarget_safe (h : Inv reserved σ.responsive) (dice : ℕ × ℕ) :
    Sure (σ.chooseTarget dice) fun _ => True := by
  unfold chooseTarget
  dsimp only
  split_ifs
  · have hlt := Nat.mod_lt dice.2 (length_pos_of_ne_nil h.sparse)
    rw [List.getElem?_eq_getElem hlt]
    trivial
  · trivial

lemma tryDispatch_spec (h : Inv reserved σ.responsive)
    (hres : reserved ⊆ σ.responsive.slotsOf node.addr) (input : TickInput)
    (purpose : ProbePurpose) (now : Instant) (fresh charged : Bool) :
    Sure (σ.tryDispatch input node purpose now fresh charged) fun x =>
      x = (σ, false) ∨ σ.pending.len < σ.config.maxInFlight ∧
          σ.subnetCount (.fromAddr node.addr) < σ.config.maxInFlightPerSubnet ∧
          (∀ x blocked, σ.responsive.health node.addr = some x → x.blockedUntil = some blocked →
            blocked ≤ now) ∧
          ∃ target responsive, Inv ∅ responsive ∧ Kept σ.responsive responsive ∧
            x = ({ σ.launched node purpose now fresh charged target with responsive }, true) := by
  unfold tryDispatch
  by_cases hfull : σ.pending.len ≥ σ.config.maxInFlight
  · rw [if_pos hfull]
    exact Or.inl rfl
  rw [if_neg hfull, h.isBackingOff node.addr now, ok_bind]
  split_ifs with hrefused
  · exact Or.inl rfl
  · have hsubnet : ¬σ.subnetCount (.fromAddr node.addr) ≥ σ.config.maxInFlightPerSubnet :=
      fun hs => hrefused (Or.inr (Or.inl hs))
    refine (chooseTarget_safe h _).bind fun target _ => ?_
    refine (h.recordProbe node.addr now).bind fun responsive ⟨hinv, hupdated⟩ => ?_
    rw [Set.sdiff_eq_empty.mpr hres] at hinv
    refine Or.inr ⟨not_le.mp hfull, not_le.mp hsubnet, fun x blocked hx hblocked => ?_, target, responsive, hinv,
      hupdated.kept h (fun _ => rfl), rfl⟩
    refine not_lt.mp fun hlate => hrefused (Or.inl ?_)
    rw [hx, Option.bind_some, hblocked]
    exact decide_eq_true hlate

/-! ### Scheduling -/

def Attempted (start : Phase) (now : Instant) (k : ℕ) (x : CrawlActor × Bool) : Prop :=
  Ran .schedule start now ∅ ⟨if x.2 then k else k + 1, false, x.1⟩

variable {addr : SocketAddr} {event : Event}

lemma deferRevisit_ran (h : Ran .schedule start now reserved ⟨k + 1, false, σ⟩)
    (hres : reserved ⊆ σ.responsive.slotsOf addr) :
    Sure (σ.deferRevisit addr now) fun σ' =>
      Ran .schedule start now ∅ ⟨k + 1, false, σ'⟩ := by
  unfold CrawlActor.deferRevisit
  refine (h.sound.reservoir.deferRevisit addr _ now).bind fun responsive ⟨hinv, hupdated⟩ => ?_
  rw [Set.sdiff_eq_empty.mpr hres] at hinv
  exact h.reservoir hinv (hupdated.kept h.sound.reservoir fun _ => rfl)

lemma Ran.deadline_le (h : Ran stage start now reserved ⟨k, b, σ⟩) (a : SocketAddr) (d : Instant)
    (hd : σ.pool.recent.deadline a = some d) : d ≤ now + σ.pool.recentTtl :=
  h.clock ▸ h.sound.deadline_le a d hd

lemma revisit_ran (h : Ran .schedule start now reserved ⟨k + 1, b, σ⟩)
    (hslot : σ.responsive.index.get node.addr = some slot) (hres : reserved = {slot})
    (hcharged : b = !σ.pool.recent.contains node.addr now) (input : TickInput) :
    Safe (· = .capacityOverflow) (σ.revisit input node now b) (Attempted start now k) := by
  have hres : reserved ⊆ σ.responsive.slotsOf node.addr := by
    rw [hres, slotsOf_eq hslot]
  unfold revisit
  refine ((tryDispatch_spec h.sound.reservoir hres input .revisit now b b).weaken nofun).bind fun x hx => ?_
  rcases hx with rfl | ⟨hroom, hsubnet, hunblocked, target, responsive, hinv, hkept, rfl⟩
  · refine ((deferRevisit_ran h.refund ?_).weaken nofun).bind fun σ' h' => h'
    unfold refundDestination
    split_ifs
    · exact hres
    · exact hres
  · refine Safe.bind (P := fun σ' => Ran .schedule start now ∅ ⟨k, false, σ'⟩) ?_ fun σ' h' => h'
    unfold CrawlActor.recordProbe
    refine (recordProbe_spec h.sound.recent node.addr h.deadline_le).bind
      fun pool ⟨hpool, hqueue, hqueued, hrules⟩ => ?_
    have hsent : Sent .revisit node.addr σ.pool pool := .inr ⟨by decide, hqueue, hqueued⟩
    have hran := h.send target hroom hsubnet (fun hb => ?_) (fun _ => Or.inr ⟨slot, hslot⟩) hunblocked hpool
      hinv hkept hsent (drained_of_queue hqueue hrules)
    · rw [← hcharged] at hran
      exact hran
    · rw [hb] at hcharged
      exact (Bool.not_eq_false' _).mp hcharged.symm

lemma scheduleRevisit_ran (h : Ran .schedule start now ∅ ⟨k + 1, false, σ⟩) (input : TickInput) :
    Safe (· = .capacityOverflow) (σ.scheduleRevisit input now) (Attempted start now k) := by
  unfold scheduleRevisit
  refine ((h.sound.reservoir.nextRevisit now).weaken nofun).bind fun x ⟨hkept, hx⟩ => ?_
  obtain ⟨responsive, found⟩ := x
  cases found with
  | none => exact h.reservoir hx hkept
  | some node => ?_
  obtain ⟨slot, hinv, hslot⟩ := hx
  have hres : (insert slot ∅ : Set ℕ) = {slot} := insert_empty_eq slot
  have h₁ := h.reservoir hinv hkept
  refine ((containsRecent_spec h₁.sound.recent node.addr now).weaken nofun).bind
    fun y ⟨haged, hdrained, hwas⟩ => ?_
  obtain ⟨pool, wasRecent⟩ := y
  have h₂ := h₁.queue haged hdrained
  dsimp only at hwas ⊢
  subst hwas
  by_cases hrecent : pool.recent.contains node.addr now = true
  · rw [if_pos hrecent]
    exact revisit_ran h₂ hslot hres (by rw [hrecent]; rfl) input
  rw [if_neg hrecent]
  have hcharged : true = !pool.recent.contains node.addr now := by
    rw [Bool.eq_false_iff.mpr hrecent]
    rfl
  cases htake : σ.destinationBudget.tryTakeOne now with
  | mk destinationBudget taken =>
    cases taken with
    | true => exact revisit_ran (h₂.charge htake) hslot hres hcharged input
    | false =>
      refine ((deferRevisit_ran (h₂.charge htake) ?_).weaken nofun).bind fun σ' h' => h'
      rw [hres]
      exact (slotsOf_eq hslot).ge

lemma probeFront_ran (h : Ran .schedule start now ∅ ⟨k + 1, true, σ⟩) (hfront : σ.pool.front = some node)
    (input : TickInput) :
    Safe (· = .capacityOverflow) (σ.probeFront input now) (Attempted start now k) := by
  unfold probeFront
  refine (takeFrontForProbe_spec h.sound.recent hfront h.deadline_le).bind
    fun x ⟨htaken, hprobed, hdequeued, hwaiting, hrules⟩ => ?_
  obtain ⟨pool, taken⟩ := x
  dsimp only at htaken hprobed hdequeued hwaiting hrules ⊢
  subst htaken
  have hdrained : Drained σ.pool pool := by
    refine ⟨?_, hrules⟩
    rw [hwaiting]
    exact (sublist_cons_self _ _).subperm
  show Safe _ (tryDispatch { σ with pool } input node .new now _ true >>= _) _
  refine ((tryDispatch_spec (σ := { σ with pool }) h.sound.reservoir (Set.empty_subset _) input .new now _
    true).weaken nofun).bind fun x hx => ?_
  rcases hx with rfl | ⟨hroom, hsubnet, hunblocked, target, responsive, hinv, hkept, rfl⟩
  · refine ((restoreFront_spec hprobed.inv node now).weaken nofun).bind
      fun pool' ⟨hinv, hcap, hdead, httl, hev, hwaiting', hqueued', hrules'⟩ => ?_
    have hrestored : Restored node.addr σ.pool pool' := by
      rw [← hwaiting] at hwaiting'
      refine ⟨hwaiting ▸ mem_cons_self, hwaiting', fun hdistinct => ⟨hwaiting' ▸ hdistinct.1, fun a => ?_⟩⟩
      rw [hqueued', hwaiting', hwaiting, Finset.mem_insert, (hdequeued hdistinct).1.2, mem_cons]
    have hdrained' : Drained σ.pool pool' := by
      refine ⟨?_, hrules'.trans hrules⟩
      rw [hwaiting', ← hwaiting]
    exact scheduleRevisit_ran
      (h.refuse hprobed ⟨hinv, hcap, hdead, httl, hev⟩ hrestored hdrained').refund input
  · exact h.send target hroom hsubnet nofun nofun hunblocked hprobed hinv hkept (.inl ⟨rfl, hdequeued⟩) hdrained

lemma rotateFrontToBack_aged {pool : NodePool} (h : RecentProbes.Inv pool.recent) (now : Instant) :
    Aged now pool pool.rotateFrontToBack ∧ Drained pool pool.rotateFrontToBack := by
  unfold rotateFrontToBack
  split_ifs
  · exact ⟨aged_refl h now, .refl pool⟩
  · have hperm : (waiting { pool with queue := pool.queue.rotate 1 }).Perm pool.waiting :=
      (rotate_perm _ _).map _
    refine ⟨⟨h.expired_refl now, rfl, rfl, fun hdistinct => ?_⟩, hperm.subperm, rfl⟩
    refine ⟨⟨hperm.nodup_iff.mpr hdistinct.1, fun a => ?_⟩, fun a ha => .inl (hperm.mem_iff.mp ha)⟩
    rw [hperm.mem_iff]
    exact hdistinct.2 a

lemma scanPool_ran (input : TickInput) (n : ℕ) (h : Ran .schedule start now ∅ ⟨k + 1, false, σ⟩) :
    Safe (· = .capacityOverflow) (scanPool input now n σ) (Attempted start now k) := by
  induction n generalizing σ with
  | zero => exact scheduleRevisit_ran h input
  | succ n ih =>
    unfold scanPool
    cases hfront : σ.pool.front with
    | none => exact scheduleRevisit_ran h input
    | some node =>
      dsimp only
      rw [h.sound.reservoir.isBackingOff node.addr now, ok_bind]
      split_ifs
      · obtain ⟨haged, hdrained⟩ := rotateFrontToBack_aged h.sound.recent now
        exact ih (h.queue haged hdrained)
      · cases htake : σ.destinationBudget.tryTakeOne now with
        | mk destinationBudget taken =>
          cases taken with
          | true => exact probeFront_ran (h.charge htake) hfront input
          | false => exact scheduleRevisit_ran (h.charge htake) input

lemma probeBootstrap_ran (h : Ran .schedule start now ∅ ⟨k + 1, b, σ⟩)
    (hcharged : b = !σ.pool.recent.contains addr now) (henabled : σ.config.bootstrapEnabled = true)
    (input : TickInput) :
    Safe (· = .capacityOverflow) (σ.probeBootstrap input addr now b)
      (Attempted start now k) := by
  unfold probeBootstrap
  refine Safe.bind ((tryDispatch_spec h.sound.reservoir (Set.empty_subset _) input .bootstrap now b
    b).weaken nofun) fun x hx => ?_
  rcases hx with rfl | ⟨hroom, hsubnet, hunblocked, target, responsive, hinv, hkept, rfl⟩
  · exact scanPool_ran input _ h.refund
  · refine Safe.bind (P := fun σ' => Ran .schedule start now ∅ ⟨k, false, σ'⟩) ?_ fun σ' h' => ?_
    · unfold CrawlActor.recordProbe
      refine (recordProbe_spec h.sound.recent addr h.deadline_le).bind
        fun pool ⟨hpool, hqueue, hqueued, hrules⟩ => ?_
      have hsent : Sent .bootstrap addr σ.pool pool := .inr ⟨by decide, hqueue, hqueued⟩
      have hran := h.send target hroom hsubnet (fun hb => ?_) (fun _ => Or.inl henabled) hunblocked hpool hinv
        hkept hsent (drained_of_queue hqueue hrules)
      · rw [← hcharged] at hran
        exact hran.sources _ _ _ fun hdisabled => nomatch henabled.symm.trans hdisabled
      · rw [hb] at hcharged
        exact (Bool.not_eq_false' _).mp hcharged.symm
    · exact h'.sources _ _ _ h'.sound.bootstrap

lemma bootstrapEnabled_of_front (h : Sound reserved σ) (hfront : σ.bootstrapFront = some addr) :
    σ.config.bootstrapEnabled = true := by
  unfold bootstrapFront at hfront
  split_ifs at hfront
  refine (Bool.not_eq_false _).mp fun hdisabled => ?_
  rw [(h.bootstrap hdisabled).2] at hfront
  cases hfront

lemma scheduleOne_ran (h : Ran .schedule start now ∅ ⟨k + 1, false, σ⟩) (input : TickInput) :
    Safe (· = .capacityOverflow) (σ.scheduleOne input now) (Attempted start now k) := by
  unfold scheduleOne
  cases hfront : σ.bootstrapFront with
  | none => exact scanPool_ran input _ h
  | some addr => ?_
  have henabled := bootstrapEnabled_of_front h.sound hfront
  refine ((containsRecent_spec h.sound.recent addr now).weaken nofun).bind
    fun y ⟨haged, hdrained, hwas⟩ => ?_
  obtain ⟨pool, isRecent⟩ := y
  have h₁ := h.queue haged hdrained
  dsimp only at hwas ⊢
  subst hwas
  by_cases hrecent : pool.recent.contains addr now = true
  · rw [if_pos hrecent]
    exact probeBootstrap_ran h₁ (by rw [hrecent]; rfl) henabled input
  rw [if_neg hrecent]
  have hcharged : true = !pool.recent.contains addr now := by
    rw [Bool.eq_false_iff.mpr hrecent]
    rfl
  cases htake : σ.destinationBudget.tryTakeOne now with
  | mk destinationBudget taken =>
    cases taken with
    | true => exact probeBootstrap_ran (h₁.charge htake) hcharged henabled input
    | false => exact scheduleRevisit_ran (h₁.charge htake) input

def Settled (start : Phase) (now : Instant) (σ' : CrawlActor) : Prop :=
  Ran .schedule start now ∅ ⟨0, false, σ'⟩ ∨ ∃ left σ, Ran .schedule start now ∅ ⟨left, false, σ⟩ ∧
      σ' = { σ with queryBudget := σ.queryBudget.refund left }

lemma scheduleBatch_ran (input : TickInput) (n : ℕ) (h : Ran .schedule start now ∅ ⟨n, false, σ⟩) :
    Safe (· = .capacityOverflow) (scheduleBatch input now n σ) (Settled start now) := by
  induction n generalizing σ with
  | zero => exact Or.inl h
  | succ n ih =>
    unfold scheduleBatch
    split_ifs
    · exact Or.inr ⟨n + 1, σ, h, rfl⟩
    · refine (scheduleOne_ran h input).bind fun x hx => ?_
      obtain ⟨σ', sent⟩ := x
      cases sent with
      | true => exact ih hx
      | false => exact Or.inr ⟨n + 1, σ', hx, rfl⟩

lemma shouldBootstrap_disabled {config : ResolvedCrawlConfig} (hdisabled : config.bootstrapEnabled = false)
    (gate : BootstrapGate) (poolLen : ℕ) (now : Instant) :
    (gate.shouldBootstrap poolLen config now).2 = false := by
  have hoff : ¬(0 < config.bootstrapMaxNodesPerRound ∧ 0 < config.lowWatermark) := by
    intro hon
    unfold ResolvedCrawlConfig.bootstrapEnabled at hdisabled
    rw [decide_eq_true hon.1, decide_eq_true hon.2] at hdisabled
    cases hdisabled
  unfold BootstrapGate.shouldBootstrap
  split_ifs
  · rfl
  · rfl
  · rfl
  · omega

lemma maybeResolveBootstrap_ran (h : Ran stage start now ∅ ⟨k, b, σ⟩) :
    Ran stage start now ∅ ⟨k, b, σ.maybeResolveBootstrap now⟩ := by
  unfold maybeResolveBootstrap
  split_ifs
  · have hboot : σ.config.bootstrapEnabled = false →
        (if (σ.bootstrapGate.shouldBootstrap σ.pool.queue.length σ.config now).2
          then σ.resolving + 1 else σ.resolving) = 0 ∧ σ.bootstrapQueue = [] := by
      intro hdisabled
      rw [shouldBootstrap_disabled hdisabled]
      exact h.sound.bootstrap hdisabled
    exact h.sources _ _ _ hboot
  · exact h

lemma maybeResolveBootstrap_same (σ : CrawlActor) (now : Instant) :
    (σ.maybeResolveBootstrap now).pendingExpiry = σ.pendingExpiry := by
  unfold maybeResolveBootstrap
  split_ifs
  · rfl
  · rfl

def Ticked (input : TickInput) (now : Instant) (σ σ' : CrawlActor) : Prop :=
  ∃ mid queryBudget n, Ran .expire ⟨0, false, σ⟩ now ∅ ⟨0, false, mid⟩ ∧ Unexpired now mid ∧
    (mid.queryBudget.setPerSecondRate (mid.tickRate input) now).tryTake mid.config.burst now =
      (queryBudget, n) ∧
    Settled ⟨n, false, { mid with queryBudget }⟩ now σ'

lemma onScheduleTick_ticked (h : Sound ∅ σ) (hnow : σ.clock = now) (input : TickInput) :
    Safe (· = .capacityOverflow) (σ.onScheduleTick input now) (Ticked input now σ) := by
  subst hnow
  unfold onScheduleTick
  refine ((expirePending_ran (.of_sound .expire h 0 false)).weaken nofun).bind fun σ₁ ⟨h₁, hexp⟩ => ?_
  have h₂ := maybeResolveBootstrap_ran h₁
  have hexp₂ : Unexpired σ.clock (σ₁.maybeResolveBootstrap σ.clock) := by
    unfold Unexpired
    rw [maybeResolveBootstrap_same]
    exact hexp
  generalize σ₁.maybeResolveBootstrap σ.clock = mid at h₂ hexp₂ ⊢
  dsimp only
  cases htake : (mid.queryBudget.setPerSecondRate (mid.tickRate input) σ.clock).tryTake
      mid.config.burst σ.clock with
  | mk queryBudget n =>
    have hsound : Sound ∅ { mid with queryBudget } :=
      ⟨h₂.sound.reservoir, h₂.sound.recent, h₂.sound.deadline_le, h₂.sound.bootstrap⟩
    have hstart : Ran .schedule ⟨n, false, { mid with queryBudget }⟩ σ.clock ∅
        ⟨n, false, { mid with queryBudget }⟩ := ⟨hsound, h₂.clock, .refl⟩
    exact (scheduleBatch_ran input n hstart).mono fun σ' hσ' =>
      ⟨mid, queryBudget, n, h₂, hexp₂, htake, hσ'⟩

/-! ### Runs -/

def Handled (now : Instant) (σ : CrawlActor) : Event → CrawlActor → Prop
  | .scheduleTick input, σ' => Ticked input now σ σ'
  | _, σ' => Ran .receive ⟨0, false, σ⟩ now ∅ ⟨0, false, σ'⟩

lemma Sound.clock (h : Sound ∅ σ) (hnow : σ.clock ≤ now) : Sound ∅ { σ with clock := now } :=
  ⟨h.reservoir, h.recent, fun a d hd => (h.deadline_le a d hd).trans (Nat.add_le_add_right hnow _), h.bootstrap⟩

lemma handle_spec (h : Sound ∅ σ) (hnow : σ.clock ≤ now) (hevent : event.Possible σ) :
    Safe (· = .capacityOverflow) (σ.handle now event)
      (Handled now { σ with clock := now } event) := by
  have hran := of_sound .receive (h.clock hnow) 0 false
  cases event with
  | scheduleTick input => exact onScheduleTick_ticked (h.clock hnow) rfl input
  | snapshotTick => exact (publishSnapshot_ran hran).weaken nofun
  | response key response => exact (handleResponse_ran hran key response).weaken nofun
  | sendFailed key => exact (sendFailed_ran hran key).weaken nofun
  | bootstrapResolved candidates => exact bootstrapResolved_ran hran hevent candidates
  | discovered node => exact (admitAll_ran hran [node]).weaken nofun

lemma Settled.sound (h : Settled start now σ') : Sound ∅ σ' := by
  rcases h with h | ⟨left, σ, h, rfl⟩
  · exact h.sound
  · exact ⟨h.sound.reservoir, h.sound.recent, h.sound.deadline_le, h.sound.bootstrap⟩

lemma Handled.sound (h : Handled now σ event σ') : Sound ∅ σ' := by
  cases event with
  | scheduleTick input =>
    obtain ⟨mid, queryBudget, n, _, _, _, hsettled⟩ := h
    exact hsettled.sound
  | snapshotTick => exact sound h
  | response key response => exact sound h
  | sendFailed key => exact sound h
  | bootstrapResolved candidates => exact sound h
  | discovered node => exact sound h

lemma sound_new (config : ResolvedCrawlConfig) (netmode : NetMode) (localId : NodeId) (maxMetadataQueueSize : ℕ)
    (now : Instant) : Sound ∅ (new config netmode localId maxMetadataQueueSize now) :=
  ⟨inv_new _ _ _, RecentProbes.inv_new _, nofun, fun _ => ⟨rfl, rfl⟩⟩

lemma Reachable.sound {options : CrawlOptions} (h : Reachable options σ) : Sound ∅ σ := by
  induction h with
  | start netmode localId maxMetadataQueueSize now => exact sound_new _ _ _ _ _
  | step now event _ hnow hevent hrun ih => exact ((handle_spec ih hnow hevent).of_ok hrun).sound

lemma Settled.clock (h : Settled start now σ') : σ'.clock = now := by
  rcases h with h | ⟨left, σ, h, rfl⟩
  · exact h.clock
  · exact h.clock

lemma Handled.clock (h : Handled now σ event σ') : σ'.clock = now := by
  cases event with
  | scheduleTick input =>
    obtain ⟨mid, queryBudget, n, _, _, _, hsettled⟩ := h
    exact hsettled.clock
  | snapshotTick => exact Ran.clock h
  | response key response => exact Ran.clock h
  | sendFailed key => exact Ran.clock h
  | bootstrapResolved candidates => exact Ran.clock h
  | discovered node => exact Ran.clock h

def runEvents (σ : CrawlActor) (events : List (Instant × Event)) : Except Panic CrawlActor :=
  events.foldlM (fun σ e => σ.handle e.1 e.2) σ

def Event.isFree : Event → Bool
  | .bootstrapResolved _ => false
  | _ => true

lemma possible_of_isFree (hfree : events.all (fun e => e.2.isFree) = true) :
    ∀ e ∈ events, ∀ σ, e.2.Possible σ := by
  intro e he σ
  have he := all_eq_true.mp hfree e he
  cases hevent : e.2 with
  | bootstrapResolved candidates =>
    rw [hevent] at he
    cases he
  | _ => trivial

lemma Reachable.runEvents {options : CrawlOptions} (h : Reachable options σ)
    (hclock : List.IsChain (· ≤ ·) (σ.clock :: events.map Prod.fst)) (hkind : ∀ e ∈ events, ∀ σ, e.2.Possible σ)
    (hrun : σ.runEvents events = .ok σ') : Reachable options σ' := by
  induction events generalizing σ with
  | nil =>
    cases hrun
    exact h
  | cons e events ih =>
    rw [map_cons, isChain_cons_cons] at hclock
    have hevent := hkind e mem_cons_self σ
    obtain ⟨σ₁, h₁, hrest⟩ := bind_eq_ok.mp hrun
    have hclock₁ := ((handle_spec h.sound hclock.1 hevent).of_ok h₁).clock
    refine ih (h.step e.1 e.2 hclock.1 hevent h₁) ?_ (fun e' he' => hkind e' (mem_cons_of_mem _ he'))
      hrest
    rw [hclock₁]
    exact hclock.2

/-! ### Invariants over runs -/

structure Static (σ σ' : CrawlActor) : Prop where
  config : σ'.config = σ.config
  clock : σ'.clock = σ.clock
  queryBudget : σ'.queryBudget = σ.queryBudget
  maxMetadataQueueSize : σ'.maxMetadataQueueSize = σ.maxMetadataQueueSize

lemma Act.static (h : Act stage p q) : Static p.actor q.actor := by
  cases h with
  | finish key req responsive hreq hresponsive =>
    rw [finish_eq]
    exact ⟨rfl, rfl, rfl, rfl⟩
  | timeout key req pendingExpiry responsive hfirst hreq hresponsive =>
    rw [finish_eq]
    exact ⟨rfl, rfl, rfl, rfl⟩
  | _ => exact ⟨rfl, rfl, rfl, rfl⟩

lemma Acts.static (h : Acts stage p q) : Static p.actor q.actor := by
  induction h with
  | refl => exact ⟨rfl, rfl, rfl, rfl⟩
  | tail _ hact ih =>
    have hstatic := hact.static
    exact ⟨hstatic.config.trans ih.config, hstatic.clock.trans ih.clock,
      hstatic.queryBudget.trans ih.queryBudget,
      hstatic.maxMetadataQueueSize.trans ih.maxMetadataQueueSize⟩

/-- What has to be shown of a property of phases for it to hold between all handlers of a run. -/
structure Invariant (options : CrawlOptions) (I : Phase → Prop) : Prop where
  start : ∀ netmode localId maxMetadataQueueSize now,
    I ⟨0, false, new (.fromOptions options) netmode localId maxMetadataQueueSize now⟩
  clock : ∀ σ now, σ.config = .fromOptions options → Sound ∅ σ → σ.clock ≤ now →
    I ⟨0, false, σ⟩ → I ⟨0, false, { σ with clock := now }⟩
  act : ∀ stage p q, p.actor.config = .fromOptions options → Act stage p q → I p → I q
  batch : ∀ σ queryBudget n input, σ.config = .fromOptions options →
    (σ.queryBudget.setPerSecondRate (σ.tickRate input) σ.clock).tryTake σ.config.burst σ.clock =
      (queryBudget, n) → I ⟨0, false, σ⟩ → I ⟨n, false, { σ with queryBudget }⟩
  refund : ∀ k σ, I ⟨k, false, σ⟩ → I ⟨0, false, { σ with queryBudget := σ.queryBudget.refund k }⟩

namespace Invariant

variable {options : CrawlOptions} {I : Phase → Prop}

section

variable (hI : Invariant options I)
include hI

lemma acts (h : Acts stage p q) (hconfig : p.actor.config = .fromOptions options) (hp : I p) :
    I q := by
  induction h with
  | refl => exact hp
  | tail hacts hact ih => exact hI.act _ _ _ ((Acts.static hacts).config.trans hconfig) hact ih

lemma ran (h : Ran stage start now reserved ⟨0, false, σ'⟩)
    (hconfig : start.actor.config = .fromOptions options) (hstart : I start) :
    I ⟨0, false, σ'⟩ ∧ σ'.config = .fromOptions options :=
  ⟨hI.acts h.acts hconfig hstart, (Acts.static h.acts).config.trans hconfig⟩

lemma settled (h : Settled start now σ') (hconfig : start.actor.config = .fromOptions options)
    (hstart : I start) : I ⟨0, false, σ'⟩ ∧ σ'.config = .fromOptions options := by
  rcases h with h | ⟨left, σ, h, rfl⟩
  · exact hI.ran h hconfig hstart
  · exact ⟨hI.refund left σ (hI.acts h.acts hconfig hstart), (Acts.static h.acts).config.trans hconfig⟩

lemma handled {event : Event} (h : Handled now σ event σ') (hconfig : σ.config = .fromOptions options)
    (hσ : I ⟨0, false, σ⟩) : I ⟨0, false, σ'⟩ ∧ σ'.config = .fromOptions options := by
  cases event with
  | scheduleTick input =>
    obtain ⟨mid, queryBudget, n, hmid, _, htake, hsettled⟩ := h
    have hconfig' := (Acts.static hmid.acts).config.trans hconfig
    rw [← hmid.clock] at htake
    exact hI.settled hsettled hconfig'
      (hI.batch mid queryBudget n input hconfig' htake (hI.acts hmid.acts hconfig hσ))
  | snapshotTick => exact hI.ran h hconfig hσ
  | response key response => exact hI.ran h hconfig hσ
  | sendFailed key => exact hI.ran h hconfig hσ
  | bootstrapResolved candidates => exact hI.ran h hconfig hσ
  | discovered node => exact hI.ran h hconfig hσ

lemma reachable (h : Reachable options σ) : I ⟨0, false, σ⟩ ∧ σ.config = .fromOptions options := by
  induction h with
  | start netmode localId maxMetadataQueueSize now => exact ⟨hI.start _ _ _ _, rfl⟩
  | step now event hσ hnow hevent hrun ih =>
    have hhandled := (handle_spec hσ.sound hnow hevent).of_ok hrun
    exact hI.handled hhandled ih.2 (hI.clock _ now ih.2 hσ.sound hnow ih.1)

end

end Invariant

/-! ### A sample run -/

def sampleOptions : CrawlOptions where
  pool := ⟨4, 60, 2, 300, 30, 0⟩
  rateLimit := ⟨10, 2, 4, 2, 600, 10, 60, 2⟩
  bootstrap := ⟨[], 60, 0, 10, 60⟩
  target := ⟨50, 50⟩
  routingSnapshotSize := 8

def sampleNode (octet : UInt8) : NodeTuple := ⟨.replicate 20 octet, exampleAddr octet⟩

def sampleEvents : List (Instant × Event) :=
  [(secs 1, .discovered (sampleNode 1)), (secs 1, .discovered (sampleNode 2)),
    (secs 2, .scheduleTick ⟨0, fun _ _ _ => true, fun _ => (0, 0)⟩),
    (secs 3, .response ⟨(sampleNode 1).addr, 1⟩ ⟨none, none, none, none, none, none, none⟩)]

def sampleRun : Except Panic CrawlActor :=
  (new (.fromOptions sampleOptions) .dualStack (.replicate 20 0) 10 0).runEvents sampleEvents

def sizes (σ : CrawlActor) : ℕ × ℕ × ℕ := (σ.responsive.index.len, σ.pending.len, σ.dispatches.length)

lemma sample_reachable : ∃ σ, Reachable sampleOptions σ ∧ σ.sizes = (1, 1, 2) := by
  have hsizes : sampleRun.toOption.map sizes = some (1, 1, 2) := by decide +kernel
  cases hrun : sampleRun with
  | error panic =>
    rw [hrun] at hsizes
    cases hsizes
  | ok σ =>
    rw [hrun] at hsizes
    exact ⟨σ, Reachable.runEvents (.start .dualStack (.replicate 20 0) 10 0) (by decide)
      (possible_of_isFree rfl) hrun, Option.some_inj.mp hsizes⟩

/-! ### The reservoir -/

/-- Between two handlers the index and the occupied slots of the reservoir describe each other, and every
occupied slot is in the ready list or in the revisits, once. -/
theorem reservoir_schedule_exact {options : CrawlOptions} (hσ : Reachable options σ) :
    (∀ addr i, σ.responsive.index.get addr = some i ↔ ∃ e, σ.responsive.entry i = some e ∧ e.node.addr = addr) ∧
    (∀ a b i, σ.responsive.index.get a = some i → σ.responsive.index.get b = some i → a = b) ∧
    (∀ key, key ∈ σ.responsive.revisits ↔
      ∃ i e, σ.responsive.entry i = some e ∧ e.revisitKey = some key ∧ key.slot = i) ∧
    (∀ i e key, σ.responsive.entry i = some e → e.revisitKey = some key → key.slot = i) ∧
    (∃ l, ResponsiveReservoir.ReadyList σ.responsive l ∧ ∀ i e, σ.responsive.entry i = some e →
      Xor (i ∈ l) (∃ key ∈ σ.responsive.revisits, key.slot = i)) ∧
    σ.responsive.readyLen + σ.responsive.revisits.card = σ.responsive.index.len ∧
    ∀ now event, σ.clock ≤ now → event.Possible σ →
      ∀ panic, σ.handle now event = .error panic → panic = .capacityOverflow := by
  have h := hσ.sound
  have hr := h.reservoir
  refine ⟨hr.indexed, fun a b i ha hb => ?_, fun key => ?_, hr.keySlot, ?_, hr.len_eq,
    fun now event hnow hevent panic hpanic => ?_⟩
  · obtain ⟨x, hx, hxa⟩ := hr.entry_of_index ha
    obtain ⟨y, hy, hyb⟩ := hr.entry_of_index hb
    rw [hx] at hy
    cases hy
    exact hxa.symm.trans hyb
  · rw [hr.keyed]
    constructor
    · rintro ⟨e, he, hkey⟩
      exact ⟨key.slot, e, he, hkey, rfl⟩
    · rintro ⟨i, e, he, hkey, rfl⟩
      exact ⟨e, he, hkey⟩
  · obtain ⟨l, hl⟩ := hr.list
    exact ⟨l, hl, fun i e he => hr.ready_or_waiting hl he⟩
  · have hsafe := handle_spec h hnow hevent
    rw [hpanic] at hsafe
    exact hsafe

theorem reservoir_schedule_exact_sample :
    ∃ σ, σ.sizes = (1, 1, 2) ∧ Reachable sampleOptions σ ∧
      σ.responsive.readyLen + σ.responsive.revisits.card = 1 := by
  obtain ⟨σ, hσ, hsizes⟩ := sample_reachable
  have hlen : σ.responsive.index.len = 1 := congrArg Prod.fst hsizes
  exact ⟨σ, hsizes, hσ, (reservoir_schedule_exact hσ).2.2.2.2.2.1.trans hlen⟩

end DhtCrawler.CrawlActor
