import DhtCrawler.CrawlHandlers

/-! The backoff of a responsive node that fails. -/

namespace DhtCrawler.CrawlActor

open FiniteMap List Option Except

open ResponsiveReservoir (Health Kept Failed Answered)

variable {σ σ' σ₀ : CrawlActor} {now : Instant} {p q : Phase} {stage : Stage} {addr : SocketAddr}
  {x x₀ : Health} {options : CrawlOptions}

variable {key : PendingKey} {req : PendingRequest} {event : Event}

def Solo (σ : CrawlActor) : Prop :=
  ∀ key key' req req', σ.pending.get key = some req → σ.pending.get key' = some req' →
    req.node.addr = req'.node.addr → key = key'

def Dwindled (σ₀ σ : CrawlActor) : Prop := ∀ key req, σ.pending.get key = some req → σ₀.pending.get key = some req

lemma Dwindled.solo (h : Dwindled σ₀ σ) (hsolo : Solo σ₀) : Solo σ :=
  fun key key' req req' hreq hreq' => hsolo key key' req req' (h key req hreq) (h key' req' hreq')

lemma dwindled_finish (σ : CrawlActor) (key : PendingKey) (req : PendingRequest) :
    Dwindled σ (σ.finish key req) := by
  rw [finish_eq]
  exact fun _ _ hget => (get_of_get_erase hget).2

lemma Act.dwindled (hact : Act stage p q) (hstage : stage ≠ .schedule) : Dwindled p.actor q.actor := by
  cases hact with
  | finish key req responsive hreq hresponsive => exact dwindled_finish _ key req
  | @timeout k b σ key req pendingExpiry responsive hfirst hreq hresponsive =>
    exact dwindled_finish { σ with pendingExpiry } key req
  | charge => exact absurd rfl hstage
  | refund => exact absurd rfl hstage
  | send => exact absurd rfl hstage
  | refuse => exact absurd rfl hstage
  | _ => exact fun _ _ hget => hget

structure Fair (σ : CrawlActor) : Prop where
  block : ∀ addr x, σ.responsive.health addr = some x → (x.failures = 0 ↔ x.blockedUntil = none)
  later : ∀ key req, σ.pending.get key = some req → ∀ x blocked,
    σ.responsive.health req.node.addr = some x → x.blockedUntil = some blocked → blocked ≤ req.dispatchedAt

variable {responsive : ResponsiveReservoir}

lemma Fair.kept (h : Fair σ) (hkept : Kept σ.responsive responsive) : Fair { σ with responsive } := by
  have hsame : ∀ addr x, responsive.health addr = some x → σ.responsive.health addr = some x := by
    intro addr x hx
    rcases hkept.health addr with hnone | hsame
    · rw [hnone] at hx
      cases hx
    · rwa [← hsame]
  exact ⟨fun addr x hx => h.block addr x (hsame addr x hx),
    fun key req hreq x blocked hx => h.later key req hreq x blocked (hsame _ x hx)⟩

lemma fail_cases (x : Health) (dispatchedAt now : Instant) :
    x.fail dispatchedAt now = x ∨ (x.fail dispatchedAt now).failures = min (x.failures + 1) 5 ∧
        (x.fail dispatchedAt now).blockedUntil ≠ none := by
  unfold Health.fail
  split_ifs
  · exact .inl rfl
  · exact .inr ⟨rfl, some_ne_none _⟩

lemma Fair.ended (h : Fair σ) (hsolo : Solo σ) 
    (hreq : σ.pending.get key = some req) (hresponsive : Ended req σ.clock σ.responsive responsive) :
    Fair { σ.finish key req with responsive } := by
  have hothers : ∀ a x, a ≠ req.node.addr → responsive.health a = some x → σ.responsive.health a = some x := by
    intro a x ha hx
    rcases hresponsive with hfailed | hanswered
    · rwa [← hfailed.others a ha]
    · rcases hanswered.others a ha with hnone | hsame
      · rw [hnone] at hx
        cases hx
      · rwa [← hsame]
  refine ⟨fun a x hx => ?_, fun key' req' hreq' x blocked hx hblocked => ?_⟩
  · by_cases ha : a = req.node.addr
    · subst ha
      rcases hresponsive with hfailed | hanswered
      · have hself := hfailed.self
        rw [show responsive.health req.node.addr = some x from hx] at hself
        obtain ⟨y, hy, hxy⟩ := map_eq_some_iff.mp hself.symm
        rcases fail_cases y req.dispatchedAt σ.clock with hsame | ⟨hfailures, hblocked⟩
        · rw [← hxy, hsame]
          exact h.block _ y hy
        · rw [← hxy, hfailures]
          exact ⟨fun hzero => absurd hzero (by omega), fun hnone => absurd hnone hblocked⟩
      · obtain ⟨y, hy, hzero, hblocked⟩ := hanswered.self
        rw [show responsive.health req.node.addr = some x from hx] at hy
        cases hy
        refine iff_of_true hzero ?_
        rcases hblocked with hnone | ⟨z, hz, hzzero, hsame⟩
        · exact hnone
        · rw [hsame]
          exact (h.block _ z hz).mp hzzero
    · exact h.block a x (hothers a x ha hx)
  · have hpending := dwindled_finish σ key req key' req' hreq'
    have hne : req'.node.addr ≠ req.node.addr := by
      intro haddr
      have hkey := hsolo key' key req' req hpending hreq haddr
      subst hkey
      rw [finish_eq] at hreq'
      have hgone : (σ.pending.erase key').get key' = some req' := hreq'
      rw [get_erase_self] at hgone
      cases hgone
    exact h.later key' req' hpending x blocked (hothers _ x hne hx) hblocked

lemma Fair.act (hact : Act stage p q) (hsolo : stage ≠ .schedule → Solo p.actor) (h : Fair p.actor) :
    Fair q.actor := by
  cases hact with
  | reservoir responsive hresponsive => exact h.kept hresponsive
  | @send k σ node purpose charged target pool responsive hroom hsubnet hpaid hknown hunblocked hpool hkept =>
    have hkeep := h.kept hkept
    refine ⟨hkeep.block, forall_insert (fun x blocked hx hblocked => ?_) fun key req _ => hkeep.later key req⟩
    rcases hkept.health node.addr with hnone | hsame
    · exact absurd (hnone.symm.trans hx) (some_ne_none x).symm
    · exact hunblocked x blocked (hsame ▸ hx) hblocked
  | finish key req responsive hreq hresponsive => exact h.ended (hsolo nofun) hreq hresponsive
  | @timeout k b σ key req pendingExpiry responsive hfirst hreq hresponsive =>
    have hrest : Fair { σ with pendingExpiry } := { h with }
    exact hrest.ended (hsolo nofun) hreq (.inl hresponsive)
  | _ => exact { h with }

lemma Fair.acts (hacts : Acts stage p q) (hsolo : stage ≠ .schedule → Solo p.actor) (h : Fair p.actor) :
    Fair q.actor := by
  have hkeeps : Fair q.actor ∧ (stage ≠ .schedule → Dwindled p.actor q.actor) := by
    induction hacts with
    | refl => exact ⟨h, fun _ _ _ hget => hget⟩
    | tail _ hact ih =>
      refine ⟨ih.1.act hact fun hstage => (ih.2 hstage).solo (hsolo hstage), fun hstage key req hreq => ?_⟩
      exact ih.2 hstage key req (hact.dwindled hstage key req hreq)
  exact hkeeps.1

/-! ### One handler -/

def Climbed (σ₀ : CrawlActor) (addr : SocketAddr) (x₀ : Health) (σ : CrawlActor) : Prop :=
  ∀ x, σ.responsive.health addr = some x → x.failures ≤ x₀.failures ∨
    x.failures = x₀.failures + 1 ∧ ∃ key req, σ₀.pending.get key = some req ∧ req.node.addr = addr ∧
      key ∈ σ.released ∧ ∀ blocked, x₀.blockedUntil = some blocked → blocked ≤ req.dispatchedAt

lemma Climbed.kept (h : Climbed σ₀ addr x₀ σ)
    (hhealth : responsive.health addr = none ∨ responsive.health addr = σ.responsive.health addr)
    (hresponsive : σ'.responsive = responsive) (hreleased : σ.released ⊆ σ'.released) :
    Climbed σ₀ addr x₀ σ' := by
  intro x hx
  rw [hresponsive] at hx
  rcases hhealth with hnone | hsame
  · exact absurd (hnone.symm.trans hx) (some_ne_none x).symm
  · refine (h x (hsame ▸ hx)).imp id fun ⟨hcount, key, req, hreq, haddr, hkey, hblocked⟩ => ?_
    exact ⟨hcount, key, req, hreq, haddr, hreleased hkey, hblocked⟩

structure Ending (σ₀ : CrawlActor) (addr : SocketAddr) (x₀ : Health) (σ : CrawlActor) : Prop where
  dwindled : Dwindled σ₀ σ
  climbed : Climbed σ₀ addr x₀ σ
  turn : (∀ x, σ.responsive.health addr = some x → x = x₀) ∨
    ∀ key req, σ.pending.get key = some req → req.node.addr ≠ addr

lemma Ending.ended (h : Ending σ₀ addr x₀ σ) (hsolo : Solo σ₀) (hfair : Fair σ₀)
    (hx₀ : σ₀.responsive.health addr = some x₀) 
    (hreq : σ.pending.get key = some req) (hresponsive : Ended req σ.clock σ.responsive responsive) :
    Ending σ₀ addr x₀ { σ.finish key req with responsive } := by
  have hdwindled := dwindled_finish σ key req
  have hreleased : (σ.finish key req).released = key :: σ.released := by rw [finish_eq]
  have hgrow : σ.released ⊆ (σ.finish key req).released := by
    rw [hreleased]
    exact subset_cons_self _ _
  by_cases haddr : req.node.addr = addr
  · -- the one request to the node: what it leaves is decided by the health the node had
    have hsame : ∀ x, σ.responsive.health addr = some x → x = x₀ :=
      h.turn.resolve_right fun hnone => hnone key req hreq haddr
    have hlast : ∀ key' req', (σ.finish key req).pending.get key' = some req' → req'.node.addr ≠ addr := by
      intro key' req' hreq' haddr'
      have hkey := (h.dwindled.solo hsolo) key' key req' req (hdwindled key' req' hreq') hreq
        (haddr'.trans haddr.symm)
      subst hkey
      rw [finish_eq] at hreq'
      have hgone : (σ.pending.erase key').get key' = some req' := hreq'
      rw [get_erase_self] at hgone
      cases hgone
    refine ⟨fun key' req' hreq' => h.dwindled key' req' (hdwindled key' req' hreq'), fun x hx => ?_, .inr hlast⟩
    have hx : responsive.health req.node.addr = some x := haddr.symm ▸ hx
    rcases hresponsive with hfailed | hanswered
    · rw [hfailed.self] at hx
      obtain ⟨y, hy, hxy⟩ := map_eq_some_iff.mp hx
      have hy₀ : y = x₀ := hsame y (haddr ▸ hy)
      subst hy₀
      rcases fail_cases y req.dispatchedAt σ.clock with hstale | ⟨hfailures, _⟩
      · rw [← hxy, hstale]
        exact .inl (le_refl _)
      · rw [← hxy, hfailures]
        rcases Nat.lt_or_ge y.failures 5 with hlt | hge
        · refine .inr ⟨Nat.min_eq_left hlt, key, req, h.dwindled key req hreq, haddr, ?_, ?_⟩
          · exact hreleased ▸ mem_cons_self
          · exact fun blocked hblocked =>
              hfair.later key req (h.dwindled key req hreq) y blocked (haddr ▸ hx₀) hblocked
        · exact .inl ((Nat.min_le_right _ _).trans hge)
    · obtain ⟨y, hy, hzero, _⟩ := hanswered.self
      rw [hy] at hx
      cases hx
      rw [hzero]
      exact .inl (Nat.zero_le _)
  · have hhealth : responsive.health addr = none ∨ responsive.health addr = σ.responsive.health addr := by
      rcases hresponsive with hfailed | hanswered
      · exact .inr (hfailed.others addr (Ne.symm haddr))
      · exact hanswered.others addr (Ne.symm haddr)
    refine ⟨fun key' req' hreq' => h.dwindled key' req' (hdwindled key' req' hreq'),
      h.climbed.kept hhealth rfl hgrow, h.turn.imp (fun hsame x hx => ?_) fun hnone key' req' hreq' => ?_⟩
    · rcases hhealth with hnone | hkeep
      · exact absurd (hnone.symm.trans hx) (some_ne_none x).symm
      · exact hsame x (hkeep ▸ hx)
    · exact hnone key' req' (hdwindled key' req' hreq')

lemma Ending.act (hact : Act stage p q) (hstage : stage ≠ .schedule) (hsolo : Solo σ₀) (hfair : Fair σ₀)
    (hx₀ : σ₀.responsive.health addr = some x₀) (h : Ending σ₀ addr x₀ p.actor) :
    Ending σ₀ addr x₀ q.actor := by
  cases hact with
  | reservoir responsive hresponsive =>
    have hhealth := hresponsive.health addr
    refine ⟨h.dwindled, h.climbed.kept hhealth rfl (fun _ hkey => hkey), h.turn.imp (fun hsame x hx => ?_) id⟩
    rcases hhealth with hnone | hkeep
    · exact absurd (hnone.symm.trans hx) (some_ne_none x).symm
    · exact hsame x (hkeep ▸ hx)
  | finish key req responsive hreq hresponsive => exact h.ended hsolo hfair hx₀ hreq hresponsive
  | @timeout k b σ key req pendingExpiry responsive hfirst hreq hresponsive =>
    have hrest : Ending σ₀ addr x₀ { σ with pendingExpiry } := { h with }
    exact hrest.ended hsolo hfair hx₀ hreq (.inl hresponsive)
  | charge => exact absurd rfl hstage
  | refund => exact absurd rfl hstage
  | send => exact absurd rfl hstage
  | refuse => exact absurd rfl hstage
  | _ => exact { h with }

lemma Ending.acts (hacts : Acts stage p q) (hstage : stage ≠ .schedule) (hsolo : Solo p.actor)
    (hfair : Fair p.actor) (hx₀ : p.actor.responsive.health addr = some x₀) :
    Ending p.actor addr x₀ q.actor := by
  induction hacts with
  | refl =>
    refine ⟨fun _ _ hget => hget, fun x hx => ?_, .inl fun x hx => ?_⟩
    · rw [hx₀] at hx
      cases hx
      exact .inl (le_refl _)
    · exact Option.some.inj (hx.symm.trans hx₀)
  | tail _ hact ih => exact ih.act hact hstage hsolo hfair hx₀

lemma Climbed.act (hact : Act .schedule p q) (h : Climbed σ₀ addr x₀ p.actor) : Climbed σ₀ addr x₀ q.actor := by
  cases hact with
  | reservoir responsive hresponsive => exact h.kept (hresponsive.health addr) rfl fun _ hkey => hkey
  | send node purpose charged target pool responsive hroom hsubnet hpaid hknown hunblocked hpool hkept =>
    exact h.kept (hkept.health addr) rfl fun _ hkey => hkey
  | _ => exact h

lemma Climbed.acts (hacts : Acts .schedule p q) (h : Climbed σ₀ addr x₀ p.actor) :
    Climbed σ₀ addr x₀ q.actor := by
  induction hacts with
  | refl => exact h
  | tail _ hact ih => exact ih.act hact

lemma Settled.last {start : Phase} (h : Settled start now σ') :
    ∃ last : Phase, Acts .schedule start last ∧ σ'.responsive = last.actor.responsive ∧
      σ'.pending = last.actor.pending ∧ σ'.released = last.actor.released := by
  rcases h with h | ⟨left, σ, h, rfl⟩
  · exact ⟨_, h.acts, rfl, rfl, rfl⟩
  · exact ⟨_, h.acts, rfl, rfl, rfl⟩

lemma Fair.of_eq (h : Fair σ) (hresponsive : σ'.responsive = σ.responsive)
    (hpending : σ'.pending = σ.pending) : Fair σ' := by
  refine ⟨?_, ?_⟩
  · rw [hresponsive]
    exact h.block
  · rw [hresponsive, hpending]
    exact h.later

lemma Handled.fair (h : Handled now σ event σ') (hsolo : Solo σ) (hfair : Fair σ) :
    Fair σ' := by
  have hreceive : Ran .receive ⟨0, false, σ⟩ now ∅ ⟨0, false, σ'⟩ → Fair σ' :=
    fun hran => Fair.acts hran.acts (fun _ => hsolo) hfair
  cases event with
  | scheduleTick input =>
    obtain ⟨mid, queryBudget, n, hmid, _, _, hsettled⟩ := h
    obtain ⟨last, hlast, hresponsive, hpending, _⟩ := hsettled.last
    have hmidFair : Fair mid := Fair.acts hmid.acts (fun _ => hsolo) hfair
    have hstart : Fair { mid with queryBudget } := { hmidFair with }
    have hlastFair : Fair last.actor := Fair.acts hlast (fun hstage => absurd rfl hstage) hstart
    exact hlastFair.of_eq hresponsive hpending
  | snapshotTick => exact hreceive h
  | response key response => exact hreceive h
  | sendFailed key => exact hreceive h
  | bootstrapResolved candidates => exact hreceive h
  | discovered node => exact hreceive h

lemma Handled.climbed (h : Handled now σ event σ') (hsolo : Solo σ) (hfair : Fair σ)
    (hx₀ : σ.responsive.health addr = some x₀) : Climbed σ addr x₀ σ' := by
  have hreceive : Ran .receive ⟨0, false, σ⟩ now ∅ ⟨0, false, σ'⟩ → Climbed σ addr x₀ σ' :=
    fun hran => (Ending.acts hran.acts nofun hsolo hfair hx₀).climbed
  cases event with
  | scheduleTick input =>
    obtain ⟨mid, queryBudget, n, hmid, _, _, hsettled⟩ := h
    obtain ⟨last, hlast, hresponsive, _, hreleased⟩ := hsettled.last
    have hmidClimbed : Climbed σ addr x₀ mid := (Ending.acts hmid.acts nofun hsolo hfair hx₀).climbed
    have hlastClimbed : Climbed σ addr x₀ last.actor :=
      Climbed.acts (p := ⟨n, false, { mid with queryBudget }⟩) hlast hmidClimbed
    exact hlastClimbed.kept (.inr rfl) hresponsive (hreleased ▸ fun _ hkey => hkey)
  | snapshotTick => exact hreceive h
  | response key response => exact hreceive h
  | sendFailed key => exact hreceive h
  | bootstrapResolved candidates => exact hreceive h
  | discovered node => exact hreceive h

/-! ### Runs -/

/-- The states of an actor that has not had two requests to a node in flight so far. -/
inductive SoloReachable (options : CrawlOptions) : CrawlActor → Prop where
  | start (netmode : NetMode) (localId : NodeId) (maxMetadataQueueSize : ℕ) (now : Instant) :
      SoloReachable options (new (.fromOptions options) netmode localId maxMetadataQueueSize now)
  | step {σ σ' : CrawlActor} (now : Instant) (event : Event) (hσ : SoloReachable options σ) (hsolo : Solo σ)
      (hnow : σ.clock ≤ now) (hevent : event.Possible σ) (hrun : σ.handle now event = .ok σ') :
      SoloReachable options σ'

lemma SoloReachable.reachable (h : SoloReachable options σ) : Reachable options σ := by
  induction h with
  | start netmode localId maxMetadataQueueSize now => exact .start netmode localId maxMetadataQueueSize now
  | step now event _ _ hnow hevent hrun ih => exact ih.step now event hnow hevent hrun

lemma fair_new (config : ResolvedCrawlConfig) (netmode : NetMode) (localId : NodeId)
    (maxMetadataQueueSize : ℕ) (now : Instant) : Fair (new config netmode localId maxMetadataQueueSize now) :=
  ⟨fun _ _ hx => (nomatch hx), fun _ _ hreq => (nomatch hreq)⟩

lemma SoloReachable.fair (h : SoloReachable options σ) : Fair σ := by
  induction h with
  | start netmode localId maxMetadataQueueSize now => exact fair_new _ _ _ _ _
  | @step σ σ' now event hσ hsolo hnow hevent hrun ih =>
    have hclock : Fair { σ with clock := now } := { ih with }
    exact ((handle_spec hσ.reachable.sound hnow hevent).of_ok hrun).fair hsolo hclock

def OneRung (σ σ' : CrawlActor) : Prop :=
  ∀ addr x x', σ.responsive.health addr = some x → σ'.responsive.health addr = some x' → 1 ≤ x.failures →
    x.failures < x'.failures → x'.failures = x.failures + 1 ∧
      ∃ key req blocked, σ.pending.get key = some req ∧ req.node.addr = addr ∧ key ∈ σ'.released ∧
        x.blockedUntil = some blocked ∧ blocked ≤ req.dispatchedAt

/-- While no node has had two requests in flight, a backoff costs one rung. -/
theorem one_rung_per_backoff (hσ : SoloReachable options σ) (hsolo : Solo σ) (hnow : σ.clock ≤ now)
    {event : Event} (hevent : event.Possible σ) (hrun : σ.handle now event = .ok σ') : OneRung σ σ' := by
  intro addr x x' hx hx' hfailed hrise
  have hfair := hσ.fair
  have hhandled := (handle_spec hσ.reachable.sound hnow hevent).of_ok hrun
  have hclock : Fair { σ with clock := now } := { hfair with }
  have hclimbed : Climbed { σ with clock := now } addr x σ' := hhandled.climbed hsolo hclock hx
  obtain ⟨hcount, key, req, hreq, haddr, hkey, hblocked⟩ := (hclimbed x' hx').resolve_left (Nat.not_le.mpr hrise)
  have hsome : x.blockedUntil ≠ none := (hfair.block addr x hx).not.mp (Nat.one_le_iff_ne_zero.mp hfailed)
  obtain ⟨blocked, heq⟩ := Option.ne_none_iff_exists'.mp hsome
  exact ⟨hcount, key, req, blocked, hreq, haddr, hkey, heq, hblocked blocked heq⟩

/-! ### Runs with one node -/

def rungOptions (maxInFlightPerSubnet : UInt64) : CrawlOptions :=
  { sampleOptions with
    pool := ⟨4, 60, 2, 300, 0, 0⟩
    rateLimit := ⟨10, 1, 4, 10, 600, 10, 60, maxInFlightPerSubnet⟩ }

def rungStart (maxInFlightPerSubnet : UInt64) : CrawlActor :=
  new (.fromOptions (rungOptions maxInFlightPerSubnet)) .dualStack (.replicate 20 0) 10 0

def rungTick : Event := .scheduleTick ⟨0, fun _ _ _ => true, fun _ => (0, 0)⟩

def rungEvents (ticks : List ℕ) : List (Instant × Event) :=
  (secs 1, .discovered (sampleNode 1)) :: (secs 2, rungTick) ::
    (secs 3, .response ⟨(sampleNode 1).addr, 1⟩ ⟨none, none, none, none, none, none, none⟩) ::
      ticks.map fun second => (secs second, rungTick)

lemma solo_of_len (h : σ.pending.len ≤ 1) : Solo σ := fun key key' _ _ hreq hreq' _ =>
  Finset.card_le_one.mp h key (mem_keys_of_get hreq) key' (mem_keys_of_get hreq')

def quiet (σ : CrawlActor) : List (Instant × Event) → Bool
  | [] => true
  | e :: events => decide (σ.pending.len ≤ 1) && (σ.handle e.1 e.2).isOkAnd fun σ' => σ'.quiet events

lemma SoloReachable.runEvents {events : List (Instant × Event)} (h : SoloReachable options σ)
    (hclock : List.IsChain (· ≤ ·) (σ.clock :: events.map Prod.fst)) (hkind : ∀ e ∈ events, ∀ σ, e.2.Possible σ)
    (hquiet : σ.quiet events = true) (hrun : σ.runEvents events = .ok σ') : SoloReachable options σ' := by
  induction events generalizing σ with
  | nil =>
    cases hrun
    exact h
  | cons e events ih =>
    rw [map_cons, isChain_cons_cons] at hclock
    obtain ⟨hlen, hquiet⟩ := (Bool.and_eq_true _ _).mp hquiet
    have hevent := hkind e mem_cons_self σ
    obtain ⟨σ₁, h₁, hrest⟩ := bind_eq_ok.mp hrun
    obtain ⟨σ₂, h₂, hquiet⟩ := isOkAnd_eq_true.mp hquiet
    cases h₁.symm.trans h₂
    have hclock₁ := ((handle_spec h.reachable.sound hclock.1 hevent).of_ok h₁).clock
    refine ih (h.step e.1 e.2 (solo_of_len (of_decide_eq_true hlen)) hclock.1 hevent h₁) ?_
      (fun e' he' => hkind e' (mem_cons_of_mem _ he')) hquiet hrest
    rw [hclock₁]
    exact hclock.2

theorem one_rung_per_backoff_twice : ∃ σ σ', SoloReachable (rungOptions 1) σ ∧
    σ.handle (secs 29) rungTick = .ok σ' ∧ OneRung σ σ' ∧
    σ.responsive.health (sampleNode 1).addr = some ⟨1, some (secs 19), secs 3⟩ ∧
    σ'.responsive.health (sampleNode 1).addr = some ⟨2, some (secs 39), secs 3⟩ := by
  have htest : ((rungStart 1).runEvents (rungEvents [4, 14, 19])).isOkAnd (fun σ =>
      decide (σ.clock = secs 19 ∧ σ.pending.len ≤ 1 ∧
        σ.responsive.health (sampleNode 1).addr = some ⟨1, some (secs 19), secs 3⟩) &&
      (σ.handle (secs 29) rungTick).isOkAnd fun σ' =>
        decide (σ'.responsive.health (sampleNode 1).addr = some ⟨2, some (secs 39), secs 3⟩)) = true := by
    decide +kernel
  have hquiet : (rungStart 1).quiet (rungEvents [4, 14, 19]) = true := by decide +kernel
  obtain ⟨σ, hrun, htest⟩ := isOkAnd_eq_true.mp htest
  obtain ⟨hstate, htest⟩ := (Bool.and_eq_true _ _).mp htest
  obtain ⟨hclock, hlen, hhealth⟩ := of_decide_eq_true hstate
  obtain ⟨σ', hhandle, hhealth'⟩ := isOkAnd_eq_true.mp htest
  have hreachable : SoloReachable (rungOptions 1) σ :=
    SoloReachable.runEvents (.start .dualStack (.replicate 20 0) 10 0) (by decide) (possible_of_isFree rfl)
      hquiet hrun
  have hnow : σ.clock ≤ secs 29 := hclock ▸ (by decide)
  exact ⟨σ, σ', hreachable, hhandle,
    one_rung_per_backoff hreachable (solo_of_len hlen) hnow (show rungTick.Possible σ from trivial) hhandle,
    hhealth,
    of_decide_eq_true hhealth'⟩

/-- The node is asked at four and at five seconds and answers neither request. -/
theorem second_rung_in_one_backoff : ∃ σ σ', Reachable (rungOptions 2) σ ∧ σ.clock ≤ secs 15 ∧
    rungTick.Possible σ ∧ σ.handle (secs 15) rungTick = .ok σ' ∧
    σ.responsive.health (sampleNode 1).addr = some ⟨1, some (secs 19), secs 3⟩ ∧
    σ'.responsive.health (sampleNode 1).addr = some ⟨2, some (secs 25), secs 3⟩ ∧
    (∀ key req, σ.pending.get key = some req → req.dispatchedAt = secs 5) ∧ ¬OneRung σ σ' := by
  have htest : ((rungStart 2).runEvents (rungEvents [4, 5, 14])).isOkAnd (fun σ =>
      decide (σ.clock = secs 14 ∧ σ.responsive.health (sampleNode 1).addr = some ⟨1, some (secs 19), secs 3⟩ ∧
        ∀ key ∈ σ.pending.keys, (σ.pending.get key).map PendingRequest.dispatchedAt = some (secs 5)) &&
      (σ.handle (secs 15) rungTick).isOkAnd fun σ' =>
        decide (σ'.responsive.health (sampleNode 1).addr = some ⟨2, some (secs 25), secs 3⟩)) = true := by
    decide +kernel
  obtain ⟨σ, hrun, htest⟩ := isOkAnd_eq_true.mp htest
  obtain ⟨hstate, htest⟩ := (Bool.and_eq_true _ _).mp htest
  obtain ⟨hclock, hhealth, hpending⟩ := of_decide_eq_true hstate
  obtain ⟨σ', hhandle, hhealth'⟩ := isOkAnd_eq_true.mp htest
  have hhealth' := of_decide_eq_true hhealth'
  have hreachable : Reachable (rungOptions 2) σ :=
    Reachable.runEvents (.start .dualStack (.replicate 20 0) 10 0) (by decide) (possible_of_isFree rfl) hrun
  have hsent : ∀ key req, σ.pending.get key = some req → req.dispatchedAt = secs 5 := by
    intro key req hreq
    have hkey := hpending key (mem_keys_of_get hreq)
    rw [hreq] at hkey
    exact Option.some.inj hkey
  refine ⟨σ, σ', hreachable, hclock ▸ (by decide), trivial, hhandle, hhealth, hhealth', hsent, fun hrung => ?_⟩
  obtain ⟨_, key, req, blocked, hreq, _, _, hblocked, hlate⟩ :=
    hrung _ _ _ hhealth hhealth' (le_refl 1) (Nat.lt_succ_self 1)
  cases hblocked
  rw [hsent key req hreq] at hlate
  exact absurd hlate (by decide)

end DhtCrawler.CrawlActor
