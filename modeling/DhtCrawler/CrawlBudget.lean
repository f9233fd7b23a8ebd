import DhtCrawler.BudgetRules
import DhtCrawler.CrawlHandlers

/-! The rates of the crawl actor. A request costs a query token, and one to an endpoint outside of the recent probes
a destination token as well. -/

namespace DhtCrawler.CrawlActor

open Meter List Nat ResolvedCrawlConfig RateBucket

variable {σ σ' : CrawlActor} {p q : Phase} {stage : Stage}

variable {input : TickInput} {now : Instant}

/-! ### The rate of a tick -/

variable {n : ℕ} {options : CrawlOptions}

lemma roundNat_le {x : ℚ} (h : x ≤ n) : roundNat x ≤ n := by
  have hlt : x + 1 / 2 < ((n + 1 : ℕ) : ℚ) := by
    push_cast
    linarith
  exact Nat.lt_succ_iff.mp ((floor_lt' (succ_ne_zero n)).mpr hlt)

lemma rateForMetadataPressure_le {config : ResolvedCrawlConfig}
    (hfloor : config.metadataPressureFloorPercent ≤ 100) (pressure : ℚ) :
    config.rateForMetadataPressure pressure ≤ config.maxFindNodeRatePerSec := by
  have htop : (0 : ℚ) ≤ config.maxFindNodeRatePerSec := cast_nonneg _
  have hpercent : (config.metadataPressureFloorPercent : ℚ) ≤ 100 := by exact_mod_cast hfloor
  have hbelow : (config.maxFindNodeRatePerSec : ℚ) * config.metadataPressureFloorPercent / 100 ≤
      config.maxFindNodeRatePerSec := by
    have hmul := mul_le_mul_of_nonneg_left hpercent htop
    linarith
  unfold rateForMetadataPressure
  split_ifs
  · exact le_refl _
  · exact roundNat_le hbelow
  · refine roundNat_le ?_
    have hprogress : (0 : ℚ) ≤ max 0 (min ((pressure - 4 / 5) / (3 / 20)) 1) := le_max_left _ _
    have hdrop := mul_nonneg (sub_nonneg.mpr hbelow) hprogress
    linarith

lemma tickRate_le (hconfig : σ.config = .fromOptions options) (input : TickInput) :
    σ.tickRate input ≤ σ.config.maxFindNodeRatePerSec := by
  refine rateForMetadataPressure_le ?_ _
  rw [hconfig]
  exact min_le_right _ _

/-! ### Conformance -/

def sendTimes (σ : CrawlActor) (test : Dispatch → Bool) : List Instant :=
  (σ.dispatches.filter test).map Dispatch.dispatchedAt

def destinationBurst (config : ResolvedCrawlConfig) : ℚ :=
  if config.maxNewDestinationsPerMinute = 0 then 0
  else max (divCeil config.maxNewDestinationsPerMinute 60 : ℕ) 1

structure Budgeted (p : Phase) : Prop where
  query : p.actor.queryBudget.Conforms p.actor.config.burst p.actor.config.maxFindNodeRatePerSec
    (p.actor.sendTimes fun _ => true) p.held p.actor.clock
  destination : p.actor.destinationBudget.Conforms (destinationBurst p.actor.config)
    (p.actor.config.maxNewDestinationsPerMinute / 60) (p.actor.sendTimes Dispatch.charged)
    p.token.toNat p.actor.clock
  paid : ∀ d ∈ p.actor.dispatches, d.fresh = true → d.charged = true

lemma queryBurst_eq (options : CrawlOptions) :
    (if ((fromOptions options).maxFindNodeRatePerSec : ℚ) ≤ 0 then (0 : ℚ)
      else max ((fromOptions options).burst : ℚ) 1) =
        (fromOptions options).burst := by
  unfold fromOptions
  by_cases hrate : options.rateLimit.maxFindNodeRatePerSec.toNat = 0
  · rw [if_pos hrate, hrate, if_pos (le_of_eq cast_zero), cast_zero]
  · have hpos : ¬((options.rateLimit.maxFindNodeRatePerSec.toNat : ℚ) ≤ 0) :=
      not_le.mpr (cast_pos.mpr (Nat.pos_of_ne_zero hrate))
    rw [if_neg hpos, if_neg hrate]
    exact max_eq_left (by exact_mod_cast le_max_right _ _)

lemma destinationBurst_eq (config : ResolvedCrawlConfig) :
    (if (config.maxNewDestinationsPerMinute : ℚ) / 60 ≤ 0 then (0 : ℚ)
      else max ((max (divCeil config.maxNewDestinationsPerMinute 60) 1 : ℕ) : ℚ) 1) =
        destinationBurst config := by
  unfold destinationBurst
  by_cases hrate : config.maxNewDestinationsPerMinute = 0
  · rw [if_pos hrate, hrate, cast_zero, zero_div, if_pos (le_refl _)]
  · have hpos : (0 : ℚ) < config.maxNewDestinationsPerMinute / 60 :=
      div_pos (cast_pos.mpr (Nat.pos_of_ne_zero hrate)) (by norm_num)
    rw [if_neg (not_le.mpr hpos), if_neg hrate, cast_max, cast_one, max_eq_left (le_max_right _ _)]

lemma budgeted_new (options : CrawlOptions) (netmode : NetMode) (localId : NodeId)
    (maxMetadataQueueSize : ℕ) (now : Instant) :
    Budgeted ⟨0, false, new (.fromOptions options) netmode localId maxMetadataQueueSize now⟩ := by
  refine ⟨?_, ?_, nofun⟩
  · have h := conforms_new
      (cast_nonneg (fromOptions options).maxFindNodeRatePerSec)
      ((fromOptions options).burst : ℚ) (cast_nonneg _) false now
    rw [queryBurst_eq] at h
    exact h
  · have hrate : (0 : ℚ) ≤ (fromOptions options).maxNewDestinationsPerMinute / 60 := by
      positivity
    have h := conforms_new hrate
      ((max (divCeil (fromOptions options).maxNewDestinationsPerMinute 60) 1 : ℕ) : ℚ)
      (cast_nonneg _) false now
    rw [destinationBurst_eq] at h
    exact h

lemma Budgeted.act (hact : Act stage p q) (h : Budgeted p) : Budgeted q := by
  cases hact with
  | charge destinationBudget taken htake => exact ⟨h.query, (h.destination.tryTakeOne htake).1, h.paid⟩
  | refund => exact ⟨h.query, h.destination.refund.1, h.paid⟩
  | send node purpose charged target pool responsive hroom hsubnet hpaid hknown hpool hresponsive hqueue =>
    refine ⟨h.query.spend, ?_, fun d hd hfresh => ?_⟩
    · cases charged with
      | true => exact h.destination.spend
      | false => exact h.destination
    · rcases mem_cons.mp hd with rfl | hd
      · refine (Bool.not_eq_false _).mp fun hfree => ?_
        rw [hpaid hfree] at hfresh
        cases hfresh
      · exact h.paid d hd hfresh
  | finish key req responsive hreq hresponsive =>
    rw [finish_eq]
    exact ⟨h.query, h.destination, h.paid⟩
  | timeout key req pendingExpiry responsive hfirst hreq hresponsive =>
    rw [finish_eq]
    exact ⟨h.query, h.destination, h.paid⟩
  | _ => exact ⟨h.query, h.destination, h.paid⟩

lemma Budgeted.batch (hconfig : σ.config = .fromOptions options) {queryBudget : RateBucket}
    (htake : (σ.queryBudget.setPerSecondRate (σ.tickRate input) σ.clock).tryTake σ.config.burst σ.clock = (queryBudget, n))
    (h : Budgeted ⟨0, false, σ⟩) :
    Budgeted ⟨n, false, { σ with queryBudget }⟩ ∧
      queryBudget.tokens + n = (σ.queryBudget.setPerSecondRate (σ.tickRate input) σ.clock).tokens := by
  have hrate : (σ.tickRate input : ℚ) ≤ σ.config.maxFindNodeRatePerSec :=
    cast_le.mpr (tickRate_le hconfig input)
  obtain ⟨hset, hlast⟩ := h.query.setPerSecondRate hrate
  obtain ⟨htaken, htokens⟩ := hset.tryTake hlast htake
  exact ⟨⟨htaken, h.destination, h.paid⟩, htokens⟩

lemma budgeted_invariant (options : CrawlOptions) : Invariant options Budgeted where
  start := budgeted_new options
  clock _ _ _ _ hnow h := ⟨h.query.later hnow, h.destination.later hnow, h.paid⟩
  act _ _ _ _ hact h := h.act hact
  batch _ _ _ _ hconfig htake h := (h.batch hconfig htake).1
  refund _ _ h := ⟨h.query.refund.1, h.destination, h.paid⟩

/-! ### What a tick spends -/

structure Spent (p q : Phase) (sent : List Dispatch) : Prop where
  dispatches : q.actor.dispatches = sent ++ p.actor.dispatches
  held : q.held + sent.length = p.held
  tokens : (q.actor.destinationBudget.refill q.actor.clock).tokens + q.token.toNat +
    sent.countP Dispatch.charged = (p.actor.destinationBudget.refill p.actor.clock).tokens + p.token.toNat

lemma spent_refl (p : Phase) : Spent p p [] := by
  refine ⟨rfl, rfl, ?_⟩
  rw [countP_nil, cast_zero, add_zero]

lemma Spent.trans {r : Phase} {sent sent' : List Dispatch} (h : Spent p q sent) (h' : Spent q r sent') :
    Spent p r (sent' ++ sent) := by
  refine ⟨?_, ?_, ?_⟩
  · rw [h'.dispatches, h.dispatches, append_assoc]
  · rw [length_append, ← h.held, ← h'.held, Nat.add_assoc]
  · rw [← h.tokens, ← h'.tokens, countP_append]
    push_cast
    ring

lemma Act.spent (hact : Act stage p q) (h : Budgeted p) : ∃ sent, Spent p q sent := by
  cases hact with
  | @charge k σ destinationBudget taken htake =>
    refine ⟨[], rfl, rfl, ?_⟩
    show (destinationBudget.refill σ.clock).tokens + taken.toNat + ((0 : ℕ) : ℚ) =
      (σ.destinationBudget.refill σ.clock).tokens + ((0 : ℕ) : ℚ)
    rw [cast_zero, add_zero, add_zero]
    exact (h.destination.tryTakeOne htake).2
  | @refund k σ =>
    -- the token was taken at this instant, so the bucket is up to date
    have hlast : σ.destinationBudget.lastRefill = σ.clock := h.destination.current Nat.one_pos
    refine ⟨[], rfl, rfl, ?_⟩
    show (σ.destinationBudget.refundOne.refill σ.clock).tokens + ((0 : ℕ) : ℚ) + ((0 : ℕ) : ℚ) =
      (σ.destinationBudget.refill σ.clock).tokens + ((1 : ℕ) : ℚ)
    rw [refill_idle hlast, refill_idle (b := σ.destinationBudget.refundOne) hlast,
      cast_zero, add_zero, add_zero]
    exact h.destination.refund.2
  | @send k σ node purpose charged target pool responsive hroom hsubnet hpaid hknown hpool hresponsive hqueue =>
    refine ⟨[_], rfl, rfl, ?_⟩
    cases charged with
    | true =>
      show (σ.destinationBudget.refill σ.clock).tokens + ((0 : ℕ) : ℚ) + ((1 : ℕ) : ℚ) =
        (σ.destinationBudget.refill σ.clock).tokens + ((1 : ℕ) : ℚ)
      rw [cast_zero, add_zero]
    | false =>
      show (σ.destinationBudget.refill σ.clock).tokens + ((0 : ℕ) : ℚ) + ((0 : ℕ) : ℚ) =
        (σ.destinationBudget.refill σ.clock).tokens + ((0 : ℕ) : ℚ)
      rw [cast_zero, add_zero]
  | finish key req responsive hreq hresponsive =>
    rw [finish_eq]
    exact ⟨[], (spent_refl _).dispatches, rfl, (spent_refl _).tokens⟩
  | timeout key req pendingExpiry responsive hfirst hreq hresponsive =>
    rw [finish_eq]
    exact ⟨[], (spent_refl _).dispatches, rfl, (spent_refl _).tokens⟩
  | _ => exact ⟨[], (spent_refl _).dispatches, rfl, (spent_refl _).tokens⟩

lemma Acts.spent (hacts : Acts stage p q) (h : Budgeted p) : Budgeted q ∧ ∃ sent, Spent p q sent := by
  induction hacts with
  | refl => exact ⟨h, [], spent_refl p⟩
  | tail _ hact ih =>
    obtain ⟨hmid, sent, hsent⟩ := ih
    obtain ⟨sent', hsent'⟩ := hact.spent hmid
    exact ⟨hmid.act hact, sent' ++ sent, hsent.trans hsent'⟩

lemma Settled.spent (h : Budgeted ⟨n, false, σ⟩) (hsettled : Settled ⟨n, false, σ⟩ now σ') :
    ∃ sent, σ'.dispatches = sent ++ σ.dispatches ∧
      σ'.queryBudget.tokens + sent.length = σ.queryBudget.tokens + n ∧
      (σ'.destinationBudget.refill σ'.clock).tokens + sent.countP Dispatch.charged =
        (σ.destinationBudget.refill σ.clock).tokens := by
  have hsum : ∀ {left : ℕ} {mid : CrawlActor}, Ran .schedule ⟨n, false, σ⟩ now ∅ ⟨left, false, mid⟩ →
      Budgeted ⟨left, false, mid⟩ ∧ ∃ sent, mid.dispatches = sent ++ σ.dispatches ∧
        mid.queryBudget.tokens + left + sent.length = σ.queryBudget.tokens + n ∧
        (mid.destinationBudget.refill mid.clock).tokens + sent.countP Dispatch.charged =
          (σ.destinationBudget.refill σ.clock).tokens := by
    intro left mid hran
    obtain ⟨hmid, sent, hsent⟩ := Acts.spent hran.acts h
    have hheld : left + sent.length = n := hsent.held
    have hquery : mid.queryBudget = σ.queryBudget := (Acts.static hran.acts).queryBudget
    refine ⟨hmid, sent, hsent.dispatches, ?_, ?_⟩
    · rw [hquery, ← hheld]
      push_cast
      ring
    · have htokens := hsent.tokens
      simpa using htokens
  rcases hsettled with hran | ⟨left, mid, hran, rfl⟩
  · obtain ⟨_, sent, hdispatches, hquery, hdestination⟩ := hsum hran
    refine ⟨sent, hdispatches, ?_, hdestination⟩
    rw [cast_zero, add_zero] at hquery
    exact hquery
  · obtain ⟨hmid, sent, hdispatches, hquery, hdestination⟩ := hsum hran
    refine ⟨sent, hdispatches, ?_, hdestination⟩
    rw [(hmid.query.refund.2 :)]
    exact hquery

lemma tick_spent (hσ : Reachable options σ) (hnow : σ.clock ≤ now)
    (hrun : σ.handle now (.scheduleTick input) = .ok σ') :
    ∃ sent, σ'.dispatches = sent ++ σ.dispatches ∧ σ'.queryBudget.tokens + sent.length =
        (σ.queryBudget.setPerSecondRate (σ.tickRate input) now).tokens ∧
      (σ'.destinationBudget.refill now).tokens + sent.countP Dispatch.charged =
        (σ.destinationBudget.refill now).tokens := by
  obtain ⟨h, hconfig⟩ := (budgeted_invariant options).reachable hσ
  have hclock : Budgeted ⟨0, false, { σ with clock := now }⟩ :=
    ⟨h.query.later hnow, h.destination.later hnow, h.paid⟩
  have hpossible : Event.Possible σ (.scheduleTick input) := trivial
  obtain ⟨mid, queryBudget, n, hran, _, htake, hsettled⟩ :=
    (handle_spec hσ.sound hnow hpossible).of_ok hrun
  obtain ⟨hmid, expired, hexpired⟩ := Acts.spent hran.acts hclock
  have hstatic : Static { σ with clock := now } mid := Acts.static hran.acts
  -- nothing is sent before the batch is taken
  have hnone : expired = [] := length_eq_zero_iff.mp (Nat.eq_zero_of_add_eq_zero_left hexpired.held)
  subst hnone
  have hrate : mid.tickRate input = σ.tickRate input := by
    unfold tickRate metadataPressure
    rw [hstatic.config, hstatic.maxMetadataQueueSize]
  have hmidclock : mid.clock = now := hran.clock
  subst hmidclock
  obtain ⟨hbatch, htokens⟩ := hmid.batch (hstatic.config.trans hconfig) htake
  obtain ⟨sent, hdispatches, hquery, hdestination⟩ := Settled.spent hbatch hsettled
  refine ⟨sent, hdispatches.trans (congrArg (sent ++ ·) hexpired.dispatches), ?_, ?_⟩
  · rw [hquery, (htokens :), hrate, hstatic.queryBudget]
  · have hbefore := hexpired.tokens
    simp only [Bool.toNat_false, countP_nil, cast_zero, add_zero] at hbefore
    rw [hsettled.clock] at hdestination
    exact hdestination.trans hbefore

lemma within_sendTimes_le (h : ∀ d ∈ σ.dispatches, d.fresh = true → d.charged = true) (s e : ℤ) :
    within (σ.sendTimes Dispatch.fresh) s e ≤ within (σ.sendTimes Dispatch.charged) s e := by
  unfold within sendTimes
  rw [countP_map, countP_map, countP_filter, countP_filter]
  refine countP_mono_left fun d hd htest => ?_
  rw [Bool.and_eq_true] at htest ⊢
  exact ⟨htest.1, h d hd htest.2⟩

/-- In every window the requests stay within the query rate and its burst, and the requests to endpoints outside
of the recent probes within the destination rate and its burst; a tick takes no more tokens than it spends. -/
theorem crawl_rate_conformance {options : CrawlOptions} (hσ : Reachable options σ) :
    (∀ s e : ℤ, s ≤ e → (within (σ.sendTimes fun _ => true) s e : ℚ) ≤
      σ.config.maxFindNodeRatePerSec * ((e - s) / 1000000000) + σ.config.burst) ∧
    (∀ s e : ℤ, s ≤ e → (within (σ.sendTimes Dispatch.fresh) s e : ℚ) ≤
      σ.config.maxNewDestinationsPerMinute * ((e - s) / 1000000000) / 60 + destinationBurst σ.config) ∧
    ∀ now input σ', σ.clock ≤ now → σ.handle now (.scheduleTick input) = .ok σ' →
      ∃ sent, σ'.dispatches = sent ++ σ.dispatches ∧ σ'.queryBudget.tokens + sent.length =
          (σ.queryBudget.setPerSecondRate (σ.tickRate input) now).tokens ∧
        (σ'.destinationBudget.refill now).tokens + sent.countP Dispatch.charged =
          (σ.destinationBudget.refill now).tokens := by
  obtain ⟨h, hconfig⟩ := (budgeted_invariant options).reachable hσ
  refine ⟨fun s e hse => ?_, fun s e hse => ?_, fun now input σ' hnow hrun => tick_spent hσ hnow hrun⟩
  · refine (h.query.metered.window s e hse).trans (le_of_eq ?_)
    dsimp only
    ring
  · have hcount : (within (σ.sendTimes Dispatch.fresh) s e : ℚ) ≤
        within (σ.sendTimes Dispatch.charged) s e := Nat.cast_le.mpr (within_sendTimes_le h.paid s e)
    refine hcount.trans ((h.destination.metered.window s e hse).trans (le_of_eq ?_))
    dsimp only
    ring

theorem crawl_rate_conformance_sample :
    ∃ σ, Reachable sampleOptions σ ∧ σ.sizes = (1, 1, 2) ∧
      (within (σ.sendTimes fun _ => true) 0 (secs 2 : ℕ) : ℚ) ≤
        σ.config.maxFindNodeRatePerSec * 2 + σ.config.burst := by
  obtain ⟨σ, hσ, hsizes⟩ := sample_reachable
  have hwindow := (crawl_rate_conformance hσ).1 0 (secs 2 : ℕ) (by decide)
  refine ⟨σ, hσ, hsizes, ?_⟩
  norm_num [secs] at hwindow ⊢
  exact hwindow

end DhtCrawler.CrawlActor
