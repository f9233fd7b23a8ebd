import DhtCrawler.CrawlSpacing
import DhtCrawler.PoolAdmission

/-! The node pool over whole runs of the crawl actor. -/

namespace DhtCrawler.CrawlActor

open FiniteMap Meter NodePool Except

open NodePool (Stocked Drained Joined joinTimes)

variable {σ σ' σ₀ : CrawlActor} {p q : Phase} {stage : Stage} {options : CrawlOptions} {now : Instant}

/-! ### What a run keeps -/

def replacementBurst (config : ResolvedCrawlConfig) : ℚ :=
  if (config.maxReplacementsPerMinute : ℚ) / 60 ≤ 0 then 0
  else max ((max (divCeil config.maxReplacementsPerMinute 60) 1 : ℕ) : ℚ) 1

lemma replacementBurst_le (config : ResolvedCrawlConfig) :
    replacementBurst config ≤ ((max 1 (divCeil config.maxReplacementsPerMinute 60) : ℕ) : ℚ) := by
  unfold replacementBurst
  split_ifs
  · exact Nat.cast_nonneg _
  · rw [max_comm (divCeil _ _)]
    exact max_le (le_refl _) (Nat.one_le_cast.mpr (le_max_left _ _))

def Paid (σ : CrawlActor) (log : List Instant) : Prop :=
  σ.pool.replacementBudget.Conforms (replacementBurst σ.config)
    ((σ.config.maxReplacementsPerMinute : ℚ) / 60) log 0 σ.clock

structure Supplied (σ : CrawlActor) : Prop where
  stocked : Stocked σ.pool
  paid : Paid σ []

lemma Supplied.drained (h : Supplied σ) (hstatic : Static σ σ') (hdrained : Drained σ.pool σ'.pool) :
    Supplied σ' := by
  refine ⟨h.stocked.drained hdrained, ?_⟩
  have hbudget : σ'.pool.replacementBudget = σ.pool.replacementBudget :=
    congrArg (fun rules => rules.2.2) hdrained.rules
  unfold Paid
  rw [hbudget, hstatic.config, hstatic.clock]
  exact h.paid

lemma Supplied.admission (h : Supplied σ) {node : NodeTuple} {pool : NodePool} {outcome : AdmissionOutcome}
    (hadmission : σ.pool.admitNode node σ.clock = .ok (pool, outcome)) : Supplied { σ with pool } := by
  refine ⟨h.stocked.admission hadmission, ?_⟩
  have hpaid : σ.pool.replacementBudget.Conforms _ _ [] 0 σ.clock := h.paid
  cases hwarmed : σ.pool.warmed with
  | true => exact (admitNode_conforms hpaid hwarmed hadmission).1.restart
  | false =>
    have hsame := admitNode_unwarmed hwarmed hadmission
    show pool.replacementBudget.Conforms _ _ [] 0 σ.clock
    rw [hsame]
    exact hpaid

lemma Act.drained (hact : Act stage p q) (hstage : stage ≠ .receive) : Drained p.actor.pool q.actor.pool := by
  cases hact with
  | queue pool hpool hdrained => exact hdrained
  | admission => exact absurd rfl hstage
  | send node purpose charged target pool responsive hroom hsubnet hpaid hknown hunblocked hpool hkept hqueue
      hdrained => exact hdrained
  | refuse addr mid pool hmid hpool hqueue hdrained => exact hdrained
  | finish => exact absurd rfl hstage
  | timeout key req pendingExpiry responsive hfirst hreq hresponsive =>
    rw [finish_eq]
    exact .refl _
  | _ => exact .refl _

lemma Supplied.act (hact : Act stage p q) (h : Supplied p.actor) : Supplied q.actor := by
  have hstatic := hact.static
  cases hact with
  | queue pool hpool hdrained => exact h.drained hstatic hdrained
  | admission node pool outcome hadmission hpool => exact h.admission hadmission
  | send node purpose charged target pool responsive hroom hsubnet hpaid hknown hunblocked hpool hkept hqueue
      hdrained => exact h.drained hstatic hdrained
  | refuse addr mid pool hmid hpool hqueue hdrained => exact h.drained hstatic hdrained
  | finish key req responsive hreq hresponsive =>
    rw [finish_eq] at hstatic ⊢
    exact h.drained hstatic (.refl _)
  | timeout key req pendingExpiry responsive hfirst hreq hresponsive =>
    rw [finish_eq] at hstatic ⊢
    exact h.drained hstatic (.refl _)
  | _ => exact h.drained hstatic (.refl _)

lemma supplied_invariant (options : CrawlOptions) : Invariant options fun p => Supplied p.actor where
  start netmode localId maxMetadataQueueSize now := by
    refine ⟨stocked_new _ _ _ _ _, ?_⟩
    exact RateBucket.conforms_new (by positivity) _ (Nat.cast_nonneg _) true now
  clock _ _ _ _ hnow h := ⟨h.stocked, h.paid.later hnow⟩
  act _ _ _ _ hact h := h.act hact
  batch _ _ _ _ _ _ h := ⟨h.stocked, h.paid⟩
  refund _ _ h := ⟨h.stocked, h.paid⟩

/-! ### The admissions of a handler -/

def offered (σ : CrawlActor) : Event → List NodeTuple
  | .discovered node => [node]
  | .response key response => if σ.pending.contains key then responseNodes response σ.netmode else []
  | _ => []

lemma foldlM_admitNode (nodes : List NodeTuple) (x : NodePool × List AdmissionOutcome) :
    (nodes.foldlM (fun pool node => do
      let (pool, _) ← pool.admitNode node now
      .ok pool) x.1 : Except Panic NodePool) =
    (nodes.foldlM (fun x node => do
      let (pool, outcome) ← x.1.admitNode node now
      .ok (pool, outcome :: x.2)) x : Except Panic _).map Prod.fst := by
  induction nodes generalizing x with
  | nil => rfl
  | cons node nodes ih =>
    rw [List.foldlM_cons, List.foldlM_cons]
    cases x.1.admitNode node now with
    | error panic => rfl
    | ok y => exact ih (y.1, y.2 :: x.2)

lemma admitAll_pool {nodes : List NodeTuple} {pool : NodePool} {outcomes : List AdmissionOutcome}
    (hrun : σ.admitAll nodes now = .ok σ') (hadmitted : σ.pool.admitEach nodes now = .ok (pool, outcomes)) :
    σ'.pool = pool := by
  obtain ⟨pool', hfold, hσ'⟩ := bind_eq_ok.mp hrun
  rw [foldlM_admitNode nodes (σ.pool, [])] at hfold
  unfold admitEach at hadmitted
  rw [hadmitted] at hfold
  cases hfold
  cases hσ'
  rfl

lemma finish_markSuccess (σ : CrawlActor) (key : PendingKey) (req : PendingRequest) (addr : SocketAddr)
    (now : Instant) :
    ((σ.finish key req).markSuccess req addr now).pool = σ.pool ∧
      ((σ.finish key req).markSuccess req addr now).netmode = σ.netmode := by
  rw [finish_eq]
  unfold markSuccess
  split_ifs
  · exact ⟨rfl, rfl⟩
  · exact ⟨rfl, rfl⟩

lemma fail_pool {key : PendingKey} {req : PendingRequest} (hrun : σ.fail key req now = .ok σ') :
    σ'.pool = σ.pool := by
  obtain ⟨x, _, hσ'⟩ := bind_eq_ok.mp hrun
  cases hσ'
  rw [finish_eq]
  unfold markTimeout
  split_ifs
  · rfl
  · rfl

lemma handle_rules {event : Event} (h : Sound ∅ σ) (hnow : σ.clock ≤ now) (hevent : event.Possible σ)
    {pool : NodePool} {outcomes : List AdmissionOutcome}
    (hadmitted : σ.pool.admitEach (σ.offered event) now = .ok (pool, outcomes))
    (hrun : σ.handle now event = .ok σ') : σ'.pool.rules = pool.rules := by
  have hnone : σ.offered event = [] → pool = σ.pool := by
    intro hoffered
    rw [hoffered] at hadmitted
    cases hadmitted
    rfl
  cases event with
  | scheduleTick input =>
    rw [hnone rfl]
    obtain ⟨mid, queryBudget, n, hmid, _, _, hsettled⟩ := (handle_spec h hnow hevent).of_ok hrun
    have hrules : ∀ {stage : Stage} {p q : Phase}, Acts stage p q → stage ≠ .receive →
        q.actor.pool.rules = p.actor.pool.rules := by
      intro stage p q hacts hstage
      induction hacts with
      | refl => rfl
      | tail _ hact ih => exact (hact.drained hstage).rules.trans ih
    have hexpired := hrules hmid.acts nofun
    rcases hsettled with hran | ⟨left, last, hran, rfl⟩
    · exact (hrules hran.acts nofun).trans hexpired
    · exact (hrules hran.acts nofun).trans hexpired
  | snapshotTick =>
    rw [hnone rfl]
    obtain ⟨x, _, hσ'⟩ := bind_eq_ok.mp hrun
    cases hσ'
    rfl
  | response key response =>
    unfold CrawlActor.handle dispatchEvent handleResponse at hrun
    dsimp only at hrun
    cases hreq : σ.pending.get key with
    | none =>
      rw [hreq] at hrun
      cases hrun
      rw [hnone (if_neg (by rw [contains_eq_false.mpr hreq]; exact Bool.false_ne_true))]
    | some req =>
      rw [hreq] at hrun
      obtain ⟨responsive, _, hrun⟩ := bind_eq_ok.mp hrun
      obtain ⟨hpool, hnetmode⟩ := finish_markSuccess { σ with clock := now } key req key.addr now
      have hoffered : σ.offered (.response key response) = responseNodes response σ.netmode :=
        if_pos (contains_iff.mpr ⟨req, hreq⟩)
      have hadmitted' : (({ σ with clock := now }.finish key req).markSuccess req key.addr now).pool.admitEach
          (responseNodes response
            (({ σ with clock := now }.finish key req).markSuccess req key.addr now).netmode)
            now = .ok (pool, outcomes) := by
        rw [hpool, hnetmode, ← hadmitted, hoffered]
      exact congrArg rules (admitAll_pool hrun hadmitted')
  | sendFailed key =>
    rw [hnone rfl]
    unfold CrawlActor.handle dispatchEvent sendFailed at hrun
    dsimp only at hrun
    cases hreq : σ.pending.get key with
    | none =>
      rw [hreq] at hrun
      cases hrun
      rfl
    | some req =>
      rw [hreq] at hrun
      have hfail : { σ with clock := now }.fail key req now = .ok σ' := hrun
      have hpool := fail_pool hfail
      exact congrArg rules hpool
  | bootstrapResolved candidates =>
    rw [hnone rfl]
    obtain ⟨selected, _, hσ'⟩ := bind_eq_ok.mp hrun
    cases hσ'
    rfl
  | discovered node =>
    rw [admitAll_pool hrun hadmitted]

/-! ### Runs -/

/-- A run from `σ₀` with the outcomes of the admissions on the way, the last one first. -/
inductive AdmissionLog (σ₀ : CrawlActor) : CrawlActor → List (Instant × AdmissionOutcome) → Prop where
  | start : AdmissionLog σ₀ σ₀ []
  | step {σ σ' log pool outcomes} (now : Instant) (event : Event) (hσ : AdmissionLog σ₀ σ log)
      (hnow : σ.clock ≤ now) (hevent : event.Possible σ)
      (hadmitted : σ.pool.admitEach (σ.offered event) now = .ok (pool, outcomes))
      (hrun : σ.handle now event = .ok σ') :
      AdmissionLog σ₀ σ' (outcomes.map (fun outcome => (now, outcome)) ++ log)

lemma AdmissionLog.reachable {log : List (Instant × AdmissionOutcome)} (h : AdmissionLog σ₀ σ log)
    (hσ₀ : Reachable options σ₀) : Reachable options σ := by
  induction h with
  | start => exact hσ₀
  | step now event _ hnow hevent _ hrun ih => exact ih.step now event hnow hevent hrun

lemma AdmissionLog.paid {log : List (Instant × AdmissionOutcome)} (h : AdmissionLog σ₀ σ log)
    (hσ₀ : Reachable options σ₀) (hwarmed : σ₀.pool.warmed = true) :
    σ.pool.warmed = true ∧ Paid σ (joinTimes log) := by
  induction h with
  | start => exact ⟨hwarmed, ((supplied_invariant options).reachable hσ₀).1.paid⟩
  | @step σ σ' log pool outcomes now event hσ hnow hevent hadmitted hrun ih =>
    obtain ⟨hwarm, hpaid⟩ := ih
    have hreachable := hσ.reachable hσ₀
    have hhandled := (handle_spec hreachable.sound hnow hevent).of_ok hrun
    have hconfig' := ((supplied_invariant options).reachable (hreachable.step now event hnow hevent hrun)).2
    have hconfig := ((supplied_invariant options).reachable hreachable).2
    have hlater : σ.pool.replacementBudget.Conforms _ _ (joinTimes log) 0 now := hpaid.later hnow
    obtain ⟨hconforms, hpool⟩ := admitEach_conforms hlater hwarm hadmitted
    have hrules := handle_rules hreachable.sound hnow hevent hadmitted hrun
    obtain ⟨_, hrest⟩ := Prod.mk.inj hrules
    obtain ⟨hwarmed', hbudget⟩ := Prod.mk.inj hrest
    refine ⟨hwarmed'.trans hpool, ?_⟩
    unfold Paid
    rw [hbudget, hhandled.clock, hconfig', ← hconfig, joinTimes_append]
    exact hconforms

/-- **The FIFO pool.** The queue holds distinct valid endpoints, `queued` is the set of them, and the queue fits
into its capacity. -/
theorem fifo_pool (hσ : Reachable options σ) :
    (σ.pool.waiting.Nodup ∧ (∀ a, a ∈ σ.pool.queued ↔ a ∈ σ.pool.waiting) ∧
      σ.pool.queue.length ≤ σ.pool.capacity ∧ ∀ a ∈ σ.pool.waiting, isValidNodeAddr a = true) ∧
    (σ.pool.queue.length = σ.pool.capacity → σ.pool.warmed = true) ∧
    (σ.pool.warmed = true → ∀ σ' log, AdmissionLog σ σ' log → σ'.pool.warmed = true ∧
      ∀ s t : ℤ, s ≤ t → (within (joinTimes log) s t : ℚ) ≤
        σ.config.maxReplacementsPerMinute * (((t : ℚ) - s) / 1000000000) / 60 +
          (max 1 (divCeil σ.config.maxReplacementsPerMinute 60) : ℕ)) ∧
    ∀ pool node now pool' outcome, NodePool.admitNode pool node now = .ok (pool', outcome) →
      (Joined outcome = true → pool.warmed = true → pool'.warmed = true ∧
        1 ≤ (pool.replacementBudget.refill now).tokens ∧
        pool'.replacementBudget = { pool.replacementBudget.refill now with
          tokens := (pool.replacementBudget.refill now).tokens - 1 }) ∧
      (Joined outcome = false → pool'.queue = pool.queue ∧ pool'.queued = pool.queued) := by
  obtain ⟨hstocked, _⟩ := ((supplied_invariant options).reachable hσ).1
  obtain ⟨hnodup, hqueued⟩ := ((spaced_invariant options).reachable hσ).1.2.distinct
  refine ⟨⟨hnodup, hqueued, hstocked.room, hstocked.valid⟩, hstocked.full, fun hwarmed σ' log hlog => ?_,
    fun pool node now pool' outcome hadmission => ?_⟩
  · obtain ⟨hwarmed', hpaid⟩ := hlog.paid hσ hwarmed
    refine ⟨hwarmed', fun s t hst => ?_⟩
    have hconfig := ((supplied_invariant options).reachable hσ).2
    have hconfig' := ((supplied_invariant options).reachable (hlog.reachable hσ)).2
    have hwindow := hpaid.metered.window s t hst
    rw [hconfig', ← hconfig] at hwindow
    have hburst := replacementBurst_le σ.config
    have hrate : (σ.config.maxReplacementsPerMinute : ℚ) / 60 / 1000000000 * ((t : ℚ) - s) =
        σ.config.maxReplacementsPerMinute * (((t : ℚ) - s) / 1000000000) / 60 := by ring
    rw [hrate] at hwindow
    linarith
  · rcases admitNode_cases hadmission with ⟨hout, hrejected⟩ | ⟨hin, _, mid, hcharged, rfl⟩
    · refine ⟨fun hin => ?_, fun _ => ⟨hrejected.queue, hrejected.queued⟩⟩
      rw [hout] at hin
      cases hin
    · refine ⟨fun _ hwarmed => ?_, fun hout => ?_⟩
      · obtain ⟨_, hbudget, hwarm⟩ := mid.enqueue_same node now
        have htake := hcharged.budget
        rw [if_pos hwarmed] at htake
        rw [hbudget, hwarm, hcharged.warmed, hwarmed, Bool.true_or]
        exact ⟨rfl, RateBucket.tryTakeOne_taken htake⟩
      · rw [hin] at hout
        cases hout

def fillingEvents : List (Instant × Event) :=
  [(secs 1, .discovered (sampleNode 1)), (secs 2, .discovered (sampleNode 2)),
    (secs 3, .discovered (sampleNode 3)), (secs 4, .discovered (sampleNode 4))]

theorem fifo_pool_full : ∃ σ σ', Reachable sampleOptions σ ∧ σ.pool.queue.length = σ.pool.capacity ∧
    AdmissionLog σ σ' [(secs 5, .replaced)] ∧
    (within (joinTimes [(secs 5, .replaced)]) (secs 4 : ℕ) (secs 5 : ℕ) : ℚ) ≤
      σ.config.maxReplacementsPerMinute * ((((secs 5 : ℕ) : ℤ) - ((secs 4 : ℕ) : ℤ) : ℚ) / 1000000000) / 60 +
        (max 1 (divCeil σ.config.maxReplacementsPerMinute 60) : ℕ) := by
  have htest : ((new (.fromOptions sampleOptions) .dualStack (.replicate 20 0) 10 0).runEvents
      fillingEvents).isOkAnd (fun σ =>
        decide (σ.clock = secs 4 ∧ σ.pool.queue.length = σ.pool.capacity) &&
        (σ.pool.admitEach [sampleNode 5] (secs 5)).isOkAnd (fun x => decide (x.2 = [.replaced])) &&
        (σ.handle (secs 5) (.discovered (sampleNode 5))).isOkAnd fun _ => true) = true := by
    decide +kernel
  obtain ⟨σ, hrun, htest⟩ := isOkAnd_eq_true.mp htest
  obtain ⟨htest, hhandle⟩ := (Bool.and_eq_true _ _).mp htest
  obtain ⟨hstate, hjoin⟩ := (Bool.and_eq_true _ _).mp htest
  obtain ⟨hclock, hfull⟩ := of_decide_eq_true hstate
  obtain ⟨⟨pool, outcomes⟩, hadmitted, houtcomes⟩ := isOkAnd_eq_true.mp hjoin
  obtain ⟨σ', hhandle, _⟩ := isOkAnd_eq_true.mp hhandle
  cases of_decide_eq_true houtcomes
  have hreachable : Reachable sampleOptions σ :=
    Reachable.runEvents (.start .dualStack (.replicate 20 0) 10 0) (by decide) (possible_of_isFree rfl) hrun
  have hlog : AdmissionLog σ σ' [(secs 5, .replaced)] :=
    .step (secs 5) (.discovered (sampleNode 5)) .start (hclock ▸ (by decide)) trivial hadmitted hhandle
  obtain ⟨_, hwarm, hwindows, _⟩ := fifo_pool hreachable
  obtain ⟨_, hwindow⟩ := hwindows (hwarm hfull) σ' _ hlog
  exact ⟨σ, σ', hreachable, hfull, hlog, hwindow (secs 4 : ℕ) (secs 5 : ℕ) (by decide)⟩

end DhtCrawler.CrawlActor
