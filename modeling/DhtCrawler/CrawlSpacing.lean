import DhtCrawler.CrawlRecent

/-! New probes of one endpoint are spaced: once asked it has left the queue and stays recent for the lifetime of a
probe, nothing recent joins the queue, and only what waits in the queue is asked as new. -/

namespace DhtCrawler.CrawlActor

open FiniteMap List

open NodePool (Aged Probed)

variable {σ : CrawlActor} {p q : Phase} {stage : Stage} {options : CrawlOptions}

def Rested (σ : CrawlActor) (d : Dispatch) : Prop :=
  d.dispatchedAt + σ.config.recentProbeTtl ≤ σ.clock ∨
    d.key.addr ∉ σ.pool.waiting ∧ ∃ deadline, σ.pool.recent.deadline d.key.addr = some deadline ∧
      d.dispatchedAt + σ.config.recentProbeTtl ≤ deadline

def Apart (config : ResolvedCrawlConfig) (later earlier : Dispatch) : Prop :=
  later.purpose = .new → earlier.purpose = .new → later.key.addr = earlier.key.addr →
    earlier.dispatchedAt + config.recentProbeTtl ≤ later.dispatchedAt

structure Spaced (σ : CrawlActor) : Prop where
  distinct : σ.pool.Distinct
  past : ∀ d ∈ σ.dispatches, d.dispatchedAt ≤ σ.clock
  rested : ∀ d ∈ σ.dispatches, d.purpose = .new → Rested σ d
  apart : σ.dispatches.Pairwise (Apart σ.config)

lemma Rested.pool {d : Dispatch} (h : Rested σ d) {pool : NodePool}
    (hwaiting : d.key.addr ∈ pool.waiting → d.key.addr ∈ σ.pool.waiting ∨ σ.pool.recent.contains d.key.addr σ.clock = false)
    (hdeadline : d.key.addr ∉ σ.pool.waiting → ∀ deadline, σ.pool.recent.deadline d.key.addr = some deadline → σ.clock < deadline → d.dispatchedAt + σ.config.recentProbeTtl ≤ deadline → ∃ deadline', pool.recent.deadline d.key.addr = some deadline' ∧ d.dispatchedAt + σ.config.recentProbeTtl ≤ deadline') :
    Rested { σ with pool } d := by
  rcases h with hover | ⟨haway, deadline, hrecent, hlate⟩
  · exact .inl hover
  by_cases hover : deadline ≤ σ.clock
  · exact .inl (hlate.trans hover)
  have hlive : σ.pool.recent.contains d.key.addr σ.clock = true :=
    RecentProbes.contains_iff_live.mpr ⟨deadline, hrecent, not_le.mp hover⟩
  refine .inr ⟨fun hmem => ?_, hdeadline haway deadline hrecent (not_le.mp hover) hlate⟩
  rcases hwaiting hmem with hold | hgone
  · exact haway hold
  · rw [hlive] at hgone
    cases hgone

lemma deadline_of_expired {now : Instant} {recent recent' : RecentProbes}
    (h : RecentProbes.Expired now recent recent') {addr : SocketAddr} {deadline : Instant}
    (hdeadline : recent.deadline addr = some deadline) (hlate : now < deadline) :
    recent'.deadline addr = some deadline := by
  rcases h.deadline addr with hsame | ⟨-, old, hold, hle⟩
  · exact hsame.trans hdeadline
  · cases hold.symm.trans hdeadline
    exact absurd hlate (not_lt.mpr hle)

lemma Spaced.aged (h : Spaced σ) {pool : NodePool} (hpool : Aged σ.clock σ.pool pool) :
    Spaced { σ with pool } := by
  obtain ⟨hdistinct, horigin⟩ := hpool.queue h.distinct
  refine ⟨hdistinct, h.past, fun d hd hnew => ?_, h.apart⟩
  exact (h.rested d hd hnew).pool (horigin _) fun _ deadline hdeadline hlive hlate =>
    ⟨deadline, deadline_of_expired hpool.recent hdeadline hlive, hlate⟩

lemma Covered.probed_deadline (h : Covered p.actor) (hb : Budgeted p)
    (hconfig : p.actor.config = .fromOptions options) (hheld : 0 < p.held) {addr : SocketAddr}
    (hpaid : p.token = false → p.actor.pool.recent.contains addr p.actor.clock = true)
    {pool : NodePool} (hpool : Probed p.actor.clock addr p.actor.pool pool) :
    pool.recent.deadline addr = some (p.actor.clock + p.actor.config.recentProbeTtl) ∧
      ∀ a d, a ≠ addr → p.actor.pool.recent.deadline a = some d → p.actor.clock < d →
        pool.recent.deadline a = some d := by
  obtain ⟨mid, hexp, hdue, hrec, -⟩ := hpool.recent
  have hnone := h.evictee_eq_none hb hconfig hheld hpaid hexp hdue
  have hdeadline : ∀ a, pool.recent.deadline a =
      if a = addr then some (p.actor.clock + p.actor.config.recentProbeTtl) else mid.deadline a := by
    intro a
    rw [hrec.deadline, hnone, if_neg (Option.some_ne_none a).symm, h.ttl]
  refine ⟨by rw [hdeadline, if_pos rfl], fun a d hne hd hlive => ?_⟩
  rw [hdeadline, if_neg hne]
  exact deadline_of_expired hexp hd hlive

lemma Sent.waiting {purpose : ProbePurpose} {addr : SocketAddr} {pool pool' : NodePool}
    (h : Sent purpose addr pool pool') (hdistinct : pool.Distinct) :
    pool'.Distinct ∧ (∀ a ∈ pool'.waiting, a ∈ pool.waiting) ∧
      (purpose = .new → addr ∈ pool.waiting ∧ addr ∉ pool'.waiting) := by
  rcases h with ⟨-, hdequeued⟩ | ⟨hpurpose, hqueue, hqueued⟩
  · obtain ⟨hdistinct', hmem, haway, hsub⟩ := hdequeued hdistinct
    exact ⟨hdistinct', hsub, fun _ => ⟨hmem, haway⟩⟩
  · have hwaiting : pool'.waiting = pool.waiting := by
      unfold NodePool.waiting
      rw [hqueue]
    refine ⟨⟨hwaiting ▸ hdistinct.1, fun a => ?_⟩, fun a ha => hwaiting ▸ ha, fun hnew => absurd hnew hpurpose⟩
    rw [hqueued, hwaiting]
    exact hdistinct.2 a

lemma Spaced.send (h : Spaced σ) {node : NodeTuple} {purpose : ProbePurpose} {fresh charged : Bool}
    {target : Option (Fin 256)} {pool : NodePool} {responsive : ResponsiveReservoir}
    (hqueue : Sent purpose node.addr σ.pool pool)
    (hprobed : pool.recent.deadline node.addr = some (σ.clock + σ.config.recentProbeTtl))
    (hothers : ∀ a d, a ≠ node.addr → σ.pool.recent.deadline a = some d → σ.clock < d → pool.recent.deadline a = some d) :
    Spaced { σ.launched node purpose σ.clock fresh charged target with pool, responsive } := by
  obtain ⟨hdistinct, hsub, htaken⟩ := hqueue.waiting h.distinct
  refine ⟨hdistinct, fun d hd => ?_, fun d hd hnew => ?_, pairwise_cons.mpr ⟨fun d hd => ?_, h.apart⟩⟩
  · rcases mem_cons.mp hd with rfl | hd
    · exact le_rfl
    · exact h.past d hd
  · rcases mem_cons.mp hd with rfl | hd
    · exact .inr ⟨(htaken hnew).2, _, hprobed, le_rfl⟩
    · refine (h.rested d hd hnew).pool (fun hmem => .inl (hsub _ hmem)) fun _ deadline hdeadline hlive hlate => ?_
      by_cases haddr : d.key.addr = node.addr
      · exact ⟨_, haddr ▸ hprobed, Nat.add_le_add_right (h.past d hd) _⟩
      · exact ⟨_, hothers _ _ haddr hdeadline hlive, hlate⟩
  · -- the new node waited, so every earlier new probe of it is over
    intro hnew hdnew haddr
    rcases h.rested d hd hdnew with hover | ⟨haway, -⟩
    · exact hover
    · exact absurd (haddr ▸ (htaken hnew).1) haway

lemma Spaced.finish (h : Spaced σ) (key : PendingKey) (req : PendingRequest)
    (responsive : ResponsiveReservoir) : Spaced { σ.finish key req with responsive } := by
  rw [finish_eq]
  exact { h with }

lemma Spaced.act (hconfig : p.actor.config = .fromOptions options) (hb : Budgeted p)
    (hc : Covered p.actor) (hact : Act stage p q) (h : Spaced p.actor) : Spaced q.actor := by
  cases hact with
  | queue pool hpool => exact h.aged hpool
  | admission node pool outcome hadmission hpool => exact h.aged hpool
  | @send k σ node purpose charged target pool responsive hroom hsubnet hpaid hknown hunblocked hpool
      hresponsive hqueue =>
      obtain ⟨hprobed, hothers⟩ := hc.probed_deadline hb hconfig (Nat.succ_pos k) hpaid hpool
      exact h.send hqueue hprobed hothers
  | @refuse k σ addr mid pool hmid hpool hqueue =>
    obtain ⟨-, hothers⟩ := hc.probed_deadline hb hconfig (Nat.succ_pos k) nofun hmid
    obtain ⟨hmem, hwaiting, hdistinct⟩ := hqueue
    refine ⟨hdistinct h.distinct, h.past, fun d hd hnew => ?_, h.apart⟩
    refine (h.rested d hd hnew).pool (fun hmem => .inl (hwaiting ▸ hmem))
      fun haway deadline hdeadline hlive hlate => ⟨deadline, ?_, hlate⟩
    have haddr : d.key.addr ≠ addr := fun haddr => haway (haddr ▸ hmem)
    rw [hpool.deadline, if_neg haddr]
    exact hothers _ _ haddr hdeadline hlive
  | finish key req responsive hreq hresponsive => exact h.finish key req responsive
  | @timeout k b σ key req pendingExpiry responsive hfirst hreq hresponsive =>
    have hrest : Spaced { σ with pendingExpiry } := { h with }
    exact hrest.finish key req responsive
  | _ => exact { h with }

lemma spaced_invariant (options : CrawlOptions) :
    Invariant options fun p => (Budgeted p ∧ Capped p.actor ∧ Covered p.actor) ∧ Spaced p.actor where
  start netmode localId maxMetadataQueueSize now := by
    refine ⟨(covered_invariant options).start netmode localId maxMetadataQueueSize now, ?_, nofun, nofun, .nil⟩
    exact ⟨nodup_nil, fun a => by simp [new, NodePool.new, NodePool.waiting]⟩
  clock σ now hconfig hsound hnow h := by
    refine ⟨(covered_invariant options).clock σ now hconfig hsound hnow h.1, h.2.distinct,
      fun d hd => (h.2.past d hd).trans hnow, fun d hd hnew => ?_, h.2.apart⟩
    exact (h.2.rested d hd hnew).imp (fun hover => hover.trans hnow) id
  act stage p q hconfig hact h :=
    ⟨(covered_invariant options).act stage p q hconfig hact h.1, h.2.act hconfig h.1.1 h.1.2.2 hact⟩
  batch σ queryBudget n input hconfig htake h :=
    ⟨(covered_invariant options).batch σ queryBudget n input hconfig htake h.1, { h.2 with }⟩
  refund k σ h := ⟨(covered_invariant options).refund k σ h.1, { h.2 with }⟩

/-- **New probes are spaced.** Of any two requests that were dispatched to one endpoint as new probes, the later
one was dispatched at least the lifetime of a recent probe after the earlier one. -/
theorem new_probes_apart {options : CrawlOptions} (hσ : Reachable options σ) :
    σ.dispatches.Pairwise fun later earlier =>
      later.purpose = .new → earlier.purpose = .new → later.key.addr = earlier.key.addr →
        earlier.dispatchedAt + (ResolvedCrawlConfig.fromOptions options).recentProbeTtl ≤
          later.dispatchedAt := by
  obtain ⟨⟨-, hspaced⟩, hconfig⟩ := (spaced_invariant options).reachable hσ
  rw [← hconfig]
  exact hspaced.apart

def askedTwice : List (Instant × Event) :=
  [(secs 1, .discovered (sampleNode 1)), (secs 2, .scheduleTick ⟨0, fun _ _ _ => true, fun _ => (0, 0)⟩),
    (secs 400, .discovered (sampleNode 1)),
    (secs 401, .scheduleTick ⟨0, fun _ _ _ => true, fun _ => (0, 0)⟩)]

theorem new_probes_apart_askedTwice :
    ∃ σ later earlier, Reachable sampleOptions σ ∧ σ.dispatches = [later, earlier] ∧ later.purpose = .new ∧
      earlier.purpose = .new ∧ later.key.addr = earlier.key.addr ∧
      earlier.dispatchedAt + (ResolvedCrawlConfig.fromOptions sampleOptions).recentProbeTtl ≤
        later.dispatchedAt := by
  have hrun : ((new (.fromOptions sampleOptions) .dualStack (.replicate 20 0) 10 0).runEvents
      askedTwice).isOkAnd (fun σ => σ.dispatches.map (fun d => (d.purpose, d.key.addr)) =
        [(.new, (sampleNode 1).addr), (.new, (sampleNode 1).addr)]) = true := by decide +kernel
  obtain ⟨σ, hσ, hsent⟩ := Except.isOkAnd_eq_true.mp hrun
  have hreachable : Reachable sampleOptions σ :=
    Reachable.runEvents (.start .dualStack (.replicate 20 0) 10 0) (by decide) (possible_of_isFree rfl) hσ
  have happart := new_probes_apart hreachable
  obtain ⟨later, rest, hlater, hlater', hrest⟩ := map_eq_cons_iff.mp (of_decide_eq_true hsent)
  obtain ⟨earlier, rest', rfl, hearlier, hnil⟩ := map_eq_cons_iff.mp hrest
  cases map_eq_nil_iff.mp hnil
  rw [hlater] at happart
  obtain ⟨hnew, haddr⟩ := Prod.mk.inj hlater'
  obtain ⟨hnew', haddr'⟩ := Prod.mk.inj hearlier
  have hsame := haddr.trans haddr'.symm
  exact ⟨σ, later, earlier, hreachable, hlater, hnew, hnew', hsame,
    (pairwise_cons.mp happart).1 earlier mem_cons_self hnew hnew' hsame⟩

end DhtCrawler.CrawlActor
