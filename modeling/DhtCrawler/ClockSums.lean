import DhtCrawler.CrawlAdmissions
import DhtCrawler.FailureCache
import DhtCrawler.ReservoirRevisits

/-! The sums of an instant and a duration that the components evaluate. The model adds without a bound, so a sum
that would overflow shows in what the component stores: every sum is stored as a deadline, or it is not later
than the reading it was made at or than a deadline stored with it. For each component this module bounds what it
stores after any calls up to an instant (the bound moves with the clock, and a call adds at most its own sum),
and shows that a single call at the last reading stores the sum in question, so that no weaker bound on the
configured durations would do. -/

namespace DhtCrawler

open ResolvedCrawlConfig List Except

variable {d : Duration} {when : Instant} {node : NodeTuple}

/-- Where the clock ends: `Instant` counts its seconds in an `i64`. -/
def clockEnd : Instant := secs (2 ^ 63)

/-- The readings that a process can observe are earlier than this. -/
def readingsEnd : Instant := secs (2 ^ 62)

def lastReading : Instant := readingsEnd - 1

/-- A duration that may be added to every reading. -/
def Addable (d : Duration) : Prop := readingsEnd + d ≤ clockEnd

lemma Addable.add_lt {now : Instant} (h : Addable d) (hnow : now < readingsEnd) :
    now + d < clockEnd :=
  (Nat.add_lt_add_right hnow d).trans_le h

lemma Addable.le_lt {t x : Instant} (h : Addable d) (ht : t < readingsEnd) (hx : x ≤ t + d) :
    x < clockEnd :=
  hx.trans_lt (h.add_lt ht)

lemma lastReading_lt : lastReading < readingsEnd := by decide

lemma addable_of_last (h : lastReading + d < clockEnd) : Addable d := by
  have hlast : readingsEnd = lastReading + 1 := by decide
  unfold Addable
  rw [hlast, Nat.add_right_comm]
  exact h

lemma addable_minute : Addable (secs 60) := by
  unfold Addable
  decide

/-! ### The node pool -/

namespace NodePool

variable {config : ResolvedCrawlConfig} {pool pool' : NodePool} {t now : Instant} {ttl : Duration}

inductive Op where
  | admitNode (node : NodeTuple)
  | takeFrontForProbe
  | recordProbe (addr : SocketAddr)
  | restoreFront (node : NodeTuple) (queuedAt : Instant)
  | containsRecent (addr : SocketAddr)
  | rotateFrontToBack

def Op.apply (now : Instant) (pool : NodePool) : Op → Except Panic NodePool
  | .admitNode node => do .ok (← pool.admitNode node now).1
  | .takeFrontForProbe => do .ok (← pool.takeFrontForProbe now).1
  | .recordProbe addr => pool.recordProbe addr now
  | .restoreFront node queuedAt => pool.restoreFront node queuedAt
  | .containsRecent addr => do .ok (← pool.containsRecent addr now).1
  | .rotateFrontToBack => .ok pool.rotateFrontToBack

/-- The pools of a configuration after calls up to an instant. -/
inductive Reached (config : ResolvedCrawlConfig) : Instant → NodePool → Prop where
  | start (t : Instant) :
      Reached config t (.new config.poolCapacity config.maxReplacementsPerMinute config.recentProbeTtl
        config.recentProbeCapacity t)
  | step {t now : Instant} {pool pool' : NodePool} (op : Op) (h : Reached config t pool) (hnow : t ≤ now)
      (hrun : op.apply now pool = .ok pool') : Reached config now pool'

/-- The deadlines of the pool fit into the clock. -/
def Fits (pool : NodePool) : Prop := ∀ addr d, pool.recent.deadline addr = some d → d < clockEnd

/-- What the calls up to `t` have left: no deadline is later than one set at `t`. -/
structure Dated (ttl : Duration) (t : Instant) (pool : NodePool) : Prop where
  inv : RecentProbes.Inv pool.recent
  ttl : pool.recentTtl = ttl
  deadline_le : ∀ a d, pool.recent.deadline a = some d → d ≤ t + pool.recentTtl

section

variable (h : Dated ttl t pool)
include h

lemma Dated.later (ht : t ≤ now) : Dated ttl now pool :=
  ⟨h.inv, h.ttl, fun a d hd => (h.deadline_le a d hd).trans (Nat.add_le_add_right ht _)⟩

lemma Dated.aged (haged : Aged now pool pool') : Dated ttl t pool' := by
  refine ⟨haged.recent.inv, haged.ttl.trans h.ttl, fun a d hd => ?_⟩
  rw [haged.ttl]
  exact h.deadline_le a d (haged.recent.deadline_of_some hd)

lemma Dated.probed {addr : SocketAddr} (hprobed : Probed t addr pool pool') : Dated ttl t pool' := by
  refine ⟨hprobed.inv, hprobed.ttl.trans h.ttl, fun a d hd => ?_⟩
  rw [hprobed.ttl]
  exact hprobed.deadline_le h.deadline_le hd

lemma Dated.takeFrontForProbe :
    Safe (· = .capacityOverflow) (pool.takeFrontForProbe t) fun x => Dated ttl t x.1 := by
  cases hfront : pool.front with
  | some node =>
    exact (takeFrontForProbe_spec h.inv hfront h.deadline_le).mono fun x ⟨_, hprobed, _⟩ => h.probed hprobed
  | none =>
    have hqueue : pool.queue = [] := by
      unfold NodePool.front at hfront
      exact head?_eq_none_iff.mp (Option.map_eq_none_iff.mp hfront)
    unfold NodePool.takeFrontForProbe popFrontInternal
    rw [hqueue]
    exact h

lemma Dated.apply (op : Op) : Safe (· = .capacityOverflow) (op.apply t pool) (Dated ttl t) := by
  cases op with
  | admitNode node =>
    exact ((admitNode_spec h.inv node t).weaken nofun).bind fun x haged => h.aged haged
  | takeFrontForProbe => exact h.takeFrontForProbe.bind fun x hx => hx
  | recordProbe addr => exact (recordProbe_spec h.inv addr h.deadline_le).mono fun x ⟨hx, _⟩ => h.probed hx
  | restoreFront node queuedAt =>
    refine ((restoreFront_spec h.inv node queuedAt).weaken nofun).mono fun x ⟨hinv, _, hdead, httl, _⟩ =>
      ⟨hinv, httl.trans h.ttl, fun a d hd => ?_⟩
    rw [hdead] at hd
    rw [httl]
    split_ifs at hd
    exact h.deadline_le a d hd
  | containsRecent addr =>
    exact ((containsRecent_spec h.inv addr t).weaken nofun).bind fun x ⟨haged, _⟩ => h.aged haged
  | rotateFrontToBack =>
    show Dated ttl t pool.rotateFrontToBack
    unfold NodePool.rotateFrontToBack
    split_ifs
    · exact h
    · exact ⟨h.inv, h.ttl, h.deadline_le⟩

end

lemma Reached.dated (h : Reached config t pool) : Dated config.recentProbeTtl t pool := by
  induction h with
  | start t => exact ⟨RecentProbes.inv_new _, rfl, nofun⟩
  | step op _ hnow hrun ih => exact ((ih.later hnow).apply op).of_ok hrun

/-- The first probe of a pool is recorded whatever the pool's capacity. -/
lemma recordProbe_new (capacity replacementsPerMinute : ℕ) (recentTtl : Duration) (recentCapacity : ℕ)
    (t now : Instant) (addr : SocketAddr) :
    ∃ pool, (new capacity replacementsPerMinute recentTtl recentCapacity t).recordProbe addr now = .ok pool ∧
      pool.recent.deadline addr = some (now + recentTtl) := by
  have hfull : ¬(RecentProbes.new recentCapacity).entries.len = (RecentProbes.new recentCapacity).capacity := by
    show ¬0 = max recentCapacity 1
    omega
  have hprepare : (new capacity replacementsPerMinute recentTtl recentCapacity t).prepareRecentSlot addr now =
      .ok (new capacity replacementsPerMinute recentTtl recentCapacity t) := by
    unfold prepareRecentSlot
    show Loop.run _ _ _ = _
    unfold Loop.run prepareStep
    rw [if_neg fun h => Bool.false_ne_true h.2.2]
    rfl
  have hrecord : (RecentProbes.new recentCapacity).record addr (now + recentTtl) =
      .ok ((RecentProbes.new recentCapacity).pushed addr (now + recentTtl)) := by
    show (RecentProbes.new recentCapacity).makeRoom >>= _ = _
    unfold RecentProbes.makeRoom
    rw [if_neg hfull]
    rfl
  have hrun : (new capacity replacementsPerMinute recentTtl recentCapacity t).recordProbe addr now =
      .ok { new capacity replacementsPerMinute recentTtl recentCapacity t with
        recent := (RecentProbes.new recentCapacity).pushed addr (now + recentTtl)
        evictions := evictionBy (RecentProbes.new recentCapacity) addr now ++ [] } := by
    unfold NodePool.recordProbe
    rw [hprepare, ok_bind]
    show (RecentProbes.new recentCapacity).record addr (now + recentTtl) >>= _ = _
    rw [hrecord]
    rfl
  refine ⟨_, hrun, ?_⟩
  show ((FiniteMap.insert _ _ _).get addr).map _ = _
  rw [FiniteMap.get_insert_self]
  rfl

lemma fits_iff (config : ResolvedCrawlConfig) :
    (∀ t pool, Reached config t pool → t < readingsEnd → pool.Fits) ↔ Addable config.recentProbeTtl := by
  constructor
  · intro hfits
    obtain ⟨pool, hrun, hdeadline⟩ := recordProbe_new config.poolCapacity config.maxReplacementsPerMinute
      config.recentProbeTtl config.recentProbeCapacity 0 lastReading (exampleAddr 1)
    have hpool : Reached config lastReading pool :=
      .step (.recordProbe (exampleAddr 1)) (.start 0) (Nat.zero_le _) hrun
    exact addable_of_last (hfits _ pool hpool lastReading_lt _ _ hdeadline)
  · intro haddable t pool hpool ht addr d hd
    have hdated := hpool.dated
    have hle := hdated.deadline_le addr d hd
    rw [hdated.ttl] at hle
    exact haddable.le_lt ht hle

end NodePool

/-! ### The responsive reservoir -/

namespace ResponsiveReservoir

variable {r r' : ResponsiveReservoir} {slot : ℕ} {e e' : ResponsiveEntry} {reserved : Set ℕ}
  {addr : SocketAddr} {t now : Instant} {ttl interval : Duration}

/-- A refused revisit is put off by the interval of the scheduler, the only delay the actor asks for. -/
def Op.Prompt (now : Instant) : Op → Prop
  | .deferRevisit _ retryAt => retryAt ≤ now + scheduleInterval
  | _ => True

/-- The reservoirs after calls up to an instant that only ask for that delay. -/
inductive Prompted (capacity : ℕ) (ttl interval : Duration) : Instant → ResponsiveReservoir → Prop where
  | start (t : Instant) : Prompted capacity ttl interval t (new capacity ttl interval)
  | step {t now : Instant} {r r' : ResponsiveReservoir} (op : Op) (h : Prompted capacity ttl interval t r)
      (hnow : t ≤ now) (hop : op.Possible now) (hprompt : op.Prompt now) (hrun : op.apply now r = .ok r') :
      Prompted capacity ttl interval now r'

lemma Prompted.reached {capacity : ℕ} (h : Prompted capacity ttl interval t r) :
    Reached capacity ttl interval t r := by
  induction h with
  | start t => exact .start t
  | step op _ hnow hop _ hrun ih => exact .step op ih hnow hop hrun

/-- The instants an entry holds fit into the clock: the end of its life, of its backoff and of its wait. -/
structure EntryFits (e : ResponsiveEntry) : Prop where
  expires : e.expiresAt < clockEnd
  blocked : ∀ blocked, e.blockedUntil = some blocked → blocked < clockEnd
  waiting : ∀ key, e.revisitKey = some key → key.dueAt < clockEnd

def Fits (r : ResponsiveReservoir) : Prop := ∀ i e, r.entry i = some e → EntryFits e

/-- What the calls up to `t` have left in an entry. -/
structure EntryDated (ttl interval : Duration) (t : Instant) (e : ResponsiveEntry) : Prop where
  probed : e.lastProbeAt ≤ t
  expires : e.expiresAt ≤ t + ttl
  blocked : ∀ blocked, e.blockedUntil = some blocked → blocked ≤ t + secs 60
  waiting : ∀ key, e.revisitKey = some key → key.dueAt ≤ t + max interval (secs 60)

lemma EntryDated.later (h : EntryDated ttl interval t e) (ht : t ≤ now) : EntryDated ttl interval now e where
  probed := h.probed.trans ht
  expires := h.expires.trans (Nat.add_le_add_right ht _)
  blocked blocked hblocked := (h.blocked blocked hblocked).trans (Nat.add_le_add_right ht _)
  waiting key hkey := (h.waiting key hkey).trans (Nat.add_le_add_right ht _)

/-- Only the key of the revisit is not part of the core. -/
lemma EntryDated.of_core (h : EntryDated ttl interval t e) (hcore : core e' = core e)
    (hkey : ∀ key, e'.revisitKey = some key → key.dueAt ≤ t + max interval (secs 60)) :
    EntryDated ttl interval t e' := by
  have hprobe : e'.lastProbeAt = e.lastProbeAt := (congrArg ResponsiveEntry.lastProbeAt hcore :)
  have hexpires : e'.expiresAt = e.expiresAt := (congrArg ResponsiveEntry.expiresAt hcore :)
  have hblocked : e'.blockedUntil = e.blockedUntil := (congrArg ResponsiveEntry.blockedUntil hcore :)
  exact ⟨hprobe ▸ h.probed, hexpires ▸ h.expires, hblocked ▸ h.blocked, hkey⟩

lemma EntryDated.congr (h : EntryDated ttl interval t e) (hface : face e' = face e) :
    EntryDated ttl interval t e' := by
  obtain ⟨hcore, hplan⟩ := Prod.mk.inj hface
  obtain ⟨_, hkey⟩ := Prod.mk.inj hplan
  exact h.of_core hcore (hkey ▸ h.waiting)

lemma EntryDated.ripe_le (h : EntryDated ttl interval t e)
    (hwhen : when ≤ t + max interval (secs 60)) : dueInstant e when ≤ t + max interval (secs 60) := by
  unfold dueInstant
  split
  · rename_i blocked hblocked
    exact max_le hwhen ((h.blocked blocked hblocked).trans (Nat.add_le_add_left (le_max_right _ _) t))
  · exact hwhen

lemma EntryDated.interval_le (h : EntryDated ttl interval t e) :
    e.lastProbeAt + interval ≤ t + max interval (secs 60) :=
  Nat.add_le_add h.probed (le_max_left _ _)

lemma EntryDated.failed (h : EntryDated ttl interval t e) : EntryDated ttl interval t (failedEntry e t) := by
  refine ⟨h.probed, h.expires, fun blocked hblocked => ?_, h.waiting⟩
  cases hblocked
  exact Nat.add_le_add_left (Nat.mul_le_mul_right _ (min_le_right _ _)) t

structure Dated (ttl interval : Duration) (t : Instant) (r : ResponsiveReservoir) : Prop where
  ttl_eq : r.ttl = ttl
  interval_eq : r.revisitInterval = interval
  entries : ∀ i e, r.entry i = some e → EntryDated ttl interval t e

lemma Dated.replied (h : Dated ttl interval t r) (he : r.entry slot = some e) (node : NodeTuple) :
    EntryDated ttl interval t (r.repliedEntry e node t) := by
  have hdated := h.entries slot e he
  unfold repliedEntry
  rw [h.ttl_eq]
  dsimp only
  split_ifs
  · exact ⟨hdated.probed, le_refl _, nofun, hdated.waiting⟩
  · exact ⟨hdated.probed, le_refl _, hdated.blocked, hdated.waiting⟩

section

variable (h : Dated ttl interval t r)
include h

lemma Dated.later (ht : t ≤ now) : Dated ttl interval now r :=
  ⟨h.ttl_eq, h.interval_eq, fun i e he => (h.entries i e he).later ht⟩

lemma Dated.update (httl : r'.ttl = r.ttl) (hinterval : r'.revisitInterval = r.revisitInterval)
    (hothers : ∀ i, i ≠ slot → (r'.entry i).map face = (r.entry i).map face)
    (hself : ∀ e, r'.entry slot = some e → EntryDated ttl interval t e) : Dated ttl interval t r' :=
  ⟨httl.trans h.ttl_eq, hinterval.trans h.interval_eq,
    forall_entry_update h.entries hothers (fun _ _ hx hface => hx.congr hface) hself⟩

lemma Dated.setEntry (he : r.entry slot = some e) (he' : EntryDated ttl interval t e') :
    Dated ttl interval t (r.setEntry slot e') := by
  have hentry : ∀ i, (r.setEntry slot e').entry i = if i = slot then some e' else r.entry i :=
    entry_setEntry (lt_of_entry he) e'
  refine h.update rfl rfl (fun i (hi : i ≠ slot) => ?_) fun x hx => ?_
  · rw [hentry, if_neg hi]
  · rw [hentry, if_pos rfl] at hx
    cases hx
    exact he'

lemma Dated.rewritten (hr : Rewritten r slot e' (dueInstant e' when) now r')
    (he' : EntryDated ttl interval t e') (hwhen : when ≤ t + max interval (secs 60)) :
    Dated ttl interval t r' := by
  have hrescheduled := hr.enqueued.rescheduled
  refine ⟨hrescheduled.ttl.trans h.ttl_eq, hrescheduled.revisitInterval.trans h.interval_eq,
    hr.forall_entry h.entries (fun x e hx hface => hx.congr hface) fun x hcore _ hkey => ?_⟩
  exact he'.of_core hcore fun key hx => (hkey key hx).trans_le (he'.ripe_le hwhen)

lemma Dated.updated {f : ResponsiveEntry → ResponsiveEntry} {when : ResponsiveEntry → Instant}
    (hr : Updated r addr f when t r')
    (hf : ∀ e, EntryDated ttl interval t e → EntryDated ttl interval t (f e))
    (hwhen : ∀ e, EntryDated ttl interval t e → when e ≤ t + max interval (secs 60)) :
    Dated ttl interval t r' := by
  unfold Updated at hr
  split at hr
  · rw [hr]
    exact h
  · obtain ⟨e, he, _, hr⟩ := hr
    have hdated := h.entries _ e he
    exact h.rewritten hr (hf e hdated) (hwhen e hdated)

lemma Dated.judged {dispatchedAt : Instant} {x : ResponsiveReservoir × Bool}
    (hr : Judged r addr dispatchedAt t x) : Dated ttl interval t x.1 := by
  unfold Judged at hr
  split at hr
  · rw [hr]
    exact h
  · obtain ⟨e, he, _, hr⟩ := hr
    split_ifs at hr
    · rw [hr]
      exact h
    · obtain ⟨_, blocked, hblocked, hr⟩ := hr
      have hdated := h.entries _ e he
      refine h.rewritten hr hdated.failed (max_le (h.interval_eq ▸ hdated.interval_le) ?_)
      exact (hdated.failed.blocked blocked hblocked).trans (Nat.add_le_add_left (le_max_right _ _) t)

lemma Dated.recorded {probedAt : Instant} (hprobed : probedAt ≤ t)
    (hr : Recorded node t probedAt r r') : Dated ttl interval t r' := by
  unfold Recorded at hr
  split at hr
  · obtain ⟨x, hx, hcore, _, hkey⟩ := hr.self
    refine h.update hr.ttl hr.interval hr.faces fun y hy => ?_
    rw [hx] at hy
    cases hy
    have hfresh : EntryDated ttl interval t (r.freshEntry node t probedAt) :=
      ⟨hprobed, (congrArg (t + ·) h.ttl_eq).le, nofun, nofun⟩
    refine hfresh.of_core hcore fun key hx => ?_
    rw [hkey key hx, h.interval_eq]
    exact Nat.add_le_add hprobed (le_max_left _ _)
  · obtain ⟨e, he, _, hr⟩ := hr
    have hdated := h.entries _ e he
    split_ifs at hr
    · exact h.rewritten hr (h.replied he node) (h.interval_eq ▸ hdated.interval_le)
    · rw [hr]
      exact h.setEntry he (h.replied he node)

lemma Dated.cleared (hr : Cleared r slot r') : Dated ttl interval t r' := by
  refine h.update hr.ttl hr.interval hr.others fun e he => ?_
  rw [hr.self] at he
  cases he

lemma Dated.replanned {p : Bool × Option RevisitKey} (hr : Replanned r slot p r') (hp : p.2 = none) :
    Dated ttl interval t r' := by
  refine h.update hr.rescheduled.ttl hr.rescheduled.revisitInterval (fun i hi => hr.face hi) fun x hx => ?_
  have hplan := hr.self
  have hcore := hr.rescheduled.core slot
  rw [hx] at hplan hcore
  obtain ⟨y, hy, hxy⟩ := Option.map_eq_some_iff.mp hcore.symm
  cases Option.some.inj hplan
  exact (h.entries slot y hy).of_core hxy.symm fun key hkey => absurd (hp.symm.trans hkey) nofun

lemma Dated.nextRevisit (hinv : Inv reserved r) :
    Sure (r.nextRevisit t) fun x => Dated ttl interval t x.1 := by
  have hkeeps := hinv.nextRevisit_keeps t (P := Dated ttl interval t) h
    (fun r₁ r₂ _ h₁ ⟨_, _, _, hr⟩ => h₁.replanned hr rfl) fun r₁ slot r₂ h₁ hr => h₁.cleared hr
  refine hkeeps.mono fun x hx => ?_
  rcases hx with ⟨_, _, hx⟩ | ⟨node, r₁, slot, _, _, h₁, _, htaken⟩
  · exact hx
  · exact h₁.replanned htaken.replanned rfl

lemma Dated.apply (hinv : Inv reserved r) (op : Op) (hop : op.Possible t) (hprompt : op.Prompt t) :
    Sure (op.apply t r) (Dated ttl interval t) := by
  cases op with
  | record node probedAt => exact (hinv.record node t probedAt).mono fun r' ⟨_, hr⟩ => h.recorded hop hr
  | nextRevisit => exact (h.nextRevisit hinv).bind fun _ hx => hx
  | recordProbe addr =>
    refine (hinv.recordProbe addr t).mono fun r' ⟨_, hr⟩ => h.updated hr (fun e he => ?_) fun e _ => ?_
    · exact ⟨le_refl t, he.expires, he.blocked, he.waiting⟩
    · rw [h.interval_eq]
      exact Nat.add_le_add_left (le_max_left _ _) t
  | deferRevisit addr retryAt =>
    refine (hinv.deferRevisit addr retryAt t).mono fun r' ⟨_, hr⟩ =>
      h.updated hr (fun _ he => he) fun e he => max_le ?_ (h.interval_eq ▸ he.interval_le)
    have hshort : scheduleInterval ≤ secs 60 := by decide
    exact hprompt.trans (Nat.add_le_add_left (hshort.trans (le_max_right _ _)) t)
  | recordFailure addr dispatchedAt =>
    exact (hinv.recordFailure addr dispatchedAt t).bind fun x ⟨_, hr⟩ => h.judged hr
  | snapshot limit =>
    refine (hinv.snapshot limit t).bind fun x ⟨_, hkept, hentry⟩ =>
      ⟨hkept.ttl.trans h.ttl_eq, hkept.interval.trans h.interval_eq, fun i e he => ?_⟩
    rw [hentry] at he
    exact h.entries i e he

end

lemma Prompted.dated {capacity : ℕ} (h : Prompted capacity ttl interval t r) : Dated ttl interval t r := by
  induction h with
  | start t =>
    refine ⟨rfl, rfl, fun i e he => ?_⟩
    unfold ResponsiveReservoir.entry new at he
    rw [getElem?_replicate] at he
    split_ifs at he <;> cases he
  | step op h hnow hop hprompt hrun ih =>
    obtain ⟨reserved, hinv⟩ := h.reached.kempt.inv
    exact ((ih.later hnow).apply hinv op hop hprompt).of_ok hrun

/-- A node that answers an empty reservoir at once lives for `ttl` and waits for `interval`. -/
lemma record_new (capacity : ℕ) (ttl interval : Duration) (now : Instant) (node : NodeTuple) :
    ∃ r i e, (new capacity ttl interval).record node now now = .ok r ∧ r.entry i = some e ∧
      e.expiresAt = now + ttl ∧ (0 < interval → ∃ key, e.revisitKey = some key ∧ key.dueAt = now + interval) := by
  obtain ⟨r, hrun, ⟨reserved, hreserved, hinv⟩, hr⟩ := ((inv_new capacity ttl interval).record node now now).exists
  obtain ⟨e, he, hcore, hready, hkey⟩ : ∃ e, _ := Entered.self (show Entered node now now _ r from hr)
  refine ⟨r, _, e, hrun, he, (congrArg ResponsiveEntry.expiresAt hcore :), fun hpositive => ?_⟩
  have hnotReady : e.ready = false := by
    refine Bool.eq_false_iff.mpr fun htrue => ?_
    exact absurd (hready htrue) (Nat.lt_add_of_pos_right hpositive).not_ge
  have hslot : (new capacity ttl interval).writeCursor ∉ reserved := fun hmem => hreserved hmem
  have hwaiting : e.revisitKey ≠ none := fun hnone =>
    absurd ((hinv.scheduled _ e he hslot).mpr hnone) (Bool.eq_false_iff.mp hnotReady)
  obtain ⟨key, hsome⟩ := Option.ne_none_iff_exists'.mp hwaiting
  exact ⟨key, hsome, hkey key hsome⟩

lemma fits_iff (capacity : ℕ) (ttl interval : Duration) :
    (∀ t r, Prompted capacity ttl interval t r → t < readingsEnd → r.Fits) ↔ Addable ttl ∧ Addable interval := by
  constructor
  · intro hfits
    obtain ⟨r, i, e, hrun, he, hexpires, hwaiting⟩ :=
      record_new capacity ttl interval lastReading ⟨.replicate 20 1, exampleAddr 1⟩
    have hr : Prompted capacity ttl interval lastReading r :=
      .step (.record _ lastReading) (.start 0) (Nat.zero_le _) (le_refl lastReading) trivial hrun
    have hentry := hfits _ r hr lastReading_lt i e he
    refine ⟨addable_of_last (hexpires ▸ hentry.expires), ?_⟩
    rcases Nat.eq_zero_or_pos interval with rfl | hpositive
    · unfold Addable
      decide
    · obtain ⟨key, hkey, hdue⟩ := hwaiting hpositive
      exact addable_of_last (hdue ▸ hentry.waiting key hkey)
  · rintro ⟨httl, hinterval⟩ t r hr ht i e he
    have hdated := hr.dated.entries i e he
    have hwait : Addable (max interval (secs 60)) := by
      rcases le_total interval (secs 60) with hle | hle
      · rw [max_eq_right hle]
        exact addable_minute
      · rw [max_eq_left hle]
        exact hinterval
    exact ⟨httl.le_lt ht hdated.expires, fun blocked hblocked => addable_minute.le_lt ht (hdated.blocked _ hblocked),
      fun key hkey => hwait.le_lt ht (hdated.waiting key hkey)⟩

end ResponsiveReservoir

/-! ### The crawl actor -/

namespace CrawlActor

variable {options : CrawlOptions} {σ σ' : CrawlActor}

/-- The deadlines of the requests fit into the clock. -/
def Fits (σ : CrawlActor) : Prop := ∀ record ∈ σ.pendingExpiry, record.1 < clockEnd

/-- A dispatch adds at most the record of its own request. -/
lemma tryDispatch_records {input : TickInput} {purpose : ProbePurpose} {now : Instant}
    {fresh charged sent : Bool} (hrun : σ.tryDispatch input node purpose now fresh charged = .ok (σ', sent)) :
    ∀ record ∈ σ'.pendingExpiry, record ∈ σ.pendingExpiry ∨ record.1 = now + σ.config.requestTimeout := by
  unfold tryDispatch at hrun
  split_ifs at hrun
  · cases hrun
    exact fun record hrecord => .inl hrecord
  obtain ⟨backingOff, _, hrun⟩ := bind_eq_ok.mp hrun
  split_ifs at hrun
  · cases hrun
    exact fun record hrecord => .inl hrecord
  obtain ⟨target, _, hrun⟩ := bind_eq_ok.mp hrun
  obtain ⟨responsive, _, hrun⟩ := bind_eq_ok.mp hrun
  cases hrun
  exact forall_mem_append.mpr ⟨fun record => .inl, forall_mem_singleton.mpr (.inr rfl)⟩

/-- An actor that has just started dispatches whatever its options are. -/
lemma tryDispatch_new (options : CrawlOptions) (netmode : NetMode) (localId : NodeId) (maxMetadataQueueSize : ℕ)
    (t now : Instant) (node : NodeTuple) :
    ∃ σ', (new (.fromOptions options) netmode localId maxMetadataQueueSize t).tryDispatch
        ⟨0, fun _ _ _ => true, fun _ => (0, 0)⟩ node .new now true true = .ok (σ', true) ∧
      (now + (fromOptions options).requestTimeout, ⟨node.addr, 1⟩) ∈ σ'.pendingExpiry := by
  have hinv := ResponsiveReservoir.inv_new (fromOptions options).responsiveCapacity
    (fromOptions options).responsiveTtl (fromOptions options).revisitInterval
  generalize hσ : new (.fromOptions options) netmode localId maxMetadataQueueSize t = σ
  have hroom : ¬σ.pending.len ≥ σ.config.maxInFlight := by
    rw [← hσ]
    exact Nat.not_le.mpr (Nat.lt_of_lt_of_le Nat.one_pos (le_max_right _ 1))
  have hsubnet : ¬σ.subnetCount (.fromAddr node.addr) ≥ σ.config.maxInFlightPerSubnet := by
    rw [← hσ]
    exact Nat.not_le.mpr (Nat.lt_of_lt_of_le Nat.one_pos (le_max_right _ 1))
  have hcalm : σ.responsive.isBackingOff node.addr now = .ok false := by
    rw [← hσ]
    rfl
  have hempty : σ.responsive.recordProbe node.addr now = .ok σ.responsive := by
    rw [← hσ]
    rfl
  have hresponsive : ResponsiveReservoir.Inv ∅ σ.responsive := by
    rw [← hσ]
    exact hinv
  obtain ⟨target, htarget, _⟩ := (chooseTarget_safe hresponsive (0, 0)).exists
  have hrun : σ.tryDispatch ⟨0, fun _ _ _ => true, fun _ => (0, 0)⟩ node .new now true true =
      .ok (σ.launched node .new now true true target, true) := by
    unfold tryDispatch
    rw [if_neg hroom, hcalm, ok_bind, if_neg (by simp [hsubnet]), htarget, ok_bind, hempty]
    rfl
  refine ⟨_, hrun, mem_append_right _ ?_⟩
  rw [← hσ]
  exact mem_singleton_self _

lemma fits_iff (options : CrawlOptions) :
    (∀ σ, Reachable options σ → ∀ now, σ.clock ≤ now → now < readingsEnd →
      ∀ input node purpose fresh charged σ' sent,
        σ.tryDispatch input node purpose now fresh charged = .ok (σ', sent) → σ'.Fits) ↔
      Addable (fromOptions options).requestTimeout := by
  constructor
  · intro hfits
    obtain ⟨σ', hrun, hrecord⟩ := tryDispatch_new options .dualStack (.replicate 20 0) 10 0 lastReading
      (sampleNode 1)
    exact addable_of_last (hfits _ (.start .dualStack (.replicate 20 0) 10 0) lastReading (Nat.zero_le _)
      lastReading_lt _ _ _ _ _ σ' true hrun _ hrecord)
  · intro haddable σ hσ now hclock hnow input node purpose fresh charged σ' sent hrun record hrecord
    obtain ⟨hcapped, hconfig⟩ := (capped_invariant options).reachable hσ
    rcases tryDispatch_records hrun record hrecord with hold | hnew
    · have hle := hcapped.deadline_le record hold
      rw [hconfig] at hle
      exact haddable.le_lt (hclock.trans_lt hnow) hle
    · rw [hconfig] at hnew
      exact haddable.le_lt hnow hnew.le

end CrawlActor

/-! ### The bootstrap sources -/

namespace BootstrapSourcePool

/-- The instant a call is made at. -/
def SourceCall.time : SourceCall → Instant
  | .attempt _ now => now
  | .success _ now => now
  | .timeout _ now => now
  | .select _ _ now => now

/-- The backoffs fit into the clock. -/
def Fits (pool : BootstrapSourcePool) : Prop :=
  ∀ addr ends, (stateOf pool.states addr).backoffUntil = some ends → ends < clockEnd

lemma exists_call_of_timeout {addr : SocketAddr} {now : Instant} {history : List SourceCall}
    (h : now ∈ timeoutsOf addr history) : ∃ call ∈ history, call.time = now := by
  induction history with
  | nil => cases h
  | cons latest earlier ih =>
    have hlater : now ∈ timeoutsOf addr earlier → ∃ call ∈ latest :: earlier, call.time = now := by
      intro hmem
      obtain ⟨call, hcall, htime⟩ := ih hmem
      exact ⟨call, mem_cons_of_mem _ hcall, htime⟩
    cases latest with
    | timeout other t =>
      unfold timeoutsOf at h
      split_ifs at h
      · rcases mem_cons.mp h with rfl | hmem
        · exact ⟨_, mem_cons_self, rfl⟩
        · exact hlater hmem
      · exact hlater h
    | success other t =>
      unfold timeoutsOf at h
      split_ifs at h
      · cases h
      · exact hlater h
    | attempt other t => exact hlater h
    | select candidates maxNodes t => exact hlater h

/-- The longest backoff: the base doubled sixteen times, cut off at the maximum. -/
lemma backoff_le (backoffBase backoffMax : Duration) (failures : ℕ) :
    min (backoffBase * 2 ^ min failures 16) backoffMax ≤ min (backoffBase * 2 ^ 16) backoffMax :=
  min_le_min_right _ (Nat.mul_le_mul_left _ (Nat.pow_le_pow_right (by decide) (min_le_right _ _)))

lemma after_timeouts (hosts : List String) (backoffBase backoffMax : Duration) (addr : SocketAddr) (now : Instant)
    (n : ℕ) :
    ∃ pool, after hosts backoffBase backoffMax (replicate n (.timeout addr now)) = .ok pool := by
  induction n with
  | zero => exact ⟨_, rfl⟩
  | succ n ih =>
    obtain ⟨pool, hpool⟩ := ih
    refine ⟨pool.markTimeout addr now, ?_⟩
    rw [replicate_succ, after, hpool]
    rfl

lemma fits_iff (hosts : List String) (backoffBase backoffMax : Duration) :
    (∀ history pool, (∀ call ∈ history, call.time < readingsEnd) →
      after hosts backoffBase backoffMax history = .ok pool → pool.Fits) ↔
      Addable (min (backoffBase * 2 ^ 16) backoffMax) := by
  constructor
  · intro hfits
    let addr := exampleAddr 1
    obtain ⟨pool, hpool⟩ := after_timeouts hosts backoffBase backoffMax addr lastReading 17
    have hreflects := (after_reflects hosts backoffBase backoffMax _).of_ok hpool
    refine addable_of_last (hfits _ pool (fun call hcall => ?_) hpool addr _ (hreflects.counts addr).backoffUntil)
    rw [eq_of_mem_replicate hcall]
    exact lastReading_lt
  · intro haddable history pool hcalls hpool addr ends hends
    have hreflects := (after_reflects hosts backoffBase backoffMax history).of_ok hpool
    rw [(hreflects.counts addr).backoffUntil] at hends
    obtain ⟨latest, hlatest, rfl⟩ := Option.map_eq_some_iff.mp hends
    obtain ⟨call, hcall, htime⟩ := exists_call_of_timeout (mem_of_mem_head? hlatest)
    exact haddable.le_lt (htime ▸ hcalls call hcall) (Nat.add_le_add_left (backoff_le _ _ _) latest)

end BootstrapSourcePool

/-! ### The cache of failed peers -/

namespace PeerFailureCache

variable {cache : PeerFailureCache} {t now : Instant} {capacity : ℕ} {ttl : Duration}
  {log : List (Instant × Word)}

/-- The deadlines of the cache fit into the clock. -/
def Fits (cache : PeerFailureCache) : Prop := ∀ record ∈ cache.inner.expiry, record.1 < clockEnd

lemma off_new : (new capacity ttl).off = true ↔ capacity = 0 ∨ ttl = 0 := by
  rw [off, Bool.or_eq_true, decide_eq_true_iff, decide_eq_true_iff]
  rfl

/-- A cache that is switched off stays as it was made. -/
lemma Reached.eq_new (hoff : (new capacity ttl).off = true) (h : Reached capacity ttl t cache log) :
    cache = new capacity ttl := by
  induction h with
  | start => rfl
  | get key _ _ ih => rw [ih, PeerFailureCache.get, if_pos hoff]
  | insert key reason _ _ ih => rw [ih, PeerFailureCache.insert, if_pos hoff]
  | remove key _ _ ih => rw [ih, PeerFailureCache.remove, if_pos hoff]

lemma fits_iff (capacity : ℕ) (ttl : Duration) :
    (∀ t cache log, Reached capacity ttl t cache log → t < readingsEnd → cache.Fits) ↔
      capacity = 0 ∨ Addable ttl := by
  constructor
  · intro hfits
    by_cases hoff : (new capacity ttl).off = true
    · refine (off_new.mp hoff).imp_right fun hzero => ?_
      subst hzero
      unfold Addable
      decide
    · right
      have hstart : Reached capacity ttl 0 (new capacity ttl) [] := .start 0
      have hreached := hstart.insert (.endpoint (exampleAddr 1)) .timeout (Nat.zero_le lastReading)
      have hcache := hfits _ _ _ hreached lastReading_lt
      unfold PeerFailureCache.insert at hcache
      rw [if_neg hoff] at hcache
      exact addable_of_last (hcache _ (mem_append_right _ (mem_singleton_self _)))
  · intro hshort t cache log hcache ht record hrecord
    by_cases hoff : (new capacity ttl).off = true
    · rw [hcache.eq_new hoff] at hrecord
      cases hrecord
    · obtain ⟨hcapacity, httl⟩ := not_or.mp (mt off_new.mpr hoff)
      have hinv := hcache.inv (Nat.pos_of_ne_zero hcapacity) (Nat.pos_of_ne_zero httl)
      exact (hshort.resolve_left hcapacity).le_lt ht (hinv.record_le record hrecord)

end PeerFailureCache

end DhtCrawler
