import DhtCrawler.SnapshotResult

/-! When the responsive reservoir hands out a node. -/

namespace DhtCrawler.ResponsiveReservoir

open Option

variable {r r' : ResponsiveReservoir} {slot : ℕ} {e e' : ResponsiveEntry} {reserved : Set ℕ}
  {addr : SocketAddr} {t now : Instant} {interval : Duration}

variable {due : Instant} {node : NodeTuple}

def ripeAt (interval : Duration) (e : ResponsiveEntry) : Instant :=
  dueInstant e (e.lastProbeAt + interval)

lemma le_ripeAt (interval : Duration) (e : ResponsiveEntry) : e.lastProbeAt + interval ≤ ripeAt interval e := by
  unfold ripeAt dueInstant
  split
  · exact le_max_left _ _
  · exact le_refl _

lemma blocked_le_ripeAt {blocked : Instant} (hblocked : e.blockedUntil = some blocked) :
    blocked ≤ ripeAt interval e := by
  unfold ripeAt dueInstant
  rw [hblocked]
  exact le_max_right _ _

lemma ripeAt_le_due {when : Instant} (hwhen : e.lastProbeAt + interval ≤ when) :
    ripeAt interval e ≤ dueInstant e when := by
  unfold ripeAt dueInstant
  split
  · exact max_le_max_right _ hwhen
  · exact hwhen

lemma ripeAt_congr (hprobe : e'.lastProbeAt = e.lastProbeAt) (hblocked : e'.blockedUntil = e.blockedUntil) :
    ripeAt interval e' = ripeAt interval e := by
  unfold ripeAt dueInstant
  rw [hprobe, hblocked]

structure Timely (interval : Duration) (t : Instant) (e : ResponsiveEntry) : Prop where
  ready : e.ready = true → ripeAt interval e ≤ t
  waiting : ∀ key, e.revisitKey = some key → ripeAt interval e ≤ key.dueAt
  calm : e.failures = 0 → e.blockedUntil = none

lemma timely_of_core (hcore : core e' = core e) (hcalm : e.failures = 0 → e.blockedUntil = none)
    (hready : e'.ready = true → ripeAt interval e ≤ now)
    (hkey : ∀ key, e'.revisitKey = some key → ripeAt interval e ≤ key.dueAt) : Timely interval now e' := by
  have hripe : ripeAt interval e' = ripeAt interval e := (congrArg (ripeAt interval) hcore :)
  have hblocked : e'.blockedUntil = e.blockedUntil := (congrArg ResponsiveEntry.blockedUntil hcore :)
  have hfailures : e'.failures = e.failures := (congrArg ResponsiveEntry.failures hcore :)
  refine ⟨fun he => hripe ▸ hready he, fun key he => hripe ▸ hkey key he, fun he => ?_⟩
  rw [hblocked]
  exact hcalm (hfailures ▸ he)

lemma Timely.congr (h : Timely interval t e) (hface : face e' = face e) (ht : t ≤ now) :
    Timely interval now e' := by
  obtain ⟨hcore, hplan⟩ := Prod.mk.inj hface
  obtain ⟨hready, hkey⟩ := Prod.mk.inj hplan
  exact timely_of_core hcore h.calm (fun he => (h.ready (hready ▸ he)).trans ht)
    fun key he => h.waiting key (hkey ▸ he)

def Punctual (t : Instant) (r : ResponsiveReservoir) : Prop :=
  ∀ i e, r.entry i = some e → Timely r.revisitInterval t e

lemma Punctual.update (h : Punctual t r) (ht : t ≤ now) (hinterval : r'.revisitInterval = r.revisitInterval)
    (hothers : ∀ i, i ≠ slot → (r'.entry i).map face = (r.entry i).map face)
    (hself : ∀ e, r'.entry slot = some e → Timely r.revisitInterval now e) : Punctual now r' := by
  intro i e he
  rw [hinterval]
  exact forall_entry_update h hothers (fun x e hx hface => hx.congr hface ht) hself i e he

/-- A property of the entries carries over a rewritten entry if it does not look at the links, and if the new
entry has it however it is scheduled. -/
lemma Rewritten.forall_entry {P Q : ResponsiveEntry → Prop} (hr : Rewritten r slot e' due now r')
    (hold : ∀ i e, r.entry i = some e → P e) (hcongr : ∀ x e, P x → face e = face x → Q e)
    (hself : ∀ x, core x = core e' → (x.ready = true → due ≤ now) →
      (∀ key, x.revisitKey = some key → key.dueAt = due) → Q x) :
    ∀ i e, r'.entry i = some e → Q e := by
  obtain ⟨e, he, _⟩ := hr.entry
  obtain ⟨p, hp, hready, hkey⟩ := hr.enqueued.replanned
  have hentry : ∀ i, (r.setEntry slot e').entry i = if i = slot then some e' else r.entry i :=
    entry_setEntry (lt_of_entry he) e'
  refine forall_entry_update hold (fun i (hi : i ≠ slot) => ?_) hcongr fun x hx => ?_
  · rw [hp.face hi, hentry, if_neg hi]
  · obtain ⟨y, hy, hcore⟩ := hp.rescheduled.entry ((hentry slot).trans (if_pos rfl))
    have hplan := hp.self
    rw [hx] at hy hplan
    cases hy
    cases some.inj hplan
    exact hself x hcore hready hkey

lemma Replanned.timely {p : Bool × Option RevisitKey} (hr : Replanned r slot p r') (he : r.entry slot = some e)
    (hcalm : e.failures = 0 → e.blockedUntil = none) (hready : p.1 = true → ripeAt interval e ≤ now)
    (hkey : ∀ key, p.2 = some key → ripeAt interval e ≤ key.dueAt) :
    ∀ x, r'.entry slot = some x → Timely interval now x := by
  intro x hx
  obtain ⟨y, hy, hcore⟩ := hr.rescheduled.entry he
  have hplan := hr.self
  rw [hx] at hy hplan
  cases hy
  cases some.inj hplan
  exact timely_of_core hcore hcalm hready hkey

lemma Rewritten.punctual (h : Punctual t r) (ht : t ≤ now)
    (hr : Rewritten r slot e' due now r') (hdue : ripeAt r.revisitInterval e' ≤ due)
    (hcalm : e'.failures = 0 → e'.blockedUntil = none) : Punctual now r' := by
  intro i e he
  have hinterval : r'.revisitInterval = r.revisitInterval := hr.enqueued.rescheduled.revisitInterval
  rw [hinterval]
  refine hr.forall_entry h (fun x y hx hface => hx.congr hface ht) (fun x hcore hready hkey => ?_) i e he
  exact timely_of_core hcore hcalm (fun hx => hdue.trans (hready hx)) fun key hx => hdue.trans (hkey key hx).ge

/-! ### Operations -/

lemma Updated.punctual {f : ResponsiveEntry → ResponsiveEntry} {when : ResponsiveEntry → Instant}
    (h : Punctual t r) (ht : t ≤ now) (hr : Updated r addr f when now r')
    (hdue : ∀ e, (f e).lastProbeAt + r.revisitInterval ≤ when e)
    (hhealth : ∀ e, healthOf (f e) = healthOf e) : Punctual now r' := by
  unfold Updated at hr
  split at hr
  · rw [hr]
    exact fun i e he => (h i e he).congr rfl ht
  · obtain ⟨e, he, _, hr⟩ := hr
    have hfailures : (f e).failures = e.failures := congrArg Health.failures (hhealth e)
    have hblocked : (f e).blockedUntil = e.blockedUntil := congrArg Health.blockedUntil (hhealth e)
    refine hr.punctual h ht (ripeAt_le_due (hdue e)) ?_
    rw [hfailures, hblocked]
    exact (h _ e he).calm

lemma Judged.punctual {dispatchedAt : Instant} {x : ResponsiveReservoir × Bool} (h : Punctual t r)
    (ht : t ≤ now) (hr : Judged r addr dispatchedAt now x) : Punctual now x.1 := by
  have hsame : Punctual now r := fun i e he => (h i e he).congr rfl ht
  unfold Judged at hr
  split at hr
  · rw [hr]
    exact hsame
  · obtain ⟨e, he, _, hr⟩ := hr
    split_ifs at hr
    · rw [hr]
      exact hsame
    · obtain ⟨_, blocked, _, hr⟩ := hr
      refine hr.punctual h ht (ripeAt_le_due (le_max_left _ _)) fun hzero => ?_
      have hpositive : 0 < (failedEntry e now).failures := Nat.lt_min.mpr ⟨Nat.succ_pos _, by decide⟩
      exact absurd hzero hpositive.ne'

lemma repliedEntry_healthy (r : ResponsiveReservoir) (node : NodeTuple) (now : Instant)
    (hcalm : e.failures = 0 → e.blockedUntil = none) :
    (r.repliedEntry e node now).lastProbeAt = e.lastProbeAt ∧ (r.repliedEntry e node now).failures = 0 ∧
      (r.repliedEntry e node now).blockedUntil = none := by
  unfold repliedEntry
  dsimp only
  split_ifs with hfail
  · exact ⟨rfl, rfl, rfl⟩
  · have hzero : e.failures = 0 := Nat.eq_zero_of_not_pos hfail
    exact ⟨rfl, hzero, hcalm hzero⟩

lemma Recorded.punctual {probedAt : Instant} (h : Punctual t r) (ht : t ≤ now)
    (hr : Recorded node now probedAt r r') : Punctual now r' := by
  unfold Recorded at hr
  split at hr
  · obtain ⟨x, hx, hcore, hready, hkey⟩ := hr.self
    have hripe : ripeAt r.revisitInterval (r.freshEntry node now probedAt) = probedAt + r.revisitInterval := rfl
    refine h.update ht hr.interval hr.faces fun y hy => ?_
    rw [hx] at hy
    cases hy
    refine timely_of_core (e := r.freshEntry node now probedAt) hcore (fun _ => rfl) ?_ ?_
    · rw [hripe]
      exact hready
    · rw [hripe]
      exact fun key hx => (hkey key hx).ge
  · rename_i slot _
    obtain ⟨e, he, _, hr⟩ := hr
    have hcalm := (h _ e he).calm
    obtain ⟨hprobe, hfailures, hblocked⟩ := r.repliedEntry_healthy node now hcalm
    split_ifs at hr with hfail
    · exact hr.punctual h ht (ripeAt_le_due (by rw [hprobe])) fun _ => hblocked
    · have hzero : e.failures = 0 := Nat.eq_zero_of_not_pos hfail
      have hentry : ∀ i, r'.entry i = if i = slot then some (r.repliedEntry e node now) else r.entry i := by
        rw [hr]
        exact entry_setEntry (lt_of_entry he) _
      have hripe : ripeAt r.revisitInterval (r.repliedEntry e node now) = ripeAt r.revisitInterval e :=
        ripeAt_congr hprobe (hblocked.trans (hcalm hzero).symm)
      obtain ⟨_, hplan, _⟩ := r.repliedEntry_same e node now
      obtain ⟨hready, hkey⟩ := Prod.mk.inj hplan
      refine h.update ht (hr ▸ rfl) (fun i (hi : i ≠ slot) => ?_) fun x hx => ?_
      · rw [hentry, if_neg hi]
      · rw [hentry, if_pos rfl] at hx
        cases hx
        refine ⟨fun hx => ?_, fun key hx => ?_, fun _ => hblocked⟩
        · rw [hripe]
          exact ((h slot e he).ready (hready ▸ hx)).trans ht
        · rw [hripe]
          exact (h slot e he).waiting key (hkey ▸ hx)

lemma Promoted.punctual (hinv : Inv reserved r) (h : Punctual now r) (hr : Promoted now r r') :
    Punctual now r' := by
  obtain ⟨key, hmem, hdue, hr⟩ := hr
  obtain ⟨e, he, hkey⟩ := (hinv.keyed key).mp hmem
  have htimely := h key.slot e he
  exact h.update (le_refl now) hr.rescheduled.revisitInterval (fun i hi => hr.face hi)
    (hr.timely he htimely.calm (fun _ => (htimely.waiting key hkey).trans hdue) nofun)

lemma Cleared.punctual (h : Punctual now r) (hr : Cleared r slot r') : Punctual now r' :=
  h.update (le_refl now) hr.interval hr.others fun e he => by
    rw [hr.self] at he
    cases he

def member (r : ResponsiveReservoir) (addr : SocketAddr) : Option ResponsiveEntry :=
  (r.index.get addr).bind r.entry

lemma member_eq (h : Inv reserved r) (he : r.entry slot = some e) : r.member e.node.addr = some e := by
  unfold member
  rw [h.index_of_entry he, bind_some, he]

structure Eligible (interval : Duration) (now : Instant) (e : ResponsiveEntry) : Prop where
  alive : now < e.expiresAt
  unblocked : ∀ blocked, e.blockedUntil = some blocked → blocked ≤ now
  cooled : e.lastProbeAt + interval ≤ now

lemma Inv.nextRevisit_eligible (hinv : Inv reserved r) (h : Punctual t r) (ht : t ≤ now) :
    Except.Sure (r.nextRevisit now) fun x =>
      (∃ reserved', Inv reserved' x.1) ∧ Punctual now x.1 ∧ x.1.revisitInterval = r.revisitInterval ∧
        ∀ node, x.2 = some node →
          ∃ e, x.1.member node.addr = some e ∧ e.node = node ∧ Eligible r.revisitInterval now e := by
  have hkeeps := hinv.nextRevisit_keeps now
    (P := fun r₁ => Punctual now r₁ ∧ r₁.revisitInterval = r.revisitInterval)
    ⟨fun i e he => (h i e he).congr rfl ht, rfl⟩
    (fun r₁ r₂ hinv₁ h₁ hr => ⟨hr.punctual hinv₁ h₁.1, ?_⟩)
    fun r₁ slot r₂ h₁ hr => ⟨hr.punctual h₁.1, hr.interval.trans h₁.2⟩
  · refine hkeeps.mono fun x hx => ?_
    rcases hx with ⟨hnone, hinv', h', hinterval⟩ | ⟨node, r₁, slot, _, hnode, h₁, hinv', htaken⟩
    · refine ⟨⟨_, hinv'⟩, h', hinterval, fun node hnode => ?_⟩
      rw [hnone] at hnode
      cases hnode
    · obtain ⟨⟨e, he, hready, halive, hen⟩, hr⟩ := htaken
      obtain ⟨hpunctual, hinterval⟩ := h₁
      have htimely := hpunctual slot e he
      refine ⟨⟨_, hinv'⟩, ?_, hr.rescheduled.revisitInterval.trans hinterval, fun node' hnode' => ?_⟩
      · exact hpunctual.update (le_refl now) hr.rescheduled.revisitInterval (fun i hi => hr.face hi)
          (hr.timely he htimely.calm nofun nofun)
      · rw [hnode] at hnode'
        cases hnode'
        obtain ⟨x', hx', hcore⟩ := hr.rescheduled.entry he
        have hnode : x'.node = node := (congrArg ResponsiveEntry.node hcore :).trans hen
        have hripe := htimely.ready hready
        rw [hinterval] at hripe
        refine ⟨x', hnode ▸ member_eq hinv' hx', hnode, ?_, fun blocked hblocked => ?_, ?_⟩
        · rw [show x'.expiresAt = e.expiresAt from (congrArg ResponsiveEntry.expiresAt hcore :)]
          exact halive
        · rw [show x'.blockedUntil = e.blockedUntil
            from (congrArg ResponsiveEntry.blockedUntil hcore :)] at hblocked
          exact (blocked_le_ripeAt hblocked).trans hripe
        · rw [show x'.lastProbeAt = e.lastProbeAt from (congrArg ResponsiveEntry.lastProbeAt hcore :)]
          exact (le_ripeAt _ _).trans hripe
  · obtain ⟨_, _, _, hr⟩ := hr
    exact hr.rescheduled.revisitInterval.trans h₁.2

/-! ### Sequences of operations -/

inductive Op where
  | record (node : NodeTuple) (probedAt : Instant)
  | nextRevisit
  | recordProbe (addr : SocketAddr)
  | deferRevisit (addr : SocketAddr) (retryAt : Instant)
  | recordFailure (addr : SocketAddr) (dispatchedAt : Instant)
  | snapshot (limit : ℕ)

def Op.Possible (now : Instant) : Op → Prop
  | .record _ probedAt => probedAt ≤ now
  | _ => True

def Op.apply (now : Instant) (r : ResponsiveReservoir) : Op → Except Panic ResponsiveReservoir
  | .record node probedAt => r.record node now probedAt
  | .nextRevisit => do .ok (← r.nextRevisit now).1
  | .recordProbe addr => r.recordProbe addr now
  | .deferRevisit addr retryAt => r.deferRevisit addr retryAt now
  | .recordFailure addr dispatchedAt => do .ok (← r.recordFailure addr dispatchedAt now).1
  | .snapshot limit => do .ok (← r.snapshot limit now).1

inductive Reached (capacity : ℕ) (ttl interval : Duration) : Instant → ResponsiveReservoir → Prop where
  | start (t : Instant) : Reached capacity ttl interval t (new capacity ttl interval)
  | step {t now : Instant} {r r' : ResponsiveReservoir} (op : Op) (h : Reached capacity ttl interval t r)
      (hnow : t ≤ now) (hop : op.Possible now) (hrun : op.apply now r = .ok r') :
      Reached capacity ttl interval now r'

structure Kempt (interval : Duration) (t : Instant) (r : ResponsiveReservoir) : Prop where
  inv : ∃ reserved, Inv reserved r
  punctual : Punctual t r
  interval : r.revisitInterval = interval

lemma kempt_new (capacity : ℕ) (ttl interval : Duration) (t : Instant) :
    Kempt interval t (new capacity ttl interval) := by
  refine ⟨⟨∅, inv_new _ _ _⟩, fun i e he => ?_, rfl⟩
  unfold ResponsiveReservoir.entry new at he
  rw [List.getElem?_replicate] at he
  split_ifs at he <;> cases he

lemma Kempt.apply (h : Kempt interval t r) (ht : t ≤ now) (op : Op) :
    Except.Sure (op.apply now r) (Kempt interval now) := by
  obtain ⟨⟨reserved, hinv⟩, hpunctual, hinterval⟩ := h
  cases op with
  | record node probedAt =>
    refine (hinv.record node now probedAt).mono fun r' ⟨⟨reserved', _, hinv'⟩, hr⟩ =>
      ⟨⟨reserved', hinv'⟩, hr.punctual hpunctual ht, ?_⟩
    exact (hr.answered hinv).interval.trans hinterval
  | nextRevisit =>
    exact (hinv.nextRevisit_eligible hpunctual ht).bind fun x ⟨hinv', h', hsame, _⟩ =>
      ⟨hinv', h', hsame.trans hinterval⟩
  | recordProbe addr =>
    refine (hinv.recordProbe addr now).mono fun r' ⟨hinv', hr⟩ =>
      ⟨⟨_, hinv'⟩, hr.punctual hpunctual ht (fun _ => le_refl _) fun _ => rfl, ?_⟩
    exact (hr.kept hinv fun _ => rfl).interval.trans hinterval
  | deferRevisit addr retryAt =>
    refine (hinv.deferRevisit addr retryAt now).mono fun r' ⟨hinv', hr⟩ =>
      ⟨⟨_, hinv'⟩, hr.punctual hpunctual ht (fun _ => le_max_right _ _) fun _ => rfl, ?_⟩
    exact (hr.kept hinv fun _ => rfl).interval.trans hinterval
  | recordFailure addr dispatchedAt =>
    exact (hinv.recordFailure addr dispatchedAt now).bind fun x ⟨⟨reserved', _, hinv'⟩, hr⟩ =>
      ⟨⟨reserved', hinv'⟩, hr.punctual hpunctual ht, (hr.failed hinv).interval.trans hinterval⟩
  | snapshot limit =>
    refine (hinv.snapshot limit now).bind fun x ⟨hinv', hkept, hentry⟩ =>
      ⟨⟨reserved, hinv'⟩, fun i e he => ?_, hkept.interval.trans hinterval⟩
    rw [hentry] at he
    rw [hkept.interval]
    exact (hpunctual i e he).congr rfl ht

lemma Reached.kempt {capacity : ℕ} {ttl : Duration} (h : Reached capacity ttl interval t r) :
    Kempt interval t r := by
  induction h with
  | start t => exact kempt_new _ _ _ _
  | step op _ hnow _ hrun ih => exact (ih.apply hnow op).of_ok hrun

lemma entry_of_member (h : Inv reserved r) (he : r.member addr = some e) :
    ∃ slot, r.index.get addr = some slot ∧ r.entry slot = some e ∧ e.node.addr = addr := by
  obtain ⟨slot, hslot, he⟩ := bind_eq_some_iff.mp he
  obtain ⟨x, hx, haddr⟩ := h.entry_of_index hslot
  rw [he] at hx
  cases hx
  exact ⟨slot, hslot, he, haddr⟩

lemma Rewritten.member (hr : Rewritten r slot e' due now r')
    (hslot : r.index.get addr = some slot) : ∃ x, r'.member addr = some x ∧ core x = core e' := by
  obtain ⟨e, he, _⟩ := hr.entry
  have hself : (r.setEntry slot e').entry slot = some e' := by
    rw [entry_setEntry (lt_of_entry he), if_pos rfl]
  obtain ⟨x, hx, hcore⟩ := hr.enqueued.rescheduled.entry hself
  refine ⟨x, ?_, hcore⟩
  unfold ResponsiveReservoir.member
  rw [hr.enqueued.rescheduled.index]
  show (r.index.get addr).bind r'.entry = some x
  rw [hslot, bind_some, hx]

lemma Kempt.record_member (h : Kempt interval t r) (now probedAt : Instant)
    (he : r.member node.addr = some e) :
    ∃ r' e', r.record node now probedAt = .ok r' ∧ r'.member node.addr = some e' ∧
      e'.lastProbeAt = e.lastProbeAt ∧ e'.failures = 0 ∧ e'.blockedUntil = none := by
  obtain ⟨reserved, hinv⟩ := h.inv
  obtain ⟨slot, hslot, hentry, _⟩ := entry_of_member hinv he
  obtain ⟨r', hrun, _, hr⟩ := (hinv.record node now probedAt).exists
  have hhealthy := r.repliedEntry_healthy node now (h.punctual slot e hentry).calm
  unfold Recorded at hr
  rw [hslot] at hr
  obtain ⟨x, hx, _, hr⟩ := hr
  rw [hentry] at hx
  cases hx
  suffices hmember : ∃ e', r'.member node.addr = some e' ∧ core e' = core (r.repliedEntry e node now) by
    obtain ⟨e', he', hcore⟩ := hmember
    refine ⟨r', e', hrun, he', ?_, ?_, ?_⟩
    · exact (congrArg ResponsiveEntry.lastProbeAt hcore :).trans hhealthy.1
    · exact (congrArg ResponsiveEntry.failures hcore :).trans hhealthy.2.1
    · exact (congrArg ResponsiveEntry.blockedUntil hcore :).trans hhealthy.2.2
  split_ifs at hr
  · exact hr.member hslot
  · refine ⟨_, ?_, rfl⟩
    rw [hr]
    unfold ResponsiveReservoir.member
    show (r.index.get node.addr).bind _ = _
    rw [hslot, bind_some, entry_setEntry (lt_of_entry hentry), if_pos rfl]

lemma Kempt.failure_member (h : Kempt interval t r) (dispatchedAt now : Instant) (he : r.member addr = some e) :
    if e.lastSuccessAt > dispatchedAt then r.recordFailure addr dispatchedAt now = .ok (r, false)
    else ∃ r' e', r.recordFailure addr dispatchedAt now = .ok (r', true) ∧ r'.member addr = some e' ∧
      e'.failures = min (e.failures + 1) 5 ∧
        e'.blockedUntil = some (now + secs (min (5 * 2 ^ (e'.failures - 1)) 60)) := by
  obtain ⟨reserved, hinv⟩ := h.inv
  obtain ⟨slot, hslot, hentry, _⟩ := entry_of_member hinv he
  obtain ⟨⟨r', accepted⟩, hrun, _, hr⟩ := (hinv.recordFailure addr dispatchedAt now).exists
  unfold Judged at hr
  rw [hslot] at hr
  obtain ⟨x, hx, _, hr⟩ := hr
  rw [hentry] at hx
  cases hx
  split_ifs at hr ⊢
  · rw [hrun, hr]
  · obtain ⟨haccepted, blocked, _, hr⟩ := hr
    obtain ⟨e', he', hcore⟩ := hr.member hslot
    have hfailures : e'.failures = min (e.failures + 1) 5 := (congrArg ResponsiveEntry.failures hcore :)
    refine ⟨r', e', ?_, he', hfailures, ?_⟩
    · rw [hrun]
      exact congrArg (fun b => Except.ok (r', b)) haccepted
    · rw [hfailures]
      exact (congrArg ResponsiveEntry.blockedUntil hcore :)

/-- After any sequence of operations every operation returns, and `next_revisit` hands out eligible nodes only.
-/
theorem revisit_eligible {capacity : ℕ} {ttl : Duration} (h : Reached capacity ttl interval t r)
    (hnow : t ≤ now) :
    (∀ op : Op, ∃ r', op.apply now r = .ok r') ∧
    (∀ r' node, r.nextRevisit now = .ok (r', some node) →
      ∃ e, r'.member node.addr = some e ∧ e.node = node ∧ now < e.expiresAt ∧
        (∀ blocked, e.blockedUntil = some blocked → blocked ≤ now) ∧ e.lastProbeAt + interval ≤ now) ∧
    (∀ node probedAt e, r.member node.addr = some e →
      ∃ r' e', r.record node now probedAt = .ok r' ∧ r'.member node.addr = some e' ∧
        e'.lastProbeAt = e.lastProbeAt ∧ e'.failures = 0 ∧ e'.blockedUntil = none) ∧
    ∀ addr dispatchedAt e, r.member addr = some e →
      if e.lastSuccessAt > dispatchedAt then r.recordFailure addr dispatchedAt now = .ok (r, false)
      else ∃ r' e', r.recordFailure addr dispatchedAt now = .ok (r', true) ∧ r'.member addr = some e' ∧
        e'.failures = min (e.failures + 1) 5 ∧
          e'.blockedUntil = some (now + secs (min (5 * 2 ^ (e'.failures - 1)) 60)) := by
  have hkempt := h.kempt
  refine ⟨fun op => ?_, fun r' node hrun => ?_, fun node probedAt e he => ?_, fun addr dispatchedAt e he => ?_⟩
  · obtain ⟨r', hrun, _⟩ := (hkempt.apply hnow op).exists
    exact ⟨r', hrun⟩
  · obtain ⟨reserved, hinv⟩ := hkempt.inv
    obtain ⟨_, _, _, heligible⟩ := (hinv.nextRevisit_eligible hkempt.punctual hnow).of_ok hrun
    obtain ⟨e, he, hnode, halive, hunblocked, hcooled⟩ := heligible node rfl
    rw [hkempt.interval] at hcooled
    exact ⟨e, he, hnode, halive, hunblocked, hcooled⟩
  · exact hkempt.record_member now probedAt he
  · exact hkempt.failure_member dispatchedAt now he

theorem revisit_eligible_cooled :
    ∃ r r' e, Reached 4 (secs 90) (secs 10) (secs 1) r ∧
      r.nextRevisit (secs 10) = .ok (r', some ⟨.replicate 20 1, .v4 #v[8, 8, 8, 1] 6881⟩) ∧
      r'.member (.v4 #v[8, 8, 8, 1] 6881) = some e ∧ secs 10 < e.expiresAt ∧
      e.lastProbeAt + secs 10 ≤ secs 10 := by
  have htest : ((new 4 (secs 90) (secs 10)).record ⟨.replicate 20 1, .v4 #v[8, 8, 8, 1] 6881⟩ (secs 1) 0).isOkAnd
      (fun r => (r.nextRevisit (secs 10)).isOkAnd fun x =>
        decide (x.2 = some ⟨.replicate 20 1, .v4 #v[8, 8, 8, 1] 6881⟩)) = true := by
    decide +kernel
  obtain ⟨r, hrecord, htest⟩ := Except.isOkAnd_eq_true.mp htest
  obtain ⟨⟨r', found⟩, hrun, hfound⟩ := Except.isOkAnd_eq_true.mp htest
  cases of_decide_eq_true hfound
  have hreached : Reached 4 (secs 90) (secs 10) (secs 1) r :=
    .step (.record ⟨.replicate 20 1, .v4 #v[8, 8, 8, 1] 6881⟩ 0) (.start 0) (Nat.zero_le _) (Nat.zero_le _) hrecord
  obtain ⟨_, heligible, _⟩ := revisit_eligible hreached (show secs 1 ≤ secs 10 by decide)
  obtain ⟨e, he, _, halive, _, hcooled⟩ := heligible r' _ hrun
  exact ⟨r, r', e, hreached, hrun, he, halive, hcooled⟩

end DhtCrawler.ResponsiveReservoir
