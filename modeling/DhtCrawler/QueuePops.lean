import DhtCrawler.QueueEntries

/-! What `pop_newest_ready` hands out, over a whole run of the queue with a clock that never goes back. -/

namespace DhtCrawler

open FiniteMap Bool Except Option

variable {e : QueuedHash} {op : QueueOp}

def QueuedHash.isDue (e : QueuedHash) (now : Instant) : Bool := e.readyAt ≤ now && now ≤ e.expiresAt

lemma QueuedHash.isDue_iff {now : Instant} :
    e.isDue now = true ↔ e.readyAt ≤ now ∧ now ≤ e.expiresAt := by
  rw [QueuedHash.isDue, and_eq_true, decide_eq_true_iff, decide_eq_true_iff]

structure PopRecord where
  retryDue : Bool
  entry : QueuedHash

variable {pops : List PopRecord}

def freshRun (log : List PopRecord) : ℕ := (log.takeWhile fun pop => !pop.entry.isRetry).length

namespace PendingHashQueue

variable {capacity n : ℕ} {q q' : PendingHashQueue} {now t : Instant} {ttl : Duration} {log : List PopRecord}

def retryDue (q : PendingHashQueue) (now : Instant) : Bool :=
  decide (q.entries.count (fun e => e.isRetry && e.isDue now) ≠ 0)

lemma retryDue_iff : q.retryDue now = true ↔
    ∃ h e, q.entries.get h = some e ∧ e.isRetry = true ∧ e.isDue now = true := by
  rw [retryDue, decide_eq_true_iff, Ne, count_eq_zero]
  simp only [not_forall, not_eq_false, and_eq_true, exists_prop]

/-- `q` is reached by calls whose clock readings never go back, the last one `t`; `log` has the successful pops,
the latest first, and `n` is the number of inserts. -/
inductive Timed (capacity : ℕ) (ttl : Duration) :
    ℕ → Instant → List PopRecord → PendingHashQueue → Prop where
  | new (t : Instant) : Timed capacity ttl 0 t [] (new capacity ttl)
  | call {n k t log q q'} (op : QueueOp)
      (hq : Timed capacity ttl n t log q) (hnow : ∀ now, op.now? = some now → t ≤ now)
      (hpop : ∀ now, op ≠ .popNewestReady now) (hop : q.call op = .ok (q', k)) :
      Timed capacity ttl (n + k) (op.now?.getD t) log q'
  | pop {n t now log q q' found}
      (hq : Timed capacity ttl n t log q) (hnow : t ≤ now) (hpop : q.popNewestReady now = .ok (q', found)) :
      Timed capacity ttl n now ((found.map (PopRecord.mk (q.retryDue now))).toList ++ log) q'

lemma Timed.push (hr : Timed capacity ttl n t log q) (hnow : t ≤ now) {event : HashDiscovered}
    {kind : QueuePushKind} (hpush : q.push event now = .ok (q', kind)) :
    Timed capacity ttl (n + pushInserts kind) now log q' := by
  refine Timed.call (.push event now) hr (fun now' hop => ?_) (fun _ hop => nomatch hop) ?_
  · cases hop
    exact hnow
  · rw [PendingHashQueue.call, hpush]
    rfl

lemma Timed.reached (hr : Timed capacity ttl n t log q) : Reached capacity ttl n q := by
  induction hr with
  | new t => exact .new
  | call op _ _ _ hop ih => exact ih.call op hop
  | @pop n t now log q q' found _ _ hpop ih =>
    refine ih.call (.popNewestReady now) (k := 0) ?_
    rw [PendingHashQueue.call, hpop]
    rfl

/-! ### One pop -/

/-- What a pop at `now` does, in terms of the entries that are due. -/
inductive Pops (q : PendingHashQueue) (now : Instant) (q' : PendingHashQueue) : Option QueuedHash → Prop where
  | nothing (hnone : ∀ h e, q.entries.get h = some e → e.isDue now = false)
      (hcount : q'.freshDispatches = min (q.freshDispatches + 1) 255) : Pops q now q' none
  | retry {h e} (he : q.entries.get h = some e) (hdue : e.isDue now = true)
      (hretry : e.isRetry = true)
      (hleast : ∀ h' e', q.entries.get h' = some e' → e'.isDue now = true → e'.isRetry = true →
        e.readyKey ≤ e'.readyKey)
      (hcount : q'.freshDispatches = 0) : Pops q now q' (some { e with ready := true })
  | fresh {h e} (he : q.entries.get h = some e) (hdue : e.isDue now = true)
      (hfresh : e.isRetry = false)
      (hgreatest : ∀ h' e', q.entries.get h' = some e' → e'.isDue now = true → e'.isRetry = false →
        e'.orderKey ≤ e.orderKey)
      (hturn : q.freshDispatches < 3 ∨ q.retryDue now = false)
      (hcount : q'.freshDispatches = min (q.freshDispatches + 1) 255) :
      Pops q now q' (some { e with ready := true })

lemma ready_iff_due (hmarks : ∀ h e, q.entries.get h = some e → e.ready = true → e.readyAt ≤ now)
    (hentries : ∀ h, q'.entries.get h = ((q.entries.get h).filter fun e => now ≤ e.expiresAt).map fun e => { e with ready := e.ready || decide (e.readyAt ≤ now) })
    (h : String) (e' : QueuedHash) :
    q'.entries.get h = some e' ∧ e'.ready = true ↔
      ∃ e, q.entries.get h = some e ∧ e.isDue now = true ∧ e' = { e with ready := true } := by
  rw [hentries h]
  simp only [map_eq_some_iff, filter_eq_some_iff, decide_eq_true_iff, QueuedHash.isDue_iff]
  constructor
  · rintro ⟨⟨e, ⟨he, hlive⟩, rfl⟩, hready⟩
    rw [or_eq_true, decide_eq_true_iff] at hready
    have hdue : e.readyAt ≤ now := hready.elim (hmarks h e he) id
    refine ⟨e, he, ⟨hdue, hlive⟩, ?_⟩
    rw [decide_eq_true hdue, Bool.or_true]
  · rintro ⟨e, he, ⟨hdue, hlive⟩, rfl⟩
    refine ⟨⟨e, ⟨he, hlive⟩, ?_⟩, rfl⟩
    rw [decide_eq_true hdue, Bool.or_true]

lemma Inv.popNewestReady_pops (hq : Inv capacity n q)
    (hmarks : ∀ h e, q.entries.get h = some e → e.ready = true → e.readyAt ≤ now) :
    Safe (fun _ => False) (q.popNewestReady now) fun r => Pops q now r.1 r.2 := by
  have hexpire := hq.expire now
  obtain ⟨ready, hok, ⟨hinv, -⟩, hentries⟩ :=
    ((hexpire.promoteReady now).and (hexpire.promoteReady_entries now)).exists
  have hcounter : ready.freshDispatches = q.freshDispatches :=
    (of_registers (((promoteReady_registers _ now).of_ok hok).trans (expire_registers q now))).2.2
  have hdue := ready_iff_due hmarks fun h => (hentries h).trans (by rw [hq.expire_entries])
  have hreadied : ∀ h e, q.entries.get h = some e → e.isDue now = true →
      ready.entries.get h = some { e with ready := true } :=
    fun h e he hd => ((hdue h _).mpr ⟨e, he, hd, rfl⟩).1
  unfold PendingHashQueue.popNewestReady
  rw [hok, ok_bind, safe_ok]
  have hchosen := hinv.popChoice_chosen
  generalize ready.popChoice = r at hchosen ⊢
  obtain ⟨q', found⟩ := r
  dsimp only at hchosen ⊢
  cases hchosen with
  | nothing hnone =>
    refine .nothing (fun h e he => eq_false_iff.mpr fun hd => ?_) (by rw [hcounter])
    have hwaits : true = false := hnone h _ (hreadied h e he hd)
    cases hwaits
  | @retry h e' he' hready hretry hleast =>
    obtain ⟨e, he, hd, rfl⟩ := (hdue h e').mp ⟨he', hready⟩
    refine .retry he hd hretry (fun h' e' he' hd' hretry' => ?_) ?_
    · have hle := hleast h' _ (hreadied h' e' he' hd') rfl hretry'
      exact hle
    · exact (of_registers (remove_registers { ready with freshDispatches := 0 } h)).2.2
  | @fresh h e' he' hready hfresh hgreatest hturn =>
    obtain ⟨e, he, hd, rfl⟩ := (hdue h e').mp ⟨he', hready⟩
    refine .fresh he hd hfresh (fun h' e' he' hd' hfresh' => ?_) ?_ ?_
    · have hle := hgreatest h' _ (hreadied h' e' he' hd') rfl hfresh'
      exact hle
    · rw [hcounter] at hturn
      refine hturn.imp id fun hnone => eq_false_iff.mpr fun hretry => ?_
      obtain ⟨h', e', he', hretry', hd'⟩ := retryDue_iff.mp hretry
      have hfresh' := hnone h' _ (hreadied h' e' he' hd') rfl
      exact absurd hretry' (eq_false_iff.mp hfresh')
    · rw [← hcounter]
      exact (of_registers (remove_registers
        { ready with freshDispatches := min (ready.freshDispatches + 1) 255 } h)).2.2

/-! ### Runs -/

structure Orderly (t : Instant) (log : List PopRecord) (q : PendingHashQueue) : Prop where
  marks : ∀ h e, q.entries.get h = some e → e.ready = true → e.readyAt ≤ t
  counter : min 3 (freshRun log) ≤ q.freshDispatches
  fair : ∀ newer pop older, log = newer ++ pop :: older → pop.retryDue = true → pop.entry.isRetry = false →
    freshRun older < 3

lemma Stems.marks {h : String} (hs : Stems q op h e)
    (hmarks : ∀ h e, q.entries.get h = some e → e.ready = true → e.readyAt ≤ t)
    (hnow : ∀ now, op.now? = some now → t ≤ now) (hready : e.ready = true) : e.readyAt ≤ op.now?.getD t := by
  have hle : t ≤ op.now?.getD t := by
    cases hop : op.now? with
    | none => exact le_rfl
    | some now => exact hnow now hop
  cases hs with
  | kept he => exact (hmarks h e he hready).trans hle
  | @promoted e now he hop hdue =>
    rw [hop]
    exact hdue
  | pushed event now orderKey => exact nomatch (show false = true from hready)
  | @updated old he event orderKey =>
    dsimp only at hready ⊢
    rw [updatedEntry_ready] at hready
    rw [updatedEntry_readyAt]
    exact (hmarks h old he hready).trans hle
  | deferred e record orderKey => exact nomatch (show false = true from hready)

lemma freshRun_cons (pop : PopRecord) (log : List PopRecord) :
    freshRun (pop :: log) = if pop.entry.isRetry then 0 else freshRun log + 1 := by
  unfold freshRun
  rw [List.takeWhile_cons]
  cases pop.entry.isRetry <;> rfl

lemma Orderly.fair_cons (ho : Orderly t log q) {pop : PopRecord}
    (hpop : pop.retryDue = true → pop.entry.isRetry = false → freshRun log < 3) :
    ∀ newer pop' older, pop :: log = newer ++ pop' :: older → pop'.retryDue = true →
      pop'.entry.isRetry = false → freshRun older < 3 := by
  intro newer pop' older hlog hdue hfresh
  cases newer with
  | nil =>
    cases hlog
    exact hpop hdue hfresh
  | cons first newer =>
    cases hlog
    exact ho.fair newer pop' older rfl hdue hfresh

lemma Timed.orderly (hr : Timed capacity ttl n t log q) (hn : n < 2 ^ 64) : Orderly t log q := by
  induction hr with
  | new t =>
    refine ⟨fun h e he => ?_, Nat.zero_le _, fun newer pop older hlog => ?_⟩
    · cases he
    · exact absurd hlog (by simp)
  | @call n k t log q q' op hq hnow hpop hop ih =>
    have horderly := ih (by omega)
    have hinv := hq.reached.inv (by omega)
    refine ⟨fun h e he hready => ?_, ?_, horderly.fair⟩
    · exact (hinv.call_stems hop he).marks horderly.marks hnow hready
    · rw [((call_frame q op).of_ok hop).2 hpop]
      exact horderly.counter
  | @pop n t now log q q' found hq hnow hpop ih =>
    have horderly := ih hn
    have hinv := hq.reached.inv hn
    have hpops := (hinv.popNewestReady_pops fun h e he hready =>
      (horderly.marks h e he hready).trans hnow).of_ok hpop
    have hcall : q.call (.popNewestReady now) = .ok (q', 0) := by
      rw [PendingHashQueue.call, hpop]
      rfl
    have hmarks : ∀ h e, q'.entries.get h = some e → e.ready = true → e.readyAt ≤ now := by
      intro h e he hready
      refine (hinv.call_stems hcall he).marks horderly.marks (fun now' hop => ?_) hready
      cases hop
      exact hnow
    have hcounter := horderly.counter
    cases hpops with
    | nothing hnone hcount =>
      refine ⟨hmarks, ?_, horderly.fair⟩
      rw [hcount]
      change min 3 (freshRun log) ≤ _
      omega
    | @retry h e he hdue hretry hleast hcount =>
      refine ⟨hmarks, ?_, horderly.fair_cons fun _ hfresh => ?_⟩
      · change min 3 (freshRun (_ :: log)) ≤ _
        rw [freshRun_cons, if_pos hretry]
        exact Nat.zero_le _
      · exact absurd hretry (eq_false_iff.mp hfresh)
    | @fresh h e he hdue hfresh hgreatest hturn hcount =>
      refine ⟨hmarks, ?_, horderly.fair_cons fun hretry _ => ?_⟩
      · change min 3 (freshRun (_ :: log)) ≤ _
        rw [freshRun_cons, if_neg (eq_false_iff.mp hfresh), hcount]
        omega
      · have hlt := hturn.resolve_right fun hnone => eq_false_iff.mp hnone hretry
        omega

lemma length_le_freshRun (hfresh : ∀ pop ∈ pops, pop.entry.isRetry = false)
    (older : List PopRecord) : pops.length ≤ freshRun (pops ++ older) := by
  induction pops with
  | nil => exact Nat.zero_le _
  | cons pop pops ih =>
    have hpop : ¬pop.entry.isRetry = true := eq_false_iff.mp (hfresh pop List.mem_cons_self)
    rw [List.cons_append, freshRun_cons, if_neg hpop, List.length_cons]
    exact Nat.succ_le_succ (ih fun p hp => hfresh p (List.mem_cons_of_mem _ hp))

lemma Orderly.retry_of_four (ho : Orderly t log q) {newer older : List PopRecord}
    (hlog : log = newer ++ pops ++ older) (hfour : pops.length = 4)
    (hdue : ∀ pop ∈ pops, pop.retryDue = true) : ∃ pop ∈ pops, pop.entry.isRetry = true := by
  by_contra hnone
  have hfresh : ∀ pop ∈ pops, pop.entry.isRetry = false :=
    fun pop hpop => eq_false_iff.mpr fun hretry => hnone ⟨pop, hpop, hretry⟩
  cases pops with
  | nil => cases hfour
  | cons pop pops =>
    rw [List.append_assoc, List.cons_append] at hlog
    have hfew := ho.fair newer pop (pops ++ older) hlog (hdue pop List.mem_cons_self)
      (hfresh pop List.mem_cons_self)
    have hmany := length_le_freshRun (fun p hp => hfresh p (List.mem_cons_of_mem _ hp)) older
    rw [List.length_cons] at hfour
    omega

/-- **Which entry a pop takes, and how long a retry waits.** -/
theorem pop_choice (hr : Timed capacity ttl n t log q) (hn : n < 2 ^ 64) :
    (∀ now, t ≤ now → ∃ q' found, q.popNewestReady now = .ok (q', found) ∧
      (∀ e, found = some e → (∃ h old, q.entries.get h = some old ∧ e = { old with ready := true }) ∧
        e.readyAt ≤ now ∧ now ≤ e.expiresAt ∧
        (e.isRetry = false → ∀ h' e', q.entries.get h' = some e' → e'.readyAt ≤ now → now ≤ e'.expiresAt →
          e'.isRetry = false → toLex (e'.latestAt, e'.sequence) ≤ toLex (e.latestAt, e.sequence)) ∧
        (e.isRetry = true → ∀ h' e', q.entries.get h' = some e' → e'.readyAt ≤ now → now ≤ e'.expiresAt →
          e'.isRetry = true → toLex (e.readyAt, e.sequence) ≤ toLex (e'.readyAt, e'.sequence))) ∧
      (found = none → ∀ h e, q.entries.get h = some e → ¬(e.readyAt ≤ now ∧ now ≤ e.expiresAt))) ∧
    ∀ newer pops older, log = newer ++ pops ++ older → pops.length = 4 → (∀ pop ∈ pops, pop.retryDue = true) →
      ∃ pop ∈ pops, pop.entry.isRetry = true := by
  have hinv := hr.reached.inv hn
  have horderly := hr.orderly hn
  refine ⟨fun now hnow => ?_, fun newer pops older hlog hfour hdue => horderly.retry_of_four hlog hfour hdue⟩
  obtain ⟨⟨q', found⟩, hok, hpops⟩ := (hinv.popNewestReady_pops fun h e he hready =>
    (horderly.marks h e he hready).trans hnow).exists
  dsimp only at hpops
  refine ⟨q', found, hok, ?_⟩
  cases hpops with
  | nothing hnone hcount =>
    refine ⟨fun e he => (nomatch he), fun _ h e he hdue => ?_⟩
    exact eq_false_iff.mp (hnone h e he) (QueuedHash.isDue_iff.mpr hdue)
  | @retry h e he hdue hretry hleast hcount =>
    refine ⟨fun e' he' => ?_, fun hnone => (nomatch hnone)⟩
    cases he'
    obtain ⟨hready, hlive⟩ := QueuedHash.isDue_iff.mp hdue
    refine ⟨⟨h, e, he, rfl⟩, hready, hlive, fun hfresh => ?_, fun _ h' e' he' hready' hlive' hretry' => ?_⟩
    · exact absurd hretry (eq_false_iff.mp hfresh)
    · exact hleast h' e' he' (QueuedHash.isDue_iff.mpr ⟨hready', hlive'⟩) hretry'
  | @fresh h e he hdue hfresh hgreatest hturn hcount =>
    refine ⟨fun e' he' => ?_, fun hnone => (nomatch hnone)⟩
    cases he'
    obtain ⟨hready, hlive⟩ := QueuedHash.isDue_iff.mp hdue
    refine ⟨⟨h, e, he, rfl⟩, hready, hlive, fun _ h' e' he' hready' hlive' hfresh' => ?_, fun hretry => ?_⟩
    · have hle := hgreatest h' e' he' (QueuedHash.isDue_iff.mpr ⟨hready', hlive'⟩) hfresh'
      rw [hinv.latest h' e' he', hinv.latest h e he] at hle
      exact hle
    · exact absurd hretry (eq_false_iff.mp hfresh)

/-! ### Runs by evaluation -/

structure Timeline where
  inserts : ℕ
  clock : Instant
  log : List PopRecord
  queue : PendingHashQueue

variable {s s' : Timeline}

namespace Timeline

def Possible (capacity : ℕ) (ttl : Duration) (s : Timeline) : Prop :=
  Timed capacity ttl s.inserts s.clock s.log s.queue

def step (s : Timeline) : QueueOp → Except Panic Timeline
  | .popNewestReady now => do
      let (queue, found) ← s.queue.popNewestReady now
      .ok ⟨s.inserts, now, (found.map (PopRecord.mk (s.queue.retryDue now))).toList ++ s.log, queue⟩
  | op => do
      let (queue, k) ← s.queue.call op
      .ok ⟨s.inserts + k, op.now?.getD s.clock, s.log, queue⟩

lemma Possible.step (hs : s.Possible capacity ttl)
    (hnow : ∀ now, op.now? = some now → s.clock ≤ now) (h : s.step op = .ok s') : s'.Possible capacity ttl := by
  have hother : (∀ now, op ≠ .popNewestReady now) →
      (s.queue.call op >>= fun r => .ok ⟨s.inserts + r.2, op.now?.getD s.clock, s.log, r.1⟩) = .ok s' →
        s'.Possible capacity ttl := by
    intro hpop hcall
    obtain ⟨⟨queue, k⟩, hop, hok⟩ := bind_eq_ok.mp hcall
    cases hok
    exact Timed.call op hs hnow hpop hop
  cases op with
  | popNewestReady now =>
    obtain ⟨⟨queue, found⟩, hpop, hok⟩ := bind_eq_ok.mp h
    cases hok
    exact Timed.pop hs (hnow now rfl) hpop
  | push event now => exact hother (fun _ hop => nomatch hop) h
  | defer entry record => exact hother (fun _ hop => nomatch hop) h
  | remove hash => exact hother (fun _ hop => nomatch hop) h
  | promoteReady now => exact hother (fun _ hop => nomatch hop) h
  | expire now => exact hother (fun _ hop => nomatch hop) h

lemma step_clock (h : s.step op = .ok s') :
    s'.clock = op.now?.getD s.clock := by
  cases op <;>
  · obtain ⟨r, -, hok⟩ := bind_eq_ok.mp h
    cases hok
    rfl

lemma Possible.replay (hs : s.Possible capacity ttl) {ops : List QueueOp}
    (horder : (s.clock :: ops.filterMap QueueOp.now?).Pairwise (· ≤ ·)) (h : ops.foldlM Timeline.step s = .ok s') :
    s'.Possible capacity ttl := by
  induction ops generalizing s with
  | nil =>
    cases h
    exact hs
  | cons op ops ih =>
    rw [List.foldlM_cons] at h
    obtain ⟨next, hnext, hrest⟩ := bind_eq_ok.mp h
    have hclock := step_clock hnext
    cases hnow : op.now? with
    | none =>
      rw [hnow, getD_none] at hclock
      rw [List.filterMap_cons_none hnow] at horder
      exact ih (hs.step (fun now hsome => by rw [hnow] at hsome; cases hsome) hnext) (hclock ▸ horder) hrest
    | some now =>
      rw [hnow, getD_some] at hclock
      rw [List.filterMap_cons_some hnow, List.pairwise_cons] at horder
      refine ih (hs.step (fun now' hsome => ?_) hnext) (hclock ▸ horder.2) hrest
      rw [hnow] at hsome
      cases hsome
      exact horder.1 now List.mem_cons_self

end Timeline

def contended : List QueueOp :=
  [.push (exampleEvent "aa" none 0) 0, .push (exampleEvent "bb" none 0) 0, .push (exampleEvent "cc" none 0) 0, .push (exampleEvent "dd" none 0) 0,
    .defer ((new 8 hashQueueTtl).freshEntry (exampleEvent "ee" none 0) 0) ⟨1, 0, secs 100, 0⟩]

def fourPops : List QueueOp := List.replicate 4 (.popNewestReady (secs 1))

theorem pop_choice_four :
    ∃ n log q, Timed 8 hashQueueTtl n (secs 1) log q ∧ log.length = 4 ∧
      (∃ pop ∈ log, pop.entry.isRetry = true) ∧
      ∃ q' found, q.popNewestReady (secs 1) = .ok (q', found) ∧ ∀ e, found = some e → e.readyAt ≤ secs 1 := by
  have hrun : ((contended ++ fourPops).foldlM Timeline.step ⟨0, 0, [], new 8 hashQueueTtl⟩).isOkAnd (fun s =>
      decide (s.inserts < 2 ^ 64) && s.clock == secs 1 && s.log.length == 4 && s.log.all PopRecord.retryDue) =
        true := by decide +kernel
  obtain ⟨s, hs, hfacts⟩ := isOkAnd_eq_true.mp hrun
  simp only [and_eq_true, decide_eq_true_iff, beq_iff_eq, List.all_eq_true] at hfacts
  obtain ⟨⟨⟨hn, hclock⟩, hlength⟩, hdue⟩ := hfacts
  have hstart : Timeline.Possible 8 hashQueueTtl ⟨0, 0, [], new 8 hashQueueTtl⟩ := Timed.new 0
  have hr : Timed 8 hashQueueTtl s.inserts (secs 1) s.log s.queue := hclock ▸ hstart.replay (by decide) hs
  obtain ⟨hpop, hfair⟩ := pop_choice hr hn
  obtain ⟨q', found, hok, hfound, -⟩ := hpop (secs 1) le_rfl
  exact ⟨s.inserts, s.log, s.queue, hr, hlength,
    hfair [] s.log [] (by rw [List.nil_append, List.append_nil]) hlength hdue, q', found, hok,
    fun e he => (hfound e he).2.1⟩

/-! ### Numbers that come around -/

lemma Timed.again (hr : Timed capacity ttl n t log q) (hnow : t ≤ now) (event : HashDiscovered)
    (hpeer : event.peerAddr = none) (hnode : event.sourceNode = none) (hlive : now - event.discoveredAt ≤ q.ttl)
    (hname : q.entries.get event.infoHash = none) (hroom : q.entries.len < q.capacity)
    (hsequence : q.sequence < 2 ^ 64) {number : ℕ}
    (hnumber : ∀ index ∈ [q.expiry, q.retryExpiry, q.waiting, q.readyFresh, q.readyRetry], ∀ key ∈ index.keys, (ofLex key).2 = number)
    (j : ℕ) (hj : ∀ i < j, (q.sequence + i + 1) % 2 ^ 64 ≠ number) :
    ∃ n, Timed capacity ttl n now log
      ({ q with sequence := (q.sequence + j) % 2 ^ 64 }.insert (q.freshEntry event now)) := by
  induction j with
  | zero =>
    rw [Nat.add_zero, Nat.mod_eq_of_lt hsequence]
    exact ⟨_, hr.push hnow (push_new hlive hname hroom)⟩
  | succ j ih =>
    obtain ⟨m, hm⟩ := ih fun i hi => hj i (hi.trans (Nat.lt_succ_self j))
    have hnext : wrappingSucc ((q.sequence + j) % 2 ^ 64) = (q.sequence + (j + 1)) % 2 ^ 64 := by
      unfold wrappingSucc
      omega
    have hpush : ({ q with sequence := (q.sequence + j) % 2 ^ 64 }.insert (q.freshEntry event now)).push
        event now = .ok ({ q with sequence := (q.sequence + (j + 1)) % 2 ^ 64 }.insert
          (q.freshEntry event now), .updated) := by
      rw [← hnext]
      refine push_again (q := { q with sequence := (q.sequence + j) % 2 ^ 64 }) hpeer hnode hlive hname
        fun index hindex key hkey => ?_
      rw [hnumber index hindex key hkey]
      rw [hnext]
      exact (hj j (Nat.lt_succ_self j)).symm
    exact ⟨_, hm.push le_rfl hpush⟩

def soleQueue : PendingHashQueue :=
  (new 2 hashQueueTtl).insert ((new 2 hashQueueTtl).freshEntry (exampleEvent "aa" none 0) 0)

def collided : PendingHashQueue :=
  { soleQueue with sequence := 0 }.insert (soleQueue.freshEntry (exampleEvent "bb" none 0) 0)

lemma timed_collided : ∃ n, Timed 2 hashQueueTtl n 0 [] collided := by
  have hfirst : (new 2 hashQueueTtl).push (exampleEvent "aa" none 0) 0 = .ok (soleQueue, .inserted) :=
    push_new (by decide) rfl (by decide)
  have hkeys : ∀ index ∈ [soleQueue.expiry, soleQueue.retryExpiry, soleQueue.waiting, soleQueue.readyFresh,
      soleQueue.readyRetry], ∀ key ∈ index.keys, (ofLex key).2 = 1 := by decide +kernel
  have hname : (soleQueue.entries.get "bb").isNone := by decide +kernel
  have hroom : soleQueue.entries.len < soleQueue.capacity := by decide +kernel
  have hsequence : soleQueue.sequence = 1 := by decide +kernel
  have hsole := (Timed.new 0).push le_rfl hfirst
  obtain ⟨n, hr⟩ := hsole.again le_rfl (exampleEvent "bb" none 0) rfl rfl (by decide +kernel)
    (isNone_iff_eq_none.mp hname) hroom (by rw [hsequence]; decide) hkeys (2 ^ 64 - 1)
    (by rw [hsequence]; omega)
  rw [hsequence] at hr
  exact ⟨n, hr⟩

/-- The second hash moves on and takes the keys of the first one with it; then it leaves. -/
theorem due_entry_not_popped :
    ∃ capacity ttl n t log q now q' h e, Timed capacity ttl n t log q ∧ t ≤ now ∧
      q.popNewestReady now = .ok (q', none) ∧ q.entries.get h = some e ∧ e.readyAt ≤ now ∧ now ≤ e.expiresAt := by
  obtain ⟨n, hr⟩ := timed_collided
  have hrun : (collided.push (exampleEvent "bb" none 0) 0).isOkAnd (fun r =>
      ((r.1.remove "bb").1.entries.get "aa").any (fun e => e.isDue (secs 1)) &&
        ((r.1.remove "bb").1.popNewestReady (secs 1)).isOkAnd fun r => r.2.isNone) = true := by decide +kernel
  obtain ⟨⟨q, kind⟩, hpush, hfacts⟩ := isOkAnd_eq_true.mp hrun
  simp only [and_eq_true] at hfacts
  obtain ⟨hqueued, hpop⟩ := hfacts
  obtain ⟨e, he, hdue⟩ := (any_eq_true _ _).mp hqueued
  obtain ⟨⟨q', found⟩, hpop, hnone⟩ := isOkAnd_eq_true.mp hpop
  cases isNone_iff_eq_none.mp hnone
  have hleft : Timed 2 hashQueueTtl _ 0 [] (q.remove "bb").1 :=
    (hr.push le_rfl hpush).call (.remove "bb") (fun _ hop => nomatch hop) (fun _ hop => nomatch hop) rfl
  exact ⟨2, hashQueueTtl, _, 0, [], _, secs 1, q', "aa", e, hleft, by decide, hpop, he,
    QueuedHash.isDue_iff.mp hdue⟩

end PendingHashQueue

end DhtCrawler
