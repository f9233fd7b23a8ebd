import DhtCrawler.SchedulerJobs

/-! The work of the metadata scheduler, without its indexes and tasks: the queued entries, the jobs in flight, the
retry history and the jobs started so far. Every event of the scheduler is a sequence of a few kinds of acts on the
work, or the result of one job; what a run keeps is proved over these, and not over the handlers again. -/

namespace DhtCrawler

open FiniteMap PendingHashQueue MetadataScheduler Except

/-! ### Acts -/

structure Work where
  queued : FiniteMap String QueuedHash
  inFlight : FiniteMap String InFlightState
  history : RetryHistory
  jobs : ℕ → Option MetadataJob
  dispatched : ℕ

def SchedulerState.work (s : SchedulerState) : Work where
  queued := s.queue.entries
  inFlight := s.inFlight
  history := s.retryHistory
  jobs := Option.map JobTrace.job ∘ s.traces.get
  dispatched := s.totalDispatched

namespace Work

inductive Fade : FiniteMap String QueuedHash → FiniteMap String QueuedHash → Prop where
  | promote {queued hash entry}
      (hentry : queued.get hash = some entry) :
      Fade queued (queued.insert hash { entry with ready := true })
  | drop {queued} (hash : String) : Fade queued (queued.erase hash)

abbrev Fades : FiniteMap String QueuedHash → FiniteMap String QueuedHash → Prop :=
  Relation.ReflTransGen Fade

/-- The entry that an event makes, updates, or leaves as it is if the event is stale. -/
inductive Candidate (queued : FiniteMap String QueuedHash) (event : HashDiscovered) : QueuedHash → Prop where
  | fresh (q : PendingHashQueue) (now : Instant) (hnone : queued.get event.infoHash = none) :
      Candidate queued event (q.freshEntry event now)
  | updated (q : PendingHashQueue) {entry} (hentry : queued.get event.infoHash = some entry) :
      Candidate queued event (q.updatedEntry entry event)
  | kept {entry} (hentry : queued.get event.infoHash = some entry) :
      Candidate queued event entry

/-- One act on the work. An event for a hash that is not in flight is observed by the history first; a hash with
a record is then queued only as a retry, and only under the record that is `offered`. The events and the instants at
which they are taken are those that are `heard`. -/
inductive Act (policy : MetadataOptions) (offered : Option RetryRecord) (heard : HashDiscovered → Instant → Prop) :
    Work → Work → Prop where
  | fade {w queued} (hfade : Fade w.queued queued) :
      Act policy offered heard w { w with queued }
  | merge {w state} (event : HashDiscovered) (now : Instant) (room : Bool)
      (hheard : heard event now) (hstate : w.inFlight.get event.infoHash = some state) :
      Act policy offered heard w
        { w with
          inFlight := w.inFlight.insert event.infoHash (mergeInFlight state event room) }
  | observe {w} (event : HashDiscovered) (now : Instant) (hheard : heard event now)
      (hflight : w.inFlight.get event.infoHash = none) :
      Act policy offered heard w { w with history := (w.history.observeEvent event now policy).1 }
  | push {w} (event : HashDiscovered) (now : Instant) {entry}
      (orderKey : Instant ×ₗ ℕ) (hheard : heard event now) (hflight : w.inFlight.get event.infoHash = none)
      (hrecord : (w.history.observeEvent event now policy).2 = none)
      (hentry : Candidate w.queued event entry) :
      Act policy offered heard w
        { w with
          history := (w.history.observeEvent event now policy).1
          queued := w.queued.insert event.infoHash { entry with orderKey } }
  | offer {w} (event : HashDiscovered) (now : Instant) {entry record}
      (orderKey : Instant ×ₗ ℕ) (hheard : heard event now) (hflight : w.inFlight.get event.infoHash = none)
      (hrecord : (w.history.observeEvent event now policy).2 = some record)
      (hopen : record.failures < record.attemptLimit policy) (hoffered : offered = some record)
      (hentry : Candidate w.queued event entry) :
      Act policy offered heard w
        { w with
          history := (w.history.observeEvent event now policy).1
          queued := w.queued.insert event.infoHash
            { deferredEntry entry record with orderKey } }
  | start {w hash entry} (hentry : w.queued.get hash = some entry)
      (hflight : w.inFlight.get hash = none) (scheduledPeers : Finset SocketAddr) (now : Instant) :
      Act policy offered heard w
        { w with
          queued := w.queued.erase hash
          inFlight := w.inFlight.insert hash
            ⟨scheduledPeers, { entry with peers := jobPeers entry now }⟩
          jobs := Function.update w.jobs w.dispatched
            (some ⟨hash, jobPeers entry now, entry.sourceNodes, entry.source⟩)
          dispatched := w.dispatched + 1 }
  | abandon {w} : Act policy offered heard w { w with queued := .empty, inFlight := .empty }

abbrev Acts (policy : MetadataOptions) (offered : Option RetryRecord) (heard : HashDiscovered → Instant → Prop) :
    Work → Work → Prop :=
  Relation.ReflTransGen (Act policy offered heard)

abbrev finished (w : Work) (hash : String) (history : RetryHistory) : Work :=
  { w with queued := w.queued.erase hash, inFlight := w.inFlight.erase hash, history }

/-- The result of the job of `hash` at `now`; the job failed if `failed` is set. -/
inductive Result (policy : MetadataOptions) (now : Instant) : Bool → String → Work → Work → Prop where
  | settled {w hash state}
      (hstate : w.inFlight.get hash = some state) :
      Result policy now false hash w (w.finished hash (w.history.remove hash))
  | lapsed {w hash state} (failed : Bool)
      (hstate : w.inFlight.get hash = some state)
      (hlapsed : policy.retryMaxAttempts = 0 ∨ state.entry.isRetry = true ∧ state.entry.expiresAt ≤ now) :
      Result policy now failed hash w (w.finished hash w.history)
  | unretried {w hash state} (failed : Bool) (delay : Duration)
      {history record}
      (hstate : w.inFlight.get hash = some state)
      (hlive : ¬(state.entry.isRetry = true ∧ state.entry.expiresAt ≤ now))
      (hrecord : w.history.record hash now failed delay policy = .ok (history, record)) :
      Result policy now failed hash w (w.finished hash (history.remember state.entry))
  | retried {w hash state} (failed : Bool) (delay : Duration)
      {history record} (orderKey : Instant ×ₗ ℕ)
      (hstate : w.inFlight.get hash = some state)
      (hlive : ¬(state.entry.isRetry = true ∧ state.entry.expiresAt ≤ now))
      (hrecord : w.history.record hash now failed delay policy = .ok (history, some record))
      (hopen : record.failures < record.attemptLimit policy) (hdue : record.nextDue < record.expiresAt) :
      Result policy now failed hash w
        { w.finished hash (history.remember state.entry) with
          queued := (w.queued.erase hash).insert hash
            { deferredEntry state.entry record with orderKey } }

lemma Result.rest {policy : MetadataOptions} {now : Instant} {failed : Bool} {hash : String} {w w' : Work}
    (h : Result policy now failed hash w w') :
    w'.inFlight = w.inFlight.erase hash ∧ w'.jobs = w.jobs ∧ w'.dispatched = w.dispatched := by
  cases h <;> exact ⟨rfl, rfl, rfl⟩

end Work

/-! ### The queue -/

namespace PendingHashQueue

variable {q : PendingHashQueue}

lemma fades_promoteReady (q : PendingHashQueue) (now : Instant) :
    Safe (fun _ => True) (q.promoteReady now) fun q' => Work.Fades q.entries q'.entries :=
  promoteReady_rule (P := fun q' => Work.Fades q.entries q'.entries) .refl
    (fun _ _ _ _ hfades hentry => hfades.tail (.promote hentry)) now

lemma fades_expire (q : PendingHashQueue) (now : Instant) : Work.Fades q.entries (q.expire now).1.entries := by
  refine expire_rule (P := fun s => Work.Fades q.entries s.1.entries) .refl (fun s hash hs => hs.tail ?_) now
  rw [remove_fst_entries]
  exact .drop hash

/-- At most one entry was taken out of the queue. -/
def TakenOut (queued : FiniteMap String QueuedHash) (r : PendingHashQueue × Option QueuedHash) : Prop :=
  match r.2 with
  | none => r.1.entries = queued
  | some entry => ∃ hash, queued.get hash = some entry ∧ r.1.entries = queued.erase hash

lemma takenOut_remove (q : PendingHashQueue) (hash : String) : TakenOut q.entries (q.remove hash) := by
  unfold TakenOut
  rw [remove_snd]
  cases hentry : q.entries.get hash with
  | none => rw [remove_none hentry]
  | some entry => exact ⟨hash, hentry, remove_fst_entries q hash⟩

lemma takenOut_popChoice (q : PendingHashQueue) : TakenOut q.entries q.popChoice :=
  popChoice_rule (fun _ => rfl) fun k => takenOut_remove { q with freshDispatches := k }

lemma takenOut_popNewestReady (q : PendingHashQueue) (now : Instant) :
    Safe (fun _ => True) (q.popNewestReady now) fun r =>
      ∃ queued, Work.Fades q.entries queued ∧ TakenOut queued r :=
  (fades_promoteReady (q.expire now).1 now).bind fun q' hq' =>
    ⟨q'.entries, (fades_expire q now).trans hq', takenOut_popChoice q'⟩

lemma insert_entries (q : PendingHashQueue) (entry : QueuedHash) :
    ∃ orderKey, (q.insert entry).entries = q.entries.insert entry.infoHash { entry with orderKey } :=
  ⟨_, rfl⟩

lemma PushStep.candidate {S : Set String} {q' : PendingHashQueue} {kind : QueuePushKind}
    {event : HashDiscovered} {now : Instant} (hstep : PushStep q event now q' kind) (hq : q.Within S) :
    q'.entries = q.entries ∧ q.entries.get event.infoHash = none ∨
      ∃ queued entry orderKey, Work.Fades q.entries queued ∧ Work.Candidate queued event entry ∧
        entry.infoHash = event.infoHash ∧
        q'.entries = queued.insert event.infoHash { entry with orderKey } := by
  cases hstep with
  | stale =>
    cases hentry : q.entries.get event.infoHash with
    | none => exact .inl ⟨rfl, rfl⟩
    | some entry =>
      exact .inr ⟨q.entries, entry, entry.orderKey, .refl, .kept hentry, (hq _ _ hentry).1,
        (insert_get_self hentry).symm⟩
  | @updated entry hentry =>
    have hname : (q.updatedEntry entry event).infoHash = event.infoHash := by
      rw [updatedEntry_infoHash, (hq _ _ hentry).1]
    obtain ⟨orderKey, hinsert⟩ := insert_entries (q.remove event.infoHash).1 (q.updatedEntry entry event)
    refine .inr ⟨q.entries, q.updatedEntry entry event, orderKey, .refl, .updated q hentry, hname, ?_⟩
    rw [hinsert, remove_fst_entries, hname, insert_erase_self]
  | inserted hentry hlen =>
    obtain ⟨orderKey, hinsert⟩ := insert_entries q (q.freshEntry event now)
    exact .inr ⟨q.entries, q.freshEntry event now, orderKey, .refl, .fresh q now hentry, rfl, hinsert⟩
  | @evicted k victim old hentry hlen hv hold hnewer =>
    have hnone : (q.entries.erase victim).get event.infoHash = none := by
      rw [get_erase, hentry, ite_self]
    obtain ⟨orderKey, hinsert⟩ := insert_entries (q.remove victim).1 (q.freshEntry event now)
    refine .inr ⟨q.entries.erase victim, q.freshEntry event now, orderKey, .single (.drop victim),
      .fresh q now hnone, rfl, ?_⟩
    rw [hinsert, remove_fst_entries]
    rfl

lemma defer_entries (q : PendingHashQueue) (entry : QueuedHash) (record : RetryRecord) :
    ((q.defer entry record).2 = false ∧ (q.defer entry record).1.entries = q.entries.erase entry.infoHash) ∨
      (q.defer entry record).2 = true ∧ ∃ orderKey, (q.defer entry record).1.entries =
        q.entries.insert entry.infoHash { deferredEntry entry record with orderKey } := by
  rcases defer_cases q entry record with h | ⟨h, -, -⟩
  · rw [h]
    exact .inl ⟨rfl, remove_fst_entries q _⟩
  · rw [h]
    obtain ⟨orderKey, hinsert⟩ := insert_entries (q.remove entry.infoHash).1 (deferredEntry entry record)
    refine .inr ⟨rfl, orderKey, ?_⟩
    rw [hinsert, remove_fst_entries]
    exact insert_erase_self _ _ _

end PendingHashQueue

/-! ### Events -/

namespace MetadataScheduler

variable {sch : MetadataScheduler} {s s' : SchedulerState} {offered : Option RetryRecord}
  {heard : HashDiscovered → Instant → Prop}

/-- The record under which an event may queue its hash as a retry. -/
def offeredRecord (sch : MetadataScheduler) (s : SchedulerState) : SchedulerEvent → Option RetryRecord
  | .hashReceived hash now _ =>
    if s.phase = .waiting ∧ s.inputClosed = false ∧ s.inFlight.get hash.infoHash = none then
      (s.retryHistory.observeEvent hash now sch.metadataOptions).2
    else none
  | _ => none

def isFailure (result : JobResult) : Bool :=
  match result.outcome with
  | .completed status => decide (status ≠ .accepted)
  | _ => false

def failedHash (s : SchedulerState) : SchedulerEvent → Option String
  | .taskJoined id _ _ =>
    if s.phase = .waiting then
      match s.tasks.get id with
      | some ⟨_, job, some how⟩ => if isFailure (how.result job) then some job.infoHash else none
      | _ => none
    else none
  | _ => none

def SchedulerEvent.Reads : SchedulerEvent → Instant → Prop
  | .loopHead now rounds, t => t = now ∨ ∃ i, t = (rounds i).popAt ∨ t = (rounds i).retainAt
  | .hashReceived _ now _, t => t = now
  | .taskJoined _ now _, t => t = now
  | .maintenance now, t => t = now
  | _, _ => False

def SchedulerEvent.Hears : SchedulerEvent → HashDiscovered → Instant → Prop
  | .hashReceived hash now _, event, t => event = hash ∧ t = now
  | _, _, _ => False

lemma SchedulerEvent.Hears.reads {event : SchedulerEvent} {hash : HashDiscovered} {t : Instant}
    (h : event.Hears hash t) : event.Reads t := by
  cases event with
  | hashReceived => exact h.2
  | _ => exact h.elim

lemma work_recordQueuePush (s : SchedulerState) (kind : QueuePushKind) :
    (s.recordQueuePush kind).work = s.work := by
  obtain ⟨n, h⟩ := recordQueuePush_eq s kind
  rw [h]
  rfl

lemma work_insert_trace {serial : ℕ} {t t' : JobTrace} (ht : s.traces.get serial = some t)
    (hjob : t'.job = t.job) : { s with traces := s.traces.insert serial t' }.work = s.work := by
  have hsame : Option.map JobTrace.job ∘ (s.traces.insert serial t').get =
      Option.map JobTrace.job ∘ s.traces.get := by
    rw [get_insert_eq_update, Function.comp_update, Function.update_eq_self_iff, Function.comp_apply, ht]
    exact congrArg some hjob
  exact congrArg (fun jobs => { s.work with jobs }) hsame

lemma work_trace (s : SchedulerState) (serial : ℕ) {f : JobTrace → JobTrace} (hf : ∀ t, (f t).job = t.job) :
    (s.trace serial f).work = s.work := by
  unfold SchedulerState.trace
  split
  · rfl
  · rename_i t ht
    exact work_insert_trace ht (hf t)

lemma work_finish (s : SchedulerState) (serial : ℕ) (completion : MetadataFetchCompletion) (installed : Bool) :
    (finish s serial completion installed).work = s.work :=
  work_trace _ serial fun _ => rfl

variable {queued : FiniteMap String QueuedHash} {queue : PendingHashQueue}

lemma acts_of_fades {policy : MetadataOptions} {w : Work} (hfades : Work.Fades w.queued queued) :
    Work.Acts policy offered heard w { w with queued } := by
  induction hfades with
  | refl => exact .refl
  | tail _ hfade ih => exact ih.tail (.fade hfade)

lemma deferPushed_absent {infoHash : String} (hnone : queue.entries.get infoHash = none)
    (record : Option RetryRecord) : deferPushed queue infoHash record = queue := by
  unfold deferPushed
  cases record with
  | none => rfl
  | some record =>
    have hremove : queue.remove infoHash = (queue, none) :=
      Prod.ext (remove_none hnone) (by rw [remove_snd, hnone])
    rw [hremove]

lemma deferPushed_entries {infoHash : String} {entry : QueuedHash} (hname : entry.infoHash = infoHash)
    (hqueue : queue.entries = queued.insert infoHash entry) (record : RetryRecord) :
    (((queue.remove infoHash).1.defer entry record).2 = false ∧
        (deferPushed queue infoHash (some record)).entries = queued.erase infoHash) ∨
      ((queue.remove infoHash).1.defer entry record).2 = true ∧
        ∃ orderKey, (deferPushed queue infoHash (some record)).entries =
          queued.insert infoHash { deferredEntry entry record with orderKey } := by
  have hremove : queue.remove infoHash = ((queue.remove infoHash).1, some entry) := by
    refine Prod.ext rfl ?_
    rw [remove_snd, hqueue, get_insert_self]
  have hrest : (queue.remove infoHash).1.entries = queued.erase infoHash := by
    rw [remove_fst_entries, hqueue, erase_insert_self]
  unfold deferPushed
  rw [hremove]
  rcases defer_entries (queue.remove infoHash).1 entry record with
    ⟨hdropped, hentries⟩ | ⟨hstored, orderKey, hentries⟩
  · refine .inl ⟨hdropped, ?_⟩
    rw [hentries, hrest, hname, erase_of_get_none (get_erase_self _ _)]
  · refine .inr ⟨hstored, orderKey, ?_⟩
    rw [hentries, hrest, hname, insert_erase_self]

lemma push_acts (hs : Jobs sch s) {hash : HashDiscovered} {now : Instant} (room : Bool)
    {history : RetryHistory} {record : Option RetryRecord} {kind : QueuePushKind} (hphase : s.phase = .waiting)
    (hinput : s.inputClosed = false) (hst : s.inFlight.get hash.infoHash = none)
    (hobserved : s.retryHistory.observeEvent hash now sch.metadataOptions = (history, record))
    (hexhausted : ¬ sch.isExhausted record = true)
    (hstep : PushStep s.queue hash now queue kind) :
    Work.Acts sch.metadataOptions (sch.offeredRecord s (.hashReceived hash now room))
      (SchedulerEvent.hashReceived hash now room).Hears s.work
      { s.work with queued := (deferPushed queue hash.infoHash record).entries, history } := by
  have hhistory : history = (s.retryHistory.observeEvent hash now sch.metadataOptions).1 := by
    rw [hobserved]
  have hrecord : (s.retryHistory.observeEvent hash now sch.metadataOptions).2 = record := by
    rw [hobserved]
  rw [hhistory]
  rcases hstep.candidate hs.queued with
    ⟨hsame, hnone⟩ | ⟨queued, entry, orderKey, hfades, hcandidate, hname, hqueue⟩
  · -- a stale event for a hash that is not queued leaves the queue alone
    rw [deferPushed_absent (hsame ▸ hnone), hsame]
    exact .single (.observe hash now ⟨rfl, rfl⟩ hst)
  · have hfaded : Work.Acts sch.metadataOptions (sch.offeredRecord s (.hashReceived hash now room))
        (SchedulerEvent.hashReceived hash now room).Hears s.work { s.work with queued } :=
      acts_of_fades (w := s.work) hfades
    cases record with
    | none =>
      dsimp only [deferPushed]
      rw [hqueue]
      exact hfaded.tail (@Work.Act.push _ _ _ { s.work with queued } hash now entry
        orderKey ⟨rfl, rfl⟩ hst hrecord hcandidate)
    | some record =>
      rcases deferPushed_entries (by exact hname) hqueue record with
        ⟨-, hentries⟩ | ⟨-, orderKey', hentries⟩
      · rw [hentries]
        exact (hfaded.tail (.observe hash now ⟨rfl, rfl⟩ hst)).tail (.fade (.drop _))
      · rw [hentries]
        have hopen := hexhausted
        simp only [isExhausted, Option.any_some, ge_iff_le, decide_eq_true_eq, not_le] at hopen
        have hoffered : sch.offeredRecord s (.hashReceived hash now room) = some record := by
          dsimp only [offeredRecord]
          rw [if_pos ⟨hphase, hinput, hst⟩, hobserved]
        exact hfaded.tail (@Work.Act.offer _ _ _ { s.work with queued } hash now entry
          record orderKey' ⟨rfl, rfl⟩ hst hrecord hopen hoffered hcandidate)

lemma enqueue_acts (hs : Jobs sch s) (hash : HashDiscovered) (now : Instant) (room : Bool)
    (hphase : s.phase = .waiting) (hinput : s.inputClosed = false) :
    Safe (fun _ => True) (sch.enqueue s hash now room) fun s' =>
      Work.Acts sch.metadataOptions (sch.offeredRecord s (.hashReceived hash now room))
        (SchedulerEvent.hashReceived hash now room).Hears s.work s'.work := by
  unfold enqueue
  dsimp only
  cases hst : s.inFlight.get hash.infoHash with
  | some state =>
    dsimp only
    split_ifs
    · dsimp only [Safe]
      rw [work_recordQueuePush]
      exact .refl
    · dsimp only [Safe]
      rw [work_recordQueuePush]
      exact .single (.merge hash now room ⟨rfl, rfl⟩ hst)
  | none =>
    have hobserve : Work.Act sch.metadataOptions (sch.offeredRecord s (.hashReceived hash now room))
        (SchedulerEvent.hashReceived hash now room).Hears s.work { s.work with
          history := (s.retryHistory.observeEvent hash now sch.metadataOptions).1 } :=
      .observe hash now ⟨rfl, rfl⟩ hst
    cases hobserved : s.retryHistory.observeEvent hash now sch.metadataOptions with
    | mk history record =>
      rw [hobserved] at hobserve
      dsimp only
      by_cases hexhausted : sch.isExhausted record = true
      · rw [if_pos hexhausted]
        exact .single hobserve
      rw [if_neg hexhausted]
      rcases push_step s.queue hash now with ⟨queue, kind, hpush, hstep⟩ | ⟨hpush, -⟩
      · rw [hpush, ok_bind]
        dsimp only [Safe]
        rw [work_recordQueuePush]
        exact push_acts hs room hphase hinput hst hobserved hexhausted hstep
      · rw [hpush]
        trivial

/-! ### Dispatching -/

lemma origin_of_fades {queued' : FiniteMap String QueuedHash} (hfades : Work.Fades queued queued')
    {hash : String} {entry : QueuedHash} (hentry : queued'.get hash = some entry) :
    ∃ old ready, queued.get hash = some old ∧ entry = { old with ready } := by
  induction hfades generalizing entry with
  | refl => exact ⟨entry, entry.ready, hentry, rfl⟩
  | tail _ hfade ih =>
    cases hfade with
    | @promote name promoted hpromoted =>
      rw [get_insert] at hentry
      split_ifs at hentry with hname
      · cases hentry
        obtain ⟨old, ready, hold, heq⟩ := ih (hname ▸ hpromoted)
        exact ⟨old, true, hold, by rw [heq]⟩
      · exact ih hentry
    | drop name => exact ih (get_of_get_erase hentry).2

lemma dispatchStep_acts {x : SchedulerState × ℕ} (hx : Jobs sch x.1) (rounds : ℕ → DispatchRound) :
    Safe (fun _ => True) (sch.dispatchStep rounds x) fun r =>
      Work.Acts sch.metadataOptions offered heard x.1.work r.value.1.work := by
  obtain ⟨s, i⟩ := x
  unfold dispatchStep
  dsimp only
  split_ifs
  · exact .refl
  refine (takenOut_popNewestReady s.queue (rounds i).popAt).bind fun r ⟨queued, hfades, hr⟩ => ?_
  have hfaded : Work.Acts sch.metadataOptions offered heard s.work { s.work with queued } :=
    acts_of_fades (w := s.work) hfades
  obtain ⟨queue, _ | entry⟩ := r
  · have hrest : queue.entries = queued := hr
    rw [← hrest] at hfaded
    exact hfaded
  · obtain ⟨hash, hentry, hrest⟩ := hr
    obtain ⟨old, ready, hold, heq⟩ := origin_of_fades hfades hentry
    obtain ⟨hname, hflight⟩ := hx.queued hash old hold
    obtain rfl : entry.infoHash = hash := by rw [heq]; exact hname
    dsimp only [Safe, ForInStep.value]
    unfold startJob
    dsimp only
    split_ifs
    · change Work.Acts _ _ _ _ { s.work with queued := queue.entries }
      rw [hrest]
      exact hfaded.tail (.fade (.drop _))
    · change Work.Acts _ _ _ _ ⟨queue.entries, s.inFlight.insert entry.infoHash _, s.retryHistory,
        Option.map JobTrace.job ∘ (s.traces.insert s.totalDispatched _).get, s.totalDispatched + 1⟩
      rw [hrest, get_insert_eq_update, Function.comp_update]
      exact hfaded.tail (@Work.Act.start _ _ _ { s.work with queued } _ entry hentry hflight _
        (rounds i).retainAt)

lemma loopHead_acts (hs : Jobs sch s) (hphase : s.phase = .dispatching) (now : Instant)
    (rounds : ℕ → DispatchRound) :
    Safe (fun _ => True) (sch.loopHead s now rounds) fun s' =>
      Work.Acts sch.metadataOptions offered heard s.work s'.work := by
  refine loopHead_safe (P := fun x => Dispatching sch x ∧
      Work.Acts sch.metadataOptions offered heard s.work x.1.work) ?_ (fun x hx => ?_)
    (fun x _ hx _ _ => hx.2.tail .abandon) fun x _ hx => hx.2
  · exact ((hs.dispatching hphase now).and (fades_promoteReady s.queue now)).mono
      fun queue hq => ⟨hq.1, acts_of_fades (w := s.work) hq.2⟩
  · exact ((hx.1.step rounds).and (dispatchStep_acts hx.1.1 rounds)).mono fun r hr => ⟨hr.1, hx.2.trans hr.2⟩

/-! ### Results -/

lemma scheduleRetry_result {w : Work} {hash : String} {state : InFlightState} (failed : Bool) (delay : Duration)
    (now : Instant) (hstate : w.inFlight.get hash = some state) (hname : state.entry.infoHash = hash)
    (hs : s.work = w.finished hash w.history) :
    Safe (fun _ => False) (sch.scheduleRetry s state.entry failed delay now) fun s' =>
      Work.Result sch.metadataOptions now failed hash w s'.work := by
  have hentries : s.queue.entries = w.queued.erase hash := congrArg Work.queued hs
  have hhistory : s.retryHistory = w.history := congrArg Work.history hs
  unfold scheduleRetry
  by_cases hoff : sch.metadataOptions.retryMaxAttempts = 0
  · rw [if_pos hoff]
    dsimp only [Safe]
    rw [hs]
    exact .lapsed failed hstate (.inl hoff)
  rw [if_neg hoff]
  by_cases hover : state.entry.isRetry = true ∧ state.entry.expiresAt ≤ now
  · rw [if_pos hover]
    dsimp only [Safe]
    rw [hs]
    exact .lapsed failed hstate (.inr hover)
  rw [if_neg hover, hname, hhistory]
  obtain ⟨⟨history, record⟩, hrecord⟩ := w.history.record_ok hash now failed delay sch.metadataOptions
  rw [hrecord, ok_bind]
  have hunretried : Work.Result sch.metadataOptions now failed hash w
      { s.work with history := history.remember state.entry } := by
    rw [hs]
    exact .unretried failed delay hstate hover hrecord
  cases record with
  | none => exact hunretried
  | some record =>
    dsimp only
    split_ifs with hclosed
    · exact hunretried
    · obtain ⟨hopen, hdue⟩ := not_or.mp hclosed
      rcases defer_entries s.queue state.entry record with
        ⟨-, hdropped⟩ | ⟨-, orderKey, hstored⟩
      · change Work.Result _ _ _ _ _
          { s.work with queued := (s.queue.defer state.entry record).1.entries, history := _ }
        rw [hdropped, hname, hentries, erase_of_get_none (get_erase_self _ _), hs]
        exact .unretried failed delay hstate hover hrecord
      · change Work.Result _ _ _ _ _
          { s.work with queued := (s.queue.defer state.entry record).1.entries, history := _ }
        rw [hstored, hname, hentries, hs]
        exact .retried failed delay orderKey hstate hover hrecord (Nat.lt_of_not_le hopen)
          (Nat.lt_of_not_le hdue)

lemma handleJobResult_result {result : JobResult} {state : InFlightState}
    (hstate : s.inFlight.get result.infoHash = some state) (hname : state.entry.infoHash = result.infoHash)
    (serial : ℕ) (now : Instant) (installed : Bool) :
    Safe (fun _ => False) (sch.handleJobResult s serial result now installed) fun s' =>
      Work.Result sch.metadataOptions now (isFailure result) result.infoHash s.work s'.work := by
  unfold handleJobResult isFailure
  rw [hstate]
  dsimp only
  have hwork : (s.trace serial fun t => { t with handled := t.handled ++ [true] }).work = s.work :=
    work_trace s serial fun _ => rfl
  generalize s.trace serial (fun t => { t with handled := t.handled ++ [true] }) = τ at hwork
  have hended : ({ τ with
      inFlight := τ.inFlight.erase result.infoHash
      queue := (τ.queue.remove result.infoHash).1 } : SchedulerState).work =
        s.work.finished result.infoHash s.work.history := by
    change Work.mk (τ.queue.remove result.infoHash).1.entries _ _ _ _ = _
    rw [remove_fst_entries, ← hwork]
    rfl
  have hsettled : ∀ υ : SchedulerState, υ.work = s.work.finished result.infoHash s.work.history →
      Work.Result sch.metadataOptions now false result.infoHash s.work
        { υ with retryHistory := υ.retryHistory.remove result.infoHash }.work := by
    intro υ hυ
    have hhistory : υ.retryHistory = s.work.history := congrArg Work.history hυ
    change Work.Result _ _ _ _ _ { υ.work with history := υ.retryHistory.remove result.infoHash }
    rw [hυ, hhistory]
    exact .settled hstate
  cases result.outcome with
  | gateRejected => exact hsettled _ hended
  | deferred delay => exact scheduleRetry_result false delay now (by exact hstate) hname hended
  | completed status =>
    dsimp only
    by_cases haccepted : status = .accepted
    · rw [if_pos haccepted, decide_eq_false (not_not_intro haccepted)]
      exact hsettled _ ((work_finish ..).trans hended)
    · rw [if_neg haccepted, decide_eq_true haccepted]
      exact scheduleRetry_result true 0 now (by exact hstate) hname ((work_finish ..).trans hended)

lemma joinNext_result (hs : Jobs sch s) {id : TaskId} {task : MetadataTask}
    (htask : s.tasks.get id = some task) (how : TaskEnd) (now : Instant) (installed : Bool) :
    Safe (fun _ => False) (sch.joinNext s id task how now installed) fun s' =>
      Work.Result sch.metadataOptions now (isFailure (how.result task.job)) task.job.infoHash s.work
        s'.work := by
  obtain ⟨state, hstate⟩ := hs.taskInFlight id task htask
  rw [hs.joinNext_eq htask]
  have hjoined : (joinedState s id task how).work = s.work := work_insert_trace (hs.taskTrace id task htask) rfl
  have hfound : (joinedState s id task how).inFlight.get (how.result task.job).infoHash = some state := by
    rw [TaskEnd.result_infoHash]
    exact hstate
  have hname : state.entry.infoHash = (how.result task.job).infoHash := by
    rw [TaskEnd.result_infoHash]
    exact hs.inFlightName _ _ hstate
  refine (handleJobResult_result hfound hname task.serial now installed).mono fun s' hs' => ?_
  rw [TaskEnd.result_infoHash, hjoined] at hs'
  exact hs'

/-! ### Steps -/

/-- What an event does to the work: acts, with no job failing, or the result of one job. -/
inductive WorkStep (sch : MetadataScheduler) (s : SchedulerState) (event : SchedulerEvent) :
    Work → Work → Prop where
  | acts {w w'} (hfailed : failedHash s event = none)
      (hacts : Work.Acts sch.metadataOptions (sch.offeredRecord s event) event.Hears w w') :
      WorkStep sch s event w w'
  | result {w w'} (now : Instant) (failed : Bool) (hash : String) (hnow : event.Reads now)
      (hoffered : sch.offeredRecord s event = none)
      (hfailed : failedHash s event = if failed then some hash else none)
      (hresult : Work.Result sch.metadataOptions now failed hash w w') : WorkStep sch s event w w'

lemma WorkStep.refl (hfailed : failedHash s event = none) (w : Work) : WorkStep sch s event w w :=
  .acts hfailed .refl

lemma select_work (hs : Jobs sch s) (hphase : s.phase = .waiting) (event : SchedulerEvent) :
    Safe (fun _ => True) (sch.select s event) fun s' => WorkStep sch s event s.work s'.work := by
  cases event with
  | hashReceived hash now room =>
    dsimp only [select]
    split_ifs with hinput
    · exact .refl rfl _
    · exact (enqueue_acts hs hash now room hphase (Bool.eq_false_iff.mpr hinput)).mono
        fun _ h => .acts rfl h
  | taskJoined id now installed =>
    dsimp only [select]
    cases htask : s.tasks.get id with
    | none => exact .refl (by simp [failedHash, htask]) _
    | some task =>
      obtain ⟨serial, job, _ | how⟩ := task
      · exact .refl (by simp [failedHash, htask]) _
      · refine ((joinNext_result hs htask how now installed).mono fun _ h => ?_).weaken fun _ h => h.elim
        refine .result now _ _ rfl rfl ?_ h
        simp only [failedHash, hphase, htask, if_true]
  | inputClosed => exact .refl rfl _
  | maintenance now =>
    refine .acts rfl ?_
    exact acts_of_fades (w := s.work) (fades_expire s.queue now)
  | cancelled =>
    dsimp only [select]
    split_ifs
    · exact .acts rfl (.single .abandon)
    · exact .refl rfl _
  | loopHead | dispatchTick | statsTick | taskEnded | shutdownRequested => exact .refl rfl _

lemma failedHash_idle (hphase : s.phase ≠ .waiting) (event : SchedulerEvent) : failedHash s event = none := by
  cases event with
  | taskJoined id now installed => simp only [failedHash, hphase, if_false]
  | _ => rfl

lemma work_endTask (s : SchedulerState) (id : TaskId) (how : TaskEnd) : (endTask s id how).work = s.work := by
  dsimp only [endTask]
  split
  · rfl
  · split_ifs <;> rfl

lemma step_work (hs : Jobs sch s) (event : SchedulerEvent) :
    Safe (fun _ => True) (sch.step s event) fun s' => WorkStep sch s event s.work s'.work := by
  refine step_safe (fun id how hevent => ?_) (fun hevent => hevent ▸ .refl rfl _)
    (fun now rounds hevent hphase => (loopHead_acts hs hphase now rounds).mono fun _ h => hevent ▸ .acts rfl h)
    (fun hphase => (select_work hs hphase event).mono fun s' hs' => ?_)
    (fun _ _ hevent _ => hevent ▸ .refl rfl _) fun _ hphase => .refl (failedHash_idle hphase event) _
  · rw [work_endTask, hevent]
    exact .refl rfl _
  · split_ifs <;> exact hs'

lemma Aborted.step_work (hs : Aborted s) (event : SchedulerEvent) :
    Safe (fun _ => True) (sch.step s event) fun s' => WorkStep sch s event s.work s'.work := by
  have hfailed : failedHash s event = none := failedHash_idle (by rw [hs.phase]; decide) event
  refine step_over hs.phase (fun id how _ => ?_) (fun _ => .refl hfailed _) (.refl hfailed _)
  rw [work_endTask]
  exact .refl hfailed _

lemma Reachable.step_work (hr : Reachable sch s) {event : SchedulerEvent}
    (hstep : sch.step s event = .ok s') : WorkStep sch s event s.work s'.work := by
  rcases hr.jobs with hjobs | haborted
  · exact (MetadataScheduler.step_work hjobs event).of_ok hstep
  · exact (haborted.step_work event).of_ok hstep

end MetadataScheduler

end DhtCrawler
