import DhtCrawler.SchedulerQueue
import DhtCrawler.SchedulerRetries

/-! Whether a queued retry becomes due before it expires. A retry is queued on two paths. The result of a job
queues it only if its record is due within the record's lifetime; an event for a hash that has a record queues
it under that record as it stands, or as the event extends it, without that test. So the property is kept by
the runs in which every such event finds, or is granted, an instant within the lifetime. -/

namespace DhtCrawler

open FiniteMap PendingHashQueue RetryHistory MetadataScheduler Option Work

variable {entry : QueuedHash} {failed : Bool} {hash : HashDiscovered}

namespace Work

variable {policy : MetadataOptions} {offered : Option RetryRecord} {heard : HashDiscovered → Instant → Prop}
  {w w' : Work}

/-- A retry becomes due before it expires. -/
def CanRun (entry : QueuedHash) : Prop := entry.isRetry = true → entry.readyAt < entry.expiresAt

def Due (queued : FiniteMap String QueuedHash) : Prop :=
  ∀ hash entry, queued.get hash = some entry → CanRun entry

variable {queued : FiniteMap String QueuedHash}

lemma Due.insert (hdue : Due queued) (hentry : CanRun entry) (hash : String) :
    Due (queued.insert hash entry) :=
  forall_insert hentry fun other entry' _ => hdue other entry'

lemma Due.erase (hdue : Due queued) (hash : String) : Due (queued.erase hash) :=
  fun other entry hentry => hdue other entry (get_of_get_erase hentry).2

lemma Due.candidate (hdue : Due queued) {event : HashDiscovered}
    (hentry : Candidate queued event entry) : CanRun entry := by
  cases hentry with
  | fresh q now hnone => exact fun hretry => absurd hretry Bool.false_ne_true
  | @updated q entry hentry =>
    intro hretry
    rw [updatedEntry_isRetry] at hretry
    have hrun := hdue _ entry hentry hretry
    unfold updatedEntry
    rw [if_pos (by exact hretry)]
    exact hrun
  | kept hentry => exact hdue _ entry hentry

lemma Act.due (hact : Act policy offered heard w w')
    (hoffered : ∀ record, offered = some record → Open policy record → record.nextDue < record.expiresAt)
    (hdue : Due w.queued) : Due w'.queued := by
  cases hact with
  | fade hfade =>
    intro hash entry hentry
    obtain ⟨old, ready, hold, rfl⟩ := origin_of_fades (.single hfade) hentry
    exact hdue hash old hold
  | merge | observe => exact hdue
  | push event now orderKey hnow hflight hrecord hentry =>
    have hrun := hdue.candidate hentry
    exact hdue.insert (by exact hrun) _
  | offer event now orderKey hnow hflight hrecord hopen hsome hentry =>
    exact hdue.insert (by exact fun _ => hoffered _ hsome hopen) _
  | start => exact hdue.erase _
  | abandon => exact fun _ _ hentry => nomatch hentry

lemma Acts.due (hacts : Acts policy offered heard w w')
    (hoffered : ∀ record, offered = some record → Open policy record → record.nextDue < record.expiresAt)
    (hdue : Due w.queued) : Due w'.queued := by
  induction hacts with
  | refl => exact hdue
  | tail _ hact ih => exact hact.due hoffered ih

lemma Result.due {now : Instant} {hash : String} (hresult : Result policy now failed hash w w')
    (hdue : Due w.queued) : Due w'.queued := by
  cases hresult with
  | settled | lapsed | unretried => exact hdue.erase _
  | retried failed delay orderKey hstate hlive hrecord hopen hnext =>
    exact (hdue.erase hash).insert (by exact fun _ => hnext) hash

/-! ### The history -/

lemma Acts.exact (hacts : Acts policy offered heard w w') (hexact : w.history.Exact) : w'.history.Exact := by
  induction hacts with
  | refl => exact hexact
  | tail _ hact ih =>
    cases hact.effect ih with
    | kept hhistory _ => exact hhistory ▸ ih
    | observed event now _ hhistory _ => exact hhistory ▸ (observes ih event now policy).exact

lemma Result.exact {now : Instant} {hash : String} (hresult : Result policy now failed hash w w')
    (hexact : w.history.Exact) : w'.history.Exact := by
  cases hresult with
  | settled => exact (remove_spec hexact hash).1
  | lapsed => exact hexact
  | unretried failed delay hstate hlive hrecord => exact (records hexact hrecord _).exact
  | retried failed delay orderKey hstate hlive hrecord => exact (records hexact hrecord _).exact

end Work

namespace RetryState

/-- The event names a candidate that the hash has not been shown. -/
def HearsNew (state : RetryState) (event : HashDiscovered) : Prop :=
  (∃ addr ∈ event.peerAddr, addr ∉ state.peers) ∨ ∃ node ∈ event.sourceNode, node.addr ∉ state.sources

instance (state : RetryState) (event : HashDiscovered) : Decidable (state.HearsNew event) := by
  unfold HearsNew
  infer_instance

lemma observeOne_new (candidate : Option SocketAddr) (seen : List SocketAddr) (capacity : ℕ) :
    (observeOne candidate seen capacity).2 = true ↔ ∃ addr ∈ candidate, addr ∉ seen := by
  unfold observeOne
  cases candidate with
  | none => simp
  | some addr =>
    dsimp only
    split_ifs with hseen
    · simp [hseen]
    · simp [hseen]
    · simp [hseen]

lemma observe_new (state : RetryState) (event : HashDiscovered) :
    (state.observe event.peerAddr (event.sourceNode.map NodeTuple.addr)).2 = true ↔ state.HearsNew event := by
  have hsource : (∃ addr ∈ event.sourceNode.map NodeTuple.addr, addr ∉ state.sources) ↔
      ∃ node ∈ event.sourceNode, node.addr ∉ state.sources := by
    cases event.sourceNode with
    | none => simp
    | some node => simp
  unfold HearsNew
  rw [← hsource, ← observeOne_new event.peerAddr state.peers maxMetadataCandidatesPerHash,
    ← observeOne_new (event.sourceNode.map NodeTuple.addr) state.sources 8]
  exact iff_of_eq (Bool.or_eq_true _ _)

/-- The attempt that an event at `now` allows the hash is due within the lifetime of the record: the next one of
a record that is not exhausted, and the extra one that a new candidate earns an exhausted record. -/
structure InTime (policy : MetadataOptions) (state : RetryState) (event : HashDiscovered) (now : Instant) :
    Prop where
  next : state.record.failures < state.record.attemptLimit policy → state.record.nextDue < state.record.expiresAt
  extra : state.record.attemptLimit policy ≤ state.record.failures →
    state.record.failures < min (policy.retryMaxAttempts + state.record.extraAttempts + 1) usizeMax →
    state.HearsNew event → state.record.extraAttempts < 2 → 0 < policy.retryMaxAttempts →
    retryDeadline now (max (secs policy.retryInitialDelaySecs) (millis 100)) < state.record.expiresAt

instance (policy : MetadataOptions) (state : RetryState) (event : HashDiscovered) (now : Instant) :
    Decidable (state.InTime policy event now) :=
  decidable_of_iff (_ ∧ _) ⟨fun h => ⟨h.1, h.2⟩, fun h => ⟨h.next, h.extra⟩⟩

/-- The record that the event leaves is due in time, if it allows an attempt, exactly under that condition. -/
lemma inTime_iff (policy : MetadataOptions) (state : RetryState) (event : HashDiscovered) (now : Instant) :
    state.InTime policy event now ↔
      let record := grantedRecord state.record
        (state.observe event.peerAddr (event.sourceNode.map NodeTuple.addr)).2 now policy
      Open policy record → record.nextDue < record.expiresAt := by
  unfold grantedRecord Open
  split_ifs with hgrant
  · obtain ⟨hlimit, hnew, hextra, hmax⟩ := hgrant
    refine ⟨fun h hopen => h.extra hlimit hopen ((observe_new state event).mp hnew) hextra hmax,
      fun h => ⟨fun hopen => absurd hopen hlimit.not_gt, fun _ hopen _ _ _ => h hopen⟩⟩
  · refine ⟨fun h hopen => h.next hopen, fun h => ⟨h, fun hlimit _ hnew hextra hmax => ?_⟩⟩
    exact absurd ⟨hlimit, (observe_new state event).mpr hnew, hextra, hmax⟩ hgrant

end RetryState

namespace MetadataScheduler

variable {sch : MetadataScheduler} {s s' : SchedulerState} {event : SchedulerEvent}

/-- The condition on an event and the state before it: a hash that is not in flight and has a record which has
not expired is queued in time. -/
def InTime (sch : MetadataScheduler) (s : SchedulerState) : SchedulerEvent → Prop
  | .hashReceived hash now _ =>
    s.phase = .waiting → s.inputClosed = false → s.inFlight.get hash.infoHash = none →
      ∀ state ∈ s.retryHistory.entries.get hash.infoHash, now < state.record.expiresAt →
        state.InTime sch.metadataOptions hash now
  | _ => True

instance (sch : MetadataScheduler) (s : SchedulerState) (event : SchedulerEvent) :
    Decidable (sch.InTime s event) := by
  cases event with
  | hashReceived hash now room =>
    unfold InTime
    infer_instance
  | _ => exact inferInstanceAs (Decidable True)

/-- The runs in which every event finds its hash in time. -/
inductive ReachableInTime (sch : MetadataScheduler) : SchedulerState → Prop where
  | start : ReachableInTime sch sch.start
  | step {s s' : SchedulerState} (event : SchedulerEvent) (hr : ReachableInTime sch s)
      (hevent : sch.InTime s event) (hs : sch.step s event = .ok s') : ReachableInTime sch s'

lemma ReachableInTime.reachable (hr : ReachableInTime sch s) : Reachable sch s := by
  induction hr with
  | start => exact .start
  | step event _ _ hs ih => exact .step event ih hs

lemma Reachable.exact (hr : Reachable sch s) : s.retryHistory.Exact := by
  induction hr with
  | start => exact exact_new
  | step event hr hs ih =>
    cases hr.step_work hs with
    | acts _ hacts => exact Acts.exact hacts ih
    | result _ _ _ _ _ _ hresult => exact hresult.exact ih

/-- What an event finds in the history of its hash. -/
lemma observeEvent_known (sch : MetadataScheduler) (hexact : s.retryHistory.Exact) {now : Instant}
    {state : RetryState} (hstate : s.retryHistory.entries.get hash.infoHash = some state)
    (hlive : now < state.record.expiresAt) :
    (s.retryHistory.observeEvent hash now sch.metadataOptions).2 =
      some (grantedRecord state.record
        (state.observe hash.peerAddr (hash.sourceNode.map NodeTuple.addr)).2 now sch.metadataOptions) := by
  have hkept : (s.retryHistory.expire now).entries.get hash.infoHash = some state := by
    rw [(expire_spec hexact now).entries, hstate]
    exact filter_some_pos (decide_eq_true hlive)
  unfold observeEvent
  dsimp only
  rw [hkept]
  rfl

lemma observeEvent_unknown (sch : MetadataScheduler) (hexact : s.retryHistory.Exact) {now : Instant}
    (hnone : ∀ state ∈ s.retryHistory.entries.get hash.infoHash, ¬now < state.record.expiresAt) :
    (s.retryHistory.observeEvent hash now sch.metadataOptions).2 = none := by
  have hgone : (s.retryHistory.expire now).entries.get hash.infoHash = none := by
    rw [(expire_spec hexact now).entries]
    exact filter_eq_none_iff.mpr fun state hstate => by simpa using hnone state hstate
  unfold observeEvent
  dsimp only
  rw [hgone]

/-- The condition says that the record an event is offered is due in time. -/
lemma inTime_iff_offered (hexact : s.retryHistory.Exact) :
    sch.InTime s event ↔ ∀ record, sch.offeredRecord s event = some record →
      Open sch.metadataOptions record → record.nextDue < record.expiresAt := by
  cases event with
  | hashReceived hash now room =>
    dsimp only [InTime, offeredRecord]
    by_cases hready : s.phase = .waiting ∧ s.inputClosed = false ∧ s.inFlight.get hash.infoHash = none
    swap
    · rw [if_neg hready]
      exact ⟨fun _ record hnone => absurd hnone (some_ne_none record).symm,
        fun _ hphase hinput hflight => absurd ⟨hphase, hinput, hflight⟩ hready⟩
    rw [if_pos hready]
    constructor
    · intro hin record hrecord
      by_cases hknown : ∃ state ∈ s.retryHistory.entries.get hash.infoHash, now < state.record.expiresAt
      · obtain ⟨state, hstate, hlive⟩ := hknown
        rw [observeEvent_known sch hexact hstate hlive] at hrecord
        cases hrecord
        exact (state.inTime_iff _ hash now).mp (hin hready.1 hready.2.1 hready.2.2 state hstate hlive)
      · rw [observeEvent_unknown sch hexact fun state hstate hlive => hknown ⟨state, hstate, hlive⟩] at hrecord
        cases hrecord
    · intro hoffered _ _ _ state hstate hlive
      exact (state.inTime_iff _ hash now).mpr (hoffered _ (observeEvent_known sch hexact hstate hlive))
  | _ => exact ⟨fun _ record hnone => absurd hnone (some_ne_none record).symm, fun _ => trivial⟩

lemma Reachable.due_step (hr : Reachable sch s) (hdue : Due s.queue.entries) (hevent : sch.InTime s event)
    (hstep : sch.step s event = .ok s') : Due s'.queue.entries := by
  have hdue' : Due s.work.queued := hdue
  cases hr.step_work hstep with
  | acts _ hacts => exact Acts.due hacts ((inTime_iff_offered hr.exact).mp hevent) hdue'
  | result _ _ _ _ _ _ hresult => exact hresult.due hdue'

lemma ReachableInTime.due (hr : ReachableInTime sch s) : Due s.queue.entries := by
  induction hr with
  | start => exact fun _ _ hentry => nomatch hentry
  | step event hr hevent hs ih => exact hr.reachable.due_step ih hevent hs

/-! ### Events that find room -/

end MetadataScheduler

namespace PendingHashQueue

variable {q queue : PendingHashQueue} {event : HashDiscovered} {now : Instant} {kind : QueuePushKind}

/-- The queue takes an event as a retry: the event is not stale, and neither the queue nor its retries are
full. -/
structure Takes (q : PendingHashQueue) (event : HashDiscovered) (now : Instant) : Prop where
  fresh : now - event.discoveredAt ≤ q.ttl
  room : q.entries.len < q.capacity
  quota : q.retryExpiry.len < q.retryQuota

lemma remove_inserted (q : PendingHashQueue) (entry : QueuedHash) :
    ((q.insert entry).remove entry.infoHash).1.entries = q.entries.erase entry.infoHash ∧
      ((q.insert entry).remove entry.infoHash).1.retryExpiry.len ≤ q.retryExpiry.len := by
  have hentry : (q.insert entry).entries.get entry.infoHash = some (q.numbered entry) := get_insert_self _ _ _
  unfold PendingHashQueue.remove
  rw [hentry]
  refine ⟨erase_insert_self _ _ _, ?_⟩
  dsimp only [PendingHashQueue.insert]
  split_ifs
  · exact (congrArg FiniteMap.len (erase_insert_self _ _ _)).trans_le (len_erase_le _ _)
  · exact len_erase_le _ _

/-- What an event finds is put in front of a queue that has room for it as a retry. -/
lemma Takes.push (ht : Takes q event now) (hpush : q.push event now = .ok (queue, kind))
    (hname : ∀ entry, q.entries.get event.infoHash = some entry → entry.infoHash = event.infoHash) :
    ∃ (rest : PendingHashQueue) (entry : QueuedHash), queue = rest.insert entry ∧ entry.infoHash = event.infoHash ∧ rest.capacity = q.capacity ∧
      rest.entries.len < q.capacity ∧ rest.retryExpiry.len < q.retryQuota := by
  unfold PendingHashQueue.push at hpush
  rw [if_neg ht.fresh.not_gt] at hpush
  cases hentry : q.entries.get event.infoHash with
  | none =>
    rw [show q.remove event.infoHash = (q, none) from
      Prod.ext (remove_none hentry) ((remove_snd q _).trans hentry)] at hpush
    dsimp only at hpush
    rw [if_pos ht.room] at hpush
    cases hpush
    exact ⟨q, _, rfl, freshEntry_infoHash .., rfl, ht.room, ht.quota⟩
  | some entry =>
    rw [show q.remove event.infoHash = ((q.remove event.infoHash).1, some entry) from
      Prod.ext rfl ((remove_snd q _).trans hentry)] at hpush
    cases hpush
    refine ⟨_, _, rfl, (updatedEntry_infoHash ..).trans (hname entry hentry), remove_capacity q _, ?_, ?_⟩
    · rw [remove_fst_entries]
      exact (len_erase_le _ _).trans_lt ht.room
    · refine lt_of_le_of_lt ?_ ht.quota
      unfold PendingHashQueue.remove
      rw [hentry]
      exact len_erase_le _ _

end PendingHashQueue

namespace MetadataScheduler

variable {sch : MetadataScheduler} {s s' : SchedulerState}

lemma deferPushed_stored {q queue : PendingHashQueue} {event : HashDiscovered} {now : Instant}
    {kind : QueuePushKind} {S : Set String} (hq : q.Within S) (ht : q.Takes event now)
    (hpush : q.push event now = .ok (queue, kind)) (record : RetryRecord) :
    ∃ entry, (deferPushed queue event.infoHash (some record)).entries.get event.infoHash = some entry ∧
      entry.isRetry = true ∧ entry.readyAt = record.nextDue ∧ entry.expiresAt = record.expiresAt := by
  obtain ⟨rest, entry, rfl, hname, hcapacity, hlen, hquota⟩ := ht.push hpush fun entry hentry => (hq _ _ hentry).1
  have hremove : (rest.insert entry).remove event.infoHash =
      (((rest.insert entry).remove event.infoHash).1, some (rest.numbered entry)) := by
    refine Prod.ext rfl ?_
    rw [remove_snd, ← hname]
    exact get_insert_self _ _ _
  obtain ⟨hentries, hretries⟩ := remove_inserted rest entry
  rw [hname] at hentries hretries
  have habsent : ((rest.insert entry).remove event.infoHash).1.entries.get (rest.numbered entry).infoHash =
      none := by
    rw [hentries]
    exact hname ▸ get_erase_self _ _
  have hcap : ((rest.insert entry).remove event.infoHash).1.capacity = q.capacity := by
    rw [remove_capacity]
    exact hcapacity
  unfold deferPushed
  rw [hremove]
  dsimp only
  rw [defer_absent habsent, if_neg]
  · generalize ((rest.insert entry).remove event.infoHash).1 = left
    refine ⟨left.numbered (deferredEntry (rest.numbered entry) record), ?_, rfl, rfl, rfl⟩
    rw [← hname]
    exact get_insert_self _ _ _
  · rw [not_or, not_le, not_le, hcap, hentries, retryQuota, hcap]
    exact ⟨(len_erase_le _ _).trans_lt hlen, hretries.trans_lt hquota⟩

/-- An event that the queue takes keeps the property only in time. -/
lemma inTime_of_due (hr : Reachable sch s) {now : Instant} {room : Bool}
    (ht : s.queue.Takes hash now) (hstep : sch.step s (.hashReceived hash now room) = .ok s')
    (hdue : Due s'.queue.entries) : sch.InTime s (.hashReceived hash now room) := by
  intro hphase hinput hflight state hstate hlive
  refine (state.inTime_iff _ hash now).mpr fun hopen => ?_
  have hjobs : Jobs sch s := by
    rcases hr.jobs with hjobs | haborted
    · exact hjobs
    · exact absurd (haborted.phase.symm.trans hphase) nofun
  have hrecord := observeEvent_known sch hr.exact hstate hlive
  have hallowed : ¬sch.isExhausted (s.retryHistory.observeEvent hash now sch.metadataOptions).2 = true := by
    rw [hrecord]
    exact fun hover => (of_decide_eq_true hover).not_gt hopen
  dsimp only [MetadataScheduler.step, select] at hstep
  rw [if_pos hphase, hinput] at hstep
  obtain ⟨t, hqueued, hok⟩ := Except.bind_eq_ok.mp hstep
  unfold enqueue at hqueued
  dsimp only at hqueued
  rw [if_neg Bool.false_ne_true, hflight] at hqueued
  dsimp only at hqueued
  rw [if_neg hallowed] at hqueued
  obtain ⟨⟨queue, kind⟩, hpush, hqueued⟩ := Except.bind_eq_ok.mp hqueued
  have hsame : s'.queue = deferPushed queue hash.infoHash
      (s.retryHistory.observeEvent hash now sch.metadataOptions).2 := by
    cases hqueued
    cases hok
    split_ifs <;> exact queue_recordQueuePush _ _
  obtain ⟨entry, hentry, hretry, hready, hexpires⟩ := deferPushed_stored hjobs.queued ht hpush _
  rw [hsame, hrecord] at hdue
  have hrun := hdue _ entry hentry hretry
  rw [hready, hexpires] at hrun
  exact hrun

/-- **Queued retries become due.** A run in which every event finds its hash in time queues no retry that expires
before it is due, and an event that the queue takes as a retry keeps this exactly if it is in time. -/
theorem queued_retries_due (sch : MetadataScheduler) :
    (∀ s, ReachableInTime sch s → ∀ hash entry, s.queue.entries.get hash = some entry → entry.isRetry = true →
      entry.readyAt < entry.expiresAt) ∧
    ∀ s s' hash now room, ReachableInTime sch s → s.queue.Takes hash now →
      sch.step s (.hashReceived hash now room) = .ok s' →
      ((∀ other entry, s'.queue.entries.get other = some entry → entry.isRetry = true →
        entry.readyAt < entry.expiresAt) ↔ sch.InTime s (.hashReceived hash now room)) := by
  refine ⟨fun s hr => hr.due, fun s s' hash now room hr ht hstep => ⟨?_, fun hin => ?_⟩⟩
  · exact inTime_of_due hr.reachable ht hstep
  · exact hr.reachable.due_step hr.due hin hstep

/-- A step in time, if there is one. -/
def stepInTime (sch : MetadataScheduler) (s : SchedulerState) (event : SchedulerEvent) : Option SchedulerState :=
  if sch.InTime s event then (sch.step s event).toOption else none

lemma reachableInTime_run {events : List SchedulerEvent} (h : events.foldlM sch.stepInTime sch.start = some s) :
    ReachableInTime sch s := by
  have hsteps : ∀ (events : List SchedulerEvent) (t : SchedulerState), ReachableInTime sch t →
      events.foldlM sch.stepInTime t = some s → ReachableInTime sch s := by
    intro events
    induction events with
    | nil =>
      intro t ht hrun
      cases hrun
      exact ht
    | cons event events ih =>
      intro t ht hrun
      rw [List.foldlM_cons] at hrun
      obtain ⟨t', hstep, hrest⟩ := bind_eq_some_iff.mp hrun
      unfold stepInTime at hstep
      split_ifs at hstep with hin
      cases hok : sch.step t event with
      | error e =>
        rw [hok] at hstep
        cases hstep
      | ok u =>
        rw [hok] at hstep
        cases hstep
        exact ih t' (.step event ht hin hok) hrest
  exact hsteps events _ .start h

/-- Two events for a hash whose job failed in between, the second one in time. -/
def announcedAgain : List SchedulerEvent :=
  [headAt 0 7, .hashReceived (exampleEvent "aa" none 0) 0 true, headAt (secs 1) 7, .taskEnded 7 .panicked,
    .taskJoined 7 (secs 1) true, headAt (secs 1) 7, .hashReceived (exampleEvent "aa" none (secs 2)) (secs 2) true]

theorem queued_retries_due_announced :
    ∃ s entry, ReachableInTime (.new 4 1 {} true) s ∧ s.queue.entries.get "aa" = some entry ∧
      entry.isRetry = true ∧ entry.readyAt < entry.expiresAt := by
  have hrun : (announcedAgain.foldlM (MetadataScheduler.new 4 1 {} true).stepInTime (start (.new 4 1 {} true))).any
      (fun s => (s.queue.entries.get "aa").any fun entry => entry.isRetry) = true := by decide +kernel
  obtain ⟨s, hs, hentry⟩ := (any_eq_true _ _).mp hrun
  obtain ⟨entry, hentry, hretry⟩ := (any_eq_true _ _).mp hentry
  have hr := reachableInTime_run hs
  exact ⟨s, entry, hr, hentry, hretry, (queued_retries_due (.new 4 1 {} true)).1 s hr "aa" entry hentry hretry⟩

/-- The application defers a job beyond the lifetime of its record, and the hash is then announced again: the
retry that is queued for it is due at 201 seconds and expires at 101. -/
theorem queued_retry_never_due :
    ∃ sch s hash entry, Reachable sch s ∧ s.queue.entries.get hash = some entry ∧ entry.isRetry = true ∧
      entry.expiresAt < entry.readyAt := by
  let sch : MetadataScheduler := .new 4 1 { retryHistoryTtlSecs := 100 } true
  let events : List SchedulerEvent :=
    [headAt 0 7, .hashReceived (exampleEvent "aa" none 0) 0 true, headAt (secs 1) 7,
      .taskEnded 7 (.returned ⟨some (.retryAfter (secs 200)), 0, none⟩), .taskJoined 7 (secs 1) true,
      headAt (secs 1) 7, .hashReceived (exampleEvent "aa" none (secs 2)) (secs 2) true]
  have hrun : (sch.run events).isOkAnd (fun s => (s.queue.entries.get "aa").any fun entry =>
      entry.isRetry && entry.expiresAt < entry.readyAt) = true := by decide +kernel
  obtain ⟨s, hs, hentry⟩ := Except.isOkAnd_eq_true.mp hrun
  obtain ⟨entry, hentry, hover⟩ := (any_eq_true _ _).mp hentry
  obtain ⟨hretry, hover⟩ := (Bool.and_eq_true _ _).mp hover
  exact ⟨sch, s, "aa", entry, reachable_run hs, hentry, hretry, of_decide_eq_true hover⟩

end MetadataScheduler

end DhtCrawler
