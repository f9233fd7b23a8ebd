import DhtCrawler.QueueMerge
import DhtCrawler.RetryLifetimes

/-! What becomes of a job that the gate puts off. -/

namespace DhtCrawler

open FiniteMap Newest RetryHistory MetadataScheduler PendingHashQueue Work List

variable {delay : Duration}

/-! ### Entries without repetitions -/

structure QueuedHash.Tidy (entry : QueuedHash) : Prop where
  peers : (entry.peers.map PeerCandidate.addr).Nodup
  sourceNodes : (entry.sourceNodes.map NodeTuple.addr).Nodup

lemma QueuedHash.Tidy.mergeAll {entry : QueuedHash} (h : entry.Tidy) (events : List HashDiscovered) :
    (DhtCrawler.mergeAll entry events).Tidy := by
  obtain ⟨news, -, hpeers⟩ := mergeAll_displaces_peers entry events
  exact ⟨hpeers.nodup h.peers, (mergeAll_displaces_sourceNodes entry events).nodup h.sourceNodes⟩

namespace Work

variable {policy : MetadataOptions} {offered : Option RetryRecord} {heard : HashDiscovered → Instant → Prop}
  {w w' : Work} {hash : String} {entry : QueuedHash}

def AllTidy (w : Work) : Prop := ∀ hash entry, w.Live hash entry → entry.Tidy

lemma carried_nodup (heard : HashDiscovered → Instant → Prop) : Carried heard fun _ peers sourceNodes =>
    (peers.map PeerCandidate.addr).Nodup ∧ (sourceNodes.map NodeTuple.addr).Nodup where
  fresh _ := ⟨nodup_nil, nodup_nil⟩
  merge event _ entry _ h :=
    have htidy := QueuedHash.Tidy.mergeAll ⟨h.1, h.2⟩ [event]
    ⟨htidy.peers, htidy.sourceNodes⟩
  start _ entry now h := by
    refine ⟨h.1.sublist (Sublist.map _ ?_), h.2⟩
    exact (take_sublist _ _).trans filter_sublist

/-! ### Jobs in flight -/

/-- The hash is not queued, and its job has the entry `entry` if it is in flight. -/
structure Flies (hash : String) (entry : QueuedHash) (w : Work) : Prop where
  idle : w.queued.get hash = none
  entry : ∀ state, w.inFlight.get hash = some state → state.entry = entry

lemma Act.flies (hact : Act policy offered heard w w') (hheard : ∀ event now, heard event now → hash ≠ event.infoHash)
    (h : Flies hash entry w) : Flies hash entry w' := by
  cases hact with
  | fade hfade =>
    refine ⟨Option.eq_none_iff_forall_ne_some.mpr fun entry' hentry' => ?_, h.entry⟩
    obtain ⟨old, _, hold, -⟩ := origin_of_fades (.single hfade) hentry'
    cases h.idle.symm.trans hold
  | merge event now room hnow =>
    exact ⟨h.idle, fun state hstate => h.entry state ((get_insert_ne _ (hheard event now hnow) _).symm.trans hstate)⟩
  | observe => exact ⟨h.idle, h.entry⟩
  | push event now orderKey hnow =>
    exact ⟨(get_insert_ne _ (hheard event now hnow) _).trans h.idle, h.entry⟩
  | offer event now orderKey hnow =>
    exact ⟨(get_insert_ne _ (hheard event now hnow) _).trans h.idle, h.entry⟩
  | @start name old hold =>
    have hne : hash ≠ name := by
      rintro rfl
      cases h.idle.symm.trans hold
    exact ⟨(get_erase_ne _ hne).trans h.idle,
      fun state hstate => h.entry state ((get_insert_ne _ hne _).symm.trans hstate)⟩
  | abandon => exact ⟨rfl, fun _ hstate => nomatch hstate⟩

lemma Acts.flies (hacts : Acts policy offered heard w w')
    (hheard : ∀ event now, heard event now → hash ≠ event.infoHash) (h : Flies hash entry w) :
    Flies hash entry w' := by
  induction hacts with
  | refl => exact h
  | tail _ hact ih => exact hact.flies hheard ih

end Work

namespace MetadataScheduler

variable {sch : MetadataScheduler} {s s' : SchedulerState} {n : ℕ} {t t' now : Instant} {hash : String}
  {event : SchedulerEvent} {state : InFlightState}

lemma Reachable.tidy (hr : Reachable sch s) : s.work.AllTidy := by
  have hnodup : s.work.Bears fun _ peers sourceNodes =>
      (peers.map PeerCandidate.addr).Nodup ∧ (sourceNodes.map NodeTuple.addr).Nodup := by
    induction hr with
    | start => exact bears_start sch
    | step event hr hstep ih =>
      cases hr.step_work hstep with
      | acts _ hacts => exact Acts.carried hacts (carried_nodup _) ih
      | result _ _ _ _ _ _ hresult => exact hresult.carried ih
  exact fun hash entry hlive => ⟨(hnodup hash entry hlive).1, (hnodup hash entry hlive).2⟩

def gained (hash : String) (s : SchedulerState) : SchedulerEvent → List HashDiscovered
  | .hashReceived event now _ =>
    if s.phase = .waiting ∧ s.inputClosed = false ∧ event.infoHash = hash ∧
      now - event.discoveredAt ≤ hashQueueTtl then [event] else []
  | _ => []

def Carries (hash : String) (entry : QueuedHash) (s : SchedulerState) : Prop :=
  ∀ state, s.inFlight.get hash = some state → state.entry = entry

lemma carries_of_get (hstate : s.inFlight.get hash = some state) : Carries hash state.entry s := by
  intro state' hstate'
  cases hstate.symm.trans hstate'
  rfl

lemma select_own {event : HashDiscovered} (hstate : s.inFlight.get event.infoHash = some state)
    (hphase : s.phase = .waiting) (now : Instant) (room : Bool) :
    Except.Safe (fun _ => True) (sch.select s (.hashReceived event now room))
      (Carries event.infoHash (mergeAll state.entry (gained event.infoHash s (.hashReceived event now room)))) := by
  dsimp only [gained, select]
  split_ifs with hinput htaken htaken
  · exact absurd (hinput.symm.trans htaken.2.1) nofun
  · exact carries_of_get hstate
  all_goals
    unfold enqueue
    dsimp only
    rw [hstate]
    dsimp only
  · rw [if_neg htaken.2.2.2.not_gt]
    intro state' hstate'
    cases (get_insert_self _ _ _).symm.trans hstate'
    exact mergeInFlight_entry state event room
  · rw [if_pos (not_le.mp fun hlive => htaken ⟨hphase, Bool.eq_false_iff.mpr hinput, rfl, hlive⟩)]
    exact carries_of_get (s := SchedulerState.recordQueuePush _ .stale) hstate

lemma step_own {event : HashDiscovered} (hstate : s.inFlight.get event.infoHash = some state) (now : Instant)
    (room : Bool) :
    Except.Safe (fun _ => True) (sch.step s (.hashReceived event now room))
      (Carries event.infoHash (mergeAll state.entry (gained event.infoHash s (.hashReceived event now room)))) := by
  refine step_safe (fun _ _ h => nomatch h) (fun h => nomatch h) (fun _ _ h => nomatch h)
    (fun hphase => (select_own hstate hphase now room).mono fun s' hs' => ?_) (fun _ _ h => nomatch h)
    fun _ hphase => ?_
  · split_ifs <;> exact hs'
  · rw [gained, if_neg fun h => hphase h.1]
    exact carries_of_get hstate

lemma Reachable.jobs_of_inFlight (hr : Reachable sch s) (hstate : s.inFlight.get hash = some state) :
    Jobs sch s := by
  rcases hr.jobs with hjobs | haborted
  · exact hjobs
  · rw [haborted.inFlight] at hstate
    cases hstate

lemma Reachable.carries (hr : Reachable sch s) (hstate : s.inFlight.get hash = some state)
    (hstep : sch.step s event = .ok s') : Carries hash (mergeAll state.entry (gained hash s event)) s' := by
  by_cases hown : ∃ hash' now room, event = .hashReceived hash' now room ∧ hash'.infoHash = hash
  · obtain ⟨_, now, room, rfl, rfl⟩ := hown
    exact (step_own hstate now room).of_ok hstep
  have hnone : gained hash s event = [] := by
    cases event with
    | hashReceived hash' now room => exact if_neg fun h => hown ⟨hash', now, room, rfl, h.2.2.1⟩
    | _ => rfl
  have hheard : ∀ hash' now, event.Hears hash' now → hash ≠ hash'.infoHash := by
    rintro hash' now hhears rfl
    cases event with
    | hashReceived hash' now room => exact hown ⟨_, now, room, rfl, congrArg HashDiscovered.infoHash hhears.1.symm⟩
    | _ => exact hhears
  have hidle : s.queue.entries.get hash = none :=
    (hr.jobs_of_inFlight hstate).queued.notMem fun hflight => absurd (hflight.symm.trans hstate) nofun
  rw [hnone]
  cases hr.step_work hstep with
  | acts _ hacts => exact (Acts.flies hacts hheard ⟨hidle, carries_of_get hstate⟩).entry
  | result _ _ _ _ _ _ hresult =>
    intro state' hstate'
    have hflight : s'.inFlight = s.inFlight.erase _ := hresult.rest.1
    rw [hflight] at hstate'
    exact carries_of_get hstate state' (get_of_get_erase hstate').2

/-- The job of `hash` has been in flight since it was dispatched with the entry `start`, and gained the
candidates of `events` since. -/
inductive Airborne (sch : MetadataScheduler) (hash : String) (start : QueuedHash) :
    List HashDiscovered → Instant → SchedulerState → Prop where
  | dispatched {n : ℕ} {t t' : Instant} {s s' : SchedulerState} {state : InFlightState} (event : SchedulerEvent)
      (hr : Clocked sch n t s) (hnone : s.inFlight.get hash = none) (htick : Tick sch t s event t' s')
      (hstate : s'.inFlight.get hash = some state) (hstart : state.entry = start) :
      Airborne sch hash start [] t' s'
  | step {events : List HashDiscovered} {t t' : Instant} {s s' : SchedulerState} {state : InFlightState}
      (event : SchedulerEvent) (hr : Airborne sch hash start events t s) (htick : Tick sch t s event t' s')
      (hstate : s'.inFlight.get hash = some state) :
      Airborne sch hash start (events ++ gained hash s event) t' s'

variable {start : QueuedHash} {events : List HashDiscovered}

lemma Airborne.clocked (h : Airborne sch hash start events t s) : ∃ n, Clocked sch n t s := by
  induction h with
  | dispatched event hr _ htick _ _ => exact ⟨_, .step event hr htick⟩
  | step event _ htick _ ih =>
    obtain ⟨n, hr⟩ := ih
    exact ⟨_, .step event hr htick⟩

lemma Clocked.airborne (hr : Clocked sch n t s) (hstate : s.inFlight.get hash = some state) :
    ∃ start events, Airborne sch hash start events t s := by
  induction hr generalizing state with
  | start => exact nomatch hstate
  | @step n t t' s s' event hr htick ih =>
    cases hold : s.inFlight.get hash with
    | none => exact ⟨state.entry, [], .dispatched event hr hold htick hstate rfl⟩
    | some old =>
      obtain ⟨start, events, hfly⟩ := ih hold
      exact ⟨start, _, .step event hfly htick hstate⟩

lemma Airborne.entry (h : Airborne sch hash start events t s) :
    ∃ state, s.inFlight.get hash = some state ∧ state.entry = mergeAll start events := by
  induction h with
  | @dispatched n t t' s s' state event _ _ _ hstate hstart => exact ⟨state, hstate, hstart⟩
  | @step events t t' s s' state event hr htick hstate ih =>
    obtain ⟨old, hold, hentry⟩ := ih
    obtain ⟨n, hclocked⟩ := hr.clocked
    refine ⟨state, hstate, (hclocked.reachable.carries hold htick.step state hstate).trans ?_⟩
    rw [hentry]
    exact foldl_append.symm

lemma Airborne.tidy (h : Airborne sch hash start events t s) : start.Tidy := by
  induction h with
  | dispatched event hr _ htick hstate hstart =>
    rw [← hstart]
    exact (hr.reachable.step event htick.step).tidy hash _ (.inr ⟨_, hstate, rfl⟩)
  | step event _ _ _ ih => exact ih

lemma mergeAll_lifetime (entry : QueuedHash) (events : List HashDiscovered) :
    (mergeAll entry events).isRetry = entry.isRetry ∧ (mergeAll entry events).expiresAt = entry.expiresAt := by
  induction events generalizing entry with
  | nil => exact ⟨rfl, rfl⟩
  | cons event rest ih => exact ih (mergeCandidate entry event).1

/-! ### The gate asks for a delay -/

structure Deferred (s : SchedulerState) (id : TaskId) (hash : String) (delay : Duration) : Prop where
  phase : s.phase = .waiting
  task : ∃ task run, s.tasks.get id = some task ∧ task.job.infoHash = hash ∧
    task.ended = some (.returned run) ∧ run.gate = some (.retryAfter delay)

structure Room (sch : MetadataScheduler) (s : SchedulerState) (hash : String) (t : Instant) : Prop where
  history : (s.retryHistory.expire t).entries.contains hash = true ∨
    (s.retryHistory.expire t).entries.len < sch.metadataOptions.retryHistoryCapacity
  queue : s.queue.entries.len < s.queue.capacity
  quota : s.queue.retryExpiry.len < s.queue.retryQuota

def failureCount (history : RetryHistory) (hash : String) : ℕ :=
  ((history.recordOf hash).map RetryRecord.failures).getD 0

def deferredUntil (t : Instant) (delay : Duration) : Instant :=
  t + max (min delay (secs (7 * 24 * 60 * 60))) (millis 100)

lemma retryDeadline_eq (t : Instant) (delay : Duration) :
    retryDeadline t (max delay (millis 100)) = deferredUntil t delay := by
  have hle : millis 100 ≤ secs (7 * 24 * 60 * 60) := by decide
  unfold retryDeadline deferredUntil maxRetryLifetime
  rw [min_max_distrib_right, min_eq_left hle]

variable {history : RetryHistory}

lemma record_of_room {policy : MetadataOptions} (failed : Bool) (delay : Duration)
    (hroom : (history.expire now).entries.contains hash = true ∨ (history.expire now).entries.len < policy.retryHistoryCapacity) :
    ∃ history' record, history.record hash now failed delay policy = .ok (history', some record) := by
  dsimp only [RetryHistory.record]
  split_ifs with hfull hmem
  · rw [Bool.and_eq_true, Bool.not_eq_true', decide_eq_true_iff] at hfull
    rcases hroom with hmem | hlt
    · exact absurd hmem (Bool.eq_false_iff.mp hfull.1)
    · exact absurd hlt (not_lt.mpr hfull.2)
  · obtain ⟨state, hstate⟩ := contains_iff.mp hmem
    rw [hstate]
    exact ⟨_, _, rfl⟩
  · rw [get_insert, if_pos rfl]
    exact ⟨_, _, rfl⟩

lemma scheduleRetry_defers {entry : QueuedHash} {failed : Bool} {record : RetryRecord}
    (hpolicy : 1 ≤ sch.metadataOptions.retryMaxAttempts)
    (hlive : ¬(entry.isRetry = true ∧ entry.expiresAt ≤ now))
    (hrecord : s.retryHistory.record entry.infoHash now failed delay sch.metadataOptions = .ok (history, some record))
    (hopen : record.failures < record.attemptLimit sch.metadataOptions)
    (hdue : record.nextDue < record.expiresAt) :
    sch.scheduleRetry s entry failed delay now = .ok
      { s with retryHistory := history.remember entry, queue := (s.queue.defer entry record).1 } := by
  unfold scheduleRetry
  rw [if_neg (Nat.one_le_iff_ne_zero.mp hpolicy), if_neg hlive, hrecord, Except.ok_bind]
  dsimp only
  rw [if_neg (not_or.mpr ⟨not_le.mpr hopen, not_le.mpr hdue⟩)]

/-- The result of the job is handed to `schedule_retry` with the queue and the history as they are. -/
lemma step_deferred {id : TaskId} (hs : Jobs sch s) (hdeferred : Deferred s id hash delay)
    (hstate : s.inFlight.get hash = some state) (now : Instant) (installed : Bool) :
    ∃ x : SchedulerState, x.queue = s.queue ∧ x.retryHistory = s.retryHistory ∧ x.phase = .waiting ∧
      ∀ y, sch.scheduleRetry x state.entry false delay now = .ok y → y.phase = .waiting →
        sch.step s (.taskJoined id now installed) = .ok { y with phase := .dispatching } := by
  obtain ⟨hphase, task, run, htask, rfl, hended, hgate⟩ := hdeferred
  have hqueued : s.queue.entries.get task.job.infoHash = none :=
    hs.queued.notMem fun hnone => absurd (hnone.symm.trans hstate) nofun
  have hresult : (TaskEnd.returned run).result task.job =
      { infoHash := task.job.infoHash, attempts := 0, outcome := .deferred delay } := by
    change processHash task.job run = _
    unfold processHash
    rw [hgate]
  have hjoin : ∃ x : SchedulerState, x.queue = s.queue ∧ x.retryHistory = s.retryHistory ∧ x.phase = .waiting ∧
      sch.joinNext s id task (.returned run) now installed =
        sch.scheduleRetry x state.entry false delay now := by
    rw [hs.joinNext_eq htask, hresult]
    unfold handleJobResult
    rw [show (joinedState s id task (.returned run)).inFlight.get task.job.infoHash = some state from hstate]
    dsimp only
    rw [trace_eq (get_insert_self _ _ _)]
    refine ⟨_, ?_, ?_, ?_, rfl⟩
    · exact remove_none hqueued
    · rfl
    · exact hphase
  obtain ⟨x, hqueue, hhistory, hphase', hjoin⟩ := hjoin
  refine ⟨x, hqueue, hhistory, hphase', fun y hretry hy => ?_⟩
  dsimp only [MetadataScheduler.step, select]
  rw [if_pos hphase, htask]
  dsimp only
  rw [hended]
  dsimp only
  rw [hjoin, hretry, Except.ok_bind, hy, if_neg (by decide)]

/-- The hash is queued again with everything its job knew, and the gate's delay is no failure. -/
structure PutBack (s s' : SchedulerState) (hash : String) (start : QueuedHash) (events : List HashDiscovered)
    (readyAt : Instant) (entry : QueuedHash) : Prop where
  queued : s'.queue.entries.get hash = some entry
  retry : entry.isRetry = true
  ready : entry.readyAt = readyAt
  peers : ∀ addr, addr ∈ start.peers.map PeerCandidate.addr ∨ addr ∈ events.filterMap HashDiscovered.peerAddr →
    addr ∈ entry.peers.map PeerCandidate.addr ∨ entry.peers.length = 64
  sourceNodes : entry.sourceNodes = (mergeAll start events).sourceNodes
  sources : ∀ addr, addr ∈ start.sourceNodes.map NodeTuple.addr ∨
      addr ∈ (events.filterMap HashDiscovered.sourceNode).map NodeTuple.addr →
    addr ∈ entry.sourceNodes.map NodeTuple.addr ∨ entry.sourceNodes.length = 8
  failures : failureCount s'.retryHistory hash = failureCount s.retryHistory hash

lemma Airborne.putBack (hpolicy : 1 ≤ sch.metadataOptions.retryMaxAttempts) {t₀ : Instant}
    (hfly : Airborne sch hash start events t₀ s) (hroom : Room sch s hash t)
    (hdue : deferredUntil t delay < (resumedRecord s.retryHistory hash t sch.metadataOptions).expiresAt)
    (hstate : s.inFlight.get hash = some state) (hentry : state.entry = mergeAll start events)
    (hlive : ¬(state.entry.isRetry = true ∧ state.entry.expiresAt ≤ t)) {x : SchedulerState}
    (hqueue : x.queue = s.queue) (hhistory : x.retryHistory = s.retryHistory) :
    ∃ y entry, sch.scheduleRetry x state.entry false delay t = .ok y ∧ y.phase = x.phase ∧
      PutBack s y hash start events (deferredUntil t delay) entry := by
  obtain ⟨n, hr⟩ := hfly.clocked
  have hw := hr.retries hpolicy
  have hs := hr.reachable.jobs_of_inFlight hstate
  have hname := hs.inFlightName _ _ hstate
  obtain ⟨history, record, hrecord⟩ := record_of_room false delay hroom.history
  have hrecords := records hw.exact hrecord state.entry
  have hresult : record = recordedResult (resumedRecord s.retryHistory hash t sch.metadataOptions) t false
      delay sch.metadataOptions := by
    rcases hrecords.result with ⟨hnone, -⟩ | hsome
    · cases hnone
    · exact Option.some_inj.mp hsome
  have hnext : record.nextDue = deferredUntil t delay := by
    rw [hresult]
    exact retryDeadline_eq t delay
  have hopen : record.failures < record.attemptLimit sch.metadataOptions := by
    rw [hresult]
    exact (hw.resumed hpolicy hstate hlive).1
  have hbefore : record.nextDue < record.expiresAt := by
    rw [hnext, hresult]
    exact hdue
  have hidle : s.queue.entries.get state.entry.infoHash = none := by
    rw [hname]
    exact hs.queued.notMem fun hnone => absurd (hnone.symm.trans hstate) nofun
  have hdeferred : s.queue.defer state.entry record =
      (s.queue.insert (deferredEntry state.entry record), true) := by
    rw [defer_absent hidle, if_neg (not_or.mpr ⟨hroom.queue.not_ge, hroom.quota.not_ge⟩)]
  have hretry : sch.scheduleRetry x state.entry false delay t = .ok
      { x with
        retryHistory := history.remember state.entry
        queue := s.queue.insert (deferredEntry state.entry record) } := by
    rw [scheduleRetry_defers hpolicy hlive (by rw [hname, hhistory]; exact hrecord) hopen hbefore, hqueue,
      hdeferred]
  refine ⟨_, s.queue.numbered (deferredEntry state.entry record), hretry, rfl, ?_⟩
  have hpeers : state.entry.peers = (mergeAll start events).peers := congrArg QueuedHash.peers hentry
  have hsources : state.entry.sourceNodes = (mergeAll start events).sourceNodes :=
    congrArg QueuedHash.sourceNodes hentry
  refine ⟨?_, rfl, hnext, fun addr haddr => ?_, hsources, fun addr haddr => ?_, ?_⟩
  · rw [← hname]
    exact get_insert_self _ _ _
  · obtain ⟨news, hnews, hdisplaces⟩ := mergeAll_displaces_peers start events
    rw [← hnews] at haddr
    have hheld := hdisplaces.holds hfly.tidy.peers haddr
    rw [← hpeers] at hheld
    exact hheld
  · have hheld := (mergeAll_displaces_sourceNodes start events).holds hfly.tidy.sourceNodes haddr
    rw [← hsources] at hheld
    exact hheld
  · unfold failureCount
    rw [hrecords.answer, hresult]
    change (resumedRecord s.retryHistory hash t sch.metadataOptions).failures = _
    unfold resumedRecord
    rw [show (s.retryHistory.expire t).recordOf hash = s.retryHistory.recordOf hash from hw.found hstate hlive]
    cases s.retryHistory.recordOf hash <;> rfl

/-- **A job that the gate puts off.** If the history, the queue and its quota have room and the delay ends within
the lifetime of the record, the hash is queued again exactly if failure retries are enabled and its job is not a
retry that has expired; what is queued then has lost nothing. -/
theorem deferral_keeps_hash {t₀ : Instant} (hfly : Airborne sch hash start events t₀ s) {id : TaskId}
    {delay : Duration} (hdeferred : Deferred s id hash delay) (hroom : Room sch s hash t)
    (hdue : deferredUntil t delay < (Work.resumedRecord s.retryHistory hash t sch.metadataOptions).expiresAt)
    (installed : Bool) :
    ∃ s', sch.step s (.taskJoined id t installed) = .ok s' ∧
      ((∃ entry, s'.queue.entries.get hash = some entry) ↔
        1 ≤ sch.metadataOptions.retryMaxAttempts ∧ ¬(start.isRetry = true ∧ start.expiresAt ≤ t)) ∧
      ∀ entry, s'.queue.entries.get hash = some entry →
        PutBack s s' hash start events (t + max (min delay (secs (7 * 24 * 60 * 60))) (millis 100)) entry := by
  obtain ⟨state, hstate, hentry⟩ := hfly.entry
  obtain ⟨n, hr⟩ := hfly.clocked
  have hs := hr.reachable.jobs_of_inFlight hstate
  have habsent : s.queue.entries.get hash = none :=
    hs.queued.notMem fun hnone => absurd (hnone.symm.trans hstate) nofun
  obtain ⟨x, hqueue, hhistory, hphase, hstep⟩ := step_deferred hs hdeferred hstate t installed
  obtain ⟨hretry, hexpires⟩ := mergeAll_lifetime start events
  rw [← hentry] at hretry hexpires
  rw [← hretry, ← hexpires]
  by_cases hkept : 1 ≤ sch.metadataOptions.retryMaxAttempts ∧
      ¬(state.entry.isRetry = true ∧ state.entry.expiresAt ≤ t)
  · obtain ⟨y, entry, hy, hphase', hback⟩ :=
      hfly.putBack hkept.1 hroom hdue hstate hentry hkept.2 hqueue hhistory
    refine ⟨_, hstep y hy (hphase'.trans hphase), iff_of_true ⟨entry, hback.queued⟩ hkept, fun other hother => ?_⟩
    cases hback.queued.symm.trans hother
    exact { hback with }
  · have hdropped : sch.scheduleRetry x state.entry false delay t = .ok x := by
      unfold scheduleRetry
      split_ifs with hpolicy hover
      · rfl
      · rfl
      · exact absurd ⟨Nat.one_le_iff_ne_zero.mpr hpolicy, hover⟩ hkept
    have hgone : x.queue.entries.get hash = none := by rw [hqueue, habsent]
    refine ⟨_, hstep x hdropped hphase, iff_of_false ?_ hkept, fun entry hentry => ?_⟩
    · rintro ⟨entry, hentry⟩
      cases hgone.symm.trans hentry
    · cases hgone.symm.trans hentry

/-! ### One deferral -/

def putOffEvents : List (Instant × SchedulerEvent) :=
  [(0, headAt 0 0), (0, .hashReceived (exampleEvent "a" none 0) 0 true), (secs 1, headAt (secs 1) 0),
    (secs 1, .taskEnded 0 (.returned ⟨some (.retryAfter (secs 5)), 0, none⟩))]

def putOff (sch : MetadataScheduler) : SchedulerState := stateAfter sch sch.start putOffEvents

def isPutOff (sch : MetadataScheduler) : Bool :=
  ((putOffEvents.map Prod.snd).foldlM sch.step sch.start).isOkAnd (fun _ => true) &&
    (putOff sch).phase == .waiting &&
    (((putOff sch).tasks.get 0).any fun task => task.job.infoHash == "a" &&
      task.ended == some (.returned ⟨some (.retryAfter (secs 5)), 0, none⟩)) &&
    (((putOff sch).inFlight.get "a").any fun state => !state.entry.isRetry) &&
    decide (((putOff sch).retryHistory.expire (secs 2)).entries.len < sch.metadataOptions.retryHistoryCapacity) &&
    decide ((putOff sch).queue.entries.len < (putOff sch).queue.capacity) &&
    decide ((putOff sch).queue.retryExpiry.len < (putOff sch).queue.retryQuota) &&
    decide (deferredUntil (secs 2) (secs 5) <
      (resumedRecord (putOff sch).retryHistory "a" (secs 2) sch.metadataOptions).expiresAt)

lemma airborne_putOff (sch : MetadataScheduler) (h : isPutOff sch = true) :
    ∃ start events, Airborne sch "a" start events (secs 1) (putOff sch) ∧ Deferred (putOff sch) 0 "a" (secs 5) ∧
      Room sch (putOff sch) "a" (secs 2) ∧ start.isRetry = false ∧ deferredUntil (secs 2) (secs 5) <
        (resumedRecord (putOff sch).retryHistory "a" (secs 2) sch.metadataOptions).expiresAt := by
  simp only [isPutOff, Bool.and_eq_true, decide_eq_true_iff, beq_iff_eq, Option.any_eq_true] at h
  obtain ⟨⟨⟨⟨⟨⟨⟨hok, hphase⟩, task, htask, hhash, hended⟩, state, hstate, hfresh⟩, hhistory⟩, hqueue⟩, hquota⟩,
    hdue⟩ := h
  have hat : ∀ x ∈ putOffEvents, x.2.At x.1 := by
    intro x hx
    simp only [putOffEvents, mem_cons, not_mem_nil, or_false] at hx
    rcases hx with rfl | rfl | rfl | rfl
    all_goals first | exact headAt_at _ _ | exact fun r hread => hread | exact fun r hread => hread.elim
  obtain ⟨n, hr⟩ := Clocked.replay .start (by decide) hat (stateAfter_eq sch sch.start putOffEvents hok)
  obtain ⟨start, events, hfly⟩ := Clocked.airborne hr hstate
  refine ⟨start, events, hfly, ⟨hphase, task, _, htask, hhash, hended, rfl⟩,
    ⟨.inr hhistory, hqueue, hquota⟩, ?_, hdue⟩
  obtain ⟨state', hstate', hentry⟩ := hfly.entry
  cases hstate.symm.trans hstate'
  rw [← (mergeAll_lifetime start events).1, ← hentry]
  simpa using hfresh

theorem deferral_keeps_hash_default :
    ∃ s' entry,
      (MetadataScheduler.new 4 1 {} true).step (putOff (.new 4 1 {} true)) (.taskJoined 0 (secs 2) true) =
        .ok s' ∧ s'.queue.entries.get "a" = some entry ∧ entry.isRetry = true ∧ entry.readyAt = secs 7 := by
  obtain ⟨start, events, hfly, hdeferred, hroom, hfresh, hdue⟩ :=
    airborne_putOff (.new 4 1 {} true) (by decide +kernel)
  have hlive : ¬(start.isRetry = true ∧ start.expiresAt ≤ secs 2) :=
    fun hover => Bool.eq_false_iff.mp hfresh hover.1
  obtain ⟨s', hstep, hkept, hback⟩ := deferral_keeps_hash hfly hdeferred hroom hdue true
  obtain ⟨entry, hentry⟩ := hkept.mpr ⟨by decide, hlive⟩
  exact ⟨s', entry, hstep, hentry, (hback entry hentry).retry, (hback entry hentry).ready⟩

/-- Without failure retries the hash is dropped. -/
theorem deferral_drops_hash :
    ∃ sch hash start events t₀ s id delay t s', Airborne sch hash start events t₀ s ∧ Deferred s id hash delay ∧
      Room sch s hash t ∧
      deferredUntil t delay < (Work.resumedRecord s.retryHistory hash t sch.metadataOptions).expiresAt ∧
      ¬(start.isRetry = true ∧ start.expiresAt ≤ t) ∧ sch.step s (.taskJoined id t true) = .ok s' ∧
      s'.queue.entries.get hash = none := by
  obtain ⟨start, events, hfly, hdeferred, hroom, hfresh, hdue⟩ :=
    airborne_putOff (.new 4 1 { retryMaxAttempts := 0 } true) (by decide +kernel)
  have hdropped : ((MetadataScheduler.new 4 1 { retryMaxAttempts := 0 } true).step
      (putOff (.new 4 1 { retryMaxAttempts := 0 } true)) (.taskJoined 0 (secs 2) true)).isOkAnd
        (fun s => (s.queue.entries.get "a").isNone) = true := by decide +kernel
  obtain ⟨s', hstep, hnone⟩ := Except.isOkAnd_eq_true.mp hdropped
  exact ⟨_, "a", start, events, _, _, 0, secs 5, secs 2, s', hfly, hdeferred, hroom, hdue,
    fun hover => Bool.eq_false_iff.mp hfresh hover.1, hstep, Option.isNone_iff_eq_none.mp hnone⟩

end MetadataScheduler

end DhtCrawler
