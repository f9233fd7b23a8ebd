import DhtCrawler.QueueHashes
import DhtCrawler.SchedulerModel

/-! Jobs of the metadata scheduler: a hash is queued or in flight but not both, tasks, hashes and in-flight states
correspond one to one, and every job is joined once, by a handler that finds it in flight. -/

namespace DhtCrawler

open FiniteMap Except PendingHashQueue

variable {h : String} {Q : SchedulerState → Prop} {serial : ℕ} {t : JobTrace} {event : SchedulerEvent}

/-! ### The correspondence of tasks, hashes and traces -/

def TaskEnd.result (how : TaskEnd) (job : MetadataJob) : JobResult :=
  match how with
  | .returned run => processHash job run
  | .panicked => panickedResult job.infoHash

def JobResult.completions (result : JobResult) : List MetadataFetchCompletion :=
  match result.outcome with
  | .completed status =>
    [{ infoHash := result.infoHash, status, attempts := result.attempts }]
  | _ => []

def JobOutcome.isCompleted : JobOutcome → Bool
  | .completed _ => true
  | .gateRejected | .deferred _ => false

def TaskEnd.completes (how : TaskEnd) (job : MetadataJob) : Bool :=
  match how with
  | .panicked => true
  | .returned run => (processHash job run).outcome.isCompleted

def JobTrace.closed (job : MetadataJob) (how : TaskEnd) (installed : Bool) : JobTrace where
  job := job
  joined := [how]
  handled := [true]
  finished := (how.result job).completions
  delivered := if installed then (how.result job).completions else []

lemma TaskEnd.result_infoHash (how : TaskEnd) (job : MetadataJob) :
    (how.result job).infoHash = job.infoHash := by
  cases how with
  | returned run => exact processHash_infoHash job run
  | panicked => rfl

namespace MetadataScheduler

structure Jobs (sch : MetadataScheduler) (s : SchedulerState) : Prop where
  queued : s.queue.Within {h | s.inFlight.get h = none}
  inFlightName : ∀ h st, s.inFlight.get h = some st → st.entry.infoHash = h
  taskHash : ∀ id, s.taskHashes.get id = (s.tasks.get id).map fun task => task.job.infoHash
  inFlightTask : ∀ h st, s.inFlight.get h = some st →
    ∃ id task, s.tasks.get id = some task ∧ task.job.infoHash = h
  taskInFlight : ∀ id task, s.tasks.get id = some task → ∃ st, s.inFlight.get task.job.infoHash = some st
  taskUnique : s.tasks.Distinct fun task => task.job.infoHash
  tasksLe : s.tasks.len ≤ sch.maxConcurrent
  taskTrace : ∀ id task, s.tasks.get id = some task → s.traces.get task.serial = some (.spawned task.job)
  serialUnique : s.tasks.Distinct MetadataTask.serial
  traceTask : ∀ serial t, s.traces.get serial = some t →
    (∃ id task, s.tasks.get id = some task ∧ task.serial = serial) ∨
      ∃ how installed, t = .closed t.job how installed
  traceSerial : ∀ serial, (∃ t, s.traces.get serial = some t) ↔ serial < s.totalDispatched
  returned : s.phase = .returned → s.tasks = .empty

variable {sch : MetadataScheduler} {s s' : SchedulerState}

/-- Nothing is under way: every job that was started is closed. -/
lemma jobs_empty (s : SchedulerState) {queue : PendingHashQueue} (hqueue : queue.Within Set.univ)
    (hclosed : ∀ serial t, s.traces.get serial = some t → ∃ how installed, t = .closed t.job how installed)
    (hserial : ∀ serial, (∃ t, s.traces.get serial = some t) ↔ serial < s.totalDispatched) :
    Jobs sch { s with queue, inFlight := .empty, tasks := .empty, taskHashes := .empty } where
  queued := hqueue.mono fun h _ => get_empty h
  inFlightName := by intro h st hst; cases hst
  taskHash := by intro id; rfl
  inFlightTask := by intro h st hst; cases hst
  taskInFlight := by intro id task ht; cases ht
  taskUnique := .empty
  tasksLe := Nat.zero_le _
  taskTrace := by intro id task ht; cases ht
  serialUnique := .empty
  traceTask serial t ht := Or.inr (hclosed serial t ht)
  traceSerial := hserial
  returned _ := rfl

lemma jobs_start (sch : MetadataScheduler) : Jobs sch sch.start := by
  refine jobs_empty sch.start (within_new _ _ _) (fun serial t ht => ?_) fun serial => ?_
  · cases ht
  · refine ⟨?_, fun h => absurd h (Nat.not_lt_zero _)⟩
    rintro ⟨t, ht⟩
    cases ht

variable {queue : PendingHashQueue} {st : InFlightState} {id : TaskId} {task : MetadataTask}

lemma Jobs.withQueue (hs : Jobs sch s) (hq : queue.Within {h | s.inFlight.get h = none})
    (retryHistory : RetryHistory) (totalReceived totalDropped : ℕ) :
    Jobs sch { s with queue, retryHistory, totalReceived, totalDropped } :=
  { hs with queued := hq }

lemma recordQueuePush_eq (s : SchedulerState) (kind : QueuePushKind) :
    ∃ n, s.recordQueuePush kind = { s with totalDropped := n } := by
  cases kind <;> exact ⟨_, rfl⟩

lemma Jobs.recordQueuePush (hs : Jobs sch s) (kind : QueuePushKind) : Jobs sch (s.recordQueuePush kind) := by
  obtain ⟨n, h⟩ := recordQueuePush_eq s kind
  rw [h]
  exact { hs with }

lemma mergeInFlight_infoHash (state : InFlightState) (hash : HashDiscovered) (room : Bool) :
    (mergeInFlight state hash room).entry.infoHash = state.entry.infoHash := by
  unfold mergeInFlight
  split
  · rfl
  · split_ifs <;> rfl

lemma Jobs.mergeInFlight (hs : Jobs sch s) (hst : s.inFlight.get h = some st)
    (hash : HashDiscovered) (room : Bool) :
    Jobs sch { s with inFlight := s.inFlight.insert h (mergeInFlight st hash room) } := by
  have hkeys : ∀ k, (s.inFlight.insert h (MetadataScheduler.mergeInFlight st hash room)).get k = none ↔
      s.inFlight.get k = none := by
    intro k
    rw [get_insert]
    by_cases hk : k = h
    · rw [if_pos hk, hk, hst]
      simp
    · rw [if_neg hk]
  refine { hs with queued := ?_, inFlightName := ?_, inFlightTask := ?_, taskInFlight := ?_ }
  · exact hs.queued.mono fun k hk => (hkeys k).mpr hk
  · refine forall_insert ?_ fun k st' _ => hs.inFlightName k st'
    rw [mergeInFlight_infoHash]
    exact hs.inFlightName h st hst
  · exact forall_insert (hs.inFlightTask h st hst) fun k st' _ => hs.inFlightTask k st'
  · intro id task ht
    obtain ⟨st', hst'⟩ := hs.taskInFlight id task ht
    rw [get_insert]
    by_cases hk : task.job.infoHash = h
    · exact ⟨_, if_pos hk⟩
    · exact ⟨st', by rw [if_neg hk]; exact hst'⟩

lemma within_deferPushed {S : Set String} (hq : queue.Within S) {infoHash : String}
    (record : Option RetryRecord) : (deferPushed queue infoHash record).Within S := by
  cases record with
  | none => exact hq
  | some record =>
    unfold deferPushed
    have hp := hq.popped_remove infoHash
    have hrem := hq.removed infoHash
    generalize queue.remove infoHash = r at hp hrem
    obtain ⟨q, _ | e⟩ := r
    · exact hrem
    · exact hrem.defer hp.1 record

lemma Jobs.enqueue (hs : Jobs sch s) (hash : HashDiscovered) (now : Instant) (room : Bool) :
    Safe (fun _ => True) (sch.enqueue s hash now room) (Jobs sch) := by
  unfold MetadataScheduler.enqueue
  dsimp only
  have hcount : Jobs sch { s with totalReceived := s.totalReceived + 1 } := { hs with }
  cases hst : s.inFlight.get hash.infoHash with
  | some st =>
    dsimp only
    split_ifs
    · exact hcount.recordQueuePush .stale
    · exact (hcount.mergeInFlight hst hash room).recordQueuePush .updated
  | none =>
    dsimp only
    split_ifs
    · exact { hs with }
    · refine (hs.queued.push hash hst now).bind fun r hr => ?_
      refine Jobs.recordQueuePush ?_ r.2
      exact hs.withQueue (within_deferPushed hr _) _ _ _

/-! ### Spawning -/

lemma freshTaskId_new (tasks : FiniteMap TaskId MetadataTask) (proposed : TaskId) :
    tasks.get (freshTaskId tasks proposed) = none := by
  unfold freshTaskId
  split_ifs with h
  · by_contra hne
    obtain ⟨task, ht⟩ := Option.ne_none_iff_exists'.mp hne
    have hle : tasks.keys.sup id + 1 ≤ tasks.keys.sup id := Finset.le_sup (f := id) (mem_keys_of_get ht)
    exact Nat.not_succ_le_self _ hle
  · exact contains_eq_false.mp (Bool.eq_false_iff.mpr h)

lemma Jobs.spawnJob (hs : Jobs sch s) (entry : QueuedHash) (hnew : s.inFlight.get entry.infoHash = none)
    (hname : st.entry.infoHash = entry.infoHash)
    (hq : s.queue.Within ({h | s.inFlight.get h = none} \ {entry.infoHash}))
    (hlen : s.tasks.len < sch.maxConcurrent) (hphase : s.phase ≠ .returned) (proposed : TaskId) :
    Jobs sch (spawnJob { s with inFlight := s.inFlight.insert entry.infoHash st } entry proposed) := by
  have hfresh := freshTaskId_new s.tasks proposed
  have hserial : s.traces.get s.totalDispatched = none := by
    cases ht : s.traces.get s.totalDispatched with
    | none => rfl
    | some t => exact absurd ((hs.traceSerial _).mp ⟨t, ht⟩) (lt_irrefl _)
  have hold : ∀ id task, s.tasks.get id = some task →
      id ≠ freshTaskId s.tasks proposed ∧ task.job.infoHash ≠ entry.infoHash ∧
        task.serial ≠ s.totalDispatched := by
    intro id task ht
    refine ⟨?_, ?_, ?_⟩
    · intro h
      rw [h, hfresh] at ht
      cases ht
    · intro h
      obtain ⟨st', hst'⟩ := hs.taskInFlight id task ht
      rw [h, hnew] at hst'
      cases hst'
    · intro h
      have := hs.taskTrace id task ht
      rw [h, hserial] at this
      cases this
  unfold MetadataScheduler.spawnJob
  refine ⟨?_, ?_, ?_, ?_, ?_, ?_, ?_, ?_, ?_, ?_, ?_, fun h => absurd h hphase⟩
  · refine hq.mono ?_
    intro k hk
    exact (get_insert_ne _ hk.2 _).trans hk.1
  · exact forall_insert hname fun k st' _ => hs.inFlightName k st'
  · intro id
    rw [get_insert, get_insert]
    split_ifs
    · rfl
    · exact hs.taskHash id
  · refine forall_insert ⟨_, _, get_insert_self _ _ _, rfl⟩ fun k st' _ hst' => ?_
    obtain ⟨id, task, ht, hh⟩ := hs.inFlightTask k st' hst'
    exact ⟨id, task, (get_insert_ne _ (hold id task ht).1 _).trans ht, hh⟩
  · refine forall_insert ⟨st, get_insert_self _ _ _⟩ fun id task _ ht => ?_
    obtain ⟨st', hst'⟩ := hs.taskInFlight id task ht
    exact ⟨st', (get_insert_ne _ (hold id task ht).2.1 _).trans hst'⟩
  · exact hs.taskUnique.insert fun id task ht hh => absurd hh (hold id task ht).2.1
  · rw [len_insert_new hfresh]
    exact hlen
  · refine forall_insert (get_insert_self _ _ _) fun id task _ ht => ?_
    exact (get_insert_ne _ (hold id task ht).2.2 _).trans (hs.taskTrace id task ht)
  · exact hs.serialUnique.insert fun id task ht hh => absurd hh (hold id task ht).2.2
  · refine forall_insert (Or.inl ⟨_, _, get_insert_self _ _ _, rfl⟩) fun serial t _ ht => ?_
    refine (hs.traceTask serial t ht).imp_left fun ⟨id, task, htask, hh⟩ => ?_
    exact ⟨id, task, (get_insert_ne _ (hold id task htask).1 _).trans htask, hh⟩
  · intro serial
    show _ ↔ serial < s.totalDispatched + 1
    rw [get_insert]
    by_cases hn : serial = s.totalDispatched
    · rw [if_pos hn]
      exact ⟨fun _ => hn ▸ Nat.lt_succ_self _, fun _ => ⟨_, rfl⟩⟩
    · rw [if_neg hn, hs.traceSerial]
      omega

lemma Jobs.startJob (hs : Jobs sch s) {entry : QueuedHash} (hnew : s.inFlight.get entry.infoHash = none)
    (hq : s.queue.Within ({h | s.inFlight.get h = none} \ {entry.infoHash}))
    (hlen : s.tasks.len < sch.maxConcurrent) (hphase : s.phase ≠ .returned) (round : DispatchRound) :
    Jobs sch (sch.startJob s entry round) := by
  unfold MetadataScheduler.startJob
  dsimp only
  split_ifs
  · exact { hs with }
  · exact hs.spawnJob { entry with peers := jobPeers entry round.retainAt } hnew rfl hq hlen hphase _

lemma startJob_phase (sch : MetadataScheduler) (s : SchedulerState) (entry : QueuedHash)
    (round : DispatchRound) : (sch.startJob s entry round).phase = s.phase := by
  unfold MetadataScheduler.startJob
  dsimp only
  split_ifs <;> rfl

def Dispatching (sch : MetadataScheduler) (x : SchedulerState × ℕ) : Prop :=
  Jobs sch x.1 ∧ x.1.phase = .dispatching

lemma Dispatching.step {x : SchedulerState × ℕ} (hx : Dispatching sch x) (rounds : ℕ → DispatchRound) :
    Safe (fun _ => True) (sch.dispatchStep rounds x) fun r => Dispatching sch r.value := by
  obtain ⟨s, i⟩ := x
  obtain ⟨hs, hphase⟩ := hx
  unfold dispatchStep
  dsimp only
  by_cases hfull : s.tasks.len ≥ sch.maxConcurrent
  · rw [if_pos hfull]
    exact ⟨hs, hphase⟩
  rw [if_neg hfull]
  refine (hs.queued.popNewestReady (rounds i).popAt).bind fun r hr => ?_
  obtain ⟨queue, _ | entry⟩ := r
  · exact ⟨{ hs with queued := hr }, hphase⟩
  · obtain ⟨hnew, hrest⟩ := hr
    have hs' : Jobs sch { s with queue } := { hs with queued := hrest.mono Set.sdiff_subset }
    refine ⟨hs'.startJob hnew hrest (not_le.mp hfull) ?_ _, ?_⟩
    · rw [hphase]
      decide
    · exact (startJob_phase _ _ _ _).trans hphase

/-- The rule for the head of the loop: `P` holds when the queue has been promoted, and every round keeps it. -/
lemma loopHead_safe {P : SchedulerState × ℕ → Prop} {now : Instant}
    {rounds : ℕ → DispatchRound}
    (hstart : Safe (fun _ => True) (s.queue.promoteReady now) fun queue => P ({ s with queue }, 0))
    (hround : ∀ x, P x → Safe (fun _ => True) (sch.dispatchStep rounds x) fun r => P r.value)
    (hreturned : ∀ x queueLen, P x → x.1.queue.isEmpty = true → x.1.tasks.len = 0 →
      Q (sch.returnFromRun { x.1 with queueLen }))
    (hwaiting : ∀ x queueLen, P x → Q { x.1 with queueLen, phase := .waiting }) :
    Safe (fun _ => True) (sch.loopHead s now rounds) Q := by
  have hready : Safe (fun _ => True) (sch.dispatchReady s now rounds) fun s' => ∃ i, P (s', i) :=
    hstart.bind fun queue hqueue => (Loop.safe_run hround _ hqueue).bind fun x hx => ⟨x.2, hx⟩
  refine hready.bind fun s' ⟨i, hs'⟩ => ?_
  dsimp only
  split_ifs with hdone
  · simp only [Bool.and_eq_true, beq_iff_eq] at hdone
    exact hreturned (s', i) _ hs' hdone.1.2 hdone.2
  · exact hwaiting (s', i) _ hs'

lemma Jobs.dispatching (hs : Jobs sch s) (hphase : s.phase = .dispatching) (now : Instant) :
    Safe (fun _ => True) (s.queue.promoteReady now) fun queue => Dispatching sch ({ s with queue }, 0) :=
  (hs.queued.promoteReady now).mono fun _ hq => ⟨{ hs with queued := hq }, hphase⟩

/-! ### Joining -/

lemma scheduleRetry_ok (sch : MetadataScheduler) (s : SchedulerState) (entry : QueuedHash)
    (failed : Bool) (delay : Duration) (now : Instant) :
    ∃ retryHistory queue, sch.scheduleRetry s entry failed delay now = .ok { s with retryHistory, queue } ∧
        ∀ S, s.queue.Within S → entry.infoHash ∈ S → queue.Within S := by
  unfold scheduleRetry
  by_cases hoff : sch.metadataOptions.retryMaxAttempts = 0
  · rw [if_pos hoff]
    exact ⟨_, _, rfl, fun _ hq _ => hq⟩
  rw [if_neg hoff]
  by_cases hover : entry.isRetry = true ∧ entry.expiresAt ≤ now
  · rw [if_pos hover]
    exact ⟨_, _, rfl, fun _ hq _ => hq⟩
  rw [if_neg hover]
  obtain ⟨⟨history, record⟩, hrec⟩ :=
    s.retryHistory.record_ok entry.infoHash now failed delay sch.metadataOptions
  rw [hrec, ok_bind]
  cases record with
  | none => exact ⟨_, _, rfl, fun _ hq _ => hq⟩
  | some record =>
    dsimp only
    split_ifs
    · exact ⟨_, _, rfl, fun _ hq _ => hq⟩
    · exact ⟨_, _, rfl, fun _ hq hS => hq.defer hS record⟩

lemma trace_eq (ht : s.traces.get serial = some t)
    (f : JobTrace → JobTrace) : s.trace serial f = { s with traces := s.traces.insert serial (f t) } := by
  unfold SchedulerState.trace
  rw [ht]

def handledTrace (t : JobTrace) (result : JobResult) (installed : Bool) : JobTrace :=
  { t with
    handled := t.handled ++ [true]
    finished := t.finished ++ result.completions
    delivered := t.delivered ++ if installed then result.completions else [] }

lemma handleJobResult_found (sch : MetadataScheduler) {result : JobResult}
    (hst : s.inFlight.get result.infoHash = some st) (ht : s.traces.get serial = some t) (now : Instant)
    (installed : Bool) :
    ∃ retryHistory queue totalCompleted, sch.handleJobResult s serial result now installed = .ok
          { s with
            retryHistory
            queue
            totalCompleted
            inFlight := s.inFlight.erase result.infoHash
            traces := s.traces.insert serial (handledTrace t result installed) } ∧
        ∀ S, s.queue.Within S → st.entry.infoHash ∈ S → queue.Within S := by
  unfold handleJobResult
  rw [hst]
  dsimp only
  rw [trace_eq ht]
  cases hout : result.outcome with
  | gateRejected =>
    refine ⟨s.retryHistory.remove result.infoHash, (s.queue.remove result.infoHash).1,
      s.totalCompleted, ?_, fun _ hq _ => hq.removed result.infoHash⟩
    simp [handledTrace, JobResult.completions, hout]
  | deferred delay =>
    obtain ⟨history, queue, hs, hwithin⟩ := sch.scheduleRetry_ok _ st.entry false delay now
    refine ⟨history, queue, s.totalCompleted, hs.trans ?_, fun S hq hS => hwithin S (hq.removed _) hS⟩
    simp [handledTrace, JobResult.completions, hout]
  | completed status =>
    dsimp only [finish]
    rw [trace_eq (get_insert_self _ _ _)]
    by_cases hacc : status = .accepted
    · rw [if_pos hacc]
      refine ⟨s.retryHistory.remove result.infoHash, (s.queue.remove result.infoHash).1,
        s.totalCompleted + 1, ?_, fun _ hq _ => hq.removed result.infoHash⟩
      cases installed <;> simp [handledTrace, JobResult.completions, hout]
    · rw [if_neg hacc]
      obtain ⟨history, queue, hs, hwithin⟩ := sch.scheduleRetry_ok _ st.entry true 0 now
      refine ⟨history, queue, s.totalCompleted + 1, hs.trans ?_, fun S hq hS => hwithin S (hq.removed _) hS⟩
      cases installed <;> simp [handledTrace, JobResult.completions, hout]

def joinedState (s : SchedulerState) (id : TaskId) (task : MetadataTask) (how : TaskEnd) :
    SchedulerState :=
  { s with
    tasks := s.tasks.erase id
    taskHashes := s.taskHashes.erase id
    traces := s.traces.insert task.serial { JobTrace.spawned task.job with joined := [how] } }

lemma Jobs.joinNext_eq (hs : Jobs sch s) (ht : s.tasks.get id = some task) (how : TaskEnd) (now : Instant)
    (installed : Bool) :
    sch.joinNext s id task how now installed =
      sch.handleJobResult (joinedState s id task how) task.serial (how.result task.job) now
        installed := by
  have htrace : ({ s with tasks := s.tasks.erase id, taskHashes := s.taskHashes.erase id } :
      SchedulerState).traces.get task.serial = some (.spawned task.job) := hs.taskTrace id task ht
  unfold MetadataScheduler.joinNext
  dsimp only
  rw [trace_eq htrace, hs.taskHash id, ht]
  cases how with
  | returned run => rfl
  | panicked => rfl

lemma Jobs.close (hs : Jobs sch s) (ht : s.tasks.get id = some task) (how : TaskEnd) (installed : Bool)
    (retryHistory : RetryHistory) (totalCompleted : ℕ)
    (hq : ∀ S, s.queue.Within S → task.job.infoHash ∈ S → queue.Within S) :
    Jobs sch
      { s with
        retryHistory
        queue
        totalCompleted
        tasks := s.tasks.erase id
        taskHashes := s.taskHashes.erase id
        inFlight := s.inFlight.erase task.job.infoHash
        traces := s.traces.insert task.serial (.closed task.job how installed) } := by
  have hother : ∀ id' task', s.tasks.get id' = some task' → id' ≠ id →
      task'.job.infoHash ≠ task.job.infoHash ∧ task'.serial ≠ task.serial := by
    intro id' task' ht' hne
    exact ⟨fun h => hne (hs.taskUnique id task ht id' task' ht' h),
      fun h => hne (hs.serialUnique id task ht id' task' ht' h)⟩
  refine ⟨?_, ?_, ?_, ?_, ?_, hs.taskUnique.erase id, ?_, ?_, hs.serialUnique.erase id, ?_, ?_, ?_⟩
  · refine hq _ (hs.queued.mono ?_) (get_erase_self _ _)
    intro k hk
    show (s.inFlight.erase task.job.infoHash).get k = none
    rw [get_erase]
    split_ifs
    · rfl
    · exact hk
  · intro k st hst
    exact hs.inFlightName k st (get_of_get_erase hst).2
  · intro id'
    rw [get_erase, get_erase]
    split_ifs
    · rfl
    · exact hs.taskHash id'
  · intro k st hst
    obtain ⟨hk, hst⟩ := get_of_get_erase hst
    obtain ⟨id', task', ht', hh⟩ := hs.inFlightTask k st hst
    refine ⟨id', task', (get_erase_ne _ ?_).trans ht', hh⟩
    intro h
    rw [h, ht] at ht'
    cases ht'
    exact hk hh.symm
  · intro id' task' ht'
    obtain ⟨hne, ht'⟩ := get_of_get_erase ht'
    obtain ⟨st, hst⟩ := hs.taskInFlight id' task' ht'
    exact ⟨st, (get_erase_ne _ (hother id' task' ht' hne).1).trans hst⟩
  · exact (len_erase_le _ _).trans hs.tasksLe
  · intro id' task' ht'
    obtain ⟨hne, ht'⟩ := get_of_get_erase ht'
    exact (get_insert_ne _ (hother id' task' ht' hne).2 _).trans (hs.taskTrace id' task' ht')
  · refine forall_insert (Or.inr ⟨how, installed, rfl⟩) fun serial t hserial htr => ?_
    refine (hs.traceTask serial t htr).imp_left fun ⟨id', task', ht', hh⟩ => ?_
    refine ⟨id', task', (get_erase_ne _ ?_).trans ht', hh⟩
    intro h
    rw [h, ht] at ht'
    cases ht'
    exact hserial hh.symm
  · intro serial
    show _ ↔ serial < s.totalDispatched
    rw [← hs.traceSerial serial, get_insert]
    split_ifs with hserial
    · rw [hserial, hs.taskTrace id task ht]
      simp
    · rfl
  · intro hphase
    have hempty := hs.returned hphase
    rw [hempty] at ht
    cases ht

lemma Jobs.joinNext (hs : Jobs sch s) (ht : s.tasks.get id = some task) (how : TaskEnd) (now : Instant)
    (installed : Bool) :
    ∃ s', sch.joinNext s id task how now installed = .ok s' ∧ Jobs sch s' ∧ s'.phase = s.phase ∧
      s'.shutdown = s.shutdown ∧
      s'.traces.get task.serial = some (.closed task.job how installed) := by
  obtain ⟨st, hst⟩ := hs.taskInFlight id task ht
  have hfound : (joinedState s id task how).inFlight.get (how.result task.job).infoHash = some st := by
    rw [how.result_infoHash]
    exact hst
  obtain ⟨retryHistory, queue, totalCompleted, hres, hwithin⟩ :=
    sch.handleJobResult_found hfound (get_insert_self _ _ _) now installed
  rw [hs.joinNext_eq ht, hres, how.result_infoHash]
  rw [hs.inFlightName _ st hst] at hwithin
  dsimp only [joinedState] at hwithin ⊢
  rw [insert_insert]
  exact ⟨_, rfl, hs.close ht how installed retryHistory totalCompleted hwithin, rfl, rfl, get_insert_self _ _ _⟩

/-! ### Steps and runs -/

lemma Jobs.endTask (hs : Jobs sch s) (id : TaskId) (how : TaskEnd) : Jobs sch (endTask s id how) := by
  unfold MetadataScheduler.endTask
  cases ht : s.tasks.get id with
  | none => exact hs
  | some task =>
    dsimp only
    split_ifs
    · exact hs
    -- the entry of the task changes, but not its hash and its number
    have hget : ∀ id' task', (s.tasks.insert id { task with ended := some how }).get id' = some task' →
        ∃ old, s.tasks.get id' = some old ∧ old.job = task'.job ∧ old.serial = task'.serial :=
      forall_insert ⟨task, ht, rfl, rfl⟩ fun id' task' _ ht' => ⟨task', ht', rfl, rfl⟩
    have hkeep : ∀ id' old, s.tasks.get id' = some old →
        ∃ task', (s.tasks.insert id { task with ended := some how }).get id' = some task' ∧
          old.job = task'.job ∧ old.serial = task'.serial := by
      intro id' old hold
      rw [get_insert]
      split_ifs with hid
      · rw [hid, ht] at hold
        cases hold
        exact ⟨_, rfl, rfl, rfl⟩
      · exact ⟨old, hold, rfl, rfl⟩
    refine ⟨hs.queued, hs.inFlightName, ?_, ?_, ?_, ?_, ?_, ?_, ?_, ?_, hs.traceSerial, ?_⟩
    · intro id'
      rw [hs.taskHash id', get_insert]
      split_ifs with hid
      · rw [hid, ht]
        rfl
      · rfl
    · intro k st hst
      obtain ⟨id', old, hold, hh⟩ := hs.inFlightTask k st hst
      obtain ⟨task', ht', hjob, _⟩ := hkeep id' old hold
      exact ⟨id', task', ht', hjob ▸ hh⟩
    · intro id' task' ht'
      obtain ⟨old, hold, hjob, _⟩ := hget id' task' ht'
      exact hjob ▸ hs.taskInFlight id' old hold
    · exact hs.taskUnique.insert fun id' task' ht' hh => hs.taskUnique id task ht id' task' ht' hh
    · rw [len_insert_old ht]
      exact hs.tasksLe
    · intro id' task' ht'
      obtain ⟨old, hold, hjob, hserial⟩ := hget id' task' ht'
      rw [← hjob, ← hserial]
      exact hs.taskTrace id' old hold
    · exact hs.serialUnique.insert fun id' task' ht' hh => hs.serialUnique id task ht id' task' ht' hh
    · intro serial t htr
      rcases hs.traceTask serial t htr with ⟨id', old, hold, hh⟩ | hclosed
      · obtain ⟨task', ht', _, hserial⟩ := hkeep id' old hold
        exact Or.inl ⟨id', task', ht', hserial ▸ hh⟩
      · exact Or.inr hclosed
    · intro hphase
      rw [hs.returned hphase] at ht
      cases ht

lemma Jobs.returnFromRun (hs : Jobs sch s) (hempty : ∀ id, s.tasks.get id = none) :
    Jobs sch (sch.returnFromRun s) := by
  refine jobs_empty { s with queueLen := 0, phase := .returned }
    (within_new _ _ _) (fun serial t htr => ?_) hs.traceSerial
  refine (hs.traceTask serial t htr).resolve_left ?_
  rintro ⟨id, task, ht, _⟩
  rw [hempty id] at ht
  cases ht

/-- The state left by a run that was cancelled: its jobs were aborted. -/
structure Aborted (s : SchedulerState) : Prop where
  shutdown : s.shutdown = true
  phase : s.phase = .returned
  queue : s.queue.Within ∅
  inFlight : s.inFlight = .empty
  tasks : s.tasks = .empty
  taskHashes : s.taskHashes = .empty

lemma Jobs.withPhase (hs : Jobs sch s) {phase : SchedulerPhase} (hphase : phase ≠ .returned) :
    Jobs sch { s with phase } :=
  { hs with returned := fun h => absurd h hphase }

lemma Jobs.loopHead (hs : Jobs sch s) (hphase : s.phase = .dispatching) (now : Instant)
    (rounds : ℕ → DispatchRound) : Safe (fun _ => True) (sch.loopHead s now rounds) (Jobs sch) := by
  refine loopHead_safe (hs.dispatching hphase now) (fun x hx => hx.step rounds) (fun x queueLen hx _ hdone => ?_)
    fun x queueLen hx => { hx.1 with returned := nofun }
  have hs' : Jobs sch { x.1 with queueLen } := { hx.1 with }
  exact hs'.returnFromRun (len_eq_zero.mp hdone)

lemma Jobs.select (hs : Jobs sch s) (event : SchedulerEvent) :
    Safe (fun _ => True) (sch.select s event) fun s' => Jobs sch s' ∨ Aborted s' := by
  have hstay : Jobs sch s ∨ Aborted s := Or.inl hs
  cases event with
  | hashReceived hash now room =>
    dsimp only [MetadataScheduler.select]
    split_ifs
    · exact hstay
    · exact (hs.enqueue hash now room).mono fun _ h => Or.inl h
  | inputClosed => exact Or.inl { hs with }
  | taskJoined id now installed =>
    dsimp only [MetadataScheduler.select]
    cases ht : s.tasks.get id with
    | none => exact hstay
    | some task =>
      dsimp only
      cases task.ended with
      | none => exact hstay
      | some how =>
        obtain ⟨s', hj, hs', _⟩ := hs.joinNext ht how now installed
        dsimp only
        rw [hj]
        exact Or.inl hs'
  | maintenance now => exact Or.inl { hs with queued := hs.queued.expire now }
  | cancelled =>
    dsimp only [MetadataScheduler.select]
    split_ifs with hshut
    · exact Or.inr ⟨hshut, rfl, within_new _ _ _, rfl, rfl, rfl⟩
    · exact hstay
  | loopHead | dispatchTick | statsTick | taskEnded | shutdownRequested => exact hstay

lemma step_safe 
    (hended : ∀ id how, event = .taskEnded id how → Q (endTask s id how))
    (hshutdown : event = .shutdownRequested → Q { s with shutdown := true })
    (hhead : ∀ now rounds, event = .loopHead now rounds → s.phase = .dispatching →
      Safe (fun _ => True) (sch.loopHead s now rounds) Q)
    (hselect : s.phase = .waiting → Safe (fun _ => True) (sch.select s event) fun s' =>
      Q (if s'.phase = .returned then s' else { s' with phase := .dispatching }))
    (hearly : ∀ now rounds, event = .loopHead now rounds → s.phase ≠ .dispatching → Q s)
    (hidle : (∀ now rounds, event ≠ .loopHead now rounds) → s.phase ≠ .waiting → Q s) :
    Safe (fun _ => True) (sch.step s event) Q := by
  have hloop (hother : ∀ now rounds, event ≠ .loopHead now rounds) : Safe (fun _ => True)
      (if s.phase = .waiting then do
        let s' ← sch.select s event
        .ok (if s'.phase = .returned then s' else { s' with phase := .dispatching })
      else .ok s) Q := by
    split_ifs with hphase
    · exact (hselect hphase).bind fun s' hs' => hs'
    · exact hidle hother hphase
  cases event with
  | taskEnded id how => exact hended id how rfl
  | shutdownRequested => exact hshutdown rfl
  | loopHead now rounds =>
    dsimp only [MetadataScheduler.step]
    split_ifs with hphase
    · exact hhead now rounds rfl hphase
    · exact hearly now rounds rfl hphase
  | hashReceived | inputClosed | taskJoined | dispatchTick | maintenance | statsTick | cancelled =>
    exact hloop fun _ _ heq => nomatch heq

lemma Jobs.step (hs : Jobs sch s) (event : SchedulerEvent) :
    Safe (fun _ => True) (sch.step s event) fun s' => Jobs sch s' ∨ Aborted s' := by
  refine step_safe (fun id how _ => .inl (hs.endTask id how)) (fun _ => .inl { hs with })
    (fun now rounds _ hphase => (hs.loopHead hphase now rounds).mono fun _ h => .inl h)
    (fun _ => (hs.select event).mono fun s' hs' => ?_) (fun _ _ _ _ => .inl hs) fun _ _ => .inl hs
  split_ifs with hret
  · exact hs'
  · rcases hs' with hs' | habort
    · exact .inl (hs'.withPhase (by decide))
    · exact absurd habort.phase hret

lemma step_over (hs : s.phase = .returned)
    (hended : ∀ id how, event = .taskEnded id how → Q (endTask s id how))
    (hshutdown : event = .shutdownRequested → Q { s with shutdown := true }) (hstay : Q s) :
    Safe (fun _ => True) (sch.step s event) Q := by
  refine step_safe hended hshutdown (fun _ _ _ hphase => ?_) (fun hphase => ?_) (fun _ _ _ _ => hstay) fun _ _ => hstay
  · rw [hs] at hphase
    cases hphase
  · rw [hs] at hphase
    cases hphase

lemma Aborted.endTask (hs : Aborted s) (id : TaskId) (how : TaskEnd) : MetadataScheduler.endTask s id how = s := by
  dsimp only [MetadataScheduler.endTask]
  rw [hs.tasks]
  rfl

lemma Aborted.step (hs : Aborted s) (event : SchedulerEvent) :
    Safe (fun _ => True) (sch.step s event) Aborted :=
  step_over hs.phase (fun id how _ => (hs.endTask id how).symm ▸ hs) (fun _ => { hs with shutdown := rfl }) hs

lemma Reachable.jobs (hr : Reachable sch s) : Jobs sch s ∨ Aborted s := by
  induction hr with
  | start => exact Or.inl sch.jobs_start
  | step event _ hs ih =>
    rcases ih with ih | ih
    · exact (ih.step event).of_ok hs
    · exact Or.inr ((ih.step event).of_ok hs)

lemma Jobs.exclusive (hs : Jobs sch s) (h : String) :
    s.queue.entries.get h = none ∨ s.inFlight.get h = none := by
  by_cases hh : s.inFlight.get h = none
  · exact Or.inr hh
  · exact Or.inl (hs.queued.notMem hh)

lemma Jobs.taskHash_iff (hs : Jobs sch s) :
    s.taskHashes.get id = some h ↔ ∃ task, s.tasks.get id = some task ∧ task.job.infoHash = h := by
  rw [hs.taskHash id, Option.map_eq_some_iff]

lemma Jobs.hashUnique (hs : Jobs sch s) (h : String) (st : InFlightState)
    (hst : s.inFlight.get h = some st) : ∃! id, s.taskHashes.get id = some h := by
  obtain ⟨id, task, ht, hh⟩ := hs.inFlightTask h st hst
  refine ⟨id, hs.taskHash_iff.mpr ⟨task, ht, hh⟩, ?_⟩
  intro id' hid'
  obtain ⟨task', ht', hh'⟩ := hs.taskHash_iff.mp hid'
  exact hs.taskUnique id task ht id' task' ht' (hh'.trans hh.symm)

lemma Jobs.hashInFlight (hs : Jobs sch s) (id : TaskId) (h : String)
    (hid : s.taskHashes.get id = some h) : ∃ st, s.inFlight.get h = some st := by
  obtain ⟨task, ht, hh⟩ := hs.taskHash_iff.mp hid
  rw [← hh]
  exact hs.taskInFlight id task ht

lemma completions_length (result : JobResult) :
    result.completions.length = if result.outcome.isCompleted then 1 else 0 := by
  obtain ⟨infoHash, attempts, outcome⟩ := result
  cases outcome with
  | gateRejected => rfl
  | deferred delay => rfl
  | completed status => rfl

lemma closed_finished_length (job : MetadataJob) (how : TaskEnd) (installed : Bool) :
    (JobTrace.closed job how installed).finished.length = if how.completes job then 1 else 0 := by
  cases how with
  | returned run => exact completions_length (processHash job run)
  | panicked => rfl

lemma Jobs.accounted (hs : Jobs sch s) (serial : ℕ) (t : JobTrace) (htr : s.traces.get serial = some t) :
    (t = .spawned t.job ∧ ∃! id, ∃ task, s.tasks.get id = some task ∧ task.serial = serial ∧ task.job = t.job) ∨
      (∃ how installed, t = .closed t.job how installed ∧
          t.finished.length = if how.completes t.job then 1 else 0) ∧
        ∀ id task, s.tasks.get id = some task → task.serial ≠ serial := by
  by_cases htask : ∃ id task, s.tasks.get id = some task ∧ task.serial = serial
  · obtain ⟨id, task, ht, hserial⟩ := htask
    have hspawned := hs.taskTrace id task ht
    rw [hserial, htr] at hspawned
    cases hspawned
    refine Or.inl ⟨rfl, id, ⟨task, ht, hserial, rfl⟩, ?_⟩
    intro id' h'
    obtain ⟨task', ht', hserial', _⟩ := h'
    exact hs.serialUnique id task ht id' task' ht' (hserial'.trans hserial.symm)
  · rcases hs.traceTask serial t htr with h | ⟨how, installed, hclosed⟩
    · exact absurd h htask
    · refine Or.inr ⟨⟨how, installed, hclosed, ?_⟩, fun id task ht hserial => htask ⟨id, task, ht, hserial⟩⟩
      have hlen := closed_finished_length t.job how installed
      rw [← hclosed] at hlen
      exact hlen

lemma Jobs.joinStep (hs : Jobs sch s) (id : TaskId) (task : MetadataTask) (how : TaskEnd)
    (now : Instant) (installed : Bool) (ht : s.tasks.get id = some task)
    (hended : task.ended = some how) (hphase : s.phase = .waiting) :
    ∃ s', sch.step s (.taskJoined id now installed) = .ok s' ∧
      s'.traces.get task.serial = some (.closed task.job how installed) := by
  obtain ⟨s', hj, _, hphase', _, htrace⟩ := hs.joinNext ht how now installed
  dsimp only [MetadataScheduler.step, MetadataScheduler.select]
  rw [if_pos hphase, ht]
  dsimp only
  rw [hended]
  dsimp only
  rw [hj, ok_bind]
  split_ifs
  · exact ⟨s', rfl, htrace⟩
  · exact ⟨_, rfl, htrace⟩

/-- **One job for a hash, joined once.** In every state of every run a hash is queued or in flight but not both,
and tasks, task hashes and in-flight states correspond one to one. -/
theorem one_job_per_hash (hr : Reachable sch s) :
    (∀ h, s.queue.entries.get h = none ∨ s.inFlight.get h = none) ∧
      (∀ id, s.taskHashes.get id = (s.tasks.get id).map fun task => task.job.infoHash) ∧
      (∀ h st, s.inFlight.get h = some st → ∃! id, s.taskHashes.get id = some h) ∧
      (∀ id h, s.taskHashes.get id = some h → ∃ st, s.inFlight.get h = some st) ∧
      s.tasks.len ≤ sch.maxConcurrent ∧
      (s.shutdown = false → (∀ serial, (∃ t, s.traces.get serial = some t) ↔ serial < s.totalDispatched) ∧
        (∀ serial t, s.traces.get serial = some t → (t = .spawned t.job ∧
              ∃! id, ∃ task, s.tasks.get id = some task ∧ task.serial = serial ∧ task.job = t.job) ∨
            (∃ how installed, t = .closed t.job how installed ∧
                t.finished.length = if how.completes t.job then 1 else 0) ∧
              ∀ id task, s.tasks.get id = some task → task.serial ≠ serial) ∧
        (s.phase = .returned → s.tasks = .empty) ∧
        ∀ id task how now installed, s.tasks.get id = some task → task.ended = some how →
          s.phase = .waiting → ∃ s', sch.step s (.taskJoined id now installed) = .ok s' ∧
            s'.traces.get task.serial = some (.closed task.job how installed)) := by
  rcases hr.jobs with hs | hs
  · refine ⟨hs.exclusive, hs.taskHash, hs.hashUnique, hs.hashInFlight, hs.tasksLe, ?_⟩
    intro _
    exact ⟨hs.traceSerial, hs.accounted, hs.returned, hs.joinStep⟩
  · refine ⟨fun h => Or.inl (hs.queue.notMem (Set.notMem_empty h)), ?_, ?_, ?_, ?_, ?_⟩
    · intro id
      rw [hs.taskHashes, hs.tasks]
      rfl
    · intro h st hst
      rw [hs.inFlight] at hst
      cases hst
    · intro id h hh
      rw [hs.taskHashes] at hh
      cases hh
    · rw [hs.tasks]
      exact Nat.zero_le _
    · intro hshut
      rw [hs.shutdown] at hshut
      cases hshut

def run (sch : MetadataScheduler) (events : List SchedulerEvent) : Except Panic SchedulerState :=
  events.foldlM sch.step sch.start

lemma reachable_run {events : List SchedulerEvent} (h : sch.run events = .ok s) : Reachable sch s := by
  have hsafe : Safe (fun _ => True) (sch.run events) (Reachable sch) := by
    refine safe_foldlM (fun s event _ hr => ?_) Reachable.start
    cases hs : sch.step s event with
    | error e => trivial
    | ok s' => exact Reachable.step event hr hs
  exact hsafe.of_ok h

/-- The head of the loop, with all its readings at one instant. -/
def headAt (now : Instant) (id : TaskId) : SchedulerEvent := .loopHead now fun _ => ⟨now, now, id⟩

theorem one_job_per_hash_panicked :
    ∃ s task, Reachable (.new 4 2 {} false) s ∧ s.shutdown = false ∧ s.tasks.get 7 = some task ∧
      task.ended = some .panicked ∧
      ∃ s', (MetadataScheduler.new 4 2 {} false).step s (.taskJoined 7 (secs 2) true) = .ok s' ∧
        s'.traces.get task.serial = some (.closed task.job .panicked true) := by
  let events : List SchedulerEvent :=
    [headAt 0 7, .hashReceived (exampleEvent "aa" (some (exampleAddr 8)) 5) 6 true, headAt (secs 1) 7,
      .taskEnded 7 .panicked]
  have hrun : ((MetadataScheduler.new 4 2 {} false).run events).toOption.any (fun s =>
      s.shutdown = false ∧ s.phase = .waiting ∧ (s.tasks.get 7).any fun task =>
        task.ended = some .panicked) = true := by decide
  cases hs : (MetadataScheduler.new 4 2 {} false).run events with
  | error e =>
    rw [hs] at hrun
    cases hrun
  | ok s =>
    rw [hs] at hrun
    obtain ⟨hshut, hphase, htask⟩ := of_decide_eq_true hrun
    obtain ⟨task, ht, hended⟩ := (Option.any_eq_true _ _).mp htask
    have hr := reachable_run hs
    exact ⟨s, task, hr, hshut, ht, of_decide_eq_true hended,
      ((one_job_per_hash hr).2.2.2.2.2 hshut).2.2.2 7 task .panicked (secs 2) true ht
        (of_decide_eq_true hended) hphase⟩

end MetadataScheduler

end DhtCrawler
