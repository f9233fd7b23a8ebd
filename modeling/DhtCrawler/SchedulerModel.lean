import DhtCrawler.RetryModel

/-! The metadata scheduler of `scheduler.rs`. -/

namespace DhtCrawler

inductive MetadataFetchCompletionStatus where
  | accepted
  | fetchFailed
  | deliveryRejected
  deriving DecidableEq, Repr

structure MetadataFetchCompletion where
  infoHash : String
  status : MetadataFetchCompletionStatus
  attempts : ℕ
  deriving DecidableEq, Repr

inductive MetadataAdmission where
  | fetch
  | skip
  | retryAfter (delay : Duration)
  deriving DecidableEq, Repr

inductive JobOutcome where
  | gateRejected
  | deferred (delay : Duration)
  | completed (status : MetadataFetchCompletionStatus)
  deriving DecidableEq, Repr

structure JobResult where
  infoHash : String
  attempts : ℕ
  outcome : JobOutcome
  deriving DecidableEq, Repr

structure MetadataJob where
  infoHash : String
  peers : List PeerCandidate
  sourceNodes : List NodeTuple
  source : HashSource

/-- `peer_tx` is left out: whether it takes a candidate is part of the event. -/
structure InFlightState where
  scheduledPeers : Finset SocketAddr
  entry : QueuedHash

/-! ### Workers -/

/-- What a worker meets: the answer of the admission callback if one is installed, the attempts of the peer
race, and, when the race fetched metadata, whether the torrent callback accepted it. -/
structure JobRun where
  gate : Option MetadataAdmission
  attempts : ℕ
  fetched : Option Bool
  deriving DecidableEq, Repr

inductive TaskEnd where
  | returned (run : JobRun)
  | panicked
  deriving DecidableEq, Repr

def isHexDigit (c : Char) : Bool :=
  c.isDigit || ('a' ≤ c && c ≤ 'f') || ('A' ≤ c && c ≤ 'F')

/-- Whether `hex::decode` yields twenty bytes. -/
def isInfoHashHex (hash : String) : Bool := hash.toList.length == 40 && hash.toList.all isHexDigit

def processHash (job : MetadataJob) (run : JobRun) : JobResult :=
  match run.gate with
  | some .skip => { infoHash := job.infoHash, attempts := 0, outcome := .gateRejected }
  | some (.retryAfter delay) => { infoHash := job.infoHash, attempts := 0, outcome := .deferred delay }
  | _ =>
    if !isInfoHashHex job.infoHash then
      { infoHash := job.infoHash, attempts := 0, outcome := .completed .fetchFailed }
    else
      match run.fetched with
      | some accepted =>
        { infoHash := job.infoHash
          attempts := run.attempts
          outcome := .completed (if accepted then .accepted else .deliveryRejected) }
      | none =>
        { infoHash := job.infoHash, attempts := run.attempts, outcome := .completed .fetchFailed }

lemma processHash_infoHash (job : MetadataJob) (run : JobRun) :
    (processHash job run).infoHash = job.infoHash := by
  unfold processHash
  split
  · rfl
  · rfl
  · split_ifs
    · rfl
    · split <;> rfl

def panickedResult (infoHash : String) : JobResult where
  infoHash := infoHash
  attempts := 0
  outcome := .completed .fetchFailed

/-! ### State -/

abbrev TaskId := ℕ

/-- A task of the join set: the number of its job, the job, and how the task ended if it did. -/
structure MetadataTask where
  serial : ℕ
  job : MetadataJob
  ended : Option TaskEnd

/-- What happened to a job: how its task had ended each time it was joined, for each call of `handle_job_result`
whether it found the hash in flight, the completions given to `finish`, and those passed on to an installed
callback. -/
structure JobTrace where
  job : MetadataJob
  joined : List TaskEnd
  handled : List Bool
  finished : List MetadataFetchCompletion
  delivered : List MetadataFetchCompletion

def JobTrace.spawned (job : MetadataJob) : JobTrace where
  job := job
  joined := []
  handled := []
  finished := []
  delivered := []

inductive SchedulerPhase where
  | dispatching
  | waiting
  | returned
  deriving DecidableEq, Repr

structure SchedulerState where
  queue : PendingHashQueue
  inFlight : FiniteMap String InFlightState
  tasks : FiniteMap TaskId MetadataTask
  taskHashes : FiniteMap TaskId String
  retryHistory : RetryHistory
  inputClosed : Bool
  totalReceived : ℕ
  totalDropped : ℕ
  totalDispatched : ℕ
  totalCompleted : ℕ
  queueLen : ℕ
  phase : SchedulerPhase
  shutdown : Bool
  traces : FiniteMap ℕ JobTrace

structure MetadataScheduler where
  maxQueueSize : ℕ
  maxConcurrent : ℕ
  metadataOptions : MetadataOptions
  hasPeerLookup : Bool

namespace SchedulerState

def trace (s : SchedulerState) (serial : ℕ) (f : JobTrace → JobTrace) : SchedulerState :=
  match s.traces.get serial with
  | none => s
  | some t => { s with traces := s.traces.insert serial (f t) }

def recordQueuePush (s : SchedulerState) (kind : QueuePushKind) : SchedulerState :=
  match kind with
  | .inserted | .updated => s
  | .evictedOldest | .evictedRetry | .stale => { s with totalDropped := s.totalDropped + 1 }

end SchedulerState

namespace MetadataScheduler

def new (queueSize concurrency : ℕ) (metadataOptions : MetadataOptions) (hasPeerLookup : Bool) :
    MetadataScheduler where
  maxQueueSize := max queueSize 1
  maxConcurrent := max concurrency 1
  metadataOptions := metadataOptions
  hasPeerLookup := hasPeerLookup

/-- The state in which `run` enters its loop. -/
def start (sch : MetadataScheduler) : SchedulerState where
  queue := .new sch.maxQueueSize hashQueueTtl
  inFlight := .empty
  tasks := .empty
  taskHashes := .empty
  retryHistory := .new
  inputClosed := false
  totalReceived := 0
  totalDropped := 0
  totalDispatched := 0
  totalCompleted := 0
  queueLen := 0
  phase := .dispatching
  shutdown := false
  traces := .empty

/-! ### Handlers -/

/-- The in-flight state after another event for its hash; `room` tells whether the job's channel takes a
candidate. -/
def mergeInFlight (state : InFlightState) (hash : HashDiscovered) (room : Bool) : InFlightState :=
  let entry := (mergeCandidate state.entry hash).1
  match hash.peerAddr with
  | none => { state with entry }
  | some addr =>
    if addr ∉ state.scheduledPeers ∧ state.scheduledPeers.card < maxMetadataCandidatesPerHash ∧ room = true then
      { entry, scheduledPeers := insert addr state.scheduledPeers }
    else { state with entry }

/-- A hash with a retry record is queued as a retry: what `push` stored is taken out and deferred. -/
def deferPushed (queue : PendingHashQueue) (infoHash : String) (record : Option RetryRecord) :
    PendingHashQueue :=
  match record with
  | none => queue
  | some record =>
    match queue.remove infoHash with
    | (queue, some entry) => (queue.defer entry record).1
    | (queue, none) => queue

def isExhausted (sch : MetadataScheduler) (record : Option RetryRecord) : Bool :=
  record.any fun record => record.failures ≥ record.attemptLimit sch.metadataOptions

def enqueue (sch : MetadataScheduler) (s : SchedulerState) (hash : HashDiscovered) (now : Instant)
    (room : Bool) : Except Panic SchedulerState :=
  let s := { s with totalReceived := s.totalReceived + 1 }
  match s.inFlight.get hash.infoHash with
  | some state =>
    if now - hash.discoveredAt > hashQueueTtl then .ok (s.recordQueuePush .stale)
    else
      let inFlight := s.inFlight.insert hash.infoHash (mergeInFlight state hash room)
      .ok ({ s with inFlight }.recordQueuePush .updated)
  | none =>
    let (retryHistory, record) := s.retryHistory.observeEvent hash now sch.metadataOptions
    let s := { s with retryHistory }
    if sch.isExhausted record then .ok s
    else do
      let (queue, kind) ← s.queue.push hash now
      .ok ({ s with queue := deferPushed queue hash.infoHash record }.recordQueuePush kind)

/-- The id of a new task: the one the runtime proposes, unless a task of the set still has it. -/
def freshTaskId (tasks : FiniteMap TaskId MetadataTask) (proposed : TaskId) : TaskId :=
  if tasks.contains proposed then tasks.keys.sup id + 1 else proposed

def spawnJob (s : SchedulerState) (entry : QueuedHash) (proposed : TaskId) : SchedulerState :=
  let serial := s.totalDispatched
  let job : MetadataJob :=
    { infoHash := entry.infoHash
      peers := entry.peers
      sourceNodes := entry.sourceNodes
      source := entry.source }
  let taskId := freshTaskId s.tasks proposed
  { s with
    totalDispatched := s.totalDispatched + 1
    tasks := s.tasks.insert taskId { serial, job, ended := none }
    taskHashes := s.taskHashes.insert taskId entry.infoHash
    traces := s.traces.insert serial (.spawned job) }

/-- The readings of one round of `dispatch_ready`. -/
structure DispatchRound where
  popAt : Instant
  retainAt : Instant
  taskId : TaskId

/-- The candidates a job starts with: those of a fresh entry have to be recent. -/
def jobPeers (entry : QueuedHash) (now : Instant) : List PeerCandidate :=
  (entry.peers.filter fun peer => entry.isRetry || now - peer.discoveredAt ≤ hashQueueTtl).take
    maxMetadataCandidatesPerHash

/-- The popped entry is dropped if nothing could supply a peer, and started as a job otherwise. -/
def startJob (sch : MetadataScheduler) (s : SchedulerState) (entry : QueuedHash)
    (round : DispatchRound) : SchedulerState :=
  let entry := { entry with peers := jobPeers entry round.retainAt }
  if entry.peers.isEmpty && !sch.hasPeerLookup then { s with totalDropped := s.totalDropped + 1 }
  else
    let state : InFlightState :=
      { scheduledPeers := (entry.peers.map PeerCandidate.addr).toFinset, entry }
    spawnJob { s with inFlight := s.inFlight.insert entry.infoHash state } entry round.taskId

/-- One round of `dispatch_ready`; the second component counts the rounds. -/
def dispatchStep (sch : MetadataScheduler) (rounds : ℕ → DispatchRound) (x : SchedulerState × ℕ) :
    Except Panic (ForInStep (SchedulerState × ℕ)) :=
  let (s, i) := x
  if s.tasks.len ≥ sch.maxConcurrent then .ok (.done (s, i))
  else do
    let (queue, popped) ← s.queue.popNewestReady (rounds i).popAt
    let s := { s with queue }
    match popped with
    | none => .ok (.done (s, i))
    | some entry => .ok (.yield (sch.startJob s entry (rounds i), i + 1))

/-- Every round takes an entry out of the queue, so the fuel outlasts the loop. -/
def dispatchReady (sch : MetadataScheduler) (s : SchedulerState) (now : Instant)
    (rounds : ℕ → DispatchRound) : Except Panic SchedulerState := do
  let queue ← s.queue.promoteReady now
  let (s, _) ← Loop.run (sch.dispatchStep rounds) (queue.len + 1) ({ s with queue }, 0)
  .ok s

def finish (s : SchedulerState) (serial : ℕ) (completion : MetadataFetchCompletion)
    (installed : Bool) : SchedulerState :=
  { s with totalCompleted := s.totalCompleted + 1 }.trace serial fun t =>
    { t with
      finished := t.finished ++ [completion]
      delivered := if installed then t.delivered ++ [completion] else t.delivered }

def scheduleRetry (sch : MetadataScheduler) (s : SchedulerState) (entry : QueuedHash) (failed : Bool)
    (delay : Duration) (now : Instant) : Except Panic SchedulerState :=
  if sch.metadataOptions.retryMaxAttempts = 0 then .ok s
  else if entry.isRetry = true ∧ entry.expiresAt ≤ now then .ok s
  else do
    let (history, record) ←
      s.retryHistory.record entry.infoHash now failed delay sch.metadataOptions
    let s := { s with retryHistory := history.remember entry }
    match record with
    | none => .ok s
    | some record =>
      if record.failures ≥ record.attemptLimit sch.metadataOptions ∨
          record.nextDue ≥ record.expiresAt then .ok s
      else .ok { s with queue := (s.queue.defer entry record).1 }

def handleJobResult (sch : MetadataScheduler) (s : SchedulerState) (serial : ℕ) (result : JobResult)
    (now : Instant) (installed : Bool) : Except Panic SchedulerState :=
  match s.inFlight.get result.infoHash with
  | none => .ok (s.trace serial fun t => { t with handled := t.handled ++ [false] })
  | some state =>
    let s := s.trace serial fun t => { t with handled := t.handled ++ [true] }
    let s :=
      { s with
        inFlight := s.inFlight.erase result.infoHash
        queue := (s.queue.remove result.infoHash).1 }
    match result.outcome with
    | .gateRejected => .ok { s with retryHistory := s.retryHistory.remove result.infoHash }
    | .deferred delay => sch.scheduleRetry s state.entry false delay now
    | .completed status =>
      let completion : MetadataFetchCompletion :=
        { infoHash := result.infoHash, status, attempts := result.attempts }
      let s := finish s serial completion installed
      if status = .accepted then
        .ok { s with retryHistory := s.retryHistory.remove result.infoHash }
      else sch.scheduleRetry s state.entry true 0 now

def joinNext (sch : MetadataScheduler) (s : SchedulerState) (id : TaskId) (task : MetadataTask)
    (how : TaskEnd) (now : Instant) (installed : Bool) : Except Panic SchedulerState :=
  let infoHash := s.taskHashes.get id
  let s := { s with tasks := s.tasks.erase id, taskHashes := s.taskHashes.erase id }
  let s := s.trace task.serial fun t => { t with joined := t.joined ++ [how] }
  match how with
  | .returned run => sch.handleJobResult s task.serial (processHash task.job run) now installed
  | .panicked =>
    match infoHash with
    | none => .ok s
    | some infoHash => sch.handleJobResult s task.serial (panickedResult infoHash) now installed

/-- The end of `run`: the tasks left are aborted and joined without a handler, and the collections of the loop
are dropped. -/
def returnFromRun (sch : MetadataScheduler) (s : SchedulerState) : SchedulerState :=
  { s with
    queue := .new sch.maxQueueSize hashQueueTtl
    inFlight := .empty
    tasks := .empty
    taskHashes := .empty
    queueLen := 0
    phase := .returned }

/-- The head of the loop: dispatch, publish the queue length, and leave when the input is closed and all work is
done. -/
def loopHead (sch : MetadataScheduler) (s : SchedulerState) (now : Instant)
    (rounds : ℕ → DispatchRound) : Except Panic SchedulerState := do
  let s ← sch.dispatchReady s now rounds
  let s := { s with queueLen := s.queue.pressureLen + s.inFlight.len }
  if s.inputClosed && s.queue.isEmpty && s.tasks.len == 0 then .ok (sch.returnFromRun s)
  else .ok { s with phase := .waiting }

/-! ### Runs -/

inductive SchedulerEvent where
  | loopHead (now : Instant) (rounds : ℕ → DispatchRound)
  | hashReceived (hash : HashDiscovered) (now : Instant) (room : Bool)
  | inputClosed
  | taskJoined (id : TaskId) (now : Instant) (installed : Bool)
  | dispatchTick
  | maintenance (now : Instant)
  | statsTick
  | cancelled
  | taskEnded (id : TaskId) (how : TaskEnd)
  | shutdownRequested

/-- The branch `select!` takes for an event. -/
def select (sch : MetadataScheduler) (s : SchedulerState) : SchedulerEvent → Except Panic SchedulerState
  | .hashReceived hash now room => if s.inputClosed then .ok s else sch.enqueue s hash now room
  | .inputClosed => .ok { s with inputClosed := true }
  | .taskJoined id now installed =>
    match s.tasks.get id with
    | some task =>
      match task.ended with
      | some how => sch.joinNext s id task how now installed
      | none => .ok s
    | none => .ok s
  | .maintenance now =>
    let (queue, expired) := s.queue.expire now
    .ok { s with queue, totalDropped := s.totalDropped + expired }
  | .cancelled => .ok (if s.shutdown then sch.returnFromRun s else s)
  | _ => .ok s

def endTask (s : SchedulerState) (id : TaskId) (how : TaskEnd) : SchedulerState :=
  match s.tasks.get id with
  | none => s
  | some task =>
    if task.ended.isSome then s
    else { s with tasks := s.tasks.insert id { task with ended := some how } }

/-- One event. Those of the loop wait for their phase: an event that comes at another time changes nothing. -/
def step (sch : MetadataScheduler) (s : SchedulerState) : SchedulerEvent → Except Panic SchedulerState
  | .taskEnded id how => .ok (endTask s id how)
  | .shutdownRequested => .ok { s with shutdown := true }
  | .loopHead now rounds => if s.phase = .dispatching then sch.loopHead s now rounds else .ok s
  | event =>
    if s.phase = .waiting then do
      let s ← sch.select s event
      .ok (if s.phase = .returned then s else { s with phase := .dispatching })
    else .ok s

/-- The states of the runs that have not panicked. -/
inductive Reachable (sch : MetadataScheduler) : SchedulerState → Prop where
  | start : Reachable sch sch.start
  | step {s s'} (event : SchedulerEvent) (hr : Reachable sch s)
      (hs : sch.step s event = .ok s') : Reachable sch s'

end MetadataScheduler

end DhtCrawler
