import DhtCrawler.QueueEntries
import DhtCrawler.SchedulerWork

/-! The queue of the scheduler is one that the operations of `PendingHashQueue` make. -/

namespace DhtCrawler

open FiniteMap PendingHashQueue MetadataScheduler Except

variable {now : Instant} {entry : QueuedHash} {x : SchedulerState × ℕ} {rounds : ℕ → DispatchRound}

namespace PendingHashQueue

variable {capacity n : ℕ} {q q' : PendingHashQueue} {ttl : Duration}

/-! ### The sequence number -/

lemma remove_sequence (q : PendingHashQueue) (h : String) : (q.remove h).1.sequence = q.sequence :=
  (of_registers (remove_registers q h)).2.1

lemma insert_sequence (q : PendingHashQueue) (entry : QueuedHash) :
    (q.insert entry).sequence = (q.sequence + 1) % 2 ^ 64 := rfl

lemma PushStep.sequence {event : HashDiscovered} {kind : QueuePushKind}
    (hstep : PushStep q event now q' kind) (hlt : q.sequence < 2 ^ 64) :
    q'.sequence = (q.sequence + pushInserts kind) % 2 ^ 64 := by
  cases hstep with
  | stale => exact (Nat.mod_eq_of_lt hlt).symm
  | updated he => rw [insert_sequence, remove_sequence]; rfl
  | inserted he hlen => exact insert_sequence _ _
  | @evicted k h old =>
    rw [insert_sequence, remove_sequence]
    split_ifs <;> rfl

lemma promoteReady_sequence (q : PendingHashQueue) (now : Instant) :
    Safe (fun _ => True) (q.promoteReady now) fun q' => q'.sequence = q.sequence :=
  (promoteReady_registers q now).mono fun _ h => (of_registers h).2.1

lemma expire_sequence (q : PendingHashQueue) (now : Instant) : (q.expire now).1.sequence = q.sequence :=
  (of_registers (expire_registers q now)).2.1

lemma call_sequence (hlt : q.sequence < 2 ^ 64) (op : QueueOp) :
    Safe (fun _ => True) (q.call op) fun r => r.1.sequence = (q.sequence + r.2) % 2 ^ 64 := by
  have hsame : q.sequence = (q.sequence + 0) % 2 ^ 64 := (Nat.mod_eq_of_lt hlt).symm
  cases op with
  | push event now =>
    rcases push_step q event now with ⟨q', kind, hpush, hstep⟩ | ⟨hpush, -⟩
    · rw [call, hpush]
      exact hstep.sequence hlt
    · rw [call, hpush]
      trivial
  | defer entry record =>
    rcases defer_cases q entry record with h | ⟨h, -, -⟩
    · rw [call, h]
      exact (remove_sequence _ _).trans hsame
    · rw [call, h]
      change ((q.remove entry.infoHash).1.insert (deferredEntry entry record)).sequence = _
      rw [insert_sequence, remove_sequence]
      rfl
  | remove hash => exact (remove_sequence q hash).trans hsame
  | promoteReady now => exact (promoteReady_sequence q now).bind fun _ h => h.trans hsame
  | expire now => exact (expire_sequence q now).trans hsame
  | popNewestReady now =>
    refine Safe.bind (P := fun r : PendingHashQueue × Option QueuedHash => r.1.sequence = q.sequence)
      ?_ fun _ h => h.trans hsame
    refine (promoteReady_sequence (q.expire now).1 now).bind fun q' hq' => ?_
    exact (popChoice_frame q').2.trans (hq'.trans (expire_sequence q now))

lemma Reached.sequence (hr : Reached capacity ttl n q) : q.sequence = n % 2 ^ 64 := by
  induction hr with
  | new => rfl
  | @call n k q q' op _ hop ih =>
    have hlt : q.sequence < 2 ^ 64 := ih ▸ Nat.mod_lt _ (by decide)
    rw [(call_sequence hlt op).of_ok hop, ih, Nat.mod_add_mod]

/-! ### Expiry -/

lemma Inv.popped_later (hq : Inv capacity n q) 
    (hpop : q.popNewestReady now = .ok (q', some entry)) : now ≤ entry.expiresAt := by
  obtain ⟨ready, hready, hchoice⟩ := bind_eq_ok.mp hpop
  have htaken := takenOut_popChoice ready
  rw [ok.inj hchoice] at htaken
  obtain ⟨h, hentry, -⟩ := htaken
  have hpromoted := (fades_promoteReady (q.expire now).1 now).of_ok hready
  obtain ⟨old, _, hold, heq⟩ := origin_of_fades hpromoted hentry
  have hlater : now ≤ old.expiresAt := hq.expire_later now hold
  rw [heq]
  exact hlater

end PendingHashQueue

/-! ### Steps of the scheduler -/

namespace MetadataScheduler

variable {sch : MetadataScheduler} {s s' : SchedulerState} {n : ℕ}

abbrev Queued (sch : MetadataScheduler) (n : ℕ) (s : SchedulerState) : Prop :=
  Reached sch.maxQueueSize hashQueueTtl n s.queue

def Grown (sch : MetadataScheduler) (n bound : ℕ) (s : SchedulerState) : Prop :=
  s.phase = .returned ∨ ∃ k ≤ bound, Queued sch (n + k) s

lemma Queued.grown (hs : Queued sch n s) (bound : ℕ) : Grown sch n bound s :=
  .inr ⟨0, Nat.zero_le _, hs⟩

lemma pushInserts_le (kind : QueuePushKind) : pushInserts kind ≤ 1 := by
  unfold pushInserts
  split_ifs <;> decide

lemma deferInserts_le (stored : Bool) : deferInserts stored ≤ 1 := by
  cases stored <;> decide

lemma queue_recordQueuePush (s : SchedulerState) (kind : QueuePushKind) :
    (s.recordQueuePush kind).queue = s.queue := by
  obtain ⟨m, h⟩ := recordQueuePush_eq s kind
  rw [h]

lemma enqueue_queued (hs : Queued sch n s) (hash : HashDiscovered) (now : Instant) (room : Bool) :
    Safe (fun _ => True) (sch.enqueue s hash now room) (Grown sch n 2) := by
  unfold enqueue
  dsimp only
  cases s.inFlight.get hash.infoHash with
  | some state =>
    dsimp only
    split_ifs
    all_goals
      refine Queued.grown ?_ 2
      rw [Queued, queue_recordQueuePush]
      exact hs
  | none =>
    dsimp only
    split_ifs
    · exact hs.grown 2
    · cases hpush : s.queue.push hash now with
      | error e => trivial
      | ok r =>
        obtain ⟨queue, kind⟩ := r
        rw [ok_bind]
        dsimp only [Safe]
        have hpushed : Reached sch.maxQueueSize hashQueueTtl
            (n + pushInserts kind) queue :=
          .call (.push hash now) hs (by rw [call, hpush]; rfl)
        have hkind := pushInserts_le kind
        refine .inr ?_
        unfold Queued
        rw [queue_recordQueuePush]
        unfold deferPushed
        cases (s.retryHistory.observeEvent hash now sch.metadataOptions).2 with
        | none => exact ⟨_, by omega, hpushed⟩
        | some record =>
          have hremoved : Reached sch.maxQueueSize hashQueueTtl
              (n + pushInserts kind + 0) (queue.remove hash.infoHash).1 :=
            .call (.remove hash.infoHash) hpushed rfl
          cases hremove : queue.remove hash.infoHash with
          | mk rest taken =>
            rw [hremove] at hremoved
            cases taken with
            | none => exact ⟨_, by omega, hremoved⟩
            | some entry =>
              have hdefer := deferInserts_le (rest.defer entry record).2
              refine ⟨pushInserts kind +
                deferInserts (rest.defer entry record).2, by omega, ?_⟩
              rw [← Nat.add_assoc]
              exact .call (.defer entry record) hremoved rfl

lemma scheduleRetry_queued (hs : Queued sch n s) (entry : QueuedHash) (failed : Bool) (delay : Duration)
    (now : Instant) : Safe (fun _ => True) (sch.scheduleRetry s entry failed delay now)
      (Grown sch n 2) := by
  unfold scheduleRetry
  split_ifs
  · exact hs.grown 2
  · exact hs.grown 2
  · cases s.retryHistory.record entry.infoHash now failed delay sch.metadataOptions with
    | error e => trivial
    | ok r =>
      obtain ⟨history, _ | record⟩ := r
      · exact hs.grown 2
      · rw [ok_bind]
        dsimp only
        split_ifs
        · exact hs.grown 2
        · have hdefer := deferInserts_le (s.queue.defer entry record).2
          exact .inr ⟨_, by omega, .call (.defer entry record) hs rfl⟩

lemma queue_trace (s : SchedulerState) (serial : ℕ) (f : JobTrace → JobTrace) :
    (s.trace serial f).queue = s.queue := by
  unfold SchedulerState.trace
  split <;> rfl

lemma handleJobResult_queued (hs : Queued sch n s) (serial : ℕ) (result : JobResult) (now : Instant)
    (installed : Bool) : Safe (fun _ => True) (sch.handleJobResult s serial result now installed)
      (Grown sch n 2) := by
  unfold handleJobResult
  cases s.inFlight.get result.infoHash with
  | none =>
    refine Queued.grown ?_ 2
    rw [Queued, queue_trace]
    exact hs
  | some state =>
    have hremoved : Reached sch.maxQueueSize hashQueueTtl (n + 0)
        (s.queue.remove result.infoHash).1 := .call (.remove result.infoHash) hs rfl
    dsimp only
    rw [queue_trace]
    cases result.outcome with
    | gateRejected => exact .inr ⟨0, Nat.zero_le _, hremoved⟩
    | deferred delay => exact scheduleRetry_queued hremoved state.entry false delay now
    | completed status =>
      dsimp only
      split_ifs
      · refine .inr ⟨0, Nat.zero_le _, ?_⟩
        change Reached _ _ _ (SchedulerState.queue (finish _ _ _ _))
        unfold finish
        rw [queue_trace]
        exact hremoved
      · refine scheduleRetry_queued (?_ : Queued sch n _) state.entry true 0 now
        unfold finish
        rw [Queued, queue_trace]
        exact hremoved

/-! ### Dispatching -/

/-- The states that the rounds of `dispatch_ready` visit, with the number of the round. -/
inductive Visits (sch : MetadataScheduler) (s : SchedulerState) (now : Instant)
    (rounds : ℕ → DispatchRound) : SchedulerState × ℕ → Prop where
  | first {queue} (hqueue : s.queue.promoteReady now = .ok queue) :
      Visits sch s now rounds ({ s with queue }, 0)
  | next {x y} (hx : Visits sch s now rounds x)
      (hstep : sch.dispatchStep rounds x = .ok (.yield y)) : Visits sch s now rounds y

def Dispatches (sch : MetadataScheduler) (s : SchedulerState) (now : Instant) (rounds : ℕ → DispatchRound)
    (popAt : Instant) (entry : QueuedHash) : Prop :=
  s.phase = .dispatching ∧ ∃ x queue, Visits sch s now rounds x ∧ x.1.tasks.len < sch.maxConcurrent ∧
    popAt = (rounds x.2).popAt ∧ x.1.queue.popNewestReady popAt = .ok (queue, some entry)

lemma startJob_queue (s : SchedulerState) (entry : QueuedHash) (round : DispatchRound) :
    (sch.startJob s entry round).queue = s.queue := by
  unfold startJob
  dsimp only
  split_ifs <;> rfl

lemma dispatchStep_queued (hx : Queued sch n x.1) (rounds : ℕ → DispatchRound) :
    Safe (fun _ => True) (sch.dispatchStep rounds x) fun r => Queued sch n r.value.1 := by
  obtain ⟨s, i⟩ := x
  unfold dispatchStep
  dsimp only
  split_ifs
  · exact hx
  · cases hpop : s.queue.popNewestReady (rounds i).popAt with
    | error e => trivial
    | ok r =>
      obtain ⟨queue, popped⟩ := r
      have hpopped : Reached sch.maxQueueSize hashQueueTtl (n + 0) queue :=
        .call (.popNewestReady (rounds i).popAt) hx (by rw [call, hpop]; rfl)
      rw [ok_bind]
      cases popped with
      | none => exact hpopped
      | some entry =>
        dsimp only [Safe, ForInStep.value]
        rw [Queued, startJob_queue]
        exact hpopped

lemma promoteReady_queued (hs : Queued sch n s) {queue : PendingHashQueue}
    (hqueue : s.queue.promoteReady now = .ok queue) : Queued sch n { s with queue } := by
  have hcall : s.queue.call (.promoteReady now) = .ok (queue, 0) := by
    rw [call, hqueue]
    rfl
  exact Reached.call (.promoteReady now) hs hcall

lemma Visits.queued 
    (hx : Visits sch s now rounds x) (hs : Queued sch n s) : Queued sch n x.1 := by
  induction hx with
  | first hqueue => exact promoteReady_queued hs hqueue
  | next _ hstep ih => exact (dispatchStep_queued ih rounds).of_ok hstep

lemma Dispatches.later {popAt : Instant} 
    (hdispatch : Dispatches sch s now rounds popAt entry) (hs : Queued sch n s) (hn : n < 2 ^ 64) :
    popAt ≤ entry.expiresAt := by
  obtain ⟨-, x, queue, hx, -, -, hpop⟩ := hdispatch
  exact ((hx.queued hs).inv hn).popped_later hpop

lemma loopHead_queued (hs : Queued sch n s) (now : Instant) (rounds : ℕ → DispatchRound) :
    Safe (fun _ => True) (sch.loopHead s now rounds) (Grown sch n 2) := by
  refine loopHead_safe (P := fun x => Queued sch n x.1) ?_ (fun x hx => dispatchStep_queued hx rounds)
    (fun _ _ _ _ _ => .inl rfl) fun x _ hx => .inr ⟨0, Nat.zero_le _, hx⟩
  cases hqueue : s.queue.promoteReady now with
  | error e => trivial
  | ok queue => exact promoteReady_queued hs hqueue

/-! ### Runs -/

lemma select_queued (hs : Queued sch n s) (event : SchedulerEvent) :
    Safe (fun _ => True) (sch.select s event) (Grown sch n 2) := by
  cases event with
  | hashReceived hash now room =>
    dsimp only [select]
    split_ifs
    · exact hs.grown 2
    · exact enqueue_queued hs hash now room
  | taskJoined id now installed =>
    dsimp only [select]
    cases s.tasks.get id with
    | none => exact hs.grown 2
    | some task =>
      obtain ⟨serial, job, _ | how⟩ := task
      · exact hs.grown 2
      · have hjoined : Queued sch n (SchedulerState.trace { s with
            tasks := s.tasks.erase id, taskHashes := s.taskHashes.erase id } serial fun t =>
              { t with joined := t.joined ++ [how] }) := by
          rw [Queued, queue_trace]
          exact hs
        dsimp only [joinNext]
        cases how with
        | returned run => exact handleJobResult_queued hjoined serial (processHash job run) now installed
        | panicked =>
          cases s.taskHashes.get id with
          | none => exact hjoined.grown 2
          | some infoHash =>
            exact handleJobResult_queued hjoined serial (panickedResult infoHash) now installed
  | maintenance now =>
    exact .inr ⟨0, Nat.zero_le _, .call (.expire now) hs rfl⟩
  | cancelled =>
    dsimp only [select]
    split_ifs
    · exact .inl rfl
    · exact hs.grown 2
  | inputClosed | loopHead | dispatchTick | statsTick | taskEnded | shutdownRequested => exact hs.grown 2

lemma step_queued (hs : Queued sch n s) (event : SchedulerEvent) :
    Safe (fun _ => True) (sch.step s event) (Grown sch n 2) := by
  refine step_safe (fun id how _ => ?_) (fun _ => hs.grown 2) (fun now rounds _ _ => loopHead_queued hs now rounds)
    (fun _ => (select_queued hs event).mono fun s' hs' => ?_) (fun _ _ _ _ => hs.grown 2)
    fun _ _ => hs.grown 2
  · refine Queued.grown ?_ 2
    dsimp only [endTask]
    split
    · exact hs
    · split_ifs <;> exact hs
  · split_ifs with hreturned
    · exact .inl hreturned
    · exact .inr (hs'.resolve_left hreturned)

lemma step_returned (hs : s.phase = .returned) (event : SchedulerEvent) :
    Safe (fun _ => True) (sch.step s event) fun s' => s'.phase = .returned := by
  refine step_over hs (fun id how _ => ?_) (fun _ => hs) hs
  dsimp only [endTask]
  split
  · exact hs
  · split_ifs <;> exact hs

def inserts (s s' : SchedulerState) : ℕ :=
  if s'.phase = .returned then 0 else (s'.queue.sequence + 2 ^ 64 - s.queue.sequence) % 2 ^ 64

lemma inserts_eq {k : ℕ} (hs : Queued sch n s) (hs' : Queued sch (n + k) s') (hk : k ≤ 2)
    (hphase : s'.phase ≠ .returned) : inserts s s' = k := by
  rw [inserts, if_neg hphase, hs.sequence, hs'.sequence]
  omega

end MetadataScheduler

end DhtCrawler
