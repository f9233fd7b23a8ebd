import DhtCrawler.SchedulerQueue
import DhtCrawler.SchedulerRetries

/-! The lifetime of a retry record, from the step that makes it to the step that removes it. -/

namespace DhtCrawler

open FiniteMap RetryHistory List Option MetadataScheduler PendingHashQueue Except Work

variable {history : RetryHistory} {old : RetryRecord} {x : SchedulerState × ℕ} {rounds : ℕ → DispatchRound}

namespace Work

variable {policy : MetadataOptions} {offered : Option RetryRecord} {heard : HashDiscovered → Instant → Prop}
  {w w' : Work} {hash other : String} {now t t' : Instant} {failed : Bool} {k : ℕ}

/-! ### The count -/

def Counted (policy : MetadataOptions) (hash : String) (k : ℕ) (t : Instant) (w : Work) : Prop :=
  ∀ record, w.history.recordOf hash = some record → k ≤ record.failures ∨
    k ≤ record.failures + 1 ∧ Open policy record ∧ record.expiresAt ≤ t ∧ ∀ entry, ¬w.Live hash entry

lemma Counted.le (hcounted : Counted policy hash k t w) (hw : Retries policy w) {record : RetryRecord}
    (hrecord : w.history.recordOf hash = some record) : k ≤ policy.retryMaxAttempts + 2 := by
  obtain ⟨hextra, hfailures⟩ := hw.bounded hash record hrecord
  rcases hcounted record hrecord with hcount | ⟨hcount, hopen, -⟩
  · unfold RetryRecord.attemptLimit at hfailures
    omega
  · unfold Open RetryRecord.attemptLimit at hopen
    omega

lemma Act.counted (hact : Act policy offered heard w w') (hw : Retries policy w)
    (hheard : ∀ event r, heard event r → t ≤ r) (hcounted : Counted policy hash k t w) : Counted policy hash k t w' := by
  intro record hrecord
  cases hact.effect hw.exact with
  | kept hhistory hlive =>
    rw [hhistory] at hrecord
    refine (hcounted record hrecord).imp id fun ⟨hcount, hopen, hover, hidle⟩ => ?_
    refine ⟨hcount, hopen, hover, fun entry hentry => ?_⟩
    obtain ⟨old, hold, -⟩ := hlive hash entry hentry
    exact hidle old hold
  | observed event now hnow hhistory hlive =>
    rw [hhistory] at hrecord
    obtain ⟨old, hold, hlater, hsame⟩ := observed_origin hw.exact hrecord
    have hfailures : record.failures = old.failures := by
      obtain rfl | ⟨-, novel, rfl⟩ := hsame
      · rfl
      · exact grantedRecord_failures _ _ _ _
    rcases hcounted old hold with hcount | ⟨-, -, hover, -⟩
    · exact .inl (hfailures ▸ hcount)
    · exact absurd (hover.trans (hheard event now hnow)) (not_le_of_gt hlater)

lemma Acts.counted (hacts : Acts policy offered heard w w') (hw : Retries policy w)
    (hheard : ∀ event r, heard event r → t ≤ r) (hcounted : Counted policy hash k t w) : Counted policy hash k t w' := by
  induction hacts with
  | refl => exact hcounted
  | tail hacts hact ih => exact hact.counted (Acts.retries hacts hw) hheard ih

lemma Counted.later (hcounted : Counted policy hash k t w) (hlater : t ≤ t') : Counted policy hash k t' w :=
  fun record hrecord => (hcounted record hrecord).imp id
    fun ⟨hcount, hopen, hover, hidle⟩ => ⟨hcount, hopen, hover.trans hlater, hidle⟩

lemma Result.others (hresult : Result policy now failed hash w w') (hw : Retries policy w)
    (hother : other ≠ hash) :
    (∀ record, w'.history.recordOf other = some record → w.history.recordOf other = some record) ∧
      ∀ entry, w'.Live other entry → w.Live other entry := by
  have hlater : ∀ record, (w.history.expire now).recordOf other = some record →
      w.history.recordOf other = some record := fun _ h => (recordOf_of_expire hw.exact h).1
  cases hresult with
  | settled hstate =>
    refine ⟨fun record hrecord => ?_, fun entry hlive => hlive.of_erase.2⟩
    rwa [recordOf_remove hw.exact, if_neg hother] at hrecord
  | lapsed failed hstate hlapsed => exact ⟨fun _ hrecord => hrecord, fun entry hlive => hlive.of_erase.2⟩
  | unretried failed delay hstate hlive hrecord =>
    refine ⟨fun record' hrecord' => hlater record' ?_, fun entry hlive => hlive.of_erase.2⟩
    rwa [← (records hw.exact hrecord _).others other hother]
  | retried failed delay orderKey hstate hlive hrecord hopen hdue =>
    refine ⟨fun record' hrecord' => hlater record' ?_, fun entry hlive => ?_⟩
    · rwa [← (records hw.exact hrecord _).others other hother]
    · rcases Live.of_insert (w := w.finished hash w.history) hlive with ⟨hsame, -⟩ | hold
      · exact absurd hsame hother
      · exact hold.of_erase.2

/-- What a result leaves of the record of its hash: nothing, the record of a job that came too late, or the
record that took the result. -/
inductive Left (policy : MetadataOptions) (now : Instant) (failed : Bool) (hash : String) (w w' : Work) :
    Prop where
  | gone (hnone : w'.history.recordOf hash = none)
  | late (hrecord : w'.history.recordOf hash = w.history.recordOf hash)
      (hover : ∀ record, w.history.recordOf hash = some record →
        Open policy record ∧ record.expiresAt ≤ now) (hidle : ∀ entry, ¬w'.Live hash entry)
  | taken (delay : Duration) (record : RetryRecord)
      (hopen : Open policy record)
      (hrecord : w.history.recordOf hash = none ∧ record = (freshState now policy).record ∨
        w.history.recordOf hash = some record)
      (hrecord' : w'.history.recordOf hash = some (recordedResult record now failed delay policy))

lemma Retries.left (hw : Retries policy w) (hpolicy : 1 ≤ policy.retryMaxAttempts)
    {state : InFlightState} (hstate : w.inFlight.get hash = some state)
    (hlive : ¬(state.entry.isRetry = true ∧ state.entry.expiresAt ≤ now)) {delay : Duration}
    {record : Option RetryRecord}
    (hrecord : w.history.record hash now failed delay policy = .ok (history, record))
    (hhistory : w'.history = history.remember state.entry) : Left policy now failed hash w w' := by
  have hrecords := records hw.exact hrecord state.entry
  rw [← hhistory] at hrecords
  rcases hrecords.result with ⟨hnone, -⟩ | hsome
  · exact .gone (hrecords.answer.trans hnone)
  · have hopen := (hw.resumed hpolicy hstate hlive).1
    refine .taken delay _ hopen ?_ (hrecords.answer.trans hsome)
    unfold resumedRecord
    rw [hw.found hstate hlive]
    cases w.history.recordOf hash with
    | none => exact .inl ⟨rfl, rfl⟩
    | some record => exact .inr rfl

lemma Result.left (hresult : Result policy now failed hash w w') (hpolicy : 1 ≤ policy.retryMaxAttempts)
    (hw : Retries policy w) : Left policy now failed hash w w' := by
  cases hresult with
  | settled hstate =>
    refine .gone ?_
    rw [recordOf_remove hw.exact, if_pos rfl]
  | lapsed failed hstate hlapsed =>
    refine .late rfl (fun record hrecord => ?_) fun entry hlive => hlive.of_erase.1 rfl
    obtain ⟨hopen, -, hexpires⟩ := hw.live hash record hrecord _ (.inr ⟨_, hstate, rfl⟩)
    rcases hlapsed with hoff | ⟨-, hover⟩
    · omega
    · exact ⟨hopen, hexpires ▸ hover⟩
  | unretried failed delay hstate hlive hrecord => exact hw.left hpolicy hstate hlive hrecord rfl
  | retried failed delay orderKey hstate hlive hrecord hopen hdue =>
    exact hw.left hpolicy hstate hlive hrecord rfl

lemma Result.origin (hresult : Result policy now failed hash w w') (hpolicy : 1 ≤ policy.retryMaxAttempts)
    (hw : Retries policy w) {record : RetryRecord} (hold : w.history.recordOf other = some old)
    (hrecord : w'.history.recordOf other = some record) : record.expiresAt = old.expiresAt := by
  by_cases hother : other = hash
  · subst hother
    cases hresult.left hpolicy hw with
    | gone hnone => cases hnone.symm.trans hrecord
    | late hsame _ _ =>
      cases (hold.symm.trans hsame.symm).trans hrecord
      rfl
    | taken delay found hopen hfound hrecord' =>
      cases hrecord'.symm.trans hrecord
      rw [recordedResult_expiresAt]
      rcases hfound with ⟨hnone, -⟩ | hfound
      · cases hnone.symm.trans hold
      · cases hfound.symm.trans hold
        rfl
  · cases ((hresult.others hw hother).1 record hrecord).symm.trans hold
    rfl

lemma Result.counted (hresult : Result policy now failed hash w w') (hpolicy : 1 ≤ policy.retryMaxAttempts)
    (hw : Retries policy w) (hnow : t ≤ now) (hnow' : now ≤ t') (hcounted : Counted policy other k t w)
    (hstart : w.history.recordOf other = none → k = 0) :
    Counted policy other (k + if failed = true ∧ hash = other then 1 else 0) t' w' := by
  intro record hrecord
  by_cases hother : other = hash
  swap
  · rw [if_neg fun h => hother h.2.symm, Nat.add_zero]
    obtain ⟨hrecords, hlive⟩ := hresult.others hw hother
    refine (hcounted record (hrecords record hrecord)).imp id fun ⟨hcount, hopen, hover, hidle⟩ => ?_
    exact ⟨hcount, hopen, hover.trans (hnow.trans hnow'), fun entry hentry => hidle entry (hlive entry hentry)⟩
  subst hother
  -- the job was live, so all failures before this one are counted
  have hbefore : ∀ old, w.history.recordOf other = some old → k ≤ old.failures := by
    intro old hold
    rcases hcounted old hold with hcount | ⟨-, -, -, hidle⟩
    · exact hcount
    · obtain ⟨entry, hentry⟩ : ∃ entry, w.Live other entry := by
        cases hresult with
        | settled hstate => exact ⟨_, .inr ⟨_, hstate, rfl⟩⟩
        | lapsed failed hstate => exact ⟨_, .inr ⟨_, hstate, rfl⟩⟩
        | unretried failed delay hstate => exact ⟨_, .inr ⟨_, hstate, rfl⟩⟩
        | retried failed delay orderKey hstate => exact ⟨_, .inr ⟨_, hstate, rfl⟩⟩
      exact absurd hentry (hidle entry)
  cases hresult.left hpolicy hw with
  | gone hnone => cases hnone.symm.trans hrecord
  | late hsame hover hidle =>
    have hold := hsame ▸ hrecord
    obtain ⟨hopen, hpast⟩ := hover record hold
    have hcount := hbefore record hold
    refine .inr ⟨?_, hopen, hpast.trans hnow', hidle⟩
    split_ifs <;> omega
  | taken delay old hopen hfound hrecord' =>
    cases hrecord'.symm.trans hrecord
    refine .inl ?_
    rw [recordedResult_failures hopen]
    have hcount : k ≤ old.failures := by
      rcases hfound with ⟨hnone, -⟩ | hold
      · rw [hstart hnone]
        exact Nat.zero_le _
      · exact hbefore old hold
    cases failed with
    | false => simpa using hcount
    | true => simpa using hcount

end Work

namespace MetadataScheduler

variable {sch : MetadataScheduler} {s s' : SchedulerState} {n k : ℕ} {t t' expiresAt : Instant} {hash : String}
  {event : SchedulerEvent}

/-! ### Runs -/

structure Tick (sch : MetadataScheduler) (t : Instant) (s : SchedulerState) (event : SchedulerEvent)
    (t' : Instant) (s' : SchedulerState) : Prop where
  later : t ≤ t'
  reads : ∀ now, event.Reads now → t ≤ now ∧ now ≤ t'
  step : sch.step s event = .ok s'

inductive Clocked (sch : MetadataScheduler) : ℕ → Instant → SchedulerState → Prop where
  | start : Clocked sch 0 0 sch.start
  | step {n : ℕ} {t t' : Instant} {s s' : SchedulerState} (event : SchedulerEvent) (hr : Clocked sch n t s)
      (htick : Tick sch t s event t' s') : Clocked sch (n + inserts s s') t' s'

def failuresOf (hash : String) (s : SchedulerState) (event : SchedulerEvent) : ℕ :=
  if failedHash s event = some hash then 1 else 0

/-- A run that ends within a lifetime of the record of `hash`: the lifetime began with a record that expires at
`expiresAt`, and `k` jobs of the hash have failed in it. -/
inductive Lifetime (sch : MetadataScheduler) (hash : String) (expiresAt : Instant) :
    ℕ → Instant → SchedulerState → Prop where
  | created {n t t' s s' record} (event : SchedulerEvent)
      (hr : Clocked sch n t s) (hnone : s.retryHistory.recordOf hash = none)
      (htick : Tick sch t s event t' s') (hrecord : s'.retryHistory.recordOf hash = some record)
      (hexpires : record.expiresAt = expiresAt) :
      Lifetime sch hash expiresAt (failuresOf hash s event) t' s'
  | step {k t t' s s' record} (event : SchedulerEvent)
      (hr : Lifetime sch hash expiresAt k t s) (htick : Tick sch t s event t' s')
      (hrecord : s'.retryHistory.recordOf hash = some record) :
      Lifetime sch hash expiresAt (k + failuresOf hash s event) t' s'

lemma Clocked.reachable (hr : Clocked sch n t s) : Reachable sch s := by
  induction hr with
  | start => exact .start
  | step event _ htick ih => exact .step event ih htick.step

lemma Clocked.queued (hr : Clocked sch n t s) : s.phase = .returned ∨ Queued sch n s := by
  induction hr with
  | start => exact .inr .new
  | @step n t t' s s' event _ htick ih =>
    rcases ih with hreturned | hs
    · exact .inl ((step_returned hreturned event).of_ok htick.step)
    · by_cases hphase : s'.phase = .returned
      · exact .inl hphase
      · obtain ⟨k, hk, hs'⟩ := ((step_queued hs event).of_ok htick.step).resolve_left hphase
        rw [inserts_eq hs hs' hk hphase]
        exact .inr hs'

lemma retries_start (sch : MetadataScheduler) : Retries sch.metadataOptions sch.start.work where
  exact := exact_new
  len := by simp [SchedulerState.work, MetadataScheduler.start, RetryHistory.new]
  bounded hash record hrecord := nomatch hrecord
  live hash record hrecord := nomatch hrecord

lemma Clocked.retries (hr : Clocked sch n t s) (hpolicy : 1 ≤ sch.metadataOptions.retryMaxAttempts) :
    Retries sch.metadataOptions s.work := by
  induction hr with
  | start => exact retries_start sch
  | step event hr htick ih =>
    cases hr.reachable.step_work htick.step with
    | acts _ hacts => exact Acts.retries hacts ih
    | result _ _ _ _ _ _ hresult => exact hresult.retries hpolicy ih

/-! ### Lifetimes -/

lemma Lifetime.clocked (hl : Lifetime sch hash expiresAt k t s) : ∃ n, Clocked sch n t s := by
  induction hl with
  | created event hr _ htick _ _ => exact ⟨_, .step event hr htick⟩
  | step event _ htick _ ih =>
    obtain ⟨n, hr⟩ := ih
    exact ⟨_, .step event hr htick⟩

lemma Lifetime.recorded (hl : Lifetime sch hash expiresAt k t s) :
    ∃ record, s.retryHistory.recordOf hash = some record := by
  cases hl with
  | created event _ _ _ hrecord _ => exact ⟨_, hrecord⟩
  | step event _ _ hrecord => exact ⟨_, hrecord⟩

lemma failuresOf_result {failed : Bool} {name : String}
    (hfailed : failedHash s event = if failed then some name else none) :
    failuresOf hash s event = if failed = true ∧ name = hash then 1 else 0 := by
  unfold failuresOf
  rw [hfailed]
  cases failed <;> simp

lemma failuresOf_acts (hfailed : failedHash s event = none) : failuresOf hash s event = 0 := by
  unfold failuresOf
  rw [hfailed]
  rfl

lemma Tick.counted (htick : Tick sch t s event t' s') (hr : Clocked sch n t s)
    (hpolicy : 1 ≤ sch.metadataOptions.retryMaxAttempts)
    (hcounted : Counted sch.metadataOptions hash k t s.work)
    (hstart : s.retryHistory.recordOf hash = none → k = 0) :
    Counted sch.metadataOptions hash (k + failuresOf hash s event) t' s'.work := by
  have hw := hr.retries hpolicy
  cases hr.reachable.step_work htick.step with
  | acts hfailed hacts =>
    rw [failuresOf_acts hfailed]
    exact (Acts.counted hacts hw (fun _ now hnow => (htick.reads now hnow.reads).1) hcounted).later htick.later
  | result now failed name hnow _ hfailed hresult =>
    obtain ⟨hnow, hnow'⟩ := htick.reads now hnow
    rw [failuresOf_result hfailed]
    exact hresult.counted hpolicy hw hnow hnow' hcounted hstart

variable {record : RetryRecord}

lemma Tick.expiresAt_eq (htick : Tick sch t s event t' s') (hr : Clocked sch n t s)
    (hpolicy : 1 ≤ sch.metadataOptions.retryMaxAttempts)
    (hold : s.retryHistory.recordOf hash = some old) (hrecord : s'.retryHistory.recordOf hash = some record) :
    record.expiresAt = old.expiresAt := by
  have hw := hr.retries hpolicy
  cases hr.reachable.step_work htick.step with
  | acts hfailed hacts =>
    obtain ⟨old', hold', hexpires⟩ := Acts.origin hacts hw hrecord
    cases hold'.symm.trans hold
    exact hexpires
  | result now failed name hnow _ hfailed hresult => exact hresult.origin hpolicy hw hold hrecord

lemma Lifetime.counted (hl : Lifetime sch hash expiresAt k t s)
    (hpolicy : 1 ≤ sch.metadataOptions.retryMaxAttempts) :
    Counted sch.metadataOptions hash k t s.work := by
  induction hl with
  | @created n t t' s s' record event hr hnone htick _ _ =>
    have hcounted : Counted sch.metadataOptions hash 0 t s.work :=
      fun old hold => absurd (hnone.symm.trans hold) nofun
    have hcounted' := htick.counted hr hpolicy hcounted fun _ => rfl
    rwa [Nat.zero_add] at hcounted'
  | step event hl htick _ ih =>
    obtain ⟨n, hr⟩ := hl.clocked
    obtain ⟨old, hold⟩ := hl.recorded
    exact htick.counted hr hpolicy ih fun hnone => absurd (hnone.symm.trans hold) nofun

lemma Lifetime.expiresAt_eq (hl : Lifetime sch hash expiresAt k t s)
    (hpolicy : 1 ≤ sch.metadataOptions.retryMaxAttempts) (hrecord : s.retryHistory.recordOf hash = some record) :
    record.expiresAt = expiresAt := by
  induction hl generalizing record with
  | created event _ _ _ hrecord' hexpires =>
    cases hrecord'.symm.trans hrecord
    exact hexpires
  | step event hl htick _ ih =>
    obtain ⟨n, hr⟩ := hl.clocked
    obtain ⟨old, hold⟩ := hl.recorded
    exact (htick.expiresAt_eq hr hpolicy hold hrecord).trans (ih hold)

lemma Clocked.lifetime (hr : Clocked sch n t s) (hpolicy : 1 ≤ sch.metadataOptions.retryMaxAttempts)
    (hrecord : s.retryHistory.recordOf hash = some record) : ∃ k, Lifetime sch hash record.expiresAt k t s := by
  induction hr generalizing record with
  | start => exact nomatch hrecord
  | @step n t t' s s' event hr htick ih =>
    cases hold : s.retryHistory.recordOf hash with
    | none => exact ⟨_, .created event hr hold htick hrecord rfl⟩
    | some old =>
      obtain ⟨k, hl⟩ := ih hold
      rw [htick.expiresAt_eq hr hpolicy hold hrecord]
      exact ⟨_, .step event hl htick hrecord⟩

/-! ### Dispatches -/

lemma startJob_history (s : SchedulerState) (entry : QueuedHash) (round : DispatchRound) :
    (sch.startJob s entry round).retryHistory = s.retryHistory := by
  unfold startJob
  dsimp only
  split_ifs <;> rfl

lemma dispatchStep_history (rounds : ℕ → DispatchRound) :
    Safe (fun _ => True) (sch.dispatchStep rounds x) fun r =>
      r.value.1.retryHistory = x.1.retryHistory := by
  obtain ⟨s, i⟩ := x
  unfold dispatchStep
  dsimp only
  split_ifs
  · rfl
  · cases s.queue.popNewestReady (rounds i).popAt with
    | error e => trivial
    | ok r =>
      obtain ⟨queue, _ | entry⟩ := r
      · rfl
      · exact startJob_history _ _ _

lemma Visits.spec {now : Instant} 
    (hx : Visits sch s now rounds x) (hs : Jobs sch s) (hphase : s.phase = .dispatching)
    (hw : Retries sch.metadataOptions s.work) :
    Dispatching sch x ∧ Retries sch.metadataOptions x.1.work ∧ x.1.retryHistory = s.retryHistory := by
  induction hx with
  | @first queue hqueue =>
    have hqueued := (hs.queued.promoteReady now).of_ok hqueue
    have hfades := (fades_promoteReady s.queue now).of_ok hqueue
    have hacts : Acts sch.metadataOptions none (fun _ _ => False) s.work { s.work with queued := queue.entries } :=
      acts_of_fades (w := s.work) hfades
    exact ⟨⟨{ hs with queued := hqueued }, hphase⟩, Acts.retries hacts hw, rfl⟩
  | next _ hstep ih =>
    obtain ⟨hx, hw, hhistory⟩ := ih
    have hacts : Acts sch.metadataOptions none (fun _ _ => False) _ _ :=
      (dispatchStep_acts hx.1 rounds).of_ok hstep
    exact ⟨(hx.step rounds).of_ok hstep, Acts.retries hacts hw,
      ((dispatchStep_history rounds).of_ok hstep).trans hhistory⟩

lemma Dispatches.under {now popAt : Instant} {entry : QueuedHash}
    (hdispatch : Dispatches sch s now rounds popAt entry) (hr : Clocked sch n t s)
    (hpolicy : 1 ≤ sch.metadataOptions.retryMaxAttempts)
    (hrecord : s.retryHistory.recordOf entry.infoHash = some record) :
    Under sch.metadataOptions record entry := by
  obtain ⟨hphase, x, queue, hx, -, -, hpop⟩ := hdispatch
  have hjobs : Jobs sch s := by
    rcases hr.reachable.jobs with hjobs | haborted
    · exact hjobs
    · exact absurd (hphase.symm.trans haborted.phase) (by decide)
  obtain ⟨hdispatching, hw, hhistory⟩ := hx.spec hjobs hphase (hr.retries hpolicy)
  obtain ⟨queued, hfades, name, hentry, -⟩ :=
    (takenOut_popNewestReady x.1.queue popAt).of_ok hpop
  obtain ⟨old, ready, hold, rfl⟩ := origin_of_fades hfades hentry
  have hname : old.infoHash = name := (hdispatching.1.queued name old hold).1
  refine hw.live name record ?_ old (.inl hold)
  rw [← hname]
  exact (congrArg (fun history => history.recordOf old.infoHash) hhistory).trans hrecord

/-- **Bounded retries.** In every state of a run under a clock that does not go back the expiry index is that of
the records, and there are no more records than the history may hold. -/
theorem retries_bounded (hpolicy : 1 ≤ sch.metadataOptions.retryMaxAttempts) (hr : Clocked sch n t s) :
    ((∀ key, s.retryHistory.expiry.get key = some () ↔
        (s.retryHistory.recordOf (ofLex key).2).map RetryRecord.expiresAt = some (ofLex key).1) ∧
      s.retryHistory.entries.len ≤ sch.metadataOptions.retryHistoryCapacity) ∧
    (∀ hash record, s.retryHistory.recordOf hash = some record → record.extraAttempts ≤ 2 ∧
      record.failures ≤ sch.metadataOptions.retryMaxAttempts + record.extraAttempts ∧
      ∃ k, Lifetime sch hash record.expiresAt k t s) ∧
    (∀ hash expiresAt k, Lifetime sch hash expiresAt k t s → k ≤ sch.metadataOptions.retryMaxAttempts + 2 ∧
      ∀ record, s.retryHistory.recordOf hash = some record → record.expiresAt = expiresAt) ∧
    ∀ now rounds popAt entry, Dispatches sch s now rounds popAt entry →
      (∀ record, s.retryHistory.recordOf entry.infoHash = some record →
        record.failures < record.attemptLimit sch.metadataOptions ∧ entry.isRetry = true ∧
          entry.expiresAt = record.expiresAt) ∧
      (entry.isRetry = true → n < 2 ^ 64 → popAt ≤ entry.expiresAt) := by
  have hw := hr.retries hpolicy
  refine ⟨⟨fun key => ?_, hw.len⟩, fun hash record hrecord => ?_, fun hash expiresAt k hl => ?_,
    fun now rounds popAt entry hdispatch => ⟨fun record hrecord => ?_, fun _ hn => ?_⟩⟩
  · have hexact := hw.exact key
    unfold recordOf
    rwa [Option.map_map]
  · obtain ⟨hextra, hfailures⟩ := hw.bounded hash record hrecord
    exact ⟨hextra, hfailures.trans (Nat.min_le_left _ _), hr.lifetime hpolicy hrecord⟩
  · obtain ⟨record, hrecord⟩ := hl.recorded
    exact ⟨(hl.counted hpolicy).le hw hrecord, fun _ hrecord => hl.expiresAt_eq hpolicy hrecord⟩
  · exact hdispatch.under hr hpolicy hrecord
  · rcases hr.queued with hreturned | hqueued
    · exact absurd (hdispatch.1.symm.trans hreturned) (by decide)
    · exact hdispatch.later hqueued hn

/-! ### Samples -/

def SchedulerEvent.At (event : SchedulerEvent) (now : Instant) : Prop := ∀ r, event.Reads r → r = now

lemma headAt_at (now : Instant) (id : TaskId) : (headAt now id).At now := by
  rintro r (rfl | ⟨i, rfl | rfl⟩) <;> rfl

lemma Clocked.replay {events : List (Instant × SchedulerEvent)} (hr : Clocked sch n t s)
    (hsorted : (t :: events.map Prod.fst).IsChain (· ≤ ·)) (hat : ∀ x ∈ events, x.2.At x.1)
    (hok : (events.map Prod.snd).foldlM sch.step s = .ok s') :
    ∃ n', Clocked sch n' ((events.map Prod.fst).getLastD t) s' := by
  induction events generalizing n t s with
  | nil =>
    cases hok
    exact ⟨n, hr⟩
  | cons x events ih =>
    obtain ⟨now, event⟩ := x
    rw [map_cons, foldlM_cons] at hok
    obtain ⟨middle, hstep, hrest⟩ := bind_eq_ok.mp hok
    rw [map_cons, isChain_cons_cons] at hsorted
    obtain ⟨hlater, hsorted⟩ := hsorted
    have htick : Tick sch t s event now middle := by
      refine ⟨hlater, fun r hread => ?_, hstep⟩
      rw [hat (now, event) mem_cons_self r hread]
      exact ⟨hlater, le_rfl⟩
    rw [map_cons, getLastD_cons]
    exact ih (.step event hr htick) hsorted (fun y hy => hat y (mem_cons_of_mem _ hy)) hrest

lemma refill_round {hash : HashDiscovered} {now : Instant} {queue : PendingHashQueue} {kind : QueuePushKind}
    (hphase : s.phase = .waiting) (hinput : s.inputClosed = false)
    (hflight : s.inFlight.get hash.infoHash = none)
    (hobserve : s.retryHistory.observeEvent hash now sch.metadataOptions = (s.retryHistory, none))
    (hpush : s.queue.push hash now = .ok (queue, kind)) (hkind : kind = .inserted ∨ kind = .updated)
    (hlater : queue.promoteReady now = .ok queue) (hfull : sch.maxConcurrent ≤ s.tasks.len) :
    [SchedulerEvent.hashReceived hash now true, headAt now 0].foldlM sch.step s = .ok { s with
        queue
        totalReceived := s.totalReceived + 1
        queueLen := queue.pressureLen + s.inFlight.len
        phase := .waiting } := by
  have hrecord : ∀ s : SchedulerState, s.recordQueuePush kind = s := by
    rcases hkind with rfl | rfl <;> exact fun s => rfl
  have hpushed : sch.step s (.hashReceived hash now true) = .ok { s with
      queue, totalReceived := s.totalReceived + 1, phase := .dispatching } := by
    dsimp only [MetadataScheduler.step, select, enqueue]
    rw [if_pos hphase, hinput, hflight]
    rw [hobserve]
    simp only [isExhausted, any_none, Bool.false_eq_true, if_false]
    rw [hpush, ok_bind, ok_bind, hrecord]
    dsimp only [deferPushed]
    rw [hphase, if_neg (by decide)]
  have hhead : sch.step { s with queue, totalReceived := s.totalReceived + 1, phase := .dispatching }
      (headAt now 0) = .ok { s with
        queue
        totalReceived := s.totalReceived + 1
        queueLen := queue.pressureLen + s.inFlight.len
        phase := .waiting } := by
    dsimp only [MetadataScheduler.step, headAt, loopHead, dispatchReady]
    rw [if_pos rfl, hlater, ok_bind]
    dsimp only [Loop.run, dispatchStep]
    rw [if_pos hfull, ok_bind]
    rw [ok_bind, ok_bind, hinput]
    rfl
  rw [foldlM_cons, hpushed, ok_bind, foldlM_cons, hhead]
  rfl

lemma promoteReady_of_later {q : PendingHashQueue} {now : Instant}
    (hlater : ∀ key ∈ q.waiting.keys, now < (ofLex key).1) : q.promoteReady now = .ok q := by
  have hdone : promoteStep now q = .ok (.done q) := by
    unfold promoteStep
    cases hfirst : q.waiting.first with
    | none => rfl
    | some x =>
      dsimp only
      rw [if_pos (hlater x.1 (mem_keys_of_get (first_eq_some_iff.mp hfirst).1))]
  unfold promoteReady
  rw [Loop.run, hdone]
  rfl

lemma observeEvent_of_later {hash : HashDiscovered} {now : Instant}
    {policy : MetadataOptions} (hnone : history.entries.get hash.infoHash = none)
    (hlater : ∀ key ∈ history.expiry.keys, now < (ofLex key).1) :
    history.observeEvent hash now policy = (history, none) := by
  have hdone : RetryHistory.expireStep now history = .done history := by
    unfold RetryHistory.expireStep
    cases hfirst : history.expiry.first with
    | none => rfl
    | some x =>
      dsimp only
      rw [if_pos (hlater x.1 (mem_keys_of_get (first_eq_some_iff.mp hfirst).1))]
  have hexpire : history.expire now = history := by
    unfold RetryHistory.expire
    rw [Loop.iterate, hdone]
  unfold RetryHistory.observeEvent
  rw [hexpire]
  dsimp only
  rw [hnone]

def smallScheduler : MetadataScheduler := .new 4 1 { retryHistoryTtlSecs := 100 } true

def waitingRetry : List (Instant × SchedulerEvent) :=
  [(0, headAt 0 0), (0, .hashReceived (exampleEvent "a" none 0) 0 true), (secs 1, headAt (secs 1) 0),
    (secs 1, .taskEnded 0 .panicked), (secs 1, .taskJoined 0 (secs 1) true), (secs 1, headAt (secs 1) 0),
    (secs 1, .hashReceived (exampleEvent "c" none (secs 1)) (secs 1) true), (secs 2, headAt (secs 2) 0)]

lemma waitingRetry_at : ∀ x ∈ waitingRetry, x.2.At x.1 := by
  intro x hx
  simp only [waitingRetry, mem_cons, not_mem_nil, or_false] at hx
  rcases hx with rfl | rfl | rfl | rfl | rfl | rfl | rfl | rfl
  all_goals first | exact headAt_at _ _ | exact fun r hread => hread | exact fun r hread => hread.elim

def stateAfter (sch : MetadataScheduler) (s : SchedulerState) (events : List (Instant × SchedulerEvent)) :
    SchedulerState :=
  (((events.map Prod.snd).foldlM sch.step s).toOption).getD s

lemma stateAfter_eq (sch : MetadataScheduler) (s : SchedulerState) (events : List (Instant × SchedulerEvent))
    (hok : ((events.map Prod.snd).foldlM sch.step s).isOkAnd (fun _ => true) = true) :
    (events.map Prod.snd).foldlM sch.step s = .ok (stateAfter sch s events) := by
  obtain ⟨s', hs', -⟩ := isOkAnd_eq_true.mp hok
  unfold stateAfter
  rw [hs']
  rfl

def heldState : SchedulerState := stateAfter smallScheduler smallScheduler.start waitingRetry

lemma clocked_heldState : ∃ n, Clocked smallScheduler n (secs 2) heldState := by
  have hok := stateAfter_eq smallScheduler smallScheduler.start waitingRetry (by decide +kernel)
  exact Clocked.replay .start (by decide) waitingRetry_at hok

theorem retries_bounded_sample :
    ∃ n record, Clocked smallScheduler n (secs 2) heldState ∧
      heldState.retryHistory.recordOf "a" = some record ∧ record.failures ≤ 5 + record.extraAttempts ∧
      ∃ k ≤ 7, Lifetime smallScheduler "a" record.expiresAt k (secs 2) heldState := by
  obtain ⟨n, hr⟩ := clocked_heldState
  have hrecord : (heldState.retryHistory.recordOf "a").isSome = true := by decide +kernel
  obtain ⟨record, hrecord⟩ := Option.isSome_iff_exists.mp hrecord
  have hbounded := retries_bounded (by decide) hr
  obtain ⟨-, hfailures, k, hlifetime⟩ := hbounded.2.1 "a" record hrecord
  exact ⟨n, record, hr, hrecord, hfailures, k, (hbounded.2.2.1 "a" _ k hlifetime).1, hlifetime⟩

def rediscovery : HashDiscovered := exampleEvent "b" none (secs 41)

def rediscoveredEntry : QueuedHash := heldState.queue.freshEntry rediscovery (secs 41)

def refilledQueue (sequence : ℕ) : PendingHashQueue :=
  { heldState.queue with sequence }.insert rediscoveredEntry

def refilled (j : ℕ) : SchedulerState :=
  { heldState with
    queue := refilledQueue ((3 + j) % 2 ^ 64)
    totalReceived := heldState.totalReceived + (j + 1)
    queueLen := (refilledQueue ((3 + j) % 2 ^ 64)).pressureLen + heldState.inFlight.len
    phase := .waiting }

lemma heldState_facts : heldState.phase = .waiting ∧ heldState.inputClosed = false ∧
    (heldState.inFlight.get "b").isNone ∧ (heldState.retryHistory.entries.get "b").isNone ∧
    (∀ key ∈ heldState.retryHistory.expiry.keys, secs 41 < (ofLex key).1) ∧
    (∀ key ∈ heldState.queue.waiting.keys, secs 41 < (ofLex key).1) ∧
    (heldState.queue.entries.get "b").isNone ∧ heldState.queue.sequence = 3 ∧
    heldState.queue.ttl = hashQueueTtl ∧ heldState.tasks.len = 1 ∧
    heldState.queue.entries.len < heldState.queue.capacity ∧
    ∀ index ∈ [heldState.queue.expiry, heldState.queue.retryExpiry, heldState.queue.waiting,
      heldState.queue.readyFresh, heldState.queue.readyRetry], ∀ key ∈ index.keys, (ofLex key).2 = 2 := by
  decide +kernel

lemma push_refilledQueue {m : ℕ} (hm : wrappingSucc m ≠ 2) :
    (refilledQueue m).push rediscovery (secs 41) = .ok (refilledQueue (wrappingSucc m), .updated) := by
  obtain ⟨-, -, -, -, -, -, hname, -, httl, -, -, hkeys⟩ := heldState_facts
  have hlive : secs 41 - rediscovery.discoveredAt ≤ { heldState.queue with sequence := m }.ttl := by
    change _ ≤ heldState.queue.ttl
    rw [httl]
    decide
  refine push_again rfl rfl hlive (isNone_iff_eq_none.mp hname)
    fun index hindex key hkey => ?_
  rw [hkeys index hindex key hkey]
  exact hm.symm

lemma waiting_refilledQueue (m : ℕ) : ∀ key ∈ (refilledQueue m).waiting.keys, secs 41 < (ofLex key).1 := by
  obtain ⟨-, -, -, -, -, hwaiting, -⟩ := heldState_facts
  intro key hkey
  have hinsert : (refilledQueue m).waiting = heldState.queue.waiting.insert
      (toLex (secs 41 + peerCoalesceWindow, wrappingSucc m)) "b" := rfl
  rw [hinsert, keys_insert, Finset.mem_insert] at hkey
  rcases hkey with rfl | hkey
  · change secs 41 < secs 41 + peerCoalesceWindow
    decide
  · exact hwaiting key hkey

lemma refilled_step {j : ℕ} (hj : (4 + j) % 2 ^ 64 ≠ 2) :
    [SchedulerEvent.hashReceived rediscovery (secs 41) true, headAt (secs 41) 0].foldlM smallScheduler.step
      (refilled j) = .ok (refilled (j + 1)) := by
  obtain ⟨-, hinput, hflight, hentries, hexpiry, -, -, -, -, htasks, -⟩ := heldState_facts
  have hsucc : wrappingSucc ((3 + j) % 2 ^ 64) = (3 + (j + 1)) % 2 ^ 64 := by
    unfold wrappingSucc
    omega
  have hpush : (refilled j).queue.push rediscovery (secs 41) =
      .ok (refilledQueue ((3 + (j + 1)) % 2 ^ 64), .updated) := by
    rw [← hsucc]
    refine push_refilledQueue ?_
    rw [hsucc]
    omega
  have hobserve : (refilled j).retryHistory.observeEvent rediscovery (secs 41) smallScheduler.metadataOptions =
      (heldState.retryHistory, none) :=
    observeEvent_of_later (isNone_iff_eq_none.mp hentries) hexpiry
  refine refill_round rfl hinput (isNone_iff_eq_none.mp hflight) hobserve hpush (.inr rfl)
    (promoteReady_of_later (waiting_refilledQueue _)) ?_
  exact htasks.ge

lemma refilled_zero :
    [SchedulerEvent.hashReceived rediscovery (secs 41) true, headAt (secs 41) 0].foldlM smallScheduler.step
      heldState = .ok (refilled 0) := by
  obtain ⟨hphase, hinput, hflight, hentries, hexpiry, -, hname, hsequence, httl, htasks, hlen, -⟩ :=
    heldState_facts
  have hpush : heldState.queue.push rediscovery (secs 41) = .ok (refilledQueue 3, .inserted) := by
    have hlive : secs 41 - rediscovery.discoveredAt ≤ heldState.queue.ttl := by
      rw [httl]
      decide
    rw [push_new hlive (isNone_iff_eq_none.mp hname) hlen]
    unfold refilledQueue
    rw [← hsequence]
    rfl
  exact refill_round hphase hinput (isNone_iff_eq_none.mp hflight)
    (observeEvent_of_later (isNone_iff_eq_none.mp hentries) hexpiry) hpush (.inl rfl)
    (promoteReady_of_later (waiting_refilledQueue _)) htasks.ge

lemma clocked_refilled (j : ℕ) (hj : j ≤ 2 ^ 64 - 2) :
    ∃ n, Clocked smallScheduler n (secs 41) (refilled j) := by
  have hat : ∀ x ∈ [(secs 41, SchedulerEvent.hashReceived rediscovery (secs 41) true),
      (secs 41, headAt (secs 41) 0)], x.2.At x.1 := by
    intro x hx
    simp only [mem_cons, not_mem_nil, or_false] at hx
    rcases hx with rfl | rfl
    · exact fun r hread => hread
    · exact headAt_at _ _
  induction j with
  | zero =>
    obtain ⟨n, hr⟩ := clocked_heldState
    exact hr.replay (by decide) hat refilled_zero
  | succ j ih =>
    obtain ⟨n, hr⟩ := ih (by omega)
    exact hr.replay (by decide) hat (refilled_step (by omega))

def lateEnd : List (Instant × SchedulerEvent) :=
  [(secs 41, .hashReceived rediscovery (secs 41) true), (secs 41, headAt (secs 41) 0),
    (secs 41, .taskEnded 0 (.returned ⟨some .skip, 0, none⟩)), (secs 102, .taskJoined 0 (secs 102) true)]

/-- The retry expired at 101 seconds and is dispatched at 102. -/
theorem expired_retry_dispatched :
    ∃ sch n t s now rounds popAt entry record, 1 ≤ sch.metadataOptions.retryMaxAttempts ∧ Clocked sch n t s ∧
      Dispatches sch s now rounds popAt entry ∧ entry.isRetry = true ∧
      s.retryHistory.recordOf entry.infoHash = some record ∧ record.expiresAt < popAt := by
  obtain ⟨n, hr⟩ := clocked_refilled (2 ^ 64 - 2) le_rfl
  have hok := stateAfter_eq smallScheduler (refilled (2 ^ 64 - 2)) lateEnd (by decide +kernel)
  have hat : ∀ x ∈ lateEnd, x.2.At x.1 := by
    intro x hx
    simp only [lateEnd, List.mem_cons, List.not_mem_nil, or_false] at hx
    rcases hx with rfl | rfl | rfl | rfl
    all_goals first | exact headAt_at _ _ | exact fun r hread => hread | exact fun r hread => hread.elim
  obtain ⟨n', hr'⟩ := hr.replay (by decide) hat hok
  have hlate : (stateAfter smallScheduler (refilled (2 ^ 64 - 2)) lateEnd).phase = .dispatching ∧
      (stateAfter smallScheduler (refilled (2 ^ 64 - 2)) lateEnd).tasks.len < 1 ∧
      ((stateAfter smallScheduler (refilled (2 ^ 64 - 2)) lateEnd).queue.promoteReady (secs 102)).isOkAnd
        (fun queue => (queue.popNewestReady (secs 102)).isOkAnd fun r => r.2.any fun entry =>
          entry.isRetry && ((stateAfter smallScheduler (refilled (2 ^ 64 - 2)) lateEnd).retryHistory.recordOf
            entry.infoHash).any fun record => record.expiresAt < secs 102) = true := by decide +kernel
  obtain ⟨hphase, htasks, hpop⟩ := hlate
  obtain ⟨queue, hqueue, hpop⟩ := isOkAnd_eq_true.mp hpop
  obtain ⟨⟨rest, popped⟩, hrest, hpopped⟩ := isOkAnd_eq_true.mp hpop
  obtain ⟨entry, rfl, hentry⟩ := (Option.any_eq_true _ _).mp hpopped
  obtain ⟨hretry, hrecord⟩ := (Bool.and_eq_true _ _).mp hentry
  obtain ⟨record, hrecord, hover⟩ := (Option.any_eq_true _ _).mp hrecord
  exact ⟨smallScheduler, n', _, _, secs 102, fun _ => ⟨secs 102, secs 102, 0⟩, secs 102, entry, record, by decide,
    hr', ⟨hphase, _, rest, .first hqueue, htasks, rfl, hrest⟩, hretry, hrecord, of_decide_eq_true hover⟩

end MetadataScheduler

end DhtCrawler
