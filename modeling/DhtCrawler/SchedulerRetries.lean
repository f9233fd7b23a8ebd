import DhtCrawler.RetryRules
import DhtCrawler.SchedulerWork

/-! The failure budget of a hash. While a hash has a record, its work is a retry under that record and its budget is
not used up; a result finds the record it was started under or makes a new one. -/

namespace DhtCrawler.Work

open FiniteMap RetryHistory MetadataScheduler

variable {policy : MetadataOptions} {offered : Option RetryRecord} {heard : HashDiscovered → Instant → Prop}
  {w w' : Work} {hash : String} {now : Instant}

variable {event : HashDiscovered} {other : String} {entry : QueuedHash} {failed : Bool}

def Live (w : Work) (hash : String) (entry : QueuedHash) : Prop :=
  w.queued.get hash = some entry ∨ ∃ state, w.inFlight.get hash = some state ∧ state.entry = entry

def Open (policy : MetadataOptions) (record : RetryRecord) : Prop :=
  record.failures < record.attemptLimit policy

def Bounded (policy : MetadataOptions) (record : RetryRecord) : Prop :=
  record.extraAttempts ≤ 2 ∧ record.failures ≤ record.attemptLimit policy

def Under (policy : MetadataOptions) (record : RetryRecord) (entry : QueuedHash) : Prop :=
  Open policy record ∧ entry.isRetry = true ∧ entry.expiresAt = record.expiresAt

structure Retries (policy : MetadataOptions) (w : Work) : Prop where
  exact : w.history.Exact
  len : w.history.entries.len ≤ policy.retryHistoryCapacity
  bounded : ∀ hash record, w.history.recordOf hash = some record → Bounded policy record
  live : ∀ hash record, w.history.recordOf hash = some record →
    ∀ entry, w.Live hash entry → Under policy record entry

/-! ### Events -/

lemma grantedRecord_cases (record : RetryRecord) (novel : Bool) (now : Instant) (policy : MetadataOptions) :
    grantedRecord record novel now policy = record ∨
      record.attemptLimit policy ≤ record.failures ∧ record.extraAttempts < 2 ∧
        (grantedRecord record novel now policy).extraAttempts = record.extraAttempts + 1 := by
  unfold grantedRecord
  split_ifs with hgrant
  · exact .inr ⟨hgrant.1, hgrant.2.2.1, rfl⟩
  · exact .inl rfl

variable {record : RetryRecord} {history : RetryHistory} {state : InFlightState}

lemma bounded_grantedRecord (hrecord : Bounded policy record) (novel : Bool) (now : Instant) :
    Bounded policy (grantedRecord record novel now policy) := by
  rcases grantedRecord_cases record novel now policy with hsame | ⟨-, hextra, hgranted⟩
  · rw [hsame]
    exact hrecord
  · have hlimit := hrecord.2
    unfold Bounded RetryRecord.attemptLimit at *
    rw [hgranted, grantedRecord_failures]
    omega

lemma observed_origin (hexact : w.history.Exact)
    (hrecord : ((w.history.observeEvent event now policy).1).recordOf hash = some record) :
    ∃ old, w.history.recordOf hash = some old ∧ now < old.expiresAt ∧
      (record = old ∨ hash = event.infoHash ∧ ∃ novel, record = grantedRecord old novel now policy) := by
  have hobserves := observes hexact event now policy
  by_cases hhash : hash = event.infoHash
  · obtain ⟨novel, hgranted⟩ := hobserves.granted
    rw [hhash, hobserves.answer, hgranted] at hrecord
    obtain ⟨old, hold, rfl⟩ := Option.map_eq_some_iff.mp hrecord
    obtain ⟨hold, hlater⟩ := recordOf_of_expire hexact hold
    exact ⟨old, hhash ▸ hold, hlater, .inr ⟨hhash, novel, rfl⟩⟩
  · rw [hobserves.others hash hhash] at hrecord
    obtain ⟨hold, hlater⟩ := recordOf_of_expire hexact hrecord
    exact ⟨record, hold, hlater, .inl rfl⟩

lemma mergeInFlight_entry (state : InFlightState) (event : HashDiscovered) (room : Bool) :
    (mergeInFlight state event room).entry = (mergeCandidate state.entry event).1 := by
  unfold mergeInFlight
  split
  · rfl
  · split_ifs <;> rfl

lemma Live.of_erase {w : Work} 
    (hlive : (w.finished hash history).Live other entry) :
    other ≠ hash ∧ w.Live other entry := by
  rcases hlive with hqueued | ⟨state, hstate, hentry⟩
  · exact ⟨(get_of_get_erase hqueued).1, .inl (get_of_get_erase hqueued).2⟩
  · exact ⟨(get_of_get_erase hstate).1, .inr ⟨state, (get_of_get_erase hstate).2, hentry⟩⟩

lemma Live.of_insert {entry' : QueuedHash}
    (hlive : Live { w with queued := w.queued.insert hash entry, history } other entry') :
    other = hash ∧ entry' = entry ∨ w.Live other entry' := by
  rcases hlive with hqueued | hflight
  · rw [get_insert] at hqueued
    split_ifs at hqueued with hother
    · exact .inl ⟨hother, (Option.some_inj.mp hqueued).symm⟩
    · exact .inr (.inl hqueued)
  · exact .inr (.inr hflight)

/-! ### Candidates -/

/-- The candidates of all entries have the property `C`. -/
def Bears (w : Work) (C : String → List PeerCandidate → List NodeTuple → Prop) : Prop :=
  ∀ hash entry, w.Live hash entry → C hash entry.peers entry.sourceNodes

/-- All that the acts do with the candidates of an entry keeps the property. -/
structure Carried (heard : HashDiscovered → Instant → Prop) (C : String → List PeerCandidate → List NodeTuple → Prop) :
    Prop where
  fresh : ∀ hash, C hash [] []
  merge : ∀ event now (entry : QueuedHash), heard event now → C event.infoHash entry.peers entry.sourceNodes →
    C event.infoHash (mergeCandidate entry event).1.peers (mergeCandidate entry event).1.sourceNodes
  start : ∀ hash (entry : QueuedHash) now, C hash entry.peers entry.sourceNodes →
    C hash (jobPeers entry now) entry.sourceNodes

variable {C : String → List PeerCandidate → List NodeTuple → Prop}

lemma Candidate.carried (h : Candidate w.queued event entry)
    (hC : Carried heard C) (hw : w.Bears C) (hheard : heard event now) :
    C event.infoHash entry.peers entry.sourceNodes := by
  cases h with
  | fresh q now hnone =>
    unfold PendingHashQueue.freshEntry
    exact hC.merge event _ _ hheard (hC.fresh _)
  | @updated q entry hentry =>
    have hmerged := hC.merge event _ _ hheard (hw _ _ (.inl hentry))
    dsimp only [PendingHashQueue.updatedEntry]
    split_ifs <;> exact hmerged
  | kept hentry => exact hw _ _ (.inl hentry)

lemma Act.carried (hact : Act policy offered heard w w') (hC : Carried heard C) (hw : w.Bears C) : w'.Bears C := by
  have hflown : ∀ hash state, w.inFlight.get hash = some state → C hash state.entry.peers state.entry.sourceNodes :=
    fun hash state hstate => hw hash _ (.inr ⟨state, hstate, rfl⟩)
  intro hash entry hlive
  cases hact with
  | fade hfade =>
    rcases hlive with hqueued | hflight
    · obtain ⟨old, ready, hold, rfl⟩ := origin_of_fades (.single hfade) hqueued
      exact hw hash old (.inl hold)
    · exact hw hash entry (.inr hflight)
  | @merge state event now room hheard hstate =>
    rcases hlive with hqueued | ⟨state', hstate', rfl⟩
    · exact hw hash entry (.inl hqueued)
    · refine forall_insert (P := fun hash state => C hash state.entry.peers state.entry.sourceNodes) ?_
        (fun hash state _ => hflown hash state) hash state' hstate'
      rw [mergeInFlight_entry]
      exact hC.merge event now _ hheard (hflown _ state hstate)
  | observe event now hheard hflight => exact hw hash entry hlive
  | push event now orderKey hheard hflight hrecord hentry =>
    rcases hlive.of_insert with ⟨rfl, rfl⟩ | hold
    · exact hentry.carried hC hw hheard
    · exact hw hash entry hold
  | offer event now orderKey hheard hflight hrecord hopen hoffered hentry =>
    rcases hlive.of_insert with ⟨rfl, rfl⟩ | hold
    · exact hentry.carried hC hw hheard
    · exact hw hash entry hold
  | @start name old hentry hflight scheduledPeers now =>
    rcases hlive with hqueued | ⟨state, hstate, rfl⟩
    · exact hw hash entry (.inl (get_of_get_erase hqueued).2)
    · exact forall_insert (P := fun hash state => C hash state.entry.peers state.entry.sourceNodes)
        (hC.start name old now (hw name old (.inl hentry))) (fun hash state _ => hflown hash state) hash state hstate
  | abandon =>
    rcases hlive with hqueued | ⟨state, hstate, -⟩
    · exact nomatch hqueued
    · exact nomatch hstate

lemma Acts.carried (hacts : Acts policy offered heard w w') (hC : Carried heard C) (hw : w.Bears C) : w'.Bears C := by
  induction hacts with
  | refl => exact hw
  | tail _ hact ih => exact hact.carried hC ih

lemma Result.carried (hresult : Result policy now failed hash w w') (hw : w.Bears C) :
    w'.Bears C := by
  intro other entry hlive
  cases hresult with
  | settled | lapsed | unretried => exact hw other entry hlive.of_erase.2
  | @retried _ _ state failed delay history record orderKey hstate hover hrecord hopen hdue =>
    rcases Live.of_insert (w := w.finished hash w.history) hlive with ⟨rfl, rfl⟩ | hold
    · exact hw other state.entry (.inr ⟨state, hstate, rfl⟩)
    · exact hw other entry hold.of_erase.2

lemma bears_start (sch : MetadataScheduler) : sch.start.work.Bears C := by
  rintro hash entry (hqueued | ⟨state, hstate, -⟩)
  · exact nomatch hqueued
  · exact nomatch hstate

/-! ### Records -/

/-- What an act does to the records and to the work under them: nothing that a record binds, or the history
observes an event and the hash of the event gets the work. -/
inductive Effect (policy : MetadataOptions) (heard : HashDiscovered → Instant → Prop) (w w' : Work) : Prop where
  | kept (hhistory : w'.history = w.history)
      (hlive : ∀ hash entry, w'.Live hash entry → ∃ old, w.Live hash old ∧ entry.isRetry = old.isRetry ∧
        entry.expiresAt = old.expiresAt)
  | observed (event : HashDiscovered) (now : Instant) (hheard : heard event now)
      (hhistory : w'.history = (w.history.observeEvent event now policy).1)
      (hlive : ∀ hash entry, w'.Live hash entry → w.Live hash entry ∨
        ∀ record, w'.history.recordOf hash = some record → Under policy record entry)

lemma Act.effect (hact : Act policy offered heard w w') (hexact : w.history.Exact) :
    Effect policy heard w w' := by
  cases hact with
  | fade hfade =>
    refine .kept rfl fun hash entry hlive => ?_
    rcases hlive with hqueued | hflight
    · obtain ⟨old, ready, hold, rfl⟩ := origin_of_fades (.single hfade) hqueued
      exact ⟨old, .inl hold, rfl, rfl⟩
    · exact ⟨entry, .inr hflight, rfl, rfl⟩
  | @merge state event now room hheard hstate =>
    refine .kept rfl fun hash entry hlive => ?_
    rcases hlive with hqueued | ⟨state', hstate', rfl⟩
    · exact ⟨entry, .inl hqueued, rfl, rfl⟩
    · rw [get_insert] at hstate'
      split_ifs at hstate' with hhash
      · cases hstate'
        rw [mergeInFlight_entry]
        exact ⟨state.entry, .inr ⟨state, hhash ▸ hstate, rfl⟩, rfl, rfl⟩
      · exact ⟨_, .inr ⟨state', hstate', rfl⟩, rfl, rfl⟩
  | observe event now hheard hflight => exact .observed event now hheard rfl fun _ _ hlive => .inl hlive
  | push event now orderKey hheard hflight hrecord hentry =>
    refine .observed event now hheard rfl fun hash entry' hlive => ?_
    rcases hlive.of_insert with ⟨rfl, -⟩ | hold
    · refine .inr fun record hsome => ?_
      have hanswer := (observes hexact event now policy).answer
      rw [hrecord] at hanswer
      exact absurd (hanswer.symm.trans hsome) nofun
    · exact .inl hold
  | offer event now orderKey hheard hflight hrecord hopen hoffered hentry =>
    refine .observed event now hheard rfl fun hash entry' hlive => ?_
    rcases hlive.of_insert with ⟨rfl, rfl⟩ | hold
    · refine .inr fun record' hsome => ?_
      have hanswer := (observes hexact event now policy).answer
      rw [hrecord] at hanswer
      cases hanswer.symm.trans hsome
      exact ⟨hopen, rfl, rfl⟩
    · exact .inl hold
  | @start hash entry hentry hflight scheduledPeers now =>
    refine .kept rfl fun other entry' hlive => ?_
    rcases hlive with hqueued | ⟨state, hstate, rfl⟩
    · exact ⟨entry', .inl (get_of_get_erase hqueued).2, rfl, rfl⟩
    · rw [get_insert] at hstate
      split_ifs at hstate with hother
      · cases hstate
        exact ⟨entry, .inl (hother ▸ hentry), rfl, rfl⟩
      · exact ⟨_, .inr ⟨state, hstate, rfl⟩, rfl, rfl⟩
  | abandon =>
    refine .kept rfl fun other entry hlive => ?_
    rcases hlive with hqueued | ⟨state, hstate, -⟩
    · exact (nomatch hqueued)
    · exact (nomatch hstate)

lemma Act.retries (hact : Act policy offered heard w w') (hw : Retries policy w) : Retries policy w' := by
  cases hact.effect hw.exact with
  | kept hhistory hlive =>
    refine ⟨hhistory ▸ hw.exact, hhistory ▸ hw.len, fun hash record hrecord => ?_,
      fun hash record hrecord entry hentry => ?_⟩
    · rw [hhistory] at hrecord
      exact hw.bounded hash record hrecord
    · rw [hhistory] at hrecord
      obtain ⟨old, hold, hretry, hexpires⟩ := hlive hash entry hentry
      obtain ⟨hopen, hretry', hexpires'⟩ := hw.live hash record hrecord old hold
      exact ⟨hopen, hretry.trans hretry', hexpires.trans hexpires'⟩
  | observed event now hheard hhistory hlive =>
    have hobserves := observes hw.exact event now policy
    refine ⟨hhistory ▸ hobserves.exact, hhistory ▸ hobserves.len.trans hw.len, fun hash record hrecord => ?_,
      fun hash record hrecord entry hentry => ?_⟩
    · rw [hhistory] at hrecord
      obtain ⟨old, hold, -, rfl | ⟨-, novel, rfl⟩⟩ := observed_origin hw.exact hrecord
      · exact hw.bounded hash _ hold
      · exact bounded_grantedRecord (hw.bounded hash old hold) novel now
    · rcases hlive hash entry hentry with hentry | hunder
      swap
      · exact hunder record hrecord
      rw [hhistory] at hrecord
      obtain ⟨old, hold, -, rfl | ⟨-, novel, rfl⟩⟩ := observed_origin hw.exact hrecord
      · exact hw.live hash _ hold entry hentry
      · -- a record with live work is not exhausted, so it is not granted anything
        have hunder := hw.live hash old hold entry hentry
        rcases grantedRecord_cases old novel now policy with hsame | ⟨hexhausted, -⟩
        · rw [hsame]
          exact hunder
        · exact absurd hunder.1 (not_lt_of_ge hexhausted)

lemma Acts.retries (hacts : Acts policy offered heard w w') (hw : Retries policy w) : Retries policy w' := by
  induction hacts with
  | refl => exact hw
  | tail _ hact ih => exact hact.retries ih

lemma Acts.origin (hacts : Acts policy offered heard w w') (hw : Retries policy w)
    (hrecord : w'.history.recordOf hash = some record) :
    ∃ old, w.history.recordOf hash = some old ∧ record.expiresAt = old.expiresAt := by
  induction hacts generalizing record with
  | refl => exact ⟨record, hrecord, rfl⟩
  | tail hacts hact ih =>
    have hmiddle := Acts.retries hacts hw
    cases hact.effect hmiddle.exact with
    | kept hhistory hlive => exact ih (hhistory ▸ hrecord)
    | observed event now hheard hhistory hlive =>
      rw [hhistory] at hrecord
      obtain ⟨middle, hmid, -, hsame⟩ := observed_origin hmiddle.exact hrecord
      obtain ⟨old, hold, hexpires⟩ := ih hmid
      refine ⟨old, hold, Eq.trans ?_ hexpires⟩
      obtain rfl | ⟨-, novel, rfl⟩ := hsame
      · rfl
      · exact grantedRecord_expiresAt _ _ _ _

/-! ### Results -/

def resumedRecord (history : RetryHistory) (hash : String) (now : Instant) (policy : MetadataOptions) :
    RetryRecord :=
  ((history.expire now).recordOf hash).getD (freshState now policy).record

lemma Retries.found (hw : Retries policy w) (hstate : w.inFlight.get hash = some state)
    (hlive : ¬(state.entry.isRetry = true ∧ state.entry.expiresAt ≤ now)) :
    (w.history.expire now).recordOf hash = w.history.recordOf hash := by
  rw [recordOf_expire hw.exact]
  cases hrecord : w.history.recordOf hash with
  | none => rfl
  | some record =>
    obtain ⟨-, hretry, hexpires⟩ := hw.live hash record hrecord _ (.inr ⟨state, hstate, rfl⟩)
    refine Option.filter_some_pos (decide_eq_true ?_)
    rw [← hexpires]
    exact Nat.lt_of_not_le fun hle => hlive ⟨hretry, hle⟩

lemma attemptLimit_pos (hpolicy : 1 ≤ policy.retryMaxAttempts) (record : RetryRecord) :
    0 < record.attemptLimit policy := by
  have hmax : 0 < usizeMax := by decide
  unfold RetryRecord.attemptLimit
  omega

lemma Retries.resumed (hw : Retries policy w) (hpolicy : 1 ≤ policy.retryMaxAttempts)
    (hstate : w.inFlight.get hash = some state)
    (hlive : ¬(state.entry.isRetry = true ∧ state.entry.expiresAt ≤ now)) :
    Open policy (resumedRecord w.history hash now policy) ∧
      (resumedRecord w.history hash now policy).extraAttempts ≤ 2 := by
  unfold resumedRecord
  rw [hw.found hstate hlive]
  cases hrecord : w.history.recordOf hash with
  | none => exact ⟨attemptLimit_pos hpolicy _, Nat.zero_le _⟩
  | some record =>
    exact ⟨(hw.live hash record hrecord _ (.inr ⟨state, hstate, rfl⟩)).1, (hw.bounded hash record hrecord).1⟩

lemma recordedResult_failures (hopen : Open policy record) (now : Instant) (failed : Bool) (delay : Duration) :
    (recordedResult record now failed delay policy).failures = record.failures + if failed then 1 else 0 := by
  unfold Open RetryRecord.attemptLimit at hopen
  unfold recordedResult
  cases failed with
  | false => rfl
  | true =>
    have hroom : record.failures + 1 ≤ usizeMax := by omega
    simp only [if_true, Nat.min_eq_left hroom]

lemma bounded_recordedResult (hopen : Open policy record) (hextra : record.extraAttempts ≤ 2) (now : Instant)
    (failed : Bool) (delay : Duration) : Bounded policy (recordedResult record now failed delay policy) := by
  refine ⟨hextra, ?_⟩
  rw [recordedResult_failures hopen]
  change _ ≤ record.attemptLimit policy
  unfold Open at hopen
  split_ifs <;> omega

lemma Retries.recorded (hw : Retries policy w) (hpolicy : 1 ≤ policy.retryMaxAttempts)
    (hstate : w.inFlight.get hash = some state)
    (hlive : ¬(state.entry.isRetry = true ∧ state.entry.expiresAt ≤ now)) {delay : Duration}
    {record : Option RetryRecord}
    (hrecord : w.history.record hash now failed delay policy = .ok (history, record)) :
    Retries policy (w.finished hash (history.remember state.entry)) := by
  have hrecords := records hw.exact hrecord state.entry
  obtain ⟨hopen, hextra⟩ := hw.resumed hpolicy hstate hlive
  refine ⟨hrecords.exact, hrecords.len.trans (max_le hw.len le_rfl), fun other record' hrecord' => ?_,
    fun other record' hrecord' entry hentry => ?_⟩
  · by_cases hother : other = hash
    · rw [hother, hrecords.answer] at hrecord'
      rcases hrecords.result with ⟨hnone, -⟩ | hsome
      · rw [hnone] at hrecord'
        cases hrecord'
      · rw [hsome] at hrecord'
        cases hrecord'
        exact bounded_recordedResult hopen hextra now failed delay
    · rw [hrecords.others other hother] at hrecord'
      exact hw.bounded other record' (recordOf_of_expire hw.exact hrecord').1
  · obtain ⟨hother, hold⟩ := hentry.of_erase
    rw [hrecords.others other hother] at hrecord'
    exact hw.live other record' (recordOf_of_expire hw.exact hrecord').1 entry hold

lemma Result.retries (hresult : Result policy now failed hash w w')
    (hpolicy : 1 ≤ policy.retryMaxAttempts) (hw : Retries policy w) : Retries policy w' := by
  cases hresult with
  | settled hstate =>
    refine ⟨(remove_spec hw.exact hash).1, ?_, fun other record hrecord => ?_,
      fun other record hrecord entry hlive => ?_⟩
    · rw [(remove_spec hw.exact hash).2]
      exact (len_erase_le _ _).trans hw.len
    all_goals
      rw [recordOf_remove hw.exact] at hrecord
      split_ifs at hrecord
    · exact hw.bounded other record hrecord
    · exact hw.live other record hrecord entry hlive.of_erase.2
  | lapsed failed hstate hlapsed =>
    exact ⟨hw.exact, hw.len, hw.bounded, fun other record hrecord entry hlive =>
      hw.live other record hrecord entry hlive.of_erase.2⟩
  | unretried failed delay hstate hlive hrecord => exact hw.recorded hpolicy hstate hlive hrecord
  | retried failed delay orderKey hstate hlive hrecord hopen hdue =>
    have hw' := hw.recorded hpolicy hstate hlive hrecord
    refine ⟨hw'.exact, hw'.len, hw'.bounded, fun other record' hrecord' entry hentry => ?_⟩
    rcases Live.of_insert (w := w.finished hash w.history) hentry with ⟨rfl, rfl⟩ | hold
    · cases (records hw.exact hrecord _).answer.symm.trans hrecord'
      exact ⟨hopen, rfl, rfl⟩
    · exact hw'.live other record' hrecord' entry hold

end DhtCrawler.Work
