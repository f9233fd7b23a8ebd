import DhtCrawler.SchedulerRetries

/-! Where the peers of a job come from. If every event names a peer that is allowed for its hash, then so are the
peers of entries and jobs, which are merged, deferred and started under their own hash only. -/

namespace DhtCrawler

open FiniteMap List

variable {P Q : String → SocketAddr → Prop}

lemma mem_mergePeer {peers : List PeerCandidate} {addr : SocketAddr} {announcedAt : Instant}
    {peer : PeerCandidate} (h : peer ∈ mergePeer peers addr announcedAt) : peer ∈ peers ∨ peer.addr = addr := by
  unfold mergePeer at h
  have hsorted := (perm_insertionSort _ _).mem_iff.mp (mem_of_mem_take h)
  rcases mem_append.mp hsorted with hkept | hnew
  · exact .inl (mem_filter.mp hkept).1
  · rw [mem_singleton.mp hnew]
    exact .inr rfl

namespace Work

variable {policy : MetadataOptions} {offered : Option RetryRecord} {heard : HashDiscovered → Instant → Prop}
  {w w' : Work} {now : Instant} {failed : Bool} {hash : String}

/-- Every peer of an entry or of a job is one that `P` allows for its hash. -/
structure Sourced (P : String → SocketAddr → Prop) (w : Work) : Prop where
  live : w.Bears fun hash peers _ => ∀ peer ∈ peers, P hash peer.addr
  jobs : ∀ serial job, w.jobs serial = some job → ∀ peer ∈ job.peers, P job.infoHash peer.addr

lemma Sourced.mono (h : w.Sourced P) (hPQ : ∀ hash addr, P hash addr → Q hash addr) : w.Sourced Q where
  live hash entry hentry peer hpeer := hPQ _ _ (h.live hash entry hentry peer hpeer)
  jobs serial job hjob peer hpeer := hPQ _ _ (h.jobs serial job hjob peer hpeer)

/-- The peers that are heard of are allowed. -/
def Allows (P : String → SocketAddr → Prop) (heard : HashDiscovered → Instant → Prop) : Prop :=
  ∀ event now, heard event now → ∀ addr, event.peerAddr = some addr → P event.infoHash addr

lemma jobPeers_subset (entry : QueuedHash) (now : Instant) : MetadataScheduler.jobPeers entry now ⊆ entry.peers :=
  fun _ hpeer => (mem_filter.mp (mem_of_mem_take hpeer)).1

lemma Allows.carried (hheard : Allows P heard) :
    Carried heard fun hash peers _ => ∀ peer ∈ peers, P hash peer.addr where
  fresh hash peer hpeer := absurd hpeer not_mem_nil
  merge event now entry hnow h := by
    intro peer hpeer
    unfold mergeCandidate at hpeer
    cases haddr : event.peerAddr with
    | none =>
      rw [haddr] at hpeer
      exact h peer hpeer
    | some addr =>
      rw [haddr] at hpeer
      rcases mem_mergePeer hpeer with hold | hnew
      · exact h peer hold
      · rw [hnew]
        exact hheard event now hnow addr haddr
  start hash entry now h peer hpeer := h peer (jobPeers_subset entry now hpeer)

lemma Act.sourced (hact : Act policy offered heard w w') (hheard : Allows P heard) (hw : w.Sourced P) :
    w'.Sourced P := by
  refine ⟨hact.carried hheard.carried hw.live, ?_⟩
  cases hact with
  | @start hash entry hentry hflight scheduledPeers now =>
    intro serial job hjob peer hpeer
    dsimp only at hjob
    rw [Function.update_apply] at hjob
    split_ifs at hjob
    · cases hjob
      exact hw.live hash entry (.inl hentry) peer (jobPeers_subset entry now hpeer)
    · exact hw.jobs serial job hjob peer hpeer
  | fade | merge | observe | push | offer | abandon => exact hw.jobs

lemma Acts.sourced (hacts : Acts policy offered heard w w') (hheard : Allows P heard) (hw : w.Sourced P) :
    w'.Sourced P := by
  induction hacts with
  | refl => exact hw
  | tail _ hact ih => exact hact.sourced hheard ih

lemma Result.sourced (hresult : Result policy now failed hash w w') (hw : w.Sourced P) : w'.Sourced P := by
  refine ⟨hresult.carried hw.live, ?_⟩
  rw [hresult.rest.2.1]
  exact hw.jobs

lemma Acts.dispatched_le (hacts : Acts policy offered heard w w') : w.dispatched ≤ w'.dispatched := by
  induction hacts with
  | refl => exact le_rfl
  | tail _ hact ih =>
    refine ih.trans ?_
    cases hact with
    | start => exact Nat.le_succ _
    | fade | merge | observe | push | offer | abandon => exact le_rfl

end Work

namespace MetadataScheduler

variable {sch : MetadataScheduler} {s s' : SchedulerState} {event : SchedulerEvent}

def SchedulerEvent.Allowed (P : String → SocketAddr → Prop) : SchedulerEvent → Prop
  | .hashReceived event _ _ => ∀ addr, event.peerAddr = some addr → P event.infoHash addr
  | _ => True

lemma SchedulerEvent.Allowed.allows (hevent : event.Allowed P) : Work.Allows P event.Hears := by
  cases event with
  | hashReceived hash now room =>
    rintro _ _ ⟨rfl, rfl⟩
    exact hevent
  | _ => exact fun _ _ h => h.elim

lemma Reachable.step_sourced (hr : Reachable sch s) (hs : s.work.Sourced P) (hevent : event.Allowed P)
    (hstep : sch.step s event = .ok s') : s'.work.Sourced P := by
  cases hr.step_work hstep with
  | acts _ hacts => exact Work.Acts.sourced hacts hevent.allows hs
  | result _ _ _ _ _ _ hresult => exact hresult.sourced hs

lemma Reachable.dispatched_le (hr : Reachable sch s) (hstep : sch.step s event = .ok s') :
    s.totalDispatched ≤ s'.totalDispatched := by
  have hle : s.work.dispatched ≤ s'.work.dispatched := by
    cases hr.step_work hstep with
    | acts _ hacts => exact Work.Acts.dispatched_le hacts
    | result _ _ _ _ _ _ hresult => exact hresult.rest.2.2.ge
  exact hle

lemma sourced_start (P : String → SocketAddr → Prop) (sch : MetadataScheduler) : sch.start.work.Sourced P :=
  ⟨Work.bears_start sch, fun _ _ h => nomatch h⟩

end MetadataScheduler

end DhtCrawler
