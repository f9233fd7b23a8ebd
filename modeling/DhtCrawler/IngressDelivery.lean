import DhtCrawler.IngressModel
import DhtCrawler.ProbesHeap

/-! Where a datagram goes. A pass wraps around and asks every worker; one that meets a closed worker removes it and
starts over, and nothing else is ever removed. -/

namespace DhtCrawler

open List Nat Except

lemma exists_offset {n index : ℕ} (start : ℕ) (hindex : index < n) : ∃ offset < n, (start + offset) % n = index := by
  have hpos : 0 < n := zero_lt_of_lt hindex
  have hstart : start % n < n := mod_lt _ hpos
  refine ⟨(index + (n - start % n)) % n, mod_lt _ hpos, ?_⟩
  have hsum : start + (index + (n - start % n)) = index + n * (start / n + 1) := by
    have hdiv := div_add_mod start n
    rw [Nat.mul_add, Nat.mul_one]
    omega
  calc (start + (index + (n - start % n)) % n) % n = (start + (index + (n - start % n))) % n := add_mod_mod _ _ _
    _ = (index + n * (start / n + 1)) % n := by rw [hsum]
    _ = index := by rw [add_mul_mod_self_left, mod_eq_of_lt hindex]

namespace UdpIngress

def Full (s : UdpIngress) (worker : WorkerHandle) : Prop :=
  (s.channels worker).closed = false ∧ ¬ (s.channels worker).HasSpace

def received (s : UdpIngress) (worker : WorkerHandle) (message : WorkerMessage) : Channel WorkerMessage :=
  { s.channels worker with buffer := (s.channels worker).buffer ++ [message] }

def PassSpec (s : UdpIngress) (message : WorkerMessage) (preferredIndex : ℕ) (offsets : List ℕ) : Pass → Prop
  | .sent worker channel =>
    worker ∈ s.workers ∧ (s.channels worker).HasSpace ∧ channel = s.received worker message
  | .dropped workerIndex => ∃ worker, s.workers[workerIndex]? = some worker ∧ (s.channels worker).closed = true
  | .allFull =>
    ∀ offset ∈ offsets, ∀ worker, s.workers[(preferredIndex + offset) % s.workers.length]? = some worker →
      s.Full worker

lemma offerFrom_spec (s : UdpIngress) (message : WorkerMessage) (preferredIndex : ℕ) (offsets : List ℕ)
    (hworkers : s.workers ≠ []) :
    Sure (s.offerFrom message preferredIndex offsets)
      (s.PassSpec message preferredIndex offsets) := by
  induction offsets with
  | nil =>
    intro offset hoffset
    exact absurd hoffset not_mem_nil
  | cons offset offsets ih =>
    have hlt : (preferredIndex + offset) % s.workers.length < s.workers.length :=
      mod_lt _ (length_pos_iff.mpr hworkers)
    obtain ⟨worker, hworker⟩ : ∃ worker, s.workers[(preferredIndex + offset) % s.workers.length]? = some worker :=
      ⟨_, List.getElem?_eq_getElem hlt⟩
    simp only [offerFrom, hworker, unwrap_some, ok_bind]
    cases hoffer : (s.channels worker).offer message with
    | ok channel =>
      obtain ⟨hspace, hchannel⟩ := Channel.offer_ok_iff.mp hoffer
      exact ⟨mem_of_getElem? hworker, hspace, hchannel⟩
    | error reason =>
      cases reason with
      | full =>
        refine ih.mono fun pass hpass => ?_
        cases pass with
        | sent worker channel => exact hpass
        | dropped workerIndex => exact hpass
        | allFull =>
          intro other hother asked hasked
          rcases mem_cons.mp hother with rfl | hother
          · obtain rfl : worker = asked := Option.some.inj (hworker.symm.trans hasked)
            exact Channel.offer_full_iff.mp hoffer
          · exact hpass other hother asked hasked
      | closed => exact ⟨worker, hworker, Channel.offer_closed_iff.mp hoffer⟩

lemma full_of_allFull {s : UdpIngress} {message : WorkerMessage} {preferredIndex : ℕ}
    (hpass : s.PassSpec message preferredIndex (range s.workers.length) .allFull) :
    ∀ worker ∈ s.workers, s.Full worker := by
  intro worker hworker
  obtain ⟨index, hindex, hget⟩ := getElem_of_mem hworker
  obtain ⟨offset, hoffset, hreach⟩ := exists_offset preferredIndex hindex
  refine hpass offset (mem_range.mpr hoffset) worker ?_
  rw [hreach, List.getElem?_eq_getElem hindex, hget]

/-! ### The rounds -/

def Pruned (start : UdpIngress) (workers : List WorkerHandle) : Prop :=
  ∃ removed : List WorkerHandle, (workers ++ removed).Perm start.workers ∧
    ∀ worker ∈ removed, (start.channels worker).closed = true

inductive Settled (start : UdpIngress) (message : WorkerMessage) :
    UdpIngress × Option (Except ProcessUdpPacketError Unit) → Prop where
  | sent {workers worker} (hpruned : Pruned start workers)
      (hworker : worker ∈ workers) (hspace : (start.channels worker).HasSpace) :
      Settled start message
        ({ start with
            workers
            channels := Function.update start.channels worker (start.received worker message) }, some (.ok ()))
  | choked {workers stats} (hpruned : Pruned start workers)
      (hsome : workers ≠ []) (hfull : ∀ worker ∈ workers, start.Full worker) :
      Settled start message
        ({ start with workers, runtimeStats := stats }.release message.1.buf, some (.error .chokedWorkers))
  | dead (hpruned : Pruned start []) :
      Settled start message ({ start with workers := [] }.release message.1.buf, some (.error .noLiveWorkers))

variable {start : UdpIngress} {worker : WorkerHandle} {workers : List WorkerHandle}

lemma Pruned.mem (hpruned : Pruned start workers) (hworker : worker ∈ workers) : worker ∈ start.workers := by
  obtain ⟨removed, hperm, -⟩ := hpruned
  exact hperm.subset (mem_append_left removed hworker)

lemma Pruned.count_eq (hpruned : Pruned start workers) (hopen : (start.channels worker).closed = false) :
    workers.count worker = start.workers.count worker := by
  obtain ⟨removed, hperm, hclosed⟩ := hpruned
  have hout : worker ∉ removed := fun hmem => by simp [hclosed worker hmem] at hopen
  rw [← hperm.count_eq, count_append, count_eq_zero_of_not_mem hout, Nat.add_zero]

lemma Pruned.mem_of_open (hpruned : Pruned start workers) (hworker : worker ∈ start.workers)
    (hopen : (start.channels worker).closed = false) : worker ∈ workers := by
  rw [← count_pos_iff, hpruned.count_eq hopen]
  exact count_pos_iff.mpr hworker

lemma Pruned.swapRemove (hpruned : Pruned start workers) {index : ℕ} (hget : workers[index]? = some worker)
    (hclosed : (start.channels worker).closed = true) :
    Sure (DhtCrawler.swapRemove workers index) fun result =>
      Pruned start result.2 ∧ result.2.length < workers.length := by
  have hlast := List.getLast?_eq_some_getLast (ne_nil_of_mem (mem_of_getElem? hget))
  have hperm := RecentProbes.swapRemove_perm hget hlast
  simp only [DhtCrawler.swapRemove, hget, hlast, unwrap_some, ok_bind, safe_ok]
  obtain ⟨removed, hremoved, hall⟩ := hpruned
  refine ⟨⟨worker :: removed, ?_, ?_⟩, ?_⟩
  · exact perm_middle.trans ((hperm.append_right removed).trans hremoved)
  · simpa [hclosed] using hall
  · have hlen := hperm.length_eq
    simp only [length_cons] at hlen
    omega

lemma selectWorker_spec (originHash : ℕ) (message : WorkerMessage) (start : UdpIngress)
    (round : UdpIngress × Option (Except ProcessUdpPacketError Unit))
    (hround : ∃ workers, round.1 = { start with workers } ∧ Pruned start workers) :
    Sure (selectWorker originHash message round)
      (Loop.Round (fun r => ∃ workers, r.1 = { start with workers } ∧ Pruned start workers)
        (Settled start message) (fun r => r.1.workers.length) round.1.workers.length) := by
  obtain ⟨s, result⟩ := round
  obtain ⟨workers, rfl, hpruned⟩ := hround
  by_cases hworkers : workers = []
  · subst hworkers
    exact .dead hpruned
  · simp only [selectWorker, isEmpty_eq_false_iff.mpr hworkers, Bool.false_eq_true, if_false]
    refine (offerFrom_spec { start with workers } message _ _ hworkers).bind fun pass hpass => ?_
    cases pass with
    | sent worker channel =>
      obtain ⟨hworker, hspace, rfl⟩ := hpass
      exact .sent hpruned hworker hspace
    | dropped workerIndex =>
      obtain ⟨worker, hget, hclosed⟩ := hpass
      refine (hpruned.swapRemove hget hclosed).bind fun rest hrest => ?_
      exact ⟨⟨rest.2, rfl, hrest.1⟩, hrest.2⟩
    | allFull => exact .choked hpruned hworkers (full_of_allFull hpass)

/-! ### The outcome -/

lemma processUdpPacket_settled (hash : SocketAddr → ℕ) (s : UdpIngress) {buf : List UInt8} {size : ℕ}
    (originAddr localAddr : SocketAddr) (hfirst : buf[0]? = some 0x64) (hpos : 1 ≤ size)
    (hsize : size ≤ maxDhtUdpPacket) :
    ∃ stats s' outcome, s.processUdpPacket hash buf size originAddr localAddr = .ok (s', outcome) ∧
      Settled { s with runtimeStats := stats } (⟨buf, size⟩, originAddr, localAddr) (s', some outcome) := by
  set stats : UdpStats := { s.runtimeStats with
    udpReceived := wrappingSucc s.runtimeStats.udpReceived
    udpRxBytes := (s.runtimeStats.udpRxBytes + size) % 2 ^ 64 } with hstats
  set start : UdpIngress := { s with runtimeStats := stats } with hstart
  have hpruned : Pruned start start.workers := ⟨[], by simp, by simp⟩
  obtain ⟨⟨s', result⟩, hrun, hsettled⟩ := (Loop.safe_exit (fun r => r.1.workers.length)
    (selectWorker_spec (hash originAddr) (⟨buf, size⟩, originAddr, localAddr) start) (s.workers.length + 1)
    (s := (start, none)) ⟨start.workers, rfl, hpruned⟩ (lt_succ_self _)).exists
  obtain ⟨outcome, rfl⟩ : ∃ outcome, result = some outcome := by
    cases hsettled <;> exact ⟨_, rfl⟩
  refine ⟨stats, s', outcome, ?_, hsettled⟩
  simp only [processUdpPacket, ← hstats, ← hstart, hfirst, unwrap_some, ok_bind, hrun,
    if_neg (Nat.not_lt.mpr hsize), if_neg (Nat.ne_of_gt hpos), ne_eq, not_true_eq_false, if_false]

/-- A datagram goes to exactly one worker if one is open with space, and otherwise its buffer is released once;
the outcome tells whether there is an open worker, and only closed workers are removed. -/
theorem processUdpPacket_delivery (hash : SocketAddr → ℕ) (s : UdpIngress) (buf : List UInt8) (size : ℕ)
    (originAddr localAddr : SocketAddr) (hfirst : buf[0]? = some 0x64) (hpos : 1 ≤ size)
    (hsize : size ≤ maxDhtUdpPacket) :
    ∃ s' outcome, s.processUdpPacket hash buf size originAddr localAddr = .ok (s', outcome) ∧
      (outcome = .ok () ↔ ∃ worker ∈ s.workers, (s.channels worker).HasSpace) ∧
      (outcome = .ok () → s'.bufferPool = s.bufferPool ∧ s'.releases = s.releases ∧
        ∃ worker ∈ s.workers, (s.channels worker).HasSpace ∧ s'.channels =
          Function.update s.channels worker (s.received worker (⟨buf, size⟩, originAddr, localAddr))) ∧
      (outcome = .error .noLiveWorkers ↔ ∀ worker ∈ s.workers, (s.channels worker).closed = true) ∧
      (outcome = .error .chokedWorkers ↔ (∃ worker ∈ s.workers, (s.channels worker).closed = false) ∧
        ∀ worker ∈ s.workers, ¬ (s.channels worker).HasSpace) ∧
      (outcome ≠ .ok () → s'.bufferPool = s.bufferPool.release buf ∧ s'.releases = buf :: s.releases ∧
        s'.channels = s.channels) ∧
      (∃ removed : List WorkerHandle, (s'.workers ++ removed).Perm s.workers ∧
        ∀ worker ∈ removed, (s.channels worker).closed = true) ∧
      ∀ worker, (s.channels worker).closed = false → s'.workers.count worker = s.workers.count worker := by
  obtain ⟨stats, s', outcome, hrun, hsettled⟩ :=
    processUdpPacket_settled hash s originAddr localAddr hfirst hpos hsize
  refine ⟨s', outcome, hrun, ?_⟩
  cases hsettled with
  | @sent workers worker hpruned hworker hspace =>
    have hmem : worker ∈ s.workers := hpruned.mem hworker
    have hopen : (s.channels worker).closed = false := hspace.1
    refine ⟨by simpa using ⟨worker, hmem, hspace⟩, fun _ => ⟨rfl, rfl, worker, hmem, hspace, rfl⟩, ?_, ?_, by simp,
      hpruned, fun _ => hpruned.count_eq⟩
    · simpa using ⟨worker, hmem, hopen⟩
    · simpa using fun _ _ _ => ⟨worker, hmem, hspace⟩
  | @choked workers stats hpruned hsome hfull =>
    have hnospace : ∀ worker ∈ s.workers, ¬ (s.channels worker).HasSpace := fun worker hworker hspace =>
      (hfull worker (hpruned.mem_of_open hworker hspace.1)).2 hspace
    obtain ⟨worker, hworker⟩ := List.exists_mem_of_ne_nil workers hsome
    have hmem : worker ∈ s.workers := hpruned.mem hworker
    have hopen : (s.channels worker).closed = false := (hfull worker hworker).1
    refine ⟨by simpa using hnospace, by simp, ?_, ?_, fun _ => ⟨rfl, rfl, rfl⟩, hpruned,
      fun _ => hpruned.count_eq⟩
    · simpa using ⟨worker, hmem, hopen⟩
    · simpa using ⟨⟨worker, hmem, hopen⟩, hnospace⟩
  | dead hpruned =>
    have hclosed : ∀ worker ∈ s.workers, (s.channels worker).closed = true := fun worker hworker => by
      by_contra hopen
      exact absurd (hpruned.mem_of_open hworker (by simpa using hopen)) List.not_mem_nil
    refine ⟨?_, by simp, by simpa using hclosed, ?_, fun _ => ⟨rfl, rfl, rfl⟩, hpruned,
      fun _ => hpruned.count_eq⟩
    · simpa using fun worker hworker hspace => absurd hspace.1 (by simp [hclosed worker hworker])
    · simpa using fun worker hworker hopen => absurd hopen (by simp [hclosed worker hworker])

theorem processUdpPacket_delivery_idle :
    let channels : WorkerHandle → Channel WorkerMessage := fun worker =>
      { capacity := worker - 1, buffer := [], closed := worker = 0, attached := true }
    let s : UdpIngress := ⟨[0, 1, 2], channels, ⟨[], 8192⟩, [], ⟨0, 0, 0, 0⟩⟩
    let origin : SocketAddr := .v4 #v[8, 8, 8, 8] 6881
    ∃ s', s.processUdpPacket (fun _ => 0) [0x64, 0x65] 2 origin origin = .ok (s', .ok ()) ∧ s'.releases = [] ∧
      (s'.channels 2).buffer = [(⟨[0x64, 0x65], 2⟩, origin, origin)] := by
  intro channels s origin
  obtain ⟨s', outcome, hrun, hok, hsent, -⟩ := processUdpPacket_delivery (fun _ => 0) s [0x64, 0x65] 2 origin origin
    rfl (by decide) (by decide)
  obtain rfl : outcome = .ok () := hok.mpr ⟨2, by decide, by decide⟩
  obtain ⟨-, hreleases, worker, hworker, hspace, hchannels⟩ := hsent rfl
  obtain rfl : worker = 2 := by
    have hcases : worker = 0 ∨ worker = 1 ∨ worker = 2 := by simpa [s] using hworker
    rcases hcases with rfl | rfl | rfl
    · exact absurd hspace (by decide)
    · exact absurd hspace (by decide)
    · rfl
  refine ⟨s', hrun, hreleases, ?_⟩
  rw [hchannels, Function.update_self]
  rfl

end UdpIngress

end DhtCrawler
