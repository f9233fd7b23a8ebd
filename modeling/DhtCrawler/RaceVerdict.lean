import DhtCrawler.RaceFlow
import DhtCrawler.RaceSteps

/-! The budget and the verdict of a peer race, over every order of arrivals, closures, timers and fetches that
end. -/

namespace DhtCrawler.Race

open List

variable {M : Type} {r r' : Race M}

variable {addr : SocketAddr}

/-- However the race goes: an address is fetched at most once, at most 64 are considered, at most 12 fetches are
outstanding, and at most 12 that were started did not end as skipped. -/
theorem race_attempt_budget (peers : List PeerCandidate) (peerRx : Channel PeerCandidate) (hasLookup : Bool)
    (events : List (Event M)) : let r := (start peers peerRx hasLookup).run events
    (r.started.map PeerCandidate.addr).Nodup ∧ r.seenPeers.card ≤ 64 ∧
      (∀ peer ∈ r.started, peer.addr ∈ r.seenPeers) ∧
      (∀ candidate ∈ r.pendingPeers, candidate.1.addr ∈ r.seenPeers) ∧
      r.tasks.length ≤ 12 ∧
      r.started.Perm (r.tasks ++ r.finished.map Prod.fst) ∧
      r.tasks.length + r.finished.countP isAttempt ≤ 12 := by
  intro r
  obtain ⟨hsound, -⟩ := start_run_spec peers peerRx hasLookup events
  have hnodup : (r.started.map PeerCandidate.addr ++
      (r.pendingPeers.map Prod.fst).map PeerCandidate.addr).Nodup := by
    rw [← List.map_append]
    exact hsound.nodup
  have hbudget : r.tasks.length + r.finished.countP isAttempt ≤ 12 := by
    rw [← hsound.reserved]
    exact hsound.reserved_le
  refine ⟨(List.nodup_append.mp hnodup).1, hsound.seen_card, fun peer hpeer => ?_,
    fun candidate hcandidate => ?_, (Nat.le_add_right _ _).trans hbudget, hsound.started, hbudget⟩
  · exact (hsound.seen _).mpr (List.mem_map_of_mem (List.mem_append_left _ hpeer))
  · exact (hsound.seen _).mpr
      (List.mem_map_of_mem (List.mem_append_right _ (List.mem_map_of_mem hcandidate)))

/-! ### Candidates of the lookup -/

lemma keeps_step (r : Race M) (event : Event M) : r.Keeps (r.step event) := by
  cases event with
  | branch branch => exact (passes_branch r branch).toKeeps
  | liveSent | liveDropped => exact ⟨subset_rfl, fun addr => .inl⟩
  | lookupSent addr =>
    unfold step
    split_ifs
    · exact ⟨subset_rfl, fun other hmem => .inl (Channel.mem_trySend_of_mem hmem)⟩
    · exact ⟨subset_rfl, fun addr => .inl⟩
  | lookupDropped =>
    unfold step
    split_ifs <;> exact ⟨subset_rfl, fun addr => .inl⟩

lemma keeps_run (r : Race M) (events : List (Event M)) : r.Keeps (r.run events) := by
  induction events generalizing r with
  | nil => exact ⟨subset_rfl, fun addr => .inl⟩
  | cons event rest ih => exact (keeps_step r event).trans (ih _)

/-! ### The verdict -/

lemma exists_enabled (hpending : r.pendingPeers = [] ∨ r.attemptsReserved = maxMetadataPeersPerHash)
    (hgive : r.givesUp = false) : ∃ branch, r.enabled branch = true := by
  cases htasks : r.tasks with
  | cons peer rest => exact ⟨.joinNext 0 none, by simp [enabled, htasks]⟩
  | nil =>
    cases hopen : r.lookupOpen with
    | true => exact ⟨.lookupPeer 0, hopen⟩
    | false =>
      refine ⟨.idle, ?_⟩
      rcases hpending with hempty | hbudget
      · simp [enabled, htasks, hopen, hempty]
      · simp [givesUp, htasks, hbudget] at hgive

lemma Sound.all_fetched (h : r.Sound) (htasks : r.tasks = []) (hpending : r.pendingPeers = [])
    (haddr : addr ∈ r.seenPeers) : ∃ fetch ∈ r.finished, fetch.1.addr = addr := by
  have haccepted := (h.seen addr).mp haddr
  rw [accepted, hpending, map_nil, append_nil] at haccepted
  obtain ⟨peer, hpeer, rfl⟩ := mem_map.mp haccepted
  have hfinished := h.started.mem_iff.mp hpeer
  rw [htasks, nil_append] at hfinished
  obtain ⟨fetch, hfetch, rfl⟩ := mem_map.mp hfinished
  exact ⟨fetch, hfetch, rfl⟩

lemma Sound.gave_up (h : r.Sound) (hverdict : r.Verdict) (hphase : r.phase = .returned none) :
    (∀ fetch ∈ r.finished, ∀ metadata, fetch.2 ≠ some (.fetched metadata)) ∧
      ((∀ addr ∈ r.seenPeers, ∃ fetch ∈ r.finished, fetch.1.addr = addr) ∧ r.lookupOpen = false ∨
        r.finished.countP isAttempt = maxMetadataPeersPerHash) := by
  unfold Verdict at hverdict
  rw [hphase] at hverdict
  obtain ⟨htasks, hbudget | ⟨hpending, hopen⟩⟩ := hverdict
  all_goals
    refine ⟨h.unfetched.resolve_left ?_, ?_⟩
    · rintro ⟨result, hreturned⟩
      rw [hphase] at hreturned
      cases hreturned
  · right
    rw [← hbudget, h.reserved, htasks]
    exact (Nat.zero_add _).symm
  · exact .inl ⟨fun addr haddr => h.all_fetched htasks hpending haddr, hopen⟩

/-- The verdict of every race. A result is one that its fetch returned. -/
theorem race_verdict (peers : List PeerCandidate) (peerRx : Channel PeerCandidate) (hasLookup : Bool)
    (events later : List (Event M)) : let r := (start peers peerRx hasLookup).run events
    let r' := r.run later
    (∀ peer metadata, r'.phase = .returned (some (peer, metadata)) →
      (peer, some (.fetched metadata)) ∈ r'.finished) ∧
      (r'.phase = .returned none → (∀ fetch ∈ r'.finished, ∀ metadata, fetch.2 ≠ some (.fetched metadata)) ∧
          ((∀ addr ∈ r'.seenPeers, ∃ fetch ∈ r'.finished, fetch.1.addr = addr) ∨
            r'.finished.countP isAttempt = 12)) ∧
      (∀ addr ∈ r.lookupPeerRx.buffer, r'.phase = .returned none →
        (∃ fetch ∈ r'.finished, fetch.1.addr = addr) ∨ r'.finished.countP isAttempt = 12 ∨
          64 ≤ r'.seenPeers.card) ∧
      (r'.phase = .waiting →
        (∃ branch, r'.enabled branch = true) ∧ (r'.pendingPeers = [] ∨ r'.attemptsReserved = 12)) := by
  intro r r'
  obtain ⟨hsound₀, hverdict₀⟩ := start_run_spec peers peerRx hasLookup events
  obtain ⟨hsound, hverdict⟩ := run_spec later hsound₀ hverdict₀
  refine ⟨fun peer metadata hphase => ?_, fun hphase => ?_, fun addr haddr hphase => ?_, fun hphase => ?_⟩
  · unfold Verdict at hverdict
    rw [hphase] at hverdict
    exact hverdict
  · obtain ⟨hunfetched, hfetched | hbudget⟩ := hsound.gave_up hverdict hphase
    · exact ⟨hunfetched, .inl hfetched.1⟩
    · exact ⟨hunfetched, .inr hbudget⟩
  · obtain ⟨-, ⟨hfetched, hopen⟩ | hbudget⟩ := hsound.gave_up hverdict hphase
    · -- the lookup is over only when its channel has been read to the end
      rcases hsound.lookup hopen with ⟨hdrained, -⟩ | hfull
      · rcases (keeps_run r later).takenUp (.inl haddr) with hbuffer | hseen | hfull
        · rw [hdrained] at hbuffer
          cases hbuffer
        · exact .inl (hfetched addr hseen)
        · exact .inr (.inr hfull)
      · exact .inr (.inr hfull)
    · exact .inr (.inl hbudget)
  · unfold Verdict at hverdict
    rw [hphase] at hverdict
    exact ⟨exists_enabled hverdict.1 hverdict.2, hverdict.1⟩

def racePeer (n : UInt8) : PeerCandidate := ⟨exampleAddr n, 0⟩

def delivered : List (Event ℕ) :=
  [.branch (.joinNext 0 (some .skippedCached)), .branch (.submitLookup true), .lookupSent (racePeer 2).addr]

def overtaken : List (Event ℕ) :=
  [.branch .lookupDeadline, .branch (.lookupPeer 0), .branch (.lookupPeer 0),
    .branch (.joinNext 0 (some .failed)), .branch .idle]

theorem race_verdict_overtaken :
    (((start [racePeer 1] (.new 64) true).run delivered).run overtaken).phase = .returned none ∧
      ∃ fetch ∈ (((start [racePeer 1] (.new 64) true).run delivered).run overtaken).finished,
        fetch.1.addr = (racePeer 2).addr := by
  have hverdict := race_verdict [racePeer 1] (.new 64) true delivered overtaken
  have hphase : (((start [racePeer 1] (.new 64) true).run delivered).run overtaken).phase =
      .returned none := by decide +kernel
  refine ⟨hphase, (hverdict.2.2.1 (racePeer 2).addr (by decide +kernel) hphase).resolve_right ?_⟩
  decide +kernel

end DhtCrawler.Race
