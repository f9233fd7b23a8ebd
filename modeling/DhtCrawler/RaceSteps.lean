import DhtCrawler.RaceModel

/-! What the events of a peer race keep. A reservation stands for an outstanding fetch or a real attempt, an accepted
candidate is waiting or was started, and the lookup is over only when its channel was read to the end. -/

namespace DhtCrawler.Race

variable {M : Type} {r r' : Race M}

def isAttempt (fetch : PeerCandidate × Option (MetadataFetchOutcome M)) : Bool :=
  match fetch.2 with
  | some .skippedCached => false
  | _ => true

def accepted (r : Race M) : List SocketAddr :=
  (r.started ++ r.pendingPeers.map Prod.fst).map PeerCandidate.addr

structure Sound (r : Race M) : Prop where
  nodup : r.accepted.Nodup
  seen : ∀ addr, addr ∈ r.seenPeers ↔ addr ∈ r.accepted
  seen_card : r.seenPeers.card ≤ maxMetadataCandidatesPerHash
  started : r.started.Perm (r.tasks ++ r.finished.map Prod.fst)
  reserved : r.attemptsReserved = r.tasks.length + r.finished.countP isAttempt
  reserved_le : r.attemptsReserved ≤ maxMetadataPeersPerHash
  lookup : r.lookupOpen = false → (r.lookupPeerRx.buffer = [] ∧ (r.requested = true → r.lookupPeerRx.Ended)) ∨
      maxMetadataCandidatesPerHash ≤ r.seenPeers.card
  unfetched : (∃ result, r.phase = .returned (some result)) ∨
    ∀ fetch ∈ r.finished, ∀ metadata, fetch.2 ≠ some (.fetched metadata)

def Verdict (r : Race M) : Prop :=
  match r.phase with
  | .waiting =>
    (r.pendingPeers = [] ∨ r.attemptsReserved = maxMetadataPeersPerHash) ∧ r.givesUp = false
  | .returned none =>
    r.tasks = [] ∧ (r.attemptsReserved = maxMetadataPeersPerHash ∨ r.pendingPeers = [] ∧ r.lookupOpen = false)
  | .returned (some (peer, metadata)) => (peer, some (.fetched metadata)) ∈ r.finished

lemma Sound.queueRaceCandidate (h : r.Sound) (peer : PeerCandidate) (source : CandidateSource) :
    (r.queueRaceCandidate peer source).Sound := by
  unfold Race.queueRaceCandidate
  split_ifs with hnew
  · obtain ⟨hroom, hfresh⟩ := hnew
    have haccepted : ({ r with
        seenPeers := insert peer.addr r.seenPeers
        pendingPeers := r.pendingPeers ++ [(peer, source)] } : Race M).accepted =
          r.accepted ++ [peer.addr] := by
      simp [accepted]
    exact
      { h with
        nodup := by
          rw [haccepted]
          refine List.nodup_append.mpr ⟨h.nodup, List.nodup_singleton _, fun a ha b hb => ?_⟩
          rw [List.mem_singleton.mp hb]
          rintro rfl
          exact hfresh ((h.seen _).mpr ha)
        seen := fun addr => by
          rw [haccepted, List.mem_append, List.mem_singleton, Finset.mem_insert, h.seen, or_comm]
        seen_card := by
          rw [Finset.card_insert_of_notMem hfresh]
          exact hroom
        lookup := fun hopen => (h.lookup hopen).imp_right fun hfull =>
          hfull.trans (Finset.card_le_card (Finset.subset_insert _ _)) }
  · exact h

/-! ### The head of the loop -/

def awaiting (r : Race M) (l : List (PeerCandidate × CandidateSource)) : Race M :=
  { r with pendingPeers := l }

lemma refillFrom_spec (l : List (PeerCandidate × CandidateSource)) (h : (r.awaiting l).Sound) :
    (r.refillFrom l).Sound ∧ ((r.refillFrom l).pendingPeers = [] ∨
        (r.refillFrom l).attemptsReserved = maxMetadataPeersPerHash) ∧
      (r.refillFrom l).phase = r.phase := by
  induction l generalizing r with
  | nil => exact ⟨h, .inl rfl, rfl⟩
  | cons candidate rest ih =>
    obtain ⟨peer, source⟩ := candidate
    unfold refillFrom
    split_ifs with hroom
    · refine ih
        { h with
          nodup := ?_
          seen := ?_
          started := ?_
          reserved := ?_
          reserved_le := hroom }
      · have := h.nodup
        simpa [accepted, awaiting] using this
      · have := h.seen
        simpa [accepted, awaiting] using this
      · have hperm : r.started.Perm (r.tasks ++ r.finished.map Prod.fst) := h.started
        refine (hperm.append_right [peer]).trans ?_
        change ((r.tasks ++ r.finished.map Prod.fst) ++ [peer]).Perm
          ((r.tasks ++ [peer]) ++ r.finished.map Prod.fst)
        rw [List.append_assoc, List.append_assoc]
        exact List.perm_append_comm.append_left r.tasks
      · have hreserved : r.attemptsReserved = r.tasks.length + r.finished.countP isAttempt := h.reserved
        simp only [awaiting, List.length_append, List.length_singleton]
        omega
    · exact ⟨h, .inr (Nat.le_antisymm h.reserved_le (Nat.le_of_not_lt hroom)), rfl⟩

lemma Sound.closeWhenFull (h : r.Sound) : r.closeWhenFull.Sound := by
  unfold Race.closeWhenFull
  split_ifs with hfull
  · exact { h with lookup := fun _ => .inr hfull }
  · exact h

lemma loopHead_spec (h : r.Sound) (hphase : r.phase = .waiting) : r.loopHead.Sound ∧ r.loopHead.Verdict := by
  obtain ⟨hsound, hpending, hsame⟩ := refillFrom_spec r.pendingPeers (show (r.awaiting _).Sound from h)
  have hclosed := hsound.closeWhenFull
  have hframe : ∀ q : Race M, q.closeWhenFull.pendingPeers = q.pendingPeers ∧
      q.closeWhenFull.attemptsReserved = q.attemptsReserved ∧ q.closeWhenFull.phase = q.phase := by
    intro q
    unfold Race.closeWhenFull
    split_ifs <;> exact ⟨rfl, rfl, rfl⟩
  obtain ⟨hp, hr, hq⟩ := hframe (r.refillFrom r.pendingPeers)
  have hwaiting : (r.refillFrom r.pendingPeers).closeWhenFull.phase = .waiting := by
    rw [hq, hsame, hphase]
  rw [← hp, ← hr] at hpending
  unfold loopHead refill
  dsimp only
  generalize (r.refillFrom r.pendingPeers).closeWhenFull = q at hclosed hwaiting hpending
  split_ifs with hgive
  · have hunfetched : ∀ fetch ∈ q.finished, ∀ metadata, fetch.2 ≠ some (.fetched metadata) := by
      rcases hclosed.unfetched with ⟨result, hreturned⟩ | hnone
      · rw [hwaiting] at hreturned
        cases hreturned
      · exact hnone
    refine ⟨{ hclosed with unfetched := .inr hunfetched }, ?_⟩
    simp only [givesUp, Bool.and_eq_true, List.isEmpty_iff, Bool.or_eq_true, decide_eq_true_eq,
      Bool.not_eq_true'] at hgive
    obtain ⟨htasks, hbudget | ⟨⟨hempty, -⟩, hopen⟩⟩ := hgive
    · exact ⟨htasks, .inl (Nat.le_antisymm hclosed.reserved_le hbudget)⟩
    · exact ⟨htasks, .inr ⟨hempty, hopen⟩⟩
  · refine ⟨hclosed, ?_⟩
    unfold Verdict
    rw [hwaiting]
    exact ⟨hpending, Bool.eq_false_iff.mpr hgive⟩

/-! ### The branches -/

def ended (r : Race M) (index : ℕ) (peer : PeerCandidate) (outcome : Option (MetadataFetchOutcome M)) :
    Race M :=
  { r with
    tasks := r.tasks.eraseIdx index
    finished := r.finished ++ [(peer, outcome)] }

variable {index : ℕ} {peer : PeerCandidate}

lemma started_ended (h : r.Sound) (hpeer : r.tasks[index]? = some peer)
    (outcome : Option (MetadataFetchOutcome M)) :
    r.started.Perm ((r.ended index peer outcome).tasks ++
      (r.ended index peer outcome).finished.map Prod.fst) := by
  obtain ⟨hlt, rfl⟩ := List.getElem?_eq_some_iff.mp hpeer
  refine h.started.trans ?_
  have htasks := List.getElem_cons_eraseIdx_perm hlt
  refine (htasks.symm.append_right _).trans ?_
  simp only [ended, List.map_append, List.map_cons, List.map_nil, List.cons_append, ← List.append_assoc]
  exact (List.perm_append_singleton _ _).symm

lemma reserved_ended (h : r.Sound) (hpeer : r.tasks[index]? = some peer)
    (outcome : Option (MetadataFetchOutcome M)) :
    r.attemptsReserved = (r.ended index peer outcome).tasks.length + 1 + r.finished.countP isAttempt := by
  obtain ⟨hlt, -⟩ := List.getElem?_eq_some_iff.mp hpeer
  have hlength := List.length_eraseIdx_add_one hlt
  have hreserved := h.reserved
  simp only [ended]
  omega

lemma joined_spec (h : r.Sound) (hphase : r.phase = .waiting) (hpeer : r.tasks[index]? = some peer)
    (outcome : Option (MetadataFetchOutcome M)) :
    ((r.ended index peer outcome).joined peer outcome).Sound ∧
      (((r.ended index peer outcome).joined peer outcome).phase = .waiting ∨
        ((r.ended index peer outcome).joined peer outcome).Verdict) := by
  have hstarted := started_ended h hpeer outcome
  have hreserved := reserved_ended h hpeer outcome
  have hle := h.reserved_le
  have hnone : ∀ fetch ∈ r.finished, ∀ metadata, fetch.2 ≠ some (.fetched metadata) := by
    rcases h.unfetched with ⟨result, hreturned⟩ | hnone
    · rw [hphase] at hreturned
      cases hreturned
    · exact hnone
  have hunfetched : (∀ metadata, outcome ≠ some (.fetched metadata)) →
      ∀ fetch ∈ (r.ended index peer outcome).finished, ∀ metadata, fetch.2 ≠ some (.fetched metadata) := by
    exact fun houtcome => List.forall_mem_append.mpr ⟨hnone, List.forall_mem_singleton.mpr houtcome⟩
  have hcount : (r.ended index peer outcome).finished.countP isAttempt =
      r.finished.countP isAttempt + if isAttempt (peer, outcome) then 1 else 0 := by
    simp [ended, List.countP_append, List.countP_singleton]
  -- a fetch that panicked or failed keeps its reservation
  have hkept : isAttempt (peer, outcome) = true → (∀ metadata, outcome ≠ some (.fetched metadata)) →
      (r.ended index peer outcome).Sound := fun hattempt houtcome =>
    { h with
      started := hstarted
      reserved := by
        rw [hcount, if_pos hattempt]
        exact hreserved.trans (by omega)
      unfetched := .inr (hunfetched houtcome) }
  cases outcome with
  | none => exact ⟨hkept rfl (by simp), .inl hphase⟩
  | some outcome =>
    cases outcome with
    | skippedCached =>
      refine ⟨{ h with
        started := hstarted
        reserved := ?_
        reserved_le := (Nat.sub_le _ _).trans hle
        unfetched := .inr (hunfetched (by simp)) }, .inl hphase⟩
      change r.attemptsReserved - 1 = _ + (r.ended index peer _).finished.countP isAttempt
      rw [hcount, hreserved]
      simp [isAttempt, joined]
    | failed => exact ⟨hkept rfl (by simp), .inl hphase⟩
    | fetched metadata =>
      refine ⟨{ h with
        started := ?_
        reserved := ?_
        lookup := ?_
        unfetched := .inl ⟨_, rfl⟩ }, .inr ?_⟩
      · refine hstarted.trans ?_
        simp only [joined, List.map_append, List.map_map, List.nil_append]
        refine List.perm_append_comm.trans ?_
        simp [Function.comp_def]
      · have hall : ((r.ended index peer (some (.fetched metadata))).tasks.map fun other =>
            ((other, none) : PeerCandidate × Option (MetadataFetchOutcome M))).countP isAttempt =
              (r.ended index peer (some (.fetched metadata))).tasks.length := by
          rw [List.countP_map]
          exact List.countP_eq_length.mpr fun _ _ => rfl
        change r.attemptsReserved = 0 + (_ ++ _ : List _).countP isAttempt
        rw [List.countP_append, hall, hcount, hreserved]
        simp only [isAttempt, if_true]
        omega
      · intro hopen
        refine (h.lookup hopen).imp_left fun ⟨hbuffer, hended⟩ => ⟨hbuffer, fun hrequested => ?_⟩
        exact (hended hrequested).close
      · exact List.mem_append_left _ (List.mem_append_right _ (List.mem_singleton_self _))

lemma queueRaceCandidate_phase (r : Race M) (peer : PeerCandidate) (source : CandidateSource) :
    (r.queueRaceCandidate peer source).phase = r.phase := by
  unfold queueRaceCandidate
  split_ifs <;> rfl

lemma take_spec (h : r.Sound) (hphase : r.phase = .waiting) (branch : Branch M)
    (henabled : r.enabled branch = true) (htake : r.take branch = some r') :
    r'.Sound ∧ (r'.phase = .waiting ∨ r'.Verdict) := by
  cases branch with
  | joinNext index outcome =>
    obtain ⟨peer, hpeer, rfl⟩ := Option.map_eq_some_iff.mp htake
    exact joined_spec h hphase hpeer outcome
  | livePeer =>
    obtain ⟨⟨received, peerRx⟩, -, rfl⟩ := Option.map_eq_some_iff.mp htake
    have hread : ({ r with peerRx } : Race M).Sound := { h with }
    cases received with
    | none => exact ⟨{ h with }, .inl hphase⟩
    | some peer =>
      refine ⟨hread.queueRaceCandidate peer .live, .inl ?_⟩
      rw [queueRaceCandidate_phase]
      exact hphase
  | lookupPeer now =>
    obtain ⟨⟨received, lookupPeerRx⟩, hrecv, rfl⟩ := Option.map_eq_some_iff.mp htake
    cases received with
    | none =>
      obtain ⟨hended, rfl⟩ := Channel.recv_none hrecv
      exact ⟨{ h with lookup := fun _ => .inl ⟨hended.drained, fun _ => hended⟩ }, .inl hphase⟩
    | some addr =>
      have hread : ({ r with lookupPeerRx } : Race M).Sound :=
        { h with lookup := fun hopen => absurd (hopen.symm.trans henabled) Bool.false_ne_true }
      refine ⟨hread.queueRaceCandidate ⟨addr, now⟩ .lookup, .inl ?_⟩
      rw [queueRaceCandidate_phase]
      exact hphase
  | submitLookup accepted =>
    cases htake
    obtain ⟨hopen, -⟩ := Bool.and_eq_true_iff.mp henabled
    exact ⟨{ h with lookup := fun hclosed => absurd (hclosed.symm.trans hopen) Bool.false_ne_true },
      .inl hphase⟩
  | lookupDeadline =>
    cases htake
    obtain ⟨hopen, -⟩ := Bool.and_eq_true_iff.mp henabled
    exact ⟨{ h with lookup := fun hclosed => absurd (hclosed.symm.trans hopen) Bool.false_ne_true },
      .inl hphase⟩
  | idle =>
    cases htake
    simp only [enabled, Bool.and_eq_true, List.isEmpty_iff, Bool.not_eq_true'] at henabled
    refine ⟨{ h with unfetched := .inr ?_ }, .inr ⟨henabled.1.1, .inr ⟨henabled.1.2, henabled.2⟩⟩⟩
    rcases h.unfetched with ⟨result, hreturned⟩ | hnone
    · rw [hphase] at hreturned
      cases hreturned
    · exact hnone

lemma next_spec (h : r.Sound) (hverdict : r.phase = .waiting ∨ r.Verdict) : r.next.Sound ∧ r.next.Verdict := by
  unfold next
  split
  · rename_i hphase
    exact loopHead_spec h hphase
  · rename_i hphase
    refine ⟨h, hverdict.resolve_left ?_⟩
    rw [hphase]
    simp

lemma Verdict.channels (h : r.Verdict) (peerRx : Channel PeerCandidate)
    (lookupPeerRx : Channel SocketAddr) : ({ r with peerRx, lookupPeerRx } : Race M).Verdict := h

lemma step_spec (h : r.Sound) (hverdict : r.Verdict) (event : Event M) :
    (r.step event).Sound ∧ (r.step event).Verdict := by
  cases event with
  | branch branch =>
    unfold step
    dsimp only
    split
    · rename_i hphase
      split_ifs with henabled
      · cases htake : r.take branch with
        | none => exact ⟨h, hverdict⟩
        | some r' =>
          obtain ⟨hsound, hnext⟩ := take_spec h hphase branch henabled htake
          exact next_spec hsound hnext
      · exact ⟨h, hverdict⟩
    · exact ⟨h, hverdict⟩
  | liveSent peer => exact ⟨{ h with }, hverdict.channels _ r.lookupPeerRx⟩
  | liveDropped => exact ⟨{ h with }, hverdict.channels _ r.lookupPeerRx⟩
  | lookupSent addr =>
    unfold step
    split_ifs with hrequested
    · refine ⟨{ h with lookup := fun hopen => ?_ }, hverdict.channels r.peerRx _⟩
      refine (h.lookup hopen).imp_left fun ⟨hbuffer, hended⟩ => ?_
      have hsame := (hended hrequested).trySend addr
      dsimp only
      rw [hsame]
      exact ⟨hbuffer, hended⟩
    · exact ⟨h, hverdict⟩
  | lookupDropped =>
    unfold step
    split_ifs with hrequested
    · refine ⟨{ h with lookup := fun hopen => ?_ }, hverdict.channels r.peerRx _⟩
      refine (h.lookup hopen).imp_left fun ⟨hbuffer, hended⟩ => ?_
      exact ⟨hbuffer, fun hreq => (hended hreq).detach⟩
    · exact ⟨h, hverdict⟩

/-! ### Runs -/

lemma run_spec (events : List (Event M)) (h : r.Sound) (hverdict : r.Verdict) :
    (r.run events).Sound ∧ (r.run events).Verdict := by
  induction events generalizing r with
  | nil => exact ⟨h, hverdict⟩
  | cons event rest ih =>
    obtain ⟨hsound, hnext⟩ := step_spec h hverdict event
    exact ih hsound hnext

lemma sound_enter (peers : List PeerCandidate) (peerRx : Channel PeerCandidate) (hasLookup : Bool) :
    (enter peers peerRx hasLookup : Race M).Sound ∧
      (enter peers peerRx hasLookup : Race M).phase = .waiting := by
  unfold enter
  refine List.foldlRecOn (motive := fun r : Race M => r.Sound ∧ r.phase = .waiting) _ _ ?_ ?_
  · refine ⟨?_, rfl⟩
    exact
      { nodup := .nil
        seen := fun addr => by simp [accepted]
        seen_card := Nat.zero_le _
        started := .nil
        reserved := rfl
        reserved_le := Nat.zero_le _
        lookup := fun _ => .inl ⟨rfl, fun hrequested => absurd hrequested Bool.false_ne_true⟩
        unfetched := .inr fun _ hmem => (nomatch hmem) }
  · rintro r ⟨hr, hphase⟩ peer -
    exact ⟨hr.queueRaceCandidate peer .initial, by rw [queueRaceCandidate_phase, hphase]⟩

lemma start_run_spec (peers : List PeerCandidate) (peerRx : Channel PeerCandidate) (hasLookup : Bool)
    (events : List (Event M)) :
    ((start peers peerRx hasLookup).run events).Sound ∧
      ((start peers peerRx hasLookup).run events).Verdict := by
  obtain ⟨hsound, hphase⟩ := sound_enter (M := M) peers peerRx hasLookup
  obtain ⟨hstart, hverdict⟩ := loopHead_spec hsound hphase
  exact run_spec events hstart hverdict

end DhtCrawler.Race
