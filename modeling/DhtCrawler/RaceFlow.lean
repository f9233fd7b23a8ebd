import DhtCrawler.RaceModel

/-! What passes through a peer race. By its own branches a race takes every candidate of the lookup out of the
channel only to consider it, considers no address that did not come in, and adds nothing to the channel of the
lookup. This is shown once for the branches; what others do to the channels is added where it matters. -/

namespace DhtCrawler.Race

open List Subset Channel

variable {M : Type} {P Q : SocketAddr → Prop} {r r' : Race M} {addr : SocketAddr} {peer : PeerCandidate}

/-- A candidate of the lookup that is not lost: it waits, was considered, or came too late. -/
def TakenUp (addr : SocketAddr) (r : Race M) : Prop :=
  addr ∈ r.lookupPeerRx.buffer ∨ addr ∈ r.seenPeers ∨ maxMetadataCandidatesPerHash ≤ r.seenPeers.card

/-- Every address that the race knows has the property. -/
structure Sourced (P : SocketAddr → Prop) (r : Race M) : Prop where
  started : ∀ peer ∈ r.started, P peer.addr
  pending : ∀ candidate ∈ r.pendingPeers, P candidate.1.addr
  live : ∀ peer ∈ r.peerRx.buffer, P peer.addr
  lookup : ∀ addr ∈ r.lookupPeerRx.buffer, P addr

structure Keeps (r r' : Race M) : Prop where
  seen : r.seenPeers ⊆ r'.seenPeers
  buffer : ∀ addr ∈ r.lookupPeerRx.buffer, r'.TakenUp addr

structure Passes (r r' : Race M) : Prop extends Keeps r r' where
  capacity : r'.lookupPeerRx.capacity = r.lookupPeerRx.capacity
  length : r'.lookupPeerRx.buffer.length ≤ r.lookupPeerRx.buffer.length
  sourced : ∀ P, r.Sourced P → r'.Sourced P

lemma Keeps.takenUp (h : r.Keeps r') (htaken : r.TakenUp addr) : r'.TakenUp addr := by
  rcases htaken with hbuffer | hseen | hfull
  · exact h.buffer addr hbuffer
  · exact .inr (.inl (h.seen hseen))
  · exact .inr (.inr (hfull.trans (Finset.card_le_card h.seen)))

lemma Keeps.trans {q : Race M} (h : r.Keeps q) (h' : q.Keeps r') : r.Keeps r' :=
  ⟨h.seen.trans h'.seen, fun addr hmem => h'.takenUp (h.buffer addr hmem)⟩

lemma Passes.trans {q : Race M} (h : r.Passes q) (h' : q.Passes r') : r.Passes r' where
  toKeeps := h.toKeeps.trans h'.toKeeps
  capacity := h'.capacity.trans h.capacity
  length := h'.length.trans h.length
  sourced P hP := h'.sourced P (h.sourced P hP)

def contents (r : Race M) : Finset SocketAddr × List PeerCandidate × List PeerCandidate × List SocketAddr × ℕ :=
  (r.seenPeers, r.started, r.peerRx.buffer, r.lookupPeerRx.buffer, r.lookupPeerRx.capacity)

lemma passes_of_contents (hpending : r'.pendingPeers ⊆ r.pendingPeers) (h : r'.contents = r.contents) :
    r.Passes r' := by
  simp only [contents, Prod.mk.injEq] at h
  obtain ⟨hseen, hstarted, hlive, hlookup, hcapacity⟩ := h
  exact
    { seen := hseen.ge
      buffer := fun addr hmem => .inl (hlookup ▸ hmem)
      capacity := hcapacity
      length := (congrArg List.length hlookup).le
      sourced := fun P hP => ⟨hstarted ▸ hP.started, fun candidate hcandidate =>
        hP.pending candidate (hpending hcandidate), hlive ▸ hP.live, hlookup ▸ hP.lookup⟩ }

lemma queueRaceCandidate_spec (r : Race M) (peer : PeerCandidate) (source : CandidateSource) :
    r.seenPeers ⊆ (r.queueRaceCandidate peer source).seenPeers ∧
      (r.queueRaceCandidate peer source).lookupPeerRx = r.lookupPeerRx ∧
      (r.queueRaceCandidate peer source).TakenUp peer.addr ∧
      ∀ P, r.Sourced P → P peer.addr → (r.queueRaceCandidate peer source).Sourced P := by
  unfold queueRaceCandidate
  split_ifs with hnew
  · refine ⟨Finset.subset_insert _ _, rfl, .inr (.inl (Finset.mem_insert_self _ _)), fun P hP hpeer => ?_⟩
    exact { hP with pending := forall_mem_append.mpr ⟨hP.pending, forall_mem_singleton.mpr hpeer⟩ }
  · refine ⟨subset_rfl, rfl, .inr ?_, fun P hP _ => hP⟩
    by_cases hmem : peer.addr ∈ r.seenPeers
    · exact .inl hmem
    · exact .inr (Nat.le_of_not_lt fun hlt => hnew ⟨hlt, hmem⟩)

lemma passes_refillFrom (l : List (PeerCandidate × CandidateSource)) (hl : l ⊆ r.pendingPeers) :
    r.Passes (r.refillFrom l) := by
  induction l generalizing r with
  | nil => exact passes_of_contents hl rfl
  | cons candidate rest ih =>
    obtain ⟨peer, source⟩ := candidate
    obtain ⟨hpeer, hrest⟩ := cons_subset.mp hl
    unfold refillFrom
    split_ifs
    · refine .trans (q := { r with tasks := _, attemptsReserved := _, started := r.started ++ [peer] })
        ⟨⟨subset_rfl, fun addr => .inl⟩, rfl, le_rfl, fun P hP => ?_⟩ (ih ?_)
      · exact { hP with
          started := forall_mem_append.mpr ⟨hP.started, forall_mem_singleton.mpr (hP.pending _ hpeer)⟩ }
      · exact hrest
    · exact passes_of_contents hl rfl

lemma passes_loopHead (r : Race M) : r.Passes r.loopHead := by
  have hclose : ∀ q : Race M, q.Passes q.closeWhenFull := by
    intro q
    unfold closeWhenFull
    split_ifs <;> exact passes_of_contents (refl _) rfl
  refine ((passes_refillFrom r.pendingPeers (refl _)).trans (hclose _)).trans ?_
  unfold loopHead refill
  dsimp only
  split_ifs <;> exact passes_of_contents (refl _) rfl

lemma passes_take {branch : Branch M} (htake : r.take branch = some r') : r.Passes r' := by
  cases branch with
  | joinNext index outcome =>
    obtain ⟨peer, -, rfl⟩ := Option.map_eq_some_iff.mp htake
    unfold joined
    split <;> exact passes_of_contents (refl _) rfl
  | livePeer =>
    obtain ⟨⟨received, peerRx⟩, hrecv, rfl⟩ := Option.map_eq_some_iff.mp htake
    cases received with
    | none =>
      obtain ⟨-, rfl⟩ := recv_none hrecv
      exact passes_of_contents (refl _) rfl
    | some peer =>
      have hbuffer := (recv_some hrecv).1
      obtain ⟨hseen, hrx, -, hsourced⟩ := queueRaceCandidate_spec { r with peerRx } peer .live
      refine ⟨⟨hseen, fun addr hmem => .inl (hrx.symm ▸ hmem)⟩, congrArg Channel.capacity hrx,
        (congrArg (fun c => c.buffer.length) hrx).le, fun P hP => ?_⟩
      obtain ⟨hpeer, hrest⟩ := forall_mem_cons.mp (hbuffer ▸ hP.live)
      exact hsourced P { hP with live := hrest } hpeer
  | lookupPeer now =>
    obtain ⟨⟨received, lookupPeerRx⟩, hrecv, rfl⟩ := Option.map_eq_some_iff.mp htake
    cases received with
    | none =>
      obtain ⟨-, rfl⟩ := recv_none hrecv
      exact passes_of_contents (refl _) rfl
    | some addr =>
      obtain ⟨hbuffer, hsame⟩ := recv_some hrecv
      obtain ⟨hseen, hrx, htaken, hsourced⟩ :=
        queueRaceCandidate_spec { r with lookupPeerRx } ⟨addr, now⟩ .lookup
      refine ⟨⟨hseen, ?_⟩, ?_, ?_, fun P hP => ?_⟩
      · rw [hbuffer]
        exact forall_mem_cons.mpr ⟨htaken, fun other hmem => .inl (hrx.symm ▸ hmem)⟩
      · exact (congrArg Channel.capacity hrx).trans (hsame ▸ rfl)
      · rw [hbuffer]
        exact (congrArg (fun c => c.buffer.length) hrx).le.trans (Nat.le_succ _)
      · obtain ⟨hpeer, hrest⟩ := forall_mem_cons.mp (hbuffer ▸ hP.lookup)
        exact hsourced P { hP with lookup := hrest } hpeer
  | submitLookup accepted =>
    cases htake
    cases accepted <;> exact passes_of_contents (refl _) rfl
  | lookupDeadline | idle =>
    cases htake
    exact passes_of_contents (refl _) rfl

lemma passes_branch (r : Race M) (branch : Branch M) : r.Passes (r.step (.branch branch)) := by
  have hself : r.Passes r := passes_of_contents (refl _) rfl
  unfold step
  dsimp only
  split
  · split_ifs
    · cases htake : r.take branch with
      | none => exact hself
      | some r' =>
        refine (passes_take htake).trans ?_
        change r'.Passes r'.next
        unfold next
        split
        · exact passes_loopHead r'
        · exact passes_of_contents (refl _) rfl
    · exact hself
  · exact hself

end DhtCrawler.Race
