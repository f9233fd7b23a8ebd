import DhtCrawler.LibChannel
import DhtCrawler.QueueModel

/-! The peer race of `scheduler.rs`: candidates come from the job, from announcements while the job runs and
from a lookup, and each is fetched once. -/

namespace DhtCrawler

def maxMetadataPeersPerHash : ℕ := 12

inductive MetadataFetchOutcome (M : Type) where
  | skippedCached
  | failed
  | fetched (metadata : M)
  deriving DecidableEq, Repr

inductive CandidateSource where
  | initial
  | live
  | lookup
  deriving DecidableEq, Repr

inductive RacePhase (M : Type) where
  | waiting
  | returned (result : Option (PeerCandidate × M))
  deriving DecidableEq, Repr

/-- `requested` tells whether the lookup request, with the sender of the lookup channel, was accepted. -/
structure Race (M : Type) where
  tasks : List PeerCandidate
  seenPeers : Finset SocketAddr
  pendingPeers : List (PeerCandidate × CandidateSource)
  attemptsReserved : ℕ
  lookupOpen : Bool
  lookupSubmitted : Bool
  lookupDeadlineElapsed : Bool
  acceptingLivePeers : Bool
  peerRx : Channel PeerCandidate
  lookupPeerRx : Channel SocketAddr
  requested : Bool
  phase : RacePhase M
  started : List PeerCandidate
  finished : List (PeerCandidate × Option (MetadataFetchOutcome M))

namespace Race

variable {M : Type}

def queueRaceCandidate (r : Race M) (peer : PeerCandidate) (source : CandidateSource) : Race M :=
  if r.seenPeers.card < maxMetadataCandidatesPerHash ∧ peer.addr ∉ r.seenPeers then
    { r with
      seenPeers := insert peer.addr r.seenPeers
      pendingPeers := r.pendingPeers ++ [(peer, source)] }
  else r

/-! ### The head of the loop -/

/-- One potential attempt is reserved for every fetch that is started. -/
def refillFrom (r : Race M) : List (PeerCandidate × CandidateSource) → Race M
  | [] => { r with pendingPeers := [] }
  | (peer, source) :: rest =>
    if r.attemptsReserved < maxMetadataPeersPerHash then
      refillFrom
        { r with
          attemptsReserved := r.attemptsReserved + 1
          tasks := r.tasks ++ [peer]
          started := r.started ++ [peer] }
        rest
    else { r with pendingPeers := (peer, source) :: rest }

def refill (r : Race M) : Race M := r.refillFrom r.pendingPeers

def closeWhenFull (r : Race M) : Race M :=
  if r.seenPeers.card ≥ maxMetadataCandidatesPerHash then
    { r with
      acceptingLivePeers := false
      lookupOpen := false
      peerRx := r.peerRx.close
      lookupPeerRx := r.lookupPeerRx.close }
  else r

def givesUp (r : Race M) : Bool :=
  r.tasks.isEmpty &&
    (decide (r.attemptsReserved ≥ maxMetadataPeersPerHash) ||
      (r.pendingPeers.isEmpty && !r.acceptingLivePeers && !r.lookupOpen))

def loopHead (r : Race M) : Race M :=
  let r := r.refill.closeWhenFull
  if r.givesUp then { r with phase := .returned none } else r

def enter (peers : List PeerCandidate) (peerRx : Channel PeerCandidate) (hasLookup : Bool) : Race M :=
  peers.foldl (fun r peer => r.queueRaceCandidate peer .initial)
    { tasks := []
      seenPeers := ∅
      pendingPeers := []
      attemptsReserved := 0
      lookupOpen := hasLookup
      lookupSubmitted := !hasLookup
      lookupDeadlineElapsed := false
      acceptingLivePeers := true
      peerRx := peerRx
      lookupPeerRx := .new maxMetadataCandidatesPerHash
      requested := false
      phase := .waiting
      started := []
      finished := [] }

def start (peers : List PeerCandidate) (peerRx : Channel PeerCandidate) (hasLookup : Bool) : Race M :=
  (enter peers peerRx hasLookup).loopHead

/-! ### The branches -/

/-- What a branch of `select!` waits for, with how it turns out. -/
inductive Branch (M : Type) where
  | joinNext (index : ℕ) (outcome : Option (MetadataFetchOutcome M))
  | livePeer
  | lookupPeer (now : Instant)
  | submitLookup (accepted : Bool)
  | lookupDeadline
  | idle

def enabled (r : Race M) : Branch M → Bool
  | .joinNext .. => !r.tasks.isEmpty
  | .livePeer => r.acceptingLivePeers
  | .lookupPeer _ => r.lookupOpen
  | .submitLookup _ => r.lookupOpen && !r.lookupSubmitted
  | .lookupDeadline => r.lookupOpen && !r.lookupDeadlineElapsed
  | .idle => r.tasks.isEmpty && r.pendingPeers.isEmpty && !r.lookupOpen

/-- A fetch has ended. A skipped one gives its reservation back; the first that fetched ends the race, and the
others are aborted. -/
def joined (r : Race M) (peer : PeerCandidate) : Option (MetadataFetchOutcome M) → Race M
  | none => r
  | some .skippedCached => { r with attemptsReserved := r.attemptsReserved - 1 }
  | some .failed => r
  | some (.fetched metadata) =>
    { r with
      peerRx := r.peerRx.close
      lookupPeerRx := r.lookupPeerRx.close
      tasks := []
      finished := r.finished ++ r.tasks.map fun other => (other, none)
      phase := .returned (some (peer, metadata)) }

def take (r : Race M) : Branch M → Option (Race M)
  | .joinNext index outcome =>
    (r.tasks[index]?).map fun peer =>
      { r with
        tasks := r.tasks.eraseIdx index
        finished := r.finished ++ [(peer, outcome)] }.joined peer outcome
  | .livePeer =>
    r.peerRx.recv.map fun (received, peerRx) =>
      let r := { r with peerRx }
      match received with
      | some peer => r.queueRaceCandidate peer .live
      | none => { r with acceptingLivePeers := false }
  | .lookupPeer now =>
    r.lookupPeerRx.recv.map fun (received, lookupPeerRx) =>
      let r := { r with lookupPeerRx }
      match received with
      | some addr => r.queueRaceCandidate ⟨addr, now⟩ .lookup
      | none => { r with lookupOpen := false }
  | .submitLookup accepted =>
    some
      { r with
        lookupSubmitted := true
        requested := accepted
        lookupPeerRx := if accepted then r.lookupPeerRx else r.lookupPeerRx.detach }
  | .lookupDeadline => some { r with lookupPeerRx := r.lookupPeerRx.close, lookupDeadlineElapsed := true }
  | .idle => some { r with phase := .returned none }

/-! ### Runs -/

/-- The branches of the race, and what others do to its channels. -/
inductive Event (M : Type) where
  | branch (branch : Branch M)
  | liveSent (peer : PeerCandidate)
  | liveDropped
  | lookupSent (addr : SocketAddr)
  | lookupDropped

/-- After a branch that does not return the loop starts over. -/
def next (r : Race M) : Race M :=
  match r.phase with
  | .waiting => r.loopHead
  | .returned _ => r

def step (r : Race M) : Event M → Race M
  | .branch branch =>
    match r.phase with
    | .waiting => if r.enabled branch then ((r.take branch).map next).getD r else r
    | .returned _ => r
  | .liveSent peer => { r with peerRx := (r.peerRx.trySend peer).1 }
  | .liveDropped => { r with peerRx := r.peerRx.detach }
  | .lookupSent addr =>
    if r.requested then { r with lookupPeerRx := (r.lookupPeerRx.trySend addr).1 } else r
  | .lookupDropped => if r.requested then { r with lookupPeerRx := r.lookupPeerRx.detach } else r

def run (r : Race M) (events : List (Event M)) : Race M := events.foldl step r

end Race

end DhtCrawler
