import DhtCrawler.QueueModel
import Mathlib.Data.String.Basic

/-! The retry history of `scheduler.rs`: a record of the failures of a hash, its next due instant, a lifetime fixed
at creation and the candidates already seen, so that only a new one earns another attempt. -/

namespace DhtCrawler

/-- The retry part of `MetadataOptions`, with its defaults. -/
structure MetadataOptions where
  retryInitialDelaySecs : ℕ := 60
  retryMaxDelaySecs : ℕ := 3600
  retryMaxAttempts : ℕ := 5
  retryHistoryTtlSecs : ℕ := 21600
  retryHistoryCapacity : ℕ := 100000

def maxRetryLifetime : Duration := secs (7 * 24 * 60 * 60)

def retryDeadline (now : Instant) (delay : Duration) : Instant := now + min delay maxRetryLifetime

namespace RetryRecord

def attemptLimit (record : RetryRecord) (policy : MetadataOptions) : ℕ :=
  min (policy.retryMaxAttempts + record.extraAttempts) usizeMax

end RetryRecord

structure RetryState where
  record : RetryRecord
  peers : List SocketAddr
  sources : List SocketAddr

namespace RetryState

/-- One candidate against the list of those seen: the list and whether the candidate is new. -/
def observeOne (candidate : Option SocketAddr) (seen : List SocketAddr) (capacity : ℕ) :
    List SocketAddr × Bool :=
  match candidate with
  | none => (seen, false)
  | some addr =>
    if addr ∈ seen then (seen, false)
    else if seen.length < capacity then (seen ++ [addr], true)
    else (seen, true)

def observe (state : RetryState) (peer source : Option SocketAddr) : RetryState × Bool :=
  let (peers, novelPeer) := observeOne peer state.peers maxMetadataCandidatesPerHash
  let (sources, novelSource) := observeOne source state.sources 8
  ({ state with peers, sources }, novelPeer || novelSource)

end RetryState

structure RetryHistory where
  entries : FiniteMap String RetryState
  expiry : FiniteMap (Instant ×ₗ String) Unit

namespace RetryHistory

def new : RetryHistory where
  entries := .empty
  expiry := .empty

def expireStep (now : Instant) (history : RetryHistory) : ForInStep RetryHistory :=
  match history.expiry.first with
  | none => .done history
  | some (key, _) =>
    if (ofLex key).1 > now then .done history
    else
      .yield
        { entries := history.entries.erase (ofLex key).2
          expiry := history.expiry.erase key }

/-- Every round removes a key of `expiry`, so the fuel outlasts the loop. -/
def expire (history : RetryHistory) (now : Instant) : RetryHistory :=
  Loop.iterate (expireStep now) (history.expiry.len + 1) history

def remove (history : RetryHistory) (hash : String) : RetryHistory :=
  match history.entries.get hash with
  | none => history
  | some state =>
    { entries := history.entries.erase hash
      expiry := history.expiry.erase (toLex (state.record.expiresAt, hash)) }

/-- The state `record` creates for a hash without a history. -/
def freshState (now : Instant) (policy : MetadataOptions) : RetryState where
  record :=
    { failures := 0
      nextDue := now
      expiresAt := retryDeadline now (secs policy.retryHistoryTtlSecs)
      extraAttempts := 0 }
  peers := []
  sources := []

/-- The pause before the next attempt: doubling with every failure up to the configured maximum, or the delay
the application asked for. -/
def backoff (failures : ℕ) (failed : Bool) (delay : Duration) (policy : MetadataOptions) : Duration :=
  if failed then
    let multiplier := 2 ^ min (failures - 1) 31
    secs (min (min (policy.retryInitialDelaySecs * multiplier) (2 ^ 64 - 1)) policy.retryMaxDelaySecs)
  else delay

/-- The record after another result at `now`; a zero delay still waits 100 ms. -/
def recordedResult (record : RetryRecord) (now : Instant) (failed : Bool) (delay : Duration)
    (policy : MetadataOptions) : RetryRecord :=
  let failures := if failed then min (record.failures + 1) usizeMax else record.failures
  { record with
    failures
    nextDue := retryDeadline now (max (backoff failures failed delay policy) (millis 100)) }

/-- The history after a result of a job, with the record of the hash; there is none when the history is full. -/
def record (history : RetryHistory) (hash : String) (now : Instant) (failed : Bool) (delay : Duration)
    (policy : MetadataOptions) : Except Panic (RetryHistory × Option RetryRecord) := do
  let history := history.expire now
  if !history.entries.contains hash && history.entries.len ≥ policy.retryHistoryCapacity then
    .ok (history, none)
  else
    let history :=
      if history.entries.contains hash then history
      else
        let state := freshState now policy
        { entries := history.entries.insert hash state
          expiry := history.expiry.insert (toLex (state.record.expiresAt, hash)) () }
    let state ← unwrap (history.entries.get hash)
    let record := recordedResult state.record now failed delay policy
    .ok ({ history with entries := history.entries.insert hash { state with record } }, some record)

/-- The record after an event: an exhausted hash with a new candidate is granted one more attempt, at most
twice. -/
def grantedRecord (record : RetryRecord) (novel : Bool) (now : Instant) (policy : MetadataOptions) :
    RetryRecord :=
  if record.failures ≥ record.attemptLimit policy ∧ novel = true ∧ record.extraAttempts < 2 ∧
      policy.retryMaxAttempts > 0 then
    { record with
      extraAttempts := record.extraAttempts + 1
      nextDue := retryDeadline now (max (secs policy.retryInitialDelaySecs) (millis 100)) }
  else record

def observeEvent (history : RetryHistory) (event : HashDiscovered) (now : Instant)
    (policy : MetadataOptions) : RetryHistory × Option RetryRecord :=
  let history := history.expire now
  match history.entries.get event.infoHash with
  | none => (history, none)
  | some state =>
    let (state, novel) := state.observe event.peerAddr (event.sourceNode.map NodeTuple.addr)
    let record := grantedRecord state.record novel now policy
    ({ history with entries := history.entries.insert event.infoHash { state with record } }, some record)

def remember (history : RetryHistory) (entry : QueuedHash) : RetryHistory :=
  match history.entries.get entry.infoHash with
  | none => history
  | some state =>
    let state := entry.peers.foldl (fun s peer => (s.observe (some peer.addr) none).1) state
    let state := entry.sourceNodes.foldl (fun s node => (s.observe none (some node.addr)).1) state
    { history with entries := history.entries.insert entry.infoHash state }

lemma record_ok (history : RetryHistory) (hash : String) (now : Instant) (failed : Bool) (delay : Duration)
    (policy : MetadataOptions) : ∃ r, history.record hash now failed delay policy = .ok r := by
  dsimp only [record]
  split_ifs with hfull hmem
  · exact ⟨_, rfl⟩
  · obtain ⟨state, hs⟩ := FiniteMap.contains_iff.mp hmem
    rw [hs]
    exact ⟨_, rfl⟩
  · rw [FiniteMap.get_insert, if_pos rfl]
    exact ⟨_, rfl⟩

end RetryHistory

end DhtCrawler
