import DhtCrawler.CrawlConfig
import DhtCrawler.LibFiniteMap

/-! The bootstrap gate and the pool of bootstrap sources of `bootstrap.rs`. -/

namespace DhtCrawler

structure BootstrapGate where
  lastBootstrap : Option Instant

namespace BootstrapGate

def new : BootstrapGate := ⟨none⟩

def shouldBootstrap (gate : BootstrapGate) (poolLen : ℕ) (config : ResolvedCrawlConfig)
    (now : Instant) : BootstrapGate × Bool :=
  if config.bootstrapMaxNodesPerRound = 0 then (gate, false)
  else if poolLen ≥ config.lowWatermark then (gate, false)
  else if gate.lastBootstrap.any fun last => now - last < config.bootstrapInterval then (gate, false)
  else (⟨some now⟩, true)

end BootstrapGate

structure BootstrapSourceState where
  lastAttempt : Option Instant
  lastSuccess : Option Instant
  failCount : ℕ
  backoffUntil : Option Instant

structure BootstrapSourcePool where
  hosts : List String
  states : FiniteMap SocketAddr BootstrapSourceState
  backoffBase : Duration
  backoffMax : Duration

namespace BootstrapSourcePool

def new (hosts : List String) (backoffBase backoffMax : Duration) : BootstrapSourcePool :=
  { hosts, states := .empty, backoffBase, backoffMax }

/-- `states.entry(addr).or_default()`. -/
def stateOf (states : FiniteMap SocketAddr BootstrapSourceState) (addr : SocketAddr) :
    BootstrapSourceState :=
  (states.get addr).getD ⟨none, none, 0, none⟩

structure Choice where
  states : FiniteMap SocketAddr BootstrapSourceState
  selected : List SocketAddr
  seen : Finset SocketAddr
  earliestBackoff : Option (SocketAddr × Instant)

/-- The source whose backoff ends first; among equal ones the first seen stays. -/
def earlierBackoff (current : Option (SocketAddr × Instant)) (addr : SocketAddr) (ends : Instant) :
    Option (SocketAddr × Instant) :=
  match current with
  | some (old, oldEnds) => if ends < oldEnds then some (addr, ends) else some (old, oldEnds)
  | none => some (addr, ends)

/-- The loop of `select`; a source that completes the selection ends it. -/
def choose (maxNodes : ℕ) (now : Instant) : List SocketAddr → Choice → Choice × Bool
  | [], c => (c, false)
  | addr :: candidates, c =>
    if addr ∈ c.seen then choose maxNodes now candidates c
    else
      let state := stateOf c.states addr
      let c := { c with seen := insert addr c.seen, states := c.states.insert addr state }
      match state.backoffUntil.filter fun ends => ends > now with
      | some ends =>
        choose maxNodes now candidates
          { c with earliestBackoff := earlierBackoff c.earliestBackoff addr ends }
      | none =>
        let c := { c with selected := c.selected ++ [addr] }
        if c.selected.length ≥ maxNodes then (c, true) else choose maxNodes now candidates c

/-- What `select` does once its vector is allocated. -/
def selection (pool : BootstrapSourcePool) (candidates : List SocketAddr) (maxNodes : ℕ) (now : Instant) :
    BootstrapSourcePool × List SocketAddr :=
  let (c, complete) := choose maxNodes now candidates ⟨pool.states, [], ∅, none⟩
  let pool := { pool with states := c.states }
  if complete then (pool, c.selected)
  else if c.selected.isEmpty && maxNodes > 0 then
    match c.earliestBackoff with
    | some (addr, _) => (pool, [addr])
    | none => (pool, [])
  else (pool, c.selected)

/-- `Vec::<SocketAddr>::with_capacity`: a `SocketAddr` takes 32 bytes, and a request for more than
`isize::MAX` bytes panics. -/
def reserveAddrs (maxNodes : ℕ) : Except Panic Unit :=
  if maxNodes * 32 > isizeMax then .error .capacityOverflow else .ok ()

/-- The limit is not clamped before the vector is allocated. -/
def select (pool : BootstrapSourcePool) (candidates : List SocketAddr) (maxNodes : ℕ) (now : Instant) :
    Except Panic (BootstrapSourcePool × List SocketAddr) := do
  reserveAddrs maxNodes
  .ok (pool.selection candidates maxNodes now)

def setState (pool : BootstrapSourcePool) (addr : SocketAddr) (state : BootstrapSourceState) :
    BootstrapSourcePool :=
  { pool with states := pool.states.insert addr state }

def markAttempt (pool : BootstrapSourcePool) (addr : SocketAddr) (now : Instant) :
    BootstrapSourcePool :=
  pool.setState addr { stateOf pool.states addr with lastAttempt := some now }

def markSuccess (pool : BootstrapSourcePool) (addr : SocketAddr) (now : Instant) :
    BootstrapSourcePool :=
  pool.setState addr
    { stateOf pool.states addr with lastSuccess := some now, failCount := 0, backoffUntil := none }

/-- The backoff doubles with every failure, sixteen times at most. -/
def markTimeout (pool : BootstrapSourcePool) (addr : SocketAddr) (now : Instant) :
    BootstrapSourcePool :=
  let state := stateOf pool.states addr
  let failCount := min (state.failCount + 1) (2 ^ 32 - 1)
  let backoff := min (pool.backoffBase * 2 ^ min (failCount - 1) 16) pool.backoffMax
  pool.setState addr { state with failCount, backoffUntil := some (now + backoff) }

end BootstrapSourcePool

end DhtCrawler
