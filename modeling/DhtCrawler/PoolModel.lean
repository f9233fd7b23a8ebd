import DhtCrawler.BudgetModel
import DhtCrawler.ProbesModel

/-! The FIFO node pool of `node_pool.rs` with its set of recent probes. -/

namespace DhtCrawler

inductive AdmissionOutcome where
  | admitted
  | replaced
  | duplicate
  | rateLimited
  | invalid
  deriving DecidableEq, Repr

structure QueuedNode where
  node : NodeTuple
  queuedAt : Instant

structure Eviction where
  addr : SocketAddr
  deadline : Option Instant
  evictedAt : Instant

structure NodePool where
  queue : List QueuedNode
  queued : Finset SocketAddr
  recent : RecentProbes
  replacementBudget : RateBucket
  recentTtl : Duration
  capacity : ℕ
  warmed : Bool
  evictions : List Eviction

namespace NodePool

def new (capacity replacementsPerMinute : ℕ) (recentTtl : Duration) (recentCapacity : ℕ)
    (now : Instant) : NodePool where
  queue := []
  queued := ∅
  recent := .new recentCapacity
  replacementBudget :=
    .perMinute replacementsPerMinute (max (divCeil replacementsPerMinute 60) 1) true now
  recentTtl := recentTtl
  capacity := max capacity 1
  warmed := false
  evictions := []

def expireRecent (pool : NodePool) (now : Instant) : Except Panic NodePool :=
  if pool.recent.hasDue now then do
    let (recent, _) ← pool.recent.expire now
    .ok { pool with recent }
  else .ok pool

/-- One round of the loop that finishes the due checks of a full set. -/
def prepareStep (addr : SocketAddr) (now : Instant) (pool : NodePool) :
    Except Panic (ForInStep NodePool) :=
  if pool.recent.entries.len ≥ pool.recent.capacity ∧ pool.recent.entries.contains addr = false ∧
      pool.recent.hasDue now = true then do
    let pool ← pool.expireRecent now
    .ok (.yield pool)
  else .ok (.done pool)

/-- Every round lowers the number of due checks, so the fuel outlasts the loop. -/
def prepareRecentSlot (pool : NodePool) (addr : SocketAddr) (now : Instant) : Except Panic NodePool := do
  let pool ← pool.expireRecent now
  Loop.run (prepareStep addr now) (pool.recent.expiry.length + 1) pool

def evictionBy (recent : RecentProbes) (addr : SocketAddr) (now : Instant) : List Eviction :=
  match recent.evictee addr with
  | some old => [⟨old, recent.deadline old, now⟩]
  | none => []

def recordProbe (pool : NodePool) (addr : SocketAddr) (now : Instant) : Except Panic NodePool := do
  let pool ← pool.prepareRecentSlot addr now
  let recent ← pool.recent.record addr (now + pool.recentTtl)
  .ok { pool with recent, evictions := evictionBy pool.recent addr now ++ pool.evictions }

def popFrontInternal (pool : NodePool) : NodePool × Option QueuedNode :=
  match pool.queue with
  | [] => (pool, none)
  | q :: queue => ({ pool with queue, queued := pool.queued.erase q.node.addr }, some q)

def front (pool : NodePool) : Option NodeTuple := pool.queue.head?.map QueuedNode.node

def rotateFrontToBack (pool : NodePool) : NodePool :=
  if pool.queue.length ≤ 1 then pool else { pool with queue := pool.queue.rotate 1 }

def takeFrontForProbe (pool : NodePool) (now : Instant) : Except Panic (NodePool × Option NodeTuple) :=
  match pool.popFrontInternal with
  | (pool, none) => .ok (pool, none)
  | (pool, some q) => do
      let pool ← pool.recordProbe q.node.addr now
      .ok (pool, some q.node)

def restoreFront (pool : NodePool) (node : NodeTuple) (queuedAt : Instant) : Except Panic NodePool := do
  let recent ← pool.recent.remove node.addr
  .ok { pool with
    recent
    queued := insert node.addr pool.queued
    queue := ⟨node, queuedAt⟩ :: pool.queue }

def containsRecent (pool : NodePool) (addr : SocketAddr) (now : Instant) :
    Except Panic (NodePool × Bool) := do
  let pool ← pool.expireRecent now
  .ok (pool, pool.recent.contains addr now)

def replaceOldest (pool : NodePool) : NodePool × Bool :=
  if pool.queue.length ≥ pool.capacity then
    (pool.popFrontInternal.1, pool.popFrontInternal.2.isSome)
  else (pool, false)

def pushBack (pool : NodePool) (node : NodeTuple) (now : Instant) : NodePool :=
  let queue := pool.queue ++ [⟨node, now⟩]
  { pool with
    queued := insert node.addr pool.queued
    queue
    warmed := pool.warmed || queue.length ≥ pool.capacity }

def enqueue (pool : NodePool) (node : NodeTuple) (now : Instant) : NodePool × AdmissionOutcome :=
  let (pool, replaced) := pool.replaceOldest
  (pool.pushBack node now, if replaced then .replaced else .admitted)

def admitNode (pool : NodePool) (node : NodeTuple) (now : Instant) :
    Except Panic (NodePool × AdmissionOutcome) :=
  if isValidNodeAddr node.addr = false then .ok (pool, .invalid)
  else do
    let pool ← pool.expireRecent now
    if node.addr ∈ pool.queued ∨ pool.recent.contains node.addr now = true then .ok (pool, .duplicate)
    else if pool.warmed then
      let (budget, taken) := pool.replacementBudget.tryTakeOne now
      let pool := { pool with replacementBudget := budget }
      if taken then .ok (pool.enqueue node now) else .ok (pool, .rateLimited)
    else .ok (pool.enqueue node now)

end NodePool

end DhtCrawler
