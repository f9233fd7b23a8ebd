import DhtCrawler.BaseTypes
import DhtCrawler.LibBinaryHeap
import DhtCrawler.LibFiniteMap
import DhtCrawler.LibOutcome

/-! The recent probes of `node_pool.rs`: a map from endpoints to deadlines, and a binary heap of the endpoints by
the instant their deadline is next looked at. -/

namespace DhtCrawler

open BinaryHeap (exchange)

structure RecentProbe where
  expiresAt : Instant
  heapIndex : ℕ
  deriving DecidableEq, Repr

/-- An element of the heap: `check_at` and the endpoint, compared in that order. -/
abbrev ProbeCheck := Instant ×ₗ SocketAddr

structure RecentProbes where
  entries : FiniteMap SocketAddr RecentProbe
  expiry : List ProbeCheck
  capacity : ℕ

namespace ProbeCheck

def checkAt (check : ProbeCheck) : Instant := (ofLex check).1

def addr (check : ProbeCheck) : SocketAddr := (ofLex check).2

end ProbeCheck

namespace RecentProbes

def new (capacity : ℕ) : RecentProbes where
  entries := .empty
  expiry := []
  capacity := max capacity 1

def contains (r : RecentProbes) (addr : SocketAddr) (now : Instant) : Bool :=
  (r.entries.get addr).any fun entry => entry.expiresAt > now

def deadline (r : RecentProbes) (addr : SocketAddr) : Option Instant :=
  (r.entries.get addr).map RecentProbe.expiresAt

/-- Writes the position of the heap element at `index` into its map entry. -/
def syncIndex (r : RecentProbes) (index : ℕ) : Except Panic RecentProbes := do
  let check ← unwrap r.expiry[index]?
  let entry ← unwrap (r.entries.get check.addr)
  .ok { r with entries := r.entries.insert check.addr { entry with heapIndex := index } }

def swap (r : RecentProbes) (left right : ℕ) : Except Panic RecentProbes := do
  let atLeft ← unwrap r.expiry[left]?
  let atRight ← unwrap r.expiry[right]?
  let r := { r with expiry := exchange r.expiry left right atLeft atRight }
  let r ← r.syncIndex left
  r.syncIndex right

def siftUpStep (x : RecentProbes × ℕ) : Except Panic (ForInStep (RecentProbes × ℕ)) :=
  let (r, index) := x
  if index = 0 then .ok (.done (r, index))
  else do
    let parent := (index - 1) / 2
    let above ← unwrap r.expiry[parent]?
    let this ← unwrap r.expiry[index]?
    if above ≤ this then .ok (.done (r, index))
    else
      let r ← r.swap parent index
      .ok (.yield (r, parent))

/-- Every round moves towards the root, so the fuel outlasts the loop. -/
def siftUp (r : RecentProbes) (index : ℕ) : Except Panic RecentProbes := do
  let (r, _) ← Loop.run siftUpStep (index + 1) (r, index)
  .ok r

/-- The child to compare with: the right one only if it exists and is less. -/
def lesserChild (r : RecentProbes) (left : ℕ) : Except Panic ℕ := do
  let right := left + 1
  if right < r.expiry.length then
    let atRight ← unwrap r.expiry[right]?
    let atLeft ← unwrap r.expiry[left]?
    .ok (if atRight < atLeft then right else left)
  else .ok left

def siftDownStep (x : RecentProbes × ℕ) : Except Panic (ForInStep (RecentProbes × ℕ)) :=
  let (r, index) := x
  let left := index * 2 + 1
  if left ≥ r.expiry.length then .ok (.done (r, index))
  else do
    let child ← r.lesserChild left
    let this ← unwrap r.expiry[index]?
    let below ← unwrap r.expiry[child]?
    if this ≤ below then .ok (.done (r, index))
    else
      let r ← r.swap index child
      .ok (.yield (r, child))

/-- Every round moves away from the root, so the fuel outlasts the loop. -/
def siftDown (r : RecentProbes) (index : ℕ) : Except Panic RecentProbes := do
  let (r, _) ← Loop.run siftDownStep (r.expiry.length + 1) (r, index)
  .ok r

/-- Whether the element moved to `index` has to rise: it is less than its parent. -/
def rises (r : RecentProbes) (index : ℕ) : Except Panic Bool :=
  if index > 0 then do
    let this ← unwrap r.expiry[index]?
    let above ← unwrap r.expiry[(index - 1) / 2]?
    .ok (this < above)
  else .ok false

def removeAt (r : RecentProbes) (index : ℕ) : Except Panic RecentProbes := do
  let (removed, expiry) ← swapRemove r.expiry index
  let r := { r with expiry, entries := r.entries.erase removed.addr }
  if index < r.expiry.length then
    let r ← r.syncIndex index
    if ← r.rises index then r.siftUp index else r.siftDown index
  else .ok r

/-- The endpoint that gives way when `addr` is recorded: the one at the root, if the set is full and `addr` is
new to it. -/
def evictee (r : RecentProbes) (addr : SocketAddr) : Option SocketAddr :=
  if r.entries.get addr = none ∧ r.entries.len = r.capacity then r.expiry.head?.map ProbeCheck.addr
  else none

def makeRoom (r : RecentProbes) : Except Panic RecentProbes :=
  if r.entries.len = r.capacity then r.removeAt 0 else .ok r

def pushed (r : RecentProbes) (addr : SocketAddr) (expiresAt : Instant) : RecentProbes :=
  { r with
    expiry := r.expiry ++ [toLex (expiresAt, addr)]
    entries := r.entries.insert addr { expiresAt, heapIndex := r.expiry.length } }

def record (r : RecentProbes) (addr : SocketAddr) (expiresAt : Instant) : Except Panic RecentProbes :=
  match r.entries.get addr with
  | some entry => .ok { r with entries := r.entries.insert addr { entry with expiresAt } }
  | none => do
      let r ← r.makeRoom
      if r.expiry.length ≥ isizeMax then .error .capacityOverflow
      else (r.pushed addr expiresAt).siftUp r.expiry.length

def remove (r : RecentProbes) (addr : SocketAddr) : Except Panic RecentProbes :=
  match r.entries.get addr with
  | some entry => r.removeAt entry.heapIndex
  | none => .ok r

def hasDue (r : RecentProbes) (now : Instant) : Bool :=
  r.expiry.head?.any fun check => check.checkAt ≤ now

/-- One round of `expire`, with the number of endpoints dropped so far: a due endpoint is dropped, or moved
behind if it was probed again. -/
def expireStep (now : Instant) (x : RecentProbes × ℕ) :
    Except Panic (ForInStep (RecentProbes × ℕ)) :=
  let (r, removed) := x
  match r.expiry.head? with
  | none => .ok (.done (r, removed))
  | some check =>
    if check.checkAt > now then .ok (.done (r, removed))
    else do
      let entry ← unwrap (r.entries.get check.addr)
      if entry.expiresAt ≤ now then
        let r ← r.removeAt 0
        .ok (.yield (r, removed + 1))
      else
        let r ← { r with expiry := r.expiry.set 0 (toLex (entry.expiresAt, check.addr)) }.siftDown 0
        .ok (.yield (r, removed))

def expire (r : RecentProbes) (now : Instant) : Except Panic (RecentProbes × ℕ) :=
  Loop.run (expireStep now) 256 (r, 0)

end RecentProbes

end DhtCrawler
