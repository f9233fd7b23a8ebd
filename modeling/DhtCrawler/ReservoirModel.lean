import DhtCrawler.BaseTypes
import DhtCrawler.LibFiniteMap
import DhtCrawler.LibOutcome

/-! The responsive reservoir of `node_pool.rs`: a ring of slots for nodes that answered. -/

namespace DhtCrawler

/-- The due instant of a revisit, a sequence number and the slot, compared in that order. -/
abbrev RevisitKey := Instant ×ₗ ℕ ×ₗ ℕ

namespace RevisitKey

def dueAt (key : RevisitKey) : Instant := (ofLex key).1

def slot (key : RevisitKey) : ℕ := (ofLex (ofLex key).2).2

def of (dueAt : Instant) (sequence slot : ℕ) : RevisitKey := toLex (dueAt, toLex (sequence, slot))

end RevisitKey

structure ResponsiveEntry where
  node : NodeTuple
  expiresAt : Instant
  lastProbeAt : Instant
  lastSuccessAt : Instant
  failures : ℕ
  blockedUntil : Option Instant
  revisitKey : Option RevisitKey
  ready : Bool
  previous : Option ℕ
  next : Option ℕ

structure ResponsiveReservoir where
  slots : List (Option ResponsiveEntry)
  index : FiniteMap SocketAddr ℕ
  writeCursor : ℕ
  revisits : Finset RevisitKey
  revisitSequence : ℕ
  readyHead : Option ℕ
  readyTail : Option ℕ
  readyLen : ℕ
  ttl : Duration
  revisitInterval : Duration
  snapshotPrefixCursor : ℕ
  snapshotMemberCursors : Fin 256 → ℕ
  sparsePrefixes : List (Fin 256)
  snapshotLinks : List ℕ

def idPrefixes : List (Fin 256) := List.finRange 256

lemma mem_idPrefixes (p : Fin 256) : p ∈ idPrefixes := List.mem_finRange p

lemma idPrefixes_ne_nil : idPrefixes ≠ [] := by
  have hmem : (0 : Fin 256) ∈ idPrefixes := mem_idPrefixes 0
  exact List.ne_nil_of_mem hmem

namespace ResponsiveReservoir

def new (capacity : ℕ) (ttl revisitInterval : Duration) : ResponsiveReservoir where
  slots := List.replicate (max capacity 1) none
  index := .empty
  writeCursor := 0
  revisits := ∅
  revisitSequence := 0
  readyHead := none
  readyTail := none
  readyLen := 0
  ttl := ttl
  revisitInterval := revisitInterval
  snapshotPrefixCursor := 0
  snapshotMemberCursors := fun _ => 0
  sparsePrefixes := idPrefixes
  snapshotLinks := []

/-- The entry of a slot, if the slot exists and is occupied. -/
def entry (r : ResponsiveReservoir) (slot : ℕ) : Option ResponsiveEntry := r.slots[slot]?.join

def setEntry (r : ResponsiveReservoir) (slot : ℕ) (e : ResponsiveEntry) : ResponsiveReservoir :=
  { r with slots := r.slots.set slot (some e) }

/-- An update through `slots[slot].as_mut().unwrap()`. -/
def modifyAt (r : ResponsiveReservoir) (slot : ℕ) (f : ResponsiveEntry → ResponsiveEntry) :
    Except Panic ResponsiveReservoir := do
  let e ← unwrap (r.entry slot)
  .ok (r.setEntry slot (f e))

/-! ### The schedule -/

/-- What follows `previous` in the ready list; without a predecessor, the head. -/
def setNext (r : ResponsiveReservoir) (previous next : Option ℕ) : Except Panic ResponsiveReservoir :=
  match previous with
  | some previous => r.modifyAt previous fun e => { e with next }
  | none => .ok { r with readyHead := next }

/-- What precedes `next` in the ready list; without a successor, the tail. -/
def setPrevious (r : ResponsiveReservoir) (next previous : Option ℕ) :
    Except Panic ResponsiveReservoir :=
  match next with
  | some next => r.modifyAt next fun e => { e with previous }
  | none => .ok { r with readyTail := previous }

def unlink (r : ResponsiveReservoir) (e : ResponsiveEntry) : Except Panic ResponsiveReservoir := do
  let r ← r.setNext e.previous e.next
  let r ← r.setPrevious e.next e.previous
  if r.readyLen = 0 then .error .arithmetic else .ok { r with readyLen := r.readyLen - 1 }

def unlinkIfReady (r : ResponsiveReservoir) (e : ResponsiveEntry) : Except Panic ResponsiveReservoir :=
  if e.ready then r.unlink e else .ok r

def dropRevisit (r : ResponsiveReservoir) (key : Option RevisitKey) : ResponsiveReservoir :=
  match key with
  | some key => { r with revisits := r.revisits.erase key }
  | none => r

def unschedule (r : ResponsiveReservoir) (slot : ℕ) : Except Panic ResponsiveReservoir := do
  let e ← unwrap (r.entry slot)
  let r ← (r.dropRevisit e.revisitKey).unlinkIfReady e
  r.modifyAt slot fun e => { e with ready := false, previous := none, next := none, revisitKey := none }

def pushReady (r : ResponsiveReservoir) (slot : ℕ) : Except Panic ResponsiveReservoir := do
  let tail := r.readyTail
  let r ← r.modifyAt slot fun e => { e with ready := true, previous := tail, next := none }
  let r ← r.setNext tail (some slot)
  .ok { r with readyTail := some slot, readyLen := r.readyLen + 1 }

/-- A blocked endpoint does not become due before its backoff ends. -/
def dueInstant (e : ResponsiveEntry) (when : Instant) : Instant :=
  match e.blockedUntil with
  | some blocked => max when blocked
  | none => when

def enqueueRevisit (r : ResponsiveReservoir) (slot : ℕ) (when now : Instant) :
    Except Panic ResponsiveReservoir := do
  let r ← r.unschedule slot
  let e ← unwrap (r.entry slot)
  let when := dueInstant e when
  if when ≤ now then r.pushReady slot
  else
    let key := RevisitKey.of when r.revisitSequence slot
    let r := { r with revisitSequence := wrappingSucc r.revisitSequence }
    let r ← r.modifyAt slot fun e => { e with revisitKey := some key }
    .ok { r with revisits := insert key r.revisits }

/-! ### Operations -/

/-- The entry after a reply: the endpoint lives on, and failures are forgiven. -/
def repliedEntry (r : ResponsiveReservoir) (e : ResponsiveEntry) (node : NodeTuple) (now : Instant) :
    ResponsiveEntry :=
  let e := { e with node, expiresAt := now + r.ttl, lastSuccessAt := now }
  if e.failures > 0 then { e with failures := 0, blockedUntil := none } else e

def freshEntry (r : ResponsiveReservoir) (node : NodeTuple) (now probedAt : Instant) :
    ResponsiveEntry where
  node := node
  expiresAt := now + r.ttl
  lastProbeAt := probedAt
  lastSuccessAt := now
  failures := 0
  blockedUntil := none
  revisitKey := none
  ready := false
  previous := none
  next := none

/-- Takes the node under the write cursor, if there is one, out of the reservoir. -/
def clearSlot (r : ResponsiveReservoir) (slot : ℕ) : Except Panic ResponsiveReservoir := do
  match ← unwrap r.slots[slot]? with
  | some old =>
    let r ← r.unschedule slot
    .ok { r with index := r.index.erase old.node.addr }
  | none => .ok r

def record (r : ResponsiveReservoir) (node : NodeTuple) (now probedAt : Instant) :
    Except Panic ResponsiveReservoir :=
  match r.index.get node.addr with
  | some slot => do
      let e ← unwrap (r.entry slot)
      let r := r.setEntry slot (r.repliedEntry e node now)
      if e.failures > 0 then r.enqueueRevisit slot (e.lastProbeAt + r.revisitInterval) now else .ok r
  | none => do
      let slot := r.writeCursor
      let r ← r.clearSlot slot
      let r := r.setEntry slot (r.freshEntry node now probedAt)
      let r := { r with index := r.index.insert node.addr slot }
      let r ← r.enqueueRevisit slot (probedAt + r.revisitInterval) now
      .ok { r with writeCursor := (r.writeCursor + 1) % r.slots.length }

/-- One round of the first loop of `next_revisit`: a due endpoint becomes ready. -/
def promoteStep (now : Instant) (r : ResponsiveReservoir) :
    Except Panic (ForInStep ResponsiveReservoir) :=
  match r.revisits.least with
  | none => .ok (.done r)
  | some key =>
    if key.dueAt > now then .ok (.done r)
    else do
      let r := { r with revisits := r.revisits.erase key }
      let r ← r.modifyAt key.slot fun e => { e with revisitKey := none }
      let r ← r.pushReady key.slot
      .ok (.yield r)

/-- One round of the second loop: the head of the ready list is reserved, or dropped if its lifetime is over. -/
def reserveStep (now : Instant) (x : ResponsiveReservoir × Option NodeTuple) :
    Except Panic (ForInStep (ResponsiveReservoir × Option NodeTuple)) :=
  let (r, _) := x
  match r.readyHead with
  | none => .ok (.done (r, none))
  | some slot => do
      let r ← r.unschedule slot
      let e ← unwrap (r.entry slot)
      if e.expiresAt ≤ now then
        .ok (.yield ({ r with index := r.index.erase e.node.addr, slots := r.slots.set slot none }, none))
      else .ok (.done (r, some e.node))

/-- Reserves one eligible node: it is taken off the schedule until the caller puts it back. -/
def nextRevisit (r : ResponsiveReservoir) (now : Instant) :
    Except Panic (ResponsiveReservoir × Option NodeTuple) := do
  let r ← Loop.run (promoteStep now) 256 r
  Loop.run (reserveStep now) 256 (r, none)

def recordProbe (r : ResponsiveReservoir) (addr : SocketAddr) (now : Instant) :
    Except Panic ResponsiveReservoir :=
  match r.index.get addr with
  | none => .ok r
  | some slot => do
      let r ← r.modifyAt slot fun e => { e with lastProbeAt := now }
      r.enqueueRevisit slot (now + r.revisitInterval) now

def deferRevisit (r : ResponsiveReservoir) (addr : SocketAddr) (retryAt now : Instant) :
    Except Panic ResponsiveReservoir :=
  match r.index.get addr with
  | none => .ok r
  | some slot => do
      let e ← unwrap (r.entry slot)
      r.enqueueRevisit slot (max retryAt (e.lastProbeAt + r.revisitInterval)) now

/-- The entry after a failed probe: the backoff doubles from five seconds up to a minute. -/
def failedEntry (e : ResponsiveEntry) (now : Instant) : ResponsiveEntry :=
  let failures := min (e.failures + 1) 5
  { e with
    failures
    blockedUntil := some (now + secs (min (5 * 2 ^ (failures - 1)) 60)) }

/-- A failed probe, unless the endpoint answered after it was sent; tells whether it counted. -/
def recordFailure (r : ResponsiveReservoir) (addr : SocketAddr) (dispatchedAt now : Instant) :
    Except Panic (ResponsiveReservoir × Bool) :=
  match r.index.get addr with
  | none => .ok (r, false)
  | some slot => do
      let e ← unwrap (r.entry slot)
      if e.lastSuccessAt > dispatchedAt then .ok (r, false)
      else
        let e := failedEntry e now
        let r := r.setEntry slot e
        let blocked ← unwrap e.blockedUntil
        let r ← r.enqueueRevisit slot (max (e.lastProbeAt + r.revisitInterval) blocked) now
        .ok (r, true)

def isBackingOff (r : ResponsiveReservoir) (addr : SocketAddr) (now : Instant) :
    Except Panic Bool :=
  match r.index.get addr with
  | none => .ok false
  | some slot => do
      let e ← unwrap r.slots[slot]?
      .ok ((e.bind ResponsiveEntry.blockedUntil).any fun deadline => deadline > now)

end ResponsiveReservoir

end DhtCrawler
