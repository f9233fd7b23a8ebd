import DhtCrawler.ReservoirModel

/-! The stratified sample that the reservoir publishes, `ResponsiveReservoir::snapshot`. -/

namespace DhtCrawler

/-- A queue of slots; only its ends are its own, the links between them are shared. -/
structure SnapshotSlots where
  head : ℕ
  tail : ℕ
  len : ℕ

namespace SnapshotSlots

def empty : SnapshotSlots := ⟨usizeMax, usizeMax, 0⟩

def setLink (links : List ℕ) (slot next : ℕ) : Except Panic (List ℕ) :=
  if slot < links.length then .ok (links.set slot next) else .error .unwrap

def linkTail (q : SnapshotSlots) (slot : ℕ) (links : List ℕ) : Except Panic (SnapshotSlots × List ℕ) :=
  if q.len = 0 then .ok ({ q with head := slot }, links)
  else do
    let links ← setLink links q.tail slot
    .ok (q, links)

def pushBack (q : SnapshotSlots) (slot : ℕ) (links : List ℕ) :
    Except Panic (SnapshotSlots × List ℕ) := do
  let links ← setLink links slot usizeMax
  let (q, links) ← q.linkTail slot links
  .ok ({ q with tail := slot, len := q.len + 1 }, links)

def popFront (q : SnapshotSlots) (links : List ℕ) : Except Panic (SnapshotSlots × Option ℕ) :=
  if q.len = 0 then .ok (q, none)
  else do
    let next ← unwrap links[q.head]?
    .ok ({ q with head := next, len := q.len - 1 }, some q.head)

/-- The loop of `rotate_left`: both ends move along the closed ring. -/
def advance (links : List ℕ) : ℕ → SnapshotSlots → Except Panic SnapshotSlots
  | 0, q => .ok q
  | n + 1, q => do
      let next ← unwrap links[q.head]?
      advance links n { q with tail := q.head, head := next }

def rotateLeft (q : SnapshotSlots) (count : ℕ) (links : List ℕ) :
    Except Panic (SnapshotSlots × List ℕ) :=
  if count = 0 then .ok (q, links)
  else do
    let links ← setLink links q.tail q.head
    let q ← advance links count q
    let links ← setLink links q.tail usizeMax
    .ok (q, links)

end SnapshotSlots

def ResponsiveEntry.eligible (e : ResponsiveEntry) (now : Instant) : Bool :=
  e.expiresAt > now && e.blockedUntil.all fun deadline => deadline ≤ now

def NodeTuple.firstByte (node : NodeTuple) : Fin 256 := ⟨node.id[0].toNat, node.id[0].toNat_lt⟩

/-- The local variables of `snapshot` while it selects nodes. -/
structure Selection where
  links : List ℕ
  groups : Fin 256 → SnapshotSlots
  deferred : Fin 256 → SnapshotSlots
  active : List (Fin 256)
  subnets : Finset SubnetKey
  output : List NodeTuple
  selected : Fin 256 → ℕ

def Selection.start (links : List ℕ) (groups : Fin 256 → SnapshotSlots) : Selection where
  links := links
  groups := groups
  deferred := fun _ => .empty
  active := []
  subnets := ∅
  output := []
  selected := fun _ => 0

namespace ResponsiveReservoir

open SnapshotSlots Function

def resize (links : List ℕ) (len value : ℕ) : List ℕ :=
  links.take len ++ List.replicate (len - links.length) value

/-- One slot goes to the group of its node's first byte, if the node is eligible. -/
def collectStep (now : Instant) (x : List ℕ × (Fin 256 → SnapshotSlots))
    (s : Option ResponsiveEntry × ℕ) : Except Panic (List ℕ × (Fin 256 → SnapshotSlots)) :=
  let (links, groups) := x
  match s with
  | (none, _) => .ok (links, groups)
  | (some e, slot) =>
    if e.eligible now then do
      let p := e.node.firstByte
      let (group, links) ← (groups p).pushBack slot links
      .ok (links, update groups p group)
    else .ok (links, groups)

def collect (r : ResponsiveReservoir) (now : Instant) :
    Except Panic (List ℕ × (Fin 256 → SnapshotSlots)) :=
  r.slots.zipIdx.foldlM (collectStep now)
    (resize r.snapshotLinks r.slots.length usizeMax, fun _ => .empty)

def rotateStep (cursors counts : Fin 256 → ℕ) (x : List ℕ × (Fin 256 → SnapshotSlots)) (p : Fin 256) :
    Except Panic (List ℕ × (Fin 256 → SnapshotSlots)) :=
  let (links, groups) := x
  if 0 < counts p then do
    let (group, links) ← (groups p).rotateLeft (cursors p % counts p) links
    .ok (links, update groups p group)
  else .ok (links, groups)

def publish (st : Selection) (p : Fin 256) (node : NodeTuple) : Selection :=
  { st with
    output := st.output ++ [node]
    selected := update st.selected p (st.selected p + 1)
    subnets := insert (SubnetKey.fromAddr node.addr) st.subnets }

def requeue (st : Selection) (p : Fin 256) : Selection :=
  if 0 < (st.groups p).len then { st with active := st.active ++ [p] } else st

def seed (r : ResponsiveReservoir) (limit : ℕ) (st : Selection) (p : Fin 256) :
    Except Panic Selection :=
  if st.output.length < limit then do
    let (group, slot) ← (st.groups p).popFront st.links
    let st := { st with groups := update st.groups p group }
    match slot with
    | none => .ok st
    | some slot => do
        let e ← unwrap (r.entry slot)
        .ok (publish st p e.node)
  else .ok st

def seedStep (r : ResponsiveReservoir) (limit : ℕ) (st : Selection) (p : Fin 256) :
    Except Panic Selection := do
  let st ← r.seed limit st p
  .ok (requeue st p)

/-- One slot of the group whose turn it is: published if its subnet is new, deferred otherwise. -/
def scanStep (r : ResponsiveReservoir) (p : Fin 256) (st : Selection) :
    Except Panic (ForInStep Selection) := do
  let (group, slot) ← (st.groups p).popFront st.links
  let st := { st with groups := update st.groups p group }
  match slot with
  | none => .ok (.done st)
  | some slot => do
      let e ← unwrap (r.entry slot)
      if SubnetKey.fromAddr e.node.addr ∉ st.subnets then .ok (.done (publish st p e.node))
      else do
        let (d, links) ← (st.deferred p).pushBack slot st.links
        .ok (.yield { st with deferred := update st.deferred p d, links })

def fillStep (r : ResponsiveReservoir) (limit : ℕ) (st : Selection) :
    Except Panic (ForInStep Selection) :=
  if st.output.length < limit then
    match st.active with
    | [] => .ok (.done st)
    | p :: active => do
        let st ← Loop.run (r.scanStep p) ((st.groups p).len + 1) { st with active }
        .ok (.yield (requeue st p))
  else .ok (.done st)

/-- One turn of the third pass: a deferred slot is published after all. -/
def relaxStep (r : ResponsiveReservoir) (limit : ℕ) (st : Selection) :
    Except Panic (ForInStep Selection) :=
  if st.output.length < limit then
    match st.active with
    | [] => .ok (.done st)
    | p :: active => do
        let (d, slot) ← (st.deferred p).popFront st.links
        let slot ← unwrap slot
        let e ← unwrap (r.entry slot)
        let active := if 0 < d.len then active ++ [p] else active
        .ok (.yield { st with
          deferred := update st.deferred p d
          active := active
          output := st.output ++ [e.node]
          selected := update st.selected p (st.selected p + 1) })
  else .ok (.done st)

def queuedSlots (queues : Fin 256 → SnapshotSlots) : ℕ := (idPrefixes.map fun p => (queues p).len).sum

def relax (r : ResponsiveReservoir) (limit : ℕ) (order : List (Fin 256)) (st : Selection) :
    Except Panic Selection :=
  if st.output.length < limit then
    Loop.run (r.relaxStep limit) (queuedSlots st.deferred + 1)
      { st with active := st.active ++ order.filter fun p => 0 < (st.deferred p).len }
  else .ok st

def select (r : ResponsiveReservoir) (limit : ℕ) (order : List (Fin 256)) (links : List ℕ)
    (groups : Fin 256 → SnapshotSlots) : Except Panic Selection := do
  let st ← order.foldlM (r.seedStep limit) (.start links groups)
  let st ← Loop.run (r.fillStep limit) (queuedSlots st.groups + 1) st
  r.relax limit order st

def cursorStep (selected counts : Fin 256 → ℕ) (cursors : Fin 256 → ℕ) (p : Fin 256) :
    Except Panic (Fin 256 → ℕ) :=
  if 0 < selected p then
    if counts p = 0 then .error .arithmetic
    else .ok (update cursors p ((cursors p + 1) % counts p))
  else .ok cursors

def snapshot (r : ResponsiveReservoir) (limit : ℕ) (now : Instant) :
    Except Panic (ResponsiveReservoir × List NodeTuple) := do
  let collected ← r.collect now
  let counts := fun p => (collected.2 p).len
  let minimum ← unwrap (idPrefixes.map counts).min?
  let (links, groups) ← idPrefixes.foldlM (rotateStep r.snapshotMemberCursors counts) collected
  let represented := idPrefixes.filter fun p => 0 < counts p
  let limit := min limit (idPrefixes.map counts).sum
  let order := represented.rotate (r.snapshotPrefixCursor % represented.length)
  let st ← r.select limit order links groups
  let cursors ← idPrefixes.foldlM (cursorStep st.selected counts) r.snapshotMemberCursors
  .ok ({ r with
    snapshotLinks := st.links
    sparsePrefixes := idPrefixes.filter fun p => counts p = minimum
    snapshotMemberCursors := cursors
    snapshotPrefixCursor := (r.snapshotPrefixCursor + 1) % max order.length 1 }, st.output)

end ResponsiveReservoir

end DhtCrawler
