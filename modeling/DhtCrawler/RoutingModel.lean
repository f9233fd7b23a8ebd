import DhtCrawler.BaseTypes
import DhtCrawler.LibBigEndian
import DhtCrawler.LibOutcome

/-! The routing snapshot of `routing_snapshot.rs`: per address family a path-compressed trie over the sorted
ids, kept as a vector of branches. -/

set_option linter.constructorNameAsVariable false

namespace DhtCrawler

inductive PrefixBranch where
  | leaf (start stop : ℕ)
  | split (bit zero one : ℕ)
  deriving DecidableEq, Repr

structure PrefixIndex where
  nodes : List NodeTuple
  branches : List PrefixBranch
  root : Option ℕ

/-- `&xs[start..stop]`. -/
def slice {α : Type} (xs : List α) (start stop : ℕ) : Except Panic (List α) :=
  if start ≤ stop ∧ stop ≤ xs.length then .ok ((xs.drop start).take (stop - start))
  else .error .unwrap

/-- `n - 1` on a `usize`. -/
def checkedPred : ℕ → Except Panic ℕ
  | 0 => .error .arithmetic
  | n + 1 => .ok n

/-- `sort_unstable_by`, for a comparison under which only equal elements compare equal. -/
def sortUnstableBy {α : Type} (cmp : α → α → Ordering) (xs : List α) : List α :=
  xs.mergeSort fun a b => (cmp a b).isLE

/-- `partition_point`, for a slice in which the elements that pass come first. -/
def partitionPoint {α : Type} (test : α → Bool) (xs : List α) : ℕ := (xs.takeWhile test).length

/-- `u8::leading_zeros`. -/
def leadingZeros (byte : UInt8) : ℕ := if byte = 0 then 8 else 7 - byte.toNat.log2

/-- `byte & (1 << (7 - bit % 8)) == 0`. -/
def bitClear (byte : UInt8) (bit : ℕ) : Bool := byte &&& (1 <<< UInt8.ofNat (7 - bit % 8)) == 0

/-- The byte of an id; positions come from ids of the same length. -/
def byteAt (id : NodeId) (byte : ℕ) : UInt8 := id.toList.getD byte 0

/-- `xor_distance_cmp` on the bytes that are left. -/
def xorCmp : List UInt8 → List UInt8 → List UInt8 → Ordering
  | left :: lefts, right :: rights, target :: targets =>
    match compare (left ^^^ target) (right ^^^ target) with
    | .eq => xorCmp lefts rights targets
    | ordering => ordering
  | _, _, _ => .eq

def xorDistanceCmp (left right target : NodeId) : Ordering :=
  xorCmp left.toList right.toList target.toList

namespace PrefixIndex

def idAddrCmp (left right : NodeTuple) : Ordering :=
  (BigEndian.cmp left.id.toList right.id.toList).then (compare left.addr right.addr)

def differingByte (first last : NodeId) : Option ℕ :=
  (first.toList.zip last.toList).findIdx? fun pair => pair.1 != pair.2

def build (nodes : List NodeTuple) :
    ℕ → ℕ → ℕ → List PrefixBranch → Except Panic (List PrefixBranch × ℕ)
  | 0, _, _, _ => .error .unwrap
  | fuel + 1, start, stop, branches => do
      let first ← unwrap nodes[start]?
      let position ← checkedPred stop
      let last ← unwrap nodes[position]?
      match differingByte first.id last.id with
      | some byte => do
          let bit := byte * 8 + leadingZeros (byteAt first.id byte ^^^ byteAt last.id byte)
          let range ← slice nodes start stop
          let middle := start + partitionPoint (fun node => bitClear (byteAt node.id byte) bit) range
          let (branches, zero) ← build nodes fuel start middle branches
          let (branches, one) ← build nodes fuel middle stop branches
          .ok (branches ++ [.split bit zero one], branches.length)
      | none => .ok (branches ++ [.leaf start stop], branches.length)

def empty : PrefixIndex := ⟨[], [], none⟩

def new (nodes : List NodeTuple) : Except Panic PrefixIndex :=
  let nodes := sortUnstableBy idAddrCmp nodes
  if nodes.isEmpty then .ok ⟨nodes, [], none⟩
  else do
    let (branches, root) ← build nodes nodes.length 0 nodes.length []
    .ok ⟨nodes, branches, some root⟩

/-- The walk appends to the output and counts the branches it looked at. -/
def visit (index : PrefixIndex) (target : NodeId) (limit : ℕ) :
    ℕ → ℕ → List NodeTuple → Except Panic (List NodeTuple × ℕ)
  | 0, _, _ => .error .unwrap
  | fuel + 1, branch, output =>
    if output.length ≥ limit then .ok (output, 0)
    else do
      match ← unwrap index.branches[branch]? with
      | .leaf start stop => do
          let found ← slice index.nodes start (min stop (start + limit - output.length))
          .ok (output ++ found, 1)
      | .split bit zero one => do
          let byte ← unwrap target.toList[bit / 8]?
          let (near, far) := if bitClear byte bit then (zero, one) else (one, zero)
          let (output, nearVisits) ← visit index target limit fuel near output
          let (output, farVisits) ← visit index target limit fuel far output
          .ok (output, 1 + nearVisits + farVisits)

/-- Branches are pushed after the ones below them, so the walk goes down to smaller positions. -/
def appendNearest (index : PrefixIndex) (target : NodeId) (count : ℕ) (output : List NodeTuple) :
    Except Panic (List NodeTuple × ℕ) :=
  match index.root with
  | none => .ok (output, 0)
  | some root =>
    let limit := output.length + min count index.nodes.length
    index.visit target limit (root + 1) root output

end PrefixIndex

structure RoutingSnapshot where
  v4 : PrefixIndex
  v6 : PrefixIndex

namespace RoutingSnapshot

def fromNodes (nodes : List NodeTuple) (limit : ℕ) : Except Panic RoutingSnapshot :=
  let nodes := nodes.take limit
  let v6Count := nodes.countP fun node => node.addr.isIpv6
  if v6Count = 0 then do
    let v4 ← PrefixIndex.new nodes
    .ok ⟨v4, .empty⟩
  else if v6Count = nodes.length then do
    let v6 ← PrefixIndex.new nodes
    .ok ⟨.empty, v6⟩
  else do
    let v4 ← PrefixIndex.new (nodes.filter fun node => !node.addr.isIpv6)
    let v6 ← PrefixIndex.new (nodes.filter fun node => node.addr.isIpv6)
    .ok ⟨v4, v6⟩

def closestCmp (target : NodeId) (left right : NodeTuple) : Ordering :=
  (xorDistanceCmp left.id right.id target).then (compare left.addr right.addr)

def closestNodes (snapshot : RoutingSnapshot) (target : NodeId) (count : ℕ) (filterIpv6 : Option Bool) :
    Except Panic (List NodeTuple) :=
  if count = 0 then .ok []
  else
    match filterIpv6 with
    | some true => do
        let (nodes, _) ← snapshot.v6.appendNearest target count []
        .ok nodes
    | some false => do
        let (nodes, _) ← snapshot.v4.appendNearest target count []
        .ok nodes
    | none => do
        let (nodes, _) ← snapshot.v4.appendNearest target count []
        let (nodes, _) ← snapshot.v6.appendNearest target count nodes
        .ok ((sortUnstableBy (closestCmp target) nodes).take count)

end RoutingSnapshot

end DhtCrawler
