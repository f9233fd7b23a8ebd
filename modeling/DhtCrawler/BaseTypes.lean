import Mathlib.Algebra.GroupWithZero.Nat
import Mathlib.Algebra.Order.Group.Nat
import Mathlib.Data.List.Lex
import Mathlib.Data.Prod.Lex
import Mathlib.Data.UInt
import Mathlib.Order.Lattice.Nat

/-! The data the components of the crawler exchange: instants, endpoints, node tuples and discovered hashes,
with the address filters of `addr.rs`. -/

namespace DhtCrawler

variable {n : ℕ}

abbrev Instant := ℕ

abbrev Duration := ℕ

def secs (n : ℕ) : Duration := n * 1000000000

def millis (n : ℕ) : Duration := n * 1000000

def asSecs (d : Duration) : ℕ := d / 1000000000

@[simp]
lemma asSecs_secs (n : ℕ) : asSecs (secs n) = n := Nat.mul_div_cancel n (by decide)

/-- The ways a modelled function can abort: an `unwrap`, `expect` or index that finds nothing, an arithmetic
result outside its type, a vector asked to outgrow the address space, and an assertion that fails. -/
inductive Panic where
  | unwrap
  | arithmetic
  | capacityOverflow
  | assertion
  deriving DecidableEq, Repr

/-- `unwrap`, `expect` and indexing. -/
def unwrap {α : Type} (x : Option α) : Except Panic α :=
  match x with
  | some a => .ok a
  | none => .error .unwrap

@[simp]
lemma unwrap_some {α : Type} (a : α) : unwrap (some a) = .ok a := rfl

/-- `Vec::swap_remove`: the last element takes the place of the one that is removed. -/
def swapRemove {α : Type} (xs : List α) (index : ℕ) : Except Panic (α × List α) := do
  let removed ← unwrap xs[index]?
  let last ← unwrap xs.getLast?
  .ok (removed, (xs.set index last).dropLast)

/-- A vector never holds more than `isize::MAX` bytes, so never more elements than that. -/
def isizeMax : ℕ := 2 ^ 63 - 1

def usizeMax : ℕ := 2 ^ 64 - 1

/-- The successor of a `u64` counter under `wrapping_add`. -/
def wrappingSucc (n : ℕ) : ℕ := (n + 1) % 2 ^ 64

lemma wrappingSucc_of_lt (h : n + 1 < 2 ^ 64) : wrappingSucc n = n + 1 := Nat.mod_eq_of_lt h

def divCeil (n d : ℕ) : ℕ := (n + d - 1) / d

/-! ### Endpoints -/

abbrev Ipv4Addr := Vector UInt8 4

abbrev Ipv6Addr := Vector UInt8 16

abbrev NodeId := Vector UInt8 20

inductive SocketAddr where
  | v4 (ip : Ipv4Addr) (port : UInt16)
  | v6 (ip : Ipv6Addr) (port : UInt16) (flowinfo scopeId : UInt32)
  deriving DecidableEq, Repr

/-- Bytes as numbers, for the lexicographic order of byte arrays. -/
def byteValues {n : ℕ} (bytes : Vector UInt8 n) : List ℕ := bytes.toList.map UInt8.toNat

lemma byteValues_injective : Function.Injective (byteValues (n := n)) := by
  intro a b h
  have hlist := List.map_injective_iff.mpr (fun _ _ => UInt8.toNat_inj.mp) h
  exact Vector.toList_inj.mp hlist

namespace SocketAddr

def isIpv4 : SocketAddr → Bool
  | v4 .. => true
  | v6 .. => false

def isIpv6 : SocketAddr → Bool
  | v4 .. => false
  | v6 .. => true

def port : SocketAddr → UInt16
  | v4 _ p => p
  | v6 _ p _ _ => p

/-- The derived order of `SocketAddr`: family, then address, then port, then flow and scope. -/
def sortKey : SocketAddr → ℕ ×ₗ List ℕ ×ₗ ℕ ×ₗ ℕ ×ₗ ℕ
  | v4 ip port => toLex (0, toLex (byteValues ip, toLex (port.toNat, toLex (0, 0))))
  | v6 ip port flowinfo scopeId =>
    toLex (1, toLex (byteValues ip, toLex (port.toNat, toLex (flowinfo.toNat, scopeId.toNat))))

lemma sortKey_injective : Function.Injective sortKey := by
  intro a b h
  cases a <;> cases b <;>
    simp only [sortKey, toLex_inj, Prod.mk.injEq, UInt16.toNat_inj, UInt32.toNat_inj] at h
  · obtain ⟨_, hip, hport, _⟩ := h
    rw [byteValues_injective hip, hport]
  · exact absurd h.1 (by decide)
  · exact absurd h.1 (by decide)
  · obtain ⟨_, hip, hport, hflow, hscope⟩ := h
    rw [byteValues_injective hip, hport, hflow, hscope]

instance : LinearOrder SocketAddr where
  le a b := a.sortKey ≤ b.sortKey
  lt a b := a.sortKey < b.sortKey
  le_refl a := le_refl a.sortKey
  le_trans a b c := le_trans (a := a.sortKey)
  lt_iff_le_not_ge a b := lt_iff_le_not_ge (a := a.sortKey)
  le_antisymm a b hab hba := sortKey_injective (le_antisymm hab hba)
  le_total a b := le_total a.sortKey b.sortKey
  toDecidableLE a b := inferInstanceAs (Decidable (a.sortKey ≤ b.sortKey))
  toDecidableLT a b := inferInstanceAs (Decidable (a.sortKey < b.sortKey))
  toDecidableEq := inferInstance

end SocketAddr

structure NodeTuple where
  id : NodeId
  addr : SocketAddr
  deriving DecidableEq, Repr

inductive NetMode where
  | ipv4Only
  | ipv6Only
  | dualStack
  deriving DecidableEq, Repr

def addrAllowedByNetmode (addr : SocketAddr) : NetMode → Bool
  | .ipv4Only => addr.isIpv4
  | .ipv6Only => addr.isIpv6
  | .dualStack => true

namespace Ipv4

variable (ip : Ipv4Addr)

def isUnspecified : Bool := ip == #v[0, 0, 0, 0]

def isLoopback : Bool := ip[0] == 127

def isPrivate : Bool :=
  ip[0] == 10 || (ip[0] == 172 && ip[1] ≥ 16 && ip[1] ≤ 31) || (ip[0] == 192 && ip[1] == 168)

def isLinkLocal : Bool := ip[0] == 169 && ip[1] == 254

def isMulticast : Bool := ip[0] ≥ 224 && ip[0] ≤ 239

def isBroadcast : Bool := ip == #v[255, 255, 255, 255]

def isDocumentation : Bool :=
  (ip[0] == 192 && ip[1] == 0 && ip[2] == 2) || (ip[0] == 198 && ip[1] == 51 && ip[2] == 100) ||
    (ip[0] == 203 && ip[1] == 0 && ip[2] == 113)

end Ipv4

def isValidIpv4NodeAddr (ip : Ipv4Addr) : Bool :=
  let isCgnat := ip[0] == 100 && (ip[1] &&& 0b11000000) == 64
  let isBenchmark := ip[0] == 198 && (ip[1] == 18 || ip[1] == 19)
  let isReserved := decide (ip[0] ≥ 240)
  !Ipv4.isUnspecified ip && !Ipv4.isLoopback ip && !Ipv4.isPrivate ip && !Ipv4.isLinkLocal ip &&
    !Ipv4.isMulticast ip && !Ipv4.isBroadcast ip && !Ipv4.isDocumentation ip && !isCgnat &&
    !isBenchmark && !isReserved

def isValidIpv6NodeAddr (ip : Ipv6Addr) : Bool :=
  let isUnspecified := ip == #v[0, 0, 0, 0, 0, 0, 0, 0, 0, 0, 0, 0, 0, 0, 0, 0]
  let isLoopback := ip == #v[0, 0, 0, 0, 0, 0, 0, 0, 0, 0, 0, 0, 0, 0, 0, 1]
  let isMulticast := ip[0] == 255
  let isUniqueLocal := (ip[0] &&& 0xfe) == 0xfc
  let isUnicastLinkLocal := ip[0] == 0xfe && (ip[1] &&& 0xc0) == 0x80
  let isDocumentation := ip[0] == 0x20 && ip[1] == 0x01 && ip[2] == 0x0d && ip[3] == 0xb8
  !isUnspecified && !isLoopback && !isMulticast && !isUniqueLocal && !isUnicastLinkLocal &&
    !isDocumentation

def isValidNodeAddr (addr : SocketAddr) : Bool :=
  if addr.port = 0 then false
  else
    match addr with
    | .v4 ip _ => isValidIpv4NodeAddr ip
    | .v6 ip _ _ _ => isValidIpv6NodeAddr ip

def exampleAddr (octet : UInt8) : SocketAddr := .v4 #v[8, 8, 8, octet] 6881

example : isValidNodeAddr (exampleAddr 8) = true ∧
    isValidNodeAddr (.v4 #v[10, 0, 0, 1] 6881) = false := by decide

/-- The `/24` of an IPv4 endpoint or the `/64` of an IPv6 endpoint. -/
inductive SubnetKey where
  | v4 (octets : Vector UInt8 3)
  | v6 (octets : Vector UInt8 8)
  deriving DecidableEq, Repr

def SubnetKey.fromAddr : SocketAddr → SubnetKey
  | .v4 ip _ => .v4 #v[ip[0], ip[1], ip[2]]
  | .v6 ip _ _ _ => .v6 #v[ip[0], ip[1], ip[2], ip[3], ip[4], ip[5], ip[6], ip[7]]

/-- Eight transaction id bytes, read as a big-endian number. -/
abbrev TransactionId := ℕ

/-- The big-endian bytes of a counter with the first byte replaced by a tag. -/
def taggedTid (tag counter : ℕ) : TransactionId := tag * 2 ^ 56 + counter % 2 ^ 56

lemma taggedTid_ne {tag m : ℕ} (hpos : 1 ≤ n) (hlt : n < m) (hle : m ≤ 2 ^ 56) :
    taggedTid tag m ≠ taggedTid tag n := by
  intro h
  have hmod : tag * 2 ^ 56 + m % 2 ^ 56 = tag * 2 ^ 56 + n % 2 ^ 56 := h
  omega

/-! ### Discovered hashes -/

def hexDigit (n : ℕ) : Char := Char.ofNat (if n < 10 then 48 + n else 87 + n)

/-- `hex::encode`. -/
def hexEncode (bytes : List UInt8) : String :=
  String.ofList (bytes.flatMap fun byte => [hexDigit (byte.toNat / 16), hexDigit (byte.toNat % 16)])

example : hexEncode [0x0a, 0xf3] = "0af3" := by decide

inductive HashSource where
  | announce
  | getPeers
  | sample
  deriving DecidableEq, Repr

structure HashDiscovered where
  infoHash : String
  peerAddr : Option SocketAddr
  sourceNode : Option NodeTuple
  source : HashSource
  discoveredAt : Instant
  deriving DecidableEq, Repr

/-- An event for a sample run: the announcement of a peer, or a hash from a sample if no peer is given. -/
def exampleEvent (infoHash : String) (peerAddr : Option SocketAddr) (discoveredAt : Instant) :
    HashDiscovered where
  infoHash := infoHash
  peerAddr := peerAddr
  sourceNode := none
  source := if peerAddr.isSome then .announce else .sample
  discoveredAt := discoveredAt

end DhtCrawler
