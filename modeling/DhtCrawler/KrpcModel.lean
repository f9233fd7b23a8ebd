import DhtCrawler.BaseTypes

/-! Responses and the compact nodes and peers in them, from `protocol.rs` and `krpc.rs`. -/

namespace DhtCrawler

structure DhtResponse where
  id : Option (List UInt8)
  nodes : Option (List UInt8)
  nodes6 : Option (List UInt8)
  values : Option (List (List UInt8))
  samples : Option (List UInt8)
  interval : Option ℕ
  num : Option ℕ

/-- A byte array of known length, read from a position of a buffer that is long enough. -/
def bytesAt (n : ℕ) (bytes : List UInt8) (start : ℕ) : Vector UInt8 n :=
  Vector.ofFn fun i => bytes.getD (start + i) 0

lemma bytesAt_getElem {k : ℕ} (bytes : List UInt8) (first : ℕ) {i : ℕ} (hi : i < k) :
    (bytesAt k bytes first)[i] = bytes.getD (first + i) 0 := by
  unfold bytesAt
  rw [Vector.getElem_ofFn]

lemma bytesAt_toList (n : ℕ) (v : Vector UInt8 n) : bytesAt n v.toList 0 = v := by
  refine Vector.ext fun i hi => ?_
  rw [bytesAt_getElem _ _ hi, Nat.zero_add, List.getD_eq_getElem?_getD,
    List.getElem?_eq_getElem (by rwa [Vector.length_toList]), Option.getD_some, Vector.getElem_toList]

def portAt (bytes : List UInt8) (start : ℕ) : UInt16 :=
  UInt16.ofNat ((bytes.getD start 0).toNat * 256 + (bytes.getD (start + 1) 0).toNat)

/-- `<[u8; 20]>::try_from`. -/
def nodeIdOf (bytes : List UInt8) : Option NodeId :=
  if bytes.length = 20 then some (bytesAt 20 bytes 0) else none

lemma nodeIdOf_toList (hash : NodeId) : nodeIdOf hash.toList = some hash := by
  unfold nodeIdOf
  rw [if_pos hash.length_toList, bytesAt_toList]

def chunksExact (size : ℕ) (bytes : List UInt8) : List (List UInt8) :=
  (List.range (bytes.length / size)).map fun i => (bytes.drop (i * size)).take size

def compactV4 (chunk : List UInt8) : NodeTuple where
  id := bytesAt 20 chunk 0
  addr := .v4 (bytesAt 4 chunk 20) (portAt chunk 24)

def compactV6 (chunk : List UInt8) : NodeTuple where
  id := bytesAt 20 chunk 0
  addr := .v6 (bytesAt 16 chunk 20) (portAt chunk 36) 0 0

/-- One compact list: ignored unless its length is a multiple of the entry size. -/
def compactNodes (size : ℕ) (decode : List UInt8 → NodeTuple) (field : Option (List UInt8)) :
    List NodeTuple :=
  match field with
  | none => []
  | some bytes =>
    if bytes.length % size = 0 then
      ((chunksExact size bytes).map decode).filter fun node => isValidNodeAddr node.addr
    else []

/-- The nodes visited by `for_each_response_node`. -/
def responseNodes (response : DhtResponse) (netmode : NetMode) : List NodeTuple :=
  (if netmode ≠ .ipv6Only then compactNodes 26 compactV4 response.nodes else []) ++
    if netmode ≠ .ipv4Only then compactNodes 38 compactV6 response.nodes6 else []

/-- A compact peer; entries of another length are passed over. -/
def compactPeer (bytes : List UInt8) : Option SocketAddr :=
  match bytes.length with
  | 6 => some (.v4 (bytesAt 4 bytes 0) (portAt bytes 4))
  | 18 => some (.v6 (bytesAt 16 bytes 0) (portAt bytes 16) 0 0)
  | _ => none

/-- The peers visited by `for_each_response_peer`. -/
def responsePeers (response : DhtResponse) (netmode : NetMode) : List SocketAddr :=
  ((response.values.getD []).filterMap compactPeer).filter fun addr =>
    addrAllowedByNetmode addr netmode && isValidNodeAddr addr

end DhtCrawler
