import Mathlib.Data.List.GetD
import DhtCrawler.KrpcEncoders

/-! What a receiver reads from the messages of `krpc.rs`. -/

namespace DhtCrawler

open Bencode

variable {size : ℕ} {ipv6 : Bool}

/-! ### Fields of a dictionary -/

def bytesField (entries : List (List UInt8 × Bencode)) (key : String) : Option (Option (List UInt8)) :=
  match entries.lookup (ascii key) with
  | none => some none
  | some (.bytes content) => some (some content)
  | some _ => none

def stringItem : Bencode → Option (List UInt8)
  | .bytes content => some content
  | _ => none

def stringsField (entries : List (List UInt8 × Bencode)) (key : String) :
    Option (Option (List (List UInt8))) :=
  match entries.lookup (ascii key) with
  | none => some none
  | some (.list items) => (items.mapM stringItem).map some
  | some _ => none

def natField (entries : List (List UInt8 × Bencode)) (key : String) : Option (Option ℕ) :=
  match entries.lookup (ascii key) with
  | none => some none
  | some (.int n) => if 0 ≤ n ∧ n < 2 ^ 64 then some (some n.toNat) else none
  | some _ => none

def DhtResponse.ofEntries (entries : List (List UInt8 × Bencode)) : Option DhtResponse := do
  let id ← bytesField entries "id"
  let nodes ← bytesField entries "nodes"
  let nodes6 ← bytesField entries "nodes6"
  let values ← stringsField entries "values"
  let samples ← bytesField entries "samples"
  let interval ← natField entries "interval"
  let num ← natField entries "num"
  some { id, nodes, nodes6, values, samples, interval, num }

def decodedResponse (bytes : List UInt8) : Option DhtResponse := do
  match ← parse bytes with
  | .dict entries =>
    match ← entries.lookup (ascii "r") with
    | .dict response => DhtResponse.ofEntries response
    | _ => none
  | _ => none

def sentResponse (nodeId : NodeId) (nodes : List NodeTuple) (ipv6 : Bool) : DhtResponse :=
  let compact := nodes.flatMap (compactEntry ipv6)
  { id := some nodeId.toList
    nodes := if ipv6 = false ∧ compact ≠ [] then some compact else none
    nodes6 := if ipv6 = true ∧ compact ≠ [] then some compact else none
    values := none
    samples := none
    interval := none
    num := none }

lemma ofEntries_responseEntries (nodeId : NodeId) (token : Vector UInt8 8) (nodes : List NodeTuple)
    (ipv6 : Bool) :
    DhtResponse.ofEntries (responseEntries nodeId token nodes ipv6) = some (sentResponse nodeId nodes ipv6) := by
  unfold responseEntries nodesEntry sentResponse
  split_ifs with hempty hv6
  · simp only [hempty, ne_eq, not_true_eq_false, and_false, if_false]
    rfl
  · subst hv6
    simp only [ne_eq, hempty]
    rfl
  · rw [Bool.not_eq_true] at hv6
    subst hv6
    simp only [ne_eq, hempty]
    rfl

/-! ### Compact nodes -/

lemma bytesAt_append {n : ℕ} (front back : List UInt8) (v : Vector UInt8 n) :
    bytesAt n (front ++ v.toList ++ back) front.length = v := by
  refine Vector.ext fun i hi => ?_
  have hlt : i < v.toList.length := by rwa [Vector.length_toList]
  rw [bytesAt_getElem _ _ hi, List.append_assoc, List.getD_append_right _ _ _ _ (Nat.le_add_right _ _),
    Nat.add_sub_cancel_left, List.getD_append _ _ _ _ hlt, List.getD_eq_getElem _ _ hlt, Vector.getElem_toList]

lemma portAt_append (front : List UInt8) (port : UInt16) :
    portAt (front ++ portBytes port) front.length = port := by
  have hhigh : port.toNat / 256 < 256 := by
    have hport := port.toNat_lt
    omega
  have hlow : port.toNat % 256 < 256 := Nat.mod_lt _ (by decide)
  unfold portAt portBytes
  rw [List.getD_append_right _ _ _ _ (le_refl _), List.getD_append_right _ _ _ _ (Nat.le_add_right _ 1),
    Nat.sub_self, Nat.add_sub_cancel_left]
  simp only [List.getD_cons_zero, List.getD_cons_succ]
  rw [UInt8.toNat_ofNat_of_lt' hhigh, UInt8.toNat_ofNat_of_lt' hlow, Nat.div_add_mod', UInt16.ofNat_toNat]

lemma chunksExact_cons (hsize : 0 < size) {chunk : List UInt8} (hlen : chunk.length = size)
    (rest : List UInt8) : chunksExact size (chunk ++ rest) = chunk :: chunksExact size rest := by
  unfold chunksExact
  rw [List.length_append, hlen, Nat.add_div_left _ hsize, List.range_succ_eq_map, List.map_cons, List.map_map,
    Nat.zero_mul, List.drop_zero, ← hlen, List.take_left]
  refine congrArg (chunk :: ·) (List.map_congr_left fun i _ => ?_)
  show ((chunk ++ rest).drop ((i + 1) * chunk.length)).take chunk.length = _
  rw [Nat.succ_mul, Nat.add_comm, ← List.drop_drop, List.drop_left]

lemma chunksExact_flatMap {α : Type} (hsize : 0 < size) {f : α → List UInt8} {xs : List α}
    (hlen : ∀ x ∈ xs, (f x).length = size) : chunksExact size (xs.flatMap f) = xs.map f := by
  induction xs with
  | nil =>
    unfold chunksExact
    rw [List.flatMap_nil, List.length_nil, Nat.zero_div, List.range_zero]
    rfl
  | cons x xs ih =>
    rw [List.flatMap_cons, chunksExact_cons hsize (hlen x List.mem_cons_self),
      ih fun y hy => hlen y (List.mem_cons_of_mem x hy), List.map_cons]

def SocketAddr.unscoped : SocketAddr → SocketAddr
  | .v4 ip port => .v4 ip port
  | .v6 ip port _ _ => .v6 ip port 0 0

def NodeTuple.unscoped (node : NodeTuple) : NodeTuple := ⟨node.id, node.addr.unscoped⟩

lemma isValidNodeAddr_unscoped (addr : SocketAddr) : isValidNodeAddr addr.unscoped = isValidNodeAddr addr := by
  cases addr
  · rfl
  · rfl

def compactDecoder (ipv6 : Bool) : List UInt8 → NodeTuple := if ipv6 then compactV6 else compactV4

lemma entry_parts {n : ℕ} (id : NodeId) (ip : Vector UInt8 n) (port : UInt16) :
    bytesAt 20 (id.toList ++ ip.toList ++ portBytes port) 0 = id ∧
      bytesAt n (id.toList ++ ip.toList ++ portBytes port) 20 = ip ∧
      portAt (id.toList ++ ip.toList ++ portBytes port) (20 + n) = port := by
  have hid := bytesAt_append [] (ip.toList ++ portBytes port) id
  have hip := bytesAt_append id.toList (portBytes port) ip
  have hport := portAt_append (id.toList ++ ip.toList) port
  rw [List.nil_append, ← List.append_assoc, List.length_nil] at hid
  rw [Vector.length_toList] at hip
  rw [List.length_append, Vector.length_toList, Vector.length_toList] at hport
  exact ⟨hid, hip, hport⟩

lemma compactDecoder_entry {node : NodeTuple} (h : (node.addr.isIpv6 == ipv6) = true) :
    compactDecoder ipv6 (compactEntry ipv6 node) = node.unscoped := by
  obtain ⟨id, addr⟩ := node
  cases addr with
  | v4 ip port =>
    obtain rfl : false = ipv6 := beq_iff_eq.mp h
    obtain ⟨hid, hip, hport⟩ := entry_parts id ip port
    show compactV4 (id.toList ++ ip.toList ++ portBytes port) = _
    unfold compactV4
    rw [hid, hip, hport]
    rfl
  | v6 ip port flowinfo scopeId =>
    obtain rfl : true = ipv6 := beq_iff_eq.mp h
    obtain ⟨hid, hip, hport⟩ := entry_parts id ip port
    show compactV6 (id.toList ++ ip.toList ++ portBytes port) = _
    unfold compactV6
    rw [hid, hip, hport]
    rfl

lemma flatMap_compactEntry (nodes : List NodeTuple) (ipv6 : Bool) :
    nodes.flatMap (compactEntry ipv6) =
      (nodes.filter fun node => node.addr.isIpv6 == ipv6).flatMap (compactEntry ipv6) := by
  induction nodes with
  | nil => rfl
  | cons node nodes ih =>
    have hlen := length_compactEntry ipv6 node
    rw [List.flatMap_cons, ih, List.filter_cons]
    split_ifs at hlen ⊢
    · rw [List.flatMap_cons]
    · rw [List.length_eq_zero_iff.mp hlen, List.nil_append]

lemma compactNodes_flatMap (nodes : List NodeTuple) (ipv6 : Bool) :
    compactNodes (entrySize ipv6) (compactDecoder ipv6) (some (nodes.flatMap (compactEntry ipv6))) =
      (nodes.filter fun node => node.addr.isIpv6 == ipv6 && isValidNodeAddr node.addr).map
        NodeTuple.unscoped := by
  have hsize : 0 < entrySize ipv6 := by
    cases ipv6
    · decide
    · decide
  have hmod : (nodes.flatMap (compactEntry ipv6)).length % entrySize ipv6 = 0 := by
    rw [length_compact, Nat.mul_mod_left]
  have hfamily : ∀ node ∈ nodes.filter (fun node => node.addr.isIpv6 == ipv6),
      (node.addr.isIpv6 == ipv6) = true := fun node hnode => (List.mem_filter.mp hnode).2
  have hchunks : chunksExact (entrySize ipv6)
      ((nodes.filter fun node => node.addr.isIpv6 == ipv6).flatMap (compactEntry ipv6)) =
        (nodes.filter fun node => node.addr.isIpv6 == ipv6).map (compactEntry ipv6) := by
    refine chunksExact_flatMap hsize fun node hnode => ?_
    rw [length_compactEntry, if_pos (hfamily node hnode)]
  have hdecode : ((nodes.filter fun node => node.addr.isIpv6 == ipv6).map (compactEntry ipv6)).map
      (compactDecoder ipv6) = (nodes.filter fun node => node.addr.isIpv6 == ipv6).map NodeTuple.unscoped := by
    rw [List.map_map]
    exact List.map_congr_left fun node hnode => compactDecoder_entry (hfamily node hnode)
  unfold compactNodes
  dsimp only
  rw [if_pos hmod, flatMap_compactEntry, hchunks, hdecode, List.filter_map, List.filter_filter]
  congr 1
  refine List.filter_congr fun node _ => ?_
  show (isValidNodeAddr node.addr.unscoped && (node.addr.isIpv6 == ipv6)) = _
  rw [isValidNodeAddr_unscoped, Bool.and_comm]

/-! ### Messages -/

def NetMode.Admits (netmode : NetMode) (ipv6 : Bool) : Prop :=
  if ipv6 then netmode ≠ .ipv4Only else netmode ≠ .ipv6Only

lemma compactNodes_nonempty (size : ℕ) (decode : List UInt8 → NodeTuple) (compact : List UInt8) :
    compactNodes size decode (if compact ≠ [] then some compact else none) =
      compactNodes size decode (some compact) := by
  split_ifs with hempty
  · rfl
  · rw [not_not.mp hempty]
    unfold compactNodes chunksExact
    simp

lemma responseNodes_sent (nodeId : NodeId) (nodes : List NodeTuple) {netmode : NetMode}
    (h : netmode.Admits ipv6) :
    responseNodes (sentResponse nodeId nodes ipv6) netmode =
      (nodes.filter fun node => node.addr.isIpv6 == ipv6 && isValidNodeAddr node.addr).map
        NodeTuple.unscoped := by
  have hnodes := compactNodes_flatMap nodes ipv6
  rw [← compactNodes_nonempty] at hnodes
  have hnone : ∀ size decode, compactNodes size decode none = [] := fun _ _ => rfl
  unfold responseNodes
  cases ipv6 with
  | false =>
    have hv4 : netmode ≠ .ipv6Only := h
    have hother : (sentResponse nodeId nodes false).nodes6 = none := by
      simp only [sentResponse, Bool.false_eq_true, false_and, if_false]
    have hsent : (sentResponse nodeId nodes false).nodes =
        if nodes.flatMap (compactEntry false) ≠ [] then some (nodes.flatMap (compactEntry false))
        else none := by
      simp only [sentResponse, true_and]
    rw [if_pos hv4, hother, hnone, ite_self, List.append_nil, hsent, ← hnodes]
    rfl
  | true =>
    have hv6 : netmode ≠ .ipv4Only := h
    have hother : (sentResponse nodeId nodes true).nodes = none := by
      simp only [sentResponse, Bool.true_eq_false, false_and, if_false]
    have hsent : (sentResponse nodeId nodes true).nodes6 =
        if nodes.flatMap (compactEntry true) ≠ [] then some (nodes.flatMap (compactEntry true))
        else none := by
      simp only [sentResponse, true_and]
    rw [if_pos hv6, hother, hnone, ite_self, List.nil_append, hsent, ← hnodes]
    rfl

structure Encodes (bytes : List UInt8) (message : Bencode) : Prop where
  canonical : bytes = message.encode
  ascending : message.Ascending
  parsed : parse bytes = some message

lemma encodes_of_eq {bytes : List UInt8} {message : Bencode} (heq : bytes = message.encode)
    (hasc : message.Ascending) : Encodes bytes message := by
  subst heq
  exact ⟨rfl, hasc, parse_encode hasc⟩

lemma decodedResponse_encode (tid : List UInt8) (nodeId : NodeId) (token : Vector UInt8 8)
    (nodes : List NodeTuple) (ipv6 : Bool) :
    decodedResponse (responseMessage tid nodeId token nodes ipv6).encode =
      some (sentResponse nodeId nodes ipv6) := by
  unfold decodedResponse
  rw [parse_encode (responseMessage_ascending tid nodeId token nodes ipv6)]
  exact ofEntries_responseEntries nodeId token nodes ipv6

/-- Every encoder writes the canonical form of a dictionary with its arguments, which is read back as it was. -/
theorem krpc_round_trip (tid : Vector UInt8 8) (senderId target infoHash nodeId : NodeId)
    (responseTid : Slice UInt8 1) (token : Vector UInt8 8) (nodes : Slice NodeTuple 38) (ipv6 : Bool) :
    Encodes (encodeFindNodeQuery tid target senderId) (queryMessage "target" "find_node" tid target senderId) ∧
    Encodes (encodeGetPeersQuery tid infoHash senderId)
      (queryMessage "info_hash" "get_peers" tid infoHash senderId) ∧
    Encodes (encodeSampleInfohashesQuery tid target senderId)
      (queryMessage "target" "sample_infohashes" tid target senderId) ∧
    ∃ bytes, encodeResponse responseTid.elems nodeId token nodes.elems ipv6 = .ok bytes ∧
      Encodes bytes (responseMessage responseTid.elems nodeId token nodes.elems ipv6) ∧
      ∃ response, decodedResponse bytes = some response ∧ response.id = some nodeId.toList ∧
        ∀ netmode : NetMode, netmode.Admits ipv6 → responseNodes response netmode =
          (nodes.elems.filter fun node => node.addr.isIpv6 == ipv6 && isValidNodeAddr node.addr).map
            NodeTuple.unscoped := by
  refine ⟨?_, ?_, ?_, _, encodeResponse_eq responseTid nodeId token nodes ipv6,
    encodes_of_eq rfl (responseMessage_ascending _ _ _ _ _), sentResponse nodeId nodes.elems ipv6,
    decodedResponse_encode _ _ _ _ _, rfl, fun netmode h => responseNodes_sent nodeId nodes.elems h⟩
  · exact encodes_of_eq (encodeQuery_eq tid target senderId (by decide) (by decide))
      (queryMessage_ascending (by decide) _ _ _ _)
  · exact encodes_of_eq (encodeQuery_eq tid infoHash senderId (by decide) (by decide))
      (queryMessage_ascending (by decide) _ _ _ _)
  · exact encodes_of_eq (encodeQuery_eq tid target senderId (by decide) (by decide))
      (queryMessage_ascending (by decide) _ _ _ _)

end DhtCrawler
