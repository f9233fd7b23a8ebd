import DhtCrawler.KrpcModel
import DhtCrawler.LibBencode
import DhtCrawler.LibOutcome

/-! The encoders of `krpc.rs`, which fill templates of bytes: what they write is the canonical bencoding of a
dictionary with their arguments. -/

namespace DhtCrawler

open Bencode
open List (append_assoc cons_append map_cons map_nil nil_append)

variable {value : ℕ} {argument : String}

/-- The elements of a slice, each of at least `size` bytes: together they never occupy more than `isize::MAX`
bytes. -/
structure Slice (α : Type) (size : ℕ) where
  elems : List α
  fits : elems.length * size ≤ isizeMax

/-! ### Encoders -/

/-- The template of all queries: `header` announces the argument, and `trailer` names the method. -/
def encodeQuery (header trailer : String) (tid : Vector UInt8 8) (argument senderId : NodeId) :
    List UInt8 :=
  ascii "d1:ad2:id20:" ++ senderId.toList ++ ascii header ++ argument.toList ++ ascii trailer ++ tid.toList ++
    ascii "1:y1:qe"

def encodeFindNodeQuery (tid : Vector UInt8 8) (target senderId : NodeId) : List UInt8 :=
  encodeQuery "6:target20:" "e1:q9:find_node1:t8:" tid target senderId

def encodeGetPeersQuery (tid : Vector UInt8 8) (infoHash senderId : NodeId) : List UInt8 :=
  encodeQuery "9:info_hash20:" "e1:q9:get_peers1:t8:" tid infoHash senderId

def encodeSampleInfohashesQuery (tid : Vector UInt8 8) (target senderId : NodeId) : List UInt8 :=
  encodeQuery "6:target20:" "e1:q17:sample_infohashes1:t8:" tid target senderId

/-- The loop of `push_usize`, which fills its buffer from the end; `cursor` counts the places in front of the
digits. -/
def pushDigits : ℕ → ℕ → List UInt8 → Except Panic (List UInt8)
  | 0, _, _ => .error .arithmetic
  | cursor + 1, value, digits =>
    let digits := (Char.toUInt8 '0' + UInt8.ofNat (value % 10)) :: digits
    if value / 10 = 0 then .ok digits else pushDigits cursor (value / 10) digits

def pushUsize (value : ℕ) : Except Panic (List UInt8) := pushDigits 20 value []

def mulUsize (a b : ℕ) : Except Panic ℕ := if a * b ≤ usizeMax then .ok (a * b) else .error .arithmetic

def portBytes (port : UInt16) : List UInt8 := [UInt8.ofNat (port.toNat / 256), UInt8.ofNat (port.toNat % 256)]

/-- What one node adds to the compact list of a family: nothing if it is of the other one. -/
def compactEntry (ipv6 : Bool) (node : NodeTuple) : List UInt8 :=
  match node.addr with
  | .v4 ip port => if ipv6 then [] else node.id.toList ++ ip.toList ++ portBytes port
  | .v6 ip port _ _ => if ipv6 then node.id.toList ++ ip.toList ++ portBytes port else []

/-- The length of the compact nodes of a family, as `encode_response` announces it. -/
def compactLen (nodes : List NodeTuple) (ipv6 : Bool) : Except Panic ℕ :=
  if ipv6 then mulUsize (nodes.countP fun node => node.addr.isIpv6) 38
  else mulUsize (nodes.countP fun node => node.addr.isIpv4) 26

/-- The entry of the compact nodes, which is left out if no node is of the family. -/
def encodeNodes (nodes : List NodeTuple) (ipv6 : Bool) : Except Panic (List UInt8) := do
  let len ← compactLen nodes ipv6
  if len > 0 then do
    let digits ← pushUsize len
    .ok ((if ipv6 then ascii "6:nodes6" else ascii "5:nodes") ++ digits ++ ascii ":" ++
      nodes.flatMap (compactEntry ipv6))
  else .ok []

def encodeResponse (tid : List UInt8) (nodeId : NodeId) (token : Vector UInt8 8) (nodes : List NodeTuple)
    (ipv6 : Bool) : Except Panic (List UInt8) := do
  let compact ← encodeNodes nodes ipv6
  let digits ← pushUsize tid.length
  .ok (ascii "d1:rd2:id20:" ++ nodeId.toList ++ compact ++ ascii "5:token8:" ++ token.toList ++ ascii "e1:t" ++
    digits ++ ascii ":" ++ tid ++ ascii "1:y1:re")

/-! ### Messages -/

def queryMessage (argument method : String) (tid : Vector UInt8 8) (value senderId : NodeId) : Bencode :=
  .dict [(ascii "a", .dict [(ascii "id", .bytes senderId.toList), (ascii argument, .bytes value.toList)]),
    (ascii "q", .bytes (ascii method)), (ascii "t", .bytes tid.toList), (ascii "y", .bytes (ascii "q"))]

def nodesEntry (nodes : List NodeTuple) (ipv6 : Bool) : List (List UInt8 × Bencode) :=
  if nodes.flatMap (compactEntry ipv6) = [] then []
  else [(if ipv6 then ascii "nodes6" else ascii "nodes", .bytes (nodes.flatMap (compactEntry ipv6)))]

def responseEntries (nodeId : NodeId) (token : Vector UInt8 8) (nodes : List NodeTuple) (ipv6 : Bool) :
    List (List UInt8 × Bencode) :=
  (ascii "id", .bytes nodeId.toList) :: (nodesEntry nodes ipv6 ++ [(ascii "token", .bytes token.toList)])

def responseMessage (tid : List UInt8) (nodeId : NodeId) (token : Vector UInt8 8) (nodes : List NodeTuple)
    (ipv6 : Bool) : Bencode :=
  .dict [(ascii "r", .dict (responseEntries nodeId token nodes ipv6)), (ascii "t", .bytes tid),
    (ascii "y", .bytes (ascii "r"))]

/-! ### Lengths -/

lemma pushDigits_eq {cursor : ℕ} (hvalue : value < 10 ^ cursor) (hcursor : 0 < cursor)
    (digits : List UInt8) : pushDigits cursor value digits = .ok (decimal value ++ digits) := by
  induction cursor generalizing value digits with
  | zero => exact absurd hcursor (lt_irrefl 0)
  | succ cursor ih =>
    unfold pushDigits
    split_ifs with hlast
    · have hsmall : value < 10 := by omega
      rw [decimal_of_lt hsmall, Nat.mod_eq_of_lt hsmall]
      rfl
    · have hrest : value / 10 < 10 ^ cursor := by
        rw [pow_succ] at hvalue
        omega
      have hpos : 0 < cursor := by
        refine Nat.pos_of_ne_zero fun hzero => hlast ?_
        rw [hzero] at hrest
        omega
      rw [ih hrest hpos, decimal_div hlast, append_assoc]
      rfl

lemma pushUsize_eq (h : value ≤ usizeMax) : pushUsize value = .ok (decimal value) := by
  have hlt : value < 10 ^ 20 := h.trans_lt (by decide)
  unfold pushUsize
  rw [pushDigits_eq hlt (by decide), List.append_nil]

lemma encodeBytes_vector {n : ℕ} (v : Vector UInt8 n) :
    encodeBytes v.toList = decimal n ++ Char.toUInt8 ':' :: v.toList := by
  unfold encodeBytes
  rw [Vector.length_toList]

def entrySize (ipv6 : Bool) : ℕ := if ipv6 then 38 else 26

lemma length_compactEntry (ipv6 : Bool) (node : NodeTuple) :
    (compactEntry ipv6 node).length = if node.addr.isIpv6 == ipv6 then entrySize ipv6 else 0 := by
  obtain ⟨id, addr⟩ := node
  cases addr with
  | v4 ip port =>
    cases ipv6
    · simp [compactEntry, portBytes, SocketAddr.isIpv6, entrySize]
    · simp [compactEntry, SocketAddr.isIpv6]
  | v6 ip port flowinfo scopeId =>
    cases ipv6
    · simp [compactEntry, SocketAddr.isIpv6]
    · simp [compactEntry, portBytes, SocketAddr.isIpv6, entrySize]

lemma length_compact (nodes : List NodeTuple) (ipv6 : Bool) :
    (nodes.flatMap (compactEntry ipv6)).length =
      nodes.countP (fun node => node.addr.isIpv6 == ipv6) * entrySize ipv6 := by
  induction nodes with
  | nil => simp
  | cons node nodes ih =>
    rw [List.flatMap_cons, List.length_append, ih, length_compactEntry, List.countP_cons, Nat.add_mul]
    split_ifs
    · rw [Nat.one_mul, Nat.add_comm]
    · rw [Nat.zero_mul, Nat.zero_add, Nat.add_zero]

lemma compactLen_eq (nodes : Slice NodeTuple 38) (ipv6 : Bool) :
    compactLen nodes.elems ipv6 = .ok (nodes.elems.flatMap (compactEntry ipv6)).length ∧
      (nodes.elems.flatMap (compactEntry ipv6)).length ≤ usizeMax := by
  have hcount := List.countP_le_length (p := fun node : NodeTuple => node.addr.isIpv6 == ipv6) (l := nodes.elems)
  have hsize : entrySize ipv6 ≤ 38 := by
    cases ipv6
    · decide
    · decide
  have hle : (nodes.elems.flatMap (compactEntry ipv6)).length ≤ usizeMax := by
    rw [length_compact]
    calc _ ≤ nodes.elems.length * 38 := Nat.mul_le_mul hcount hsize
      _ ≤ isizeMax := nodes.fits
      _ ≤ usizeMax := by decide
  refine ⟨?_, hle⟩
  unfold compactLen
  rw [length_compact] at hle ⊢
  have hfamily : ∀ node : NodeTuple, (node.addr.isIpv6 == false) = node.addr.isIpv4 := by
    rintro ⟨id, addr⟩
    cases addr
    · rfl
    · rfl
  cases ipv6 with
  | false =>
    simp only [hfamily] at hle ⊢
    exact if_pos hle
  | true =>
    simp only [beq_true] at hle ⊢
    exact if_pos hle

/-! ### What the encoders write -/

lemma encodeNodes_eq (nodes : Slice NodeTuple 38) (ipv6 : Bool) :
    encodeNodes nodes.elems ipv6 =
      .ok ((nodesEntry nodes.elems ipv6).flatMap fun entry => encodeBytes entry.1 ++ entry.2.encode) := by
  obtain ⟨hlen, hle⟩ := compactLen_eq nodes ipv6
  have hkey : (if ipv6 then ascii "6:nodes6" else ascii "5:nodes") =
      encodeBytes (if ipv6 then ascii "nodes6" else ascii "nodes") := by
    cases ipv6
    · decide
    · decide
  unfold encodeNodes nodesEntry
  rw [hlen, Except.ok_bind]
  by_cases hempty : nodes.elems.flatMap (compactEntry ipv6) = []
  · rw [if_pos hempty, hempty]
    rfl
  · rw [if_neg hempty, if_pos (List.length_pos_iff.mpr hempty), pushUsize_eq hle, Except.ok_bind, hkey,
      List.flatMap_singleton, encode]
    unfold encodeBytes
    simp only [append_assoc, cons_append]
    rfl

lemma encodeResponse_eq (tid : Slice UInt8 1) (nodeId : NodeId) (token : Vector UInt8 8)
    (nodes : Slice NodeTuple 38) (ipv6 : Bool) :
    encodeResponse tid.elems nodeId token nodes.elems ipv6 =
      .ok (responseMessage tid.elems nodeId token nodes.elems ipv6).encode := by
  have htid : tid.elems.length ≤ usizeMax := by
    have hfits := tid.fits
    rw [Nat.mul_one] at hfits
    exact hfits.trans (by decide)
  have hstart : ascii "d1:rd2:id20:" = [Char.toUInt8 'd'] ++ encodeBytes (ascii "r") ++ [Char.toUInt8 'd'] ++
      encodeBytes (ascii "id") ++ decimal 20 ++ [Char.toUInt8 ':'] := by decide
  have htoken : ascii "5:token8:" = encodeBytes (ascii "token") ++ decimal 8 ++ [Char.toUInt8 ':'] := by decide
  have hend : ascii "e1:t" = [Char.toUInt8 'e'] ++ encodeBytes (ascii "t") := by decide
  have hkind : ascii "1:y1:re" = encodeBytes (ascii "y") ++ encodeBytes (ascii "r") ++ [Char.toUInt8 'e'] := by
    decide
  have hcolon : ascii ":" = [Char.toUInt8 ':'] := by decide
  have hstring : encodeBytes tid.elems = decimal tid.elems.length ++ Char.toUInt8 ':' :: tid.elems := rfl
  unfold encodeResponse
  rw [encodeNodes_eq, Except.ok_bind, pushUsize_eq htid, Except.ok_bind, hstart, htoken, hend, hkind, hcolon]
  unfold responseMessage responseEntries
  simp only [encode, encodeEntries, encodeEntries_append, encodeBytes_vector, append_assoc,
    cons_append, nil_append]
  rw [hstring]
  simp only [append_assoc, cons_append]

lemma encodeQuery_eq {header trailer method : String} (tid : Vector UInt8 8) (value senderId : NodeId)
    (hheader : ascii header = encodeBytes (ascii argument) ++ decimal 20 ++ [Char.toUInt8 ':'])
    (htrailer : ascii trailer = [Char.toUInt8 'e'] ++ encodeBytes (ascii "q") ++ encodeBytes (ascii method) ++ encodeBytes (ascii "t") ++ decimal 8 ++ [Char.toUInt8 ':']) :
    encodeQuery header trailer tid value senderId = (queryMessage argument method tid value senderId).encode := by
  have hstart : ascii "d1:ad2:id20:" = [Char.toUInt8 'd'] ++ encodeBytes (ascii "a") ++ [Char.toUInt8 'd'] ++
      encodeBytes (ascii "id") ++ decimal 20 ++ [Char.toUInt8 ':'] := by decide
  have hkind : ascii "1:y1:qe" = encodeBytes (ascii "y") ++ encodeBytes (ascii "q") ++ [Char.toUInt8 'e'] := by
    decide
  unfold encodeQuery queryMessage
  rw [hheader, htrailer, hstart, hkind]
  simp only [encode, encodeEntries, encodeBytes_vector, append_assoc, cons_append, nil_append]

/-! ### Canonical messages -/

lemma queryMessage_ascending (hkey : ascii "id" < ascii argument) (method : String)
    (tid : Vector UInt8 8) (value senderId : NodeId) :
    (queryMessage argument method tid value senderId).Ascending := by
  have hargs : [ascii "id", ascii argument].Pairwise (· < ·) := List.pairwise_pair.mpr hkey
  have hkeys : [ascii "a", ascii "q", ascii "t", ascii "y"].Pairwise (· < ·) := by decide
  unfold queryMessage
  simp only [Ascending, AscendingEntries, map_cons, map_nil, and_true]
  exact ⟨hkeys, hargs⟩

lemma responseMessage_ascending (tid : List UInt8) (nodeId : NodeId) (token : Vector UInt8 8)
    (nodes : List NodeTuple) (ipv6 : Bool) : (responseMessage tid nodeId token nodes ipv6).Ascending := by
  have hkeys : [ascii "r", ascii "t", ascii "y"].Pairwise (· < ·) := by decide
  have hentries : ((responseEntries nodeId token nodes ipv6).map Prod.fst).Pairwise (· < ·) ∧
      AscendingEntries (responseEntries nodeId token nodes ipv6) := by
    unfold responseEntries nodesEntry
    split_ifs
    · simp only [AscendingEntries, Ascending, nil_append, map_cons, map_nil, and_true]
      decide
    · simp only [AscendingEntries, Ascending, List.singleton_append, map_cons, map_nil, and_true]
      decide
    · simp only [AscendingEntries, Ascending, List.singleton_append, map_cons, map_nil, and_true]
      decide
  unfold responseMessage
  simp only [Ascending, AscendingEntries, map_cons, map_nil, and_true]
  exact ⟨hkeys, hentries⟩

end DhtCrawler
