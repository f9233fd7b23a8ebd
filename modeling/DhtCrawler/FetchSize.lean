import Mathlib.Algebra.Order.BigOperators.Group.List
import Mathlib.Data.List.Infix
import DhtCrawler.FetchModel

/-! The size of fetched metadata. The loop compares the announced size with the limit once, when it requests the
pieces; a later handshake changes the size again, no test is made if the peer names no id for the requests, and
the length of a piece is never tested. What is fetched is therefore described by what the peer sent: the state
of the loop is a function of the messages read, and the bytes are the last block sent for each of the pieces
that the last announced size asks for. -/

namespace DhtCrawler

open FiniteMap List Option ExtensionHandshake RbitFetcher

variable {pieces : ℕ → Option Bytes} {sent joined : Bool} {message : Message} {indices : List ℕ}
  {arrivals : List Arrival} {n : ℕ}

/-! ### What a peer has said -/

namespace Arrival

def announcedSize : Arrival → Option ℕ
  | .message (.extended id payload) _ _ =>
    if id = 0 then (payload.handshake.bind metadataSize).map truncateU32 else none
  | _ => none

def announcedId : Arrival → Option ℕ
  | .message (.extended id payload) _ _ =>
    if id = 0 then payload.handshake.bind utMetadataId else none
  | _ => none

/-- What a data message brings for a piece. -/
def block (piece : ℕ) : Arrival → Option Bytes
  | .message (.extended id payload) _ _ =>
    if id = myUtMetadataId then
      payload.metadata.bind fun message =>
        if message.msgType = .data ∧ message.piece = piece then message.data else none
    else none
  | _ => none

end Arrival

namespace RbitFetcher

section Said

/-- The last of what the messages say under `f`. -/
def latest {α : Type} (f : Arrival → Option α) (read : List Arrival) : Option α := read.reverse.findSome? f

lemma latest_concat {α : Type} (f : Arrival → Option α) (read : List Arrival) (arrival : Arrival) :
    latest f (read ++ [arrival]) = (f arrival).or (latest f read) := by
  unfold latest
  rw [reverse_append, reverse_singleton, singleton_append, findSome?_cons]
  cases f arrival <;> rfl

def lastSize (read : List Arrival) : ℕ := (latest Arrival.announcedSize read).getD 0

def lastId (read : List Arrival) : ℕ := (latest Arrival.announcedId read).getD 0

def lastBlock (read : List Arrival) (piece : ℕ) : Option Bytes := latest (Arrival.block piece) read

/-- The messages call for the requests: they announce a size and an id. -/
abbrev Ready (read : List Arrival) : Prop := 0 < lastSize read ∧ 0 < lastId read

/-- The size that was announced when the messages first called for the requests. -/
def requestSize (read : List Arrival) : Option ℕ := (read.inits.find? fun front => Ready front).map lastSize

variable (read : List Arrival) (arrival : Arrival)

lemma lastSize_concat : lastSize (read ++ [arrival]) = arrival.announcedSize.getD (lastSize read) := by
  unfold lastSize
  rw [latest_concat, getD_or]

lemma lastId_concat : lastId (read ++ [arrival]) = arrival.announcedId.getD (lastId read) := by
  unfold lastId
  rw [latest_concat, getD_or]

lemma requestSize_concat :
    requestSize (read ++ [arrival]) =
      (requestSize read).or (if Ready (read ++ [arrival]) then some (lastSize (read ++ [arrival])) else none) := by
  unfold requestSize
  rw [inits_append, find?_append, map_or]
  congr 1
  simp only [inits, map_cons, map_nil, tail_cons, find?_cons, find?_nil]
  split_ifs with hready
  · simp [hready]
  · simp [hready]

variable {read}

lemma requestSize_of_ready (hready : Ready read) : (requestSize read).isSome = true := by
  unfold requestSize
  rw [isSome_map, find?_isSome]
  exact ⟨read, (mem_inits _ _).mpr (prefix_refl read), decide_eq_true hready⟩

end Said

variable {digest : Bytes → NodeId} {infoHash : NodeId} {s s' : FetchState} {bytes : Bytes} {arrival : Arrival}
  {read : List Arrival}

/-! ### The state after the messages read -/

/-- The state of a loop that has read `read`: the size that the requests were made for passed the test. -/
structure Heard (read : List Arrival) (s : FetchState) : Prop where
  size : s.metadataSize = lastSize read
  id : s.remoteUtMetadataId = lastId read
  block : ∀ piece, s.pieces.get piece = lastBlock read piece
  requested : s.requestSent = (requestSize read).isSome
  tested : ∀ size ∈ requestSize read, size ≤ maxMetadataSize

lemma heard_start : Heard [] start := by
  refine ⟨rfl, rfl, fun _ => rfl, rfl, fun size hsize => ?_⟩
  cases hsize

/-- A message that announces nothing does not call for the requests. -/
lemma requestSize_silent (hsize : arrival.announcedSize = none) (hid : arrival.announcedId = none) :
    requestSize (read ++ [arrival]) = requestSize read := by
  have hsame : Ready (read ++ [arrival]) ↔ Ready read := by
    unfold Ready
    rw [lastSize_concat, lastId_concat, hsize, hid]
    rfl
  rw [requestSize_concat]
  split_ifs with hready
  · obtain ⟨size, hrequest⟩ := isSome_iff_exists.mp (requestSize_of_ready (hsame.mp hready))
    rw [hrequest]
    rfl
  · exact or_none

lemma Heard.silent (hs : Heard read s) (hsize : arrival.announcedSize = none) (hid : arrival.announcedId = none)
    {pieces : FiniteMap ℕ Bytes} (hblock : ∀ piece, pieces.get piece = (arrival.block piece).or (s.pieces.get piece))
    (totalReceived : ℕ) : Heard (read ++ [arrival]) { s with pieces, totalReceived } := by
  refine ⟨?_, ?_, fun piece => ?_, ?_, ?_⟩
  · rw [lastSize_concat, hsize]
    exact hs.size
  · rw [lastId_concat, hid]
    exact hs.id
  · unfold lastBlock
    rw [latest_concat, hblock, hs.block]
    rfl
  · rw [requestSize_silent hsize hid]
    exact hs.requested
  · rw [requestSize_silent hsize hid]
    exact hs.tested

lemma applyHandshake_eq (s : FetchState) (payload : Payload) (sent joined : Bool) :
    s.applyHandshake payload.handshake =
      { s with
        metadataSize := (Arrival.message (.extended 0 payload) sent joined).announcedSize.getD s.metadataSize
        remoteUtMetadataId :=
          (Arrival.message (.extended 0 payload) sent joined).announcedId.getD s.remoteUtMetadataId } := by
  obtain ⟨_ | remote, metadata⟩ := payload
  · rfl
  · rfl

/-- What a handshake does: it calls for the requests unless they were made, and then its size is tested. -/
lemma Heard.handshake (hs : Heard read s) (payload : Payload) (sent joined : Bool) :
    let arrival := Arrival.message (.extended 0 payload) sent joined
    receive digest infoHash s arrival =
      if requestSize read = none ∧ Ready (read ++ [arrival]) then
        if maxMetadataSize < lastSize (read ++ [arrival]) then .failed .sizeLimit
        else if sent then .next { s.applyHandshake payload.handshake with requestSent := true }
        else .failed .send
      else .next (s.applyHandshake payload.handshake) := by
  intro arrival
  have hsize : (s.applyHandshake payload.handshake).metadataSize = lastSize (read ++ [arrival]) := by
    rw [applyHandshake_eq s payload sent joined, lastSize_concat, ← hs.size]
  have hid : (s.applyHandshake payload.handshake).remoteUtMetadataId = lastId (read ++ [arrival]) := by
    rw [applyHandshake_eq s payload sent joined, lastId_concat, ← hs.id]
  have hrequested : (s.applyHandshake payload.handshake).requestSent = (requestSize read).isSome := by
    rw [applyHandshake_eq s payload sent joined, ← hs.requested]
  have hcalls : ((s.applyHandshake payload.handshake).metadataSize > 0 ∧
      (s.applyHandshake payload.handshake).remoteUtMetadataId > 0 ∧
      (s.applyHandshake payload.handshake).requestSent = false) ↔
      requestSize read = none ∧ Ready (read ++ [arrival]) := by
    rw [hsize, hid, hrequested, isSome_eq_false_iff, isNone_iff_eq_none]
    exact ⟨fun h => ⟨h.2.2, h.1, h.2.1⟩, fun h => ⟨h.2.1, h.2.2, h.1⟩⟩
  unfold receive
  dsimp only [arrival]
  rw [if_pos rfl, FetchState.requestPieces]
  exact if_congr hcalls (if_congr (by rw [gt_iff_lt, hsize]) rfl rfl) rfl

lemma Heard.applyHandshake (hs : Heard read s) {payload : Payload}
    (harrival : arrival = .message (.extended 0 payload) sent joined) (requestSent : Bool)
    (hrequested : requestSent = (requestSize (read ++ [arrival])).isSome)
    (htested : ∀ size ∈ requestSize (read ++ [arrival]), size ≤ maxMetadataSize) :
    Heard (read ++ [arrival]) { s.applyHandshake payload.handshake with requestSent } := by
  refine ⟨?_, ?_, fun piece => ?_, hrequested, htested⟩
  · rw [applyHandshake_eq s payload sent joined, lastSize_concat, ← hs.size, harrival]
  · rw [applyHandshake_eq s payload sent joined, lastId_concat, ← hs.id, harrival]
  · rw [applyHandshake_eq s payload sent joined, lastBlock, latest_concat, ← lastBlock, ← hs.block, harrival]
    rfl

/-! ### Messages that are no handshakes -/

lemma receive_other (s : FetchState) 
    (hmessage : ∀ payload, message ≠ .extended 0 payload) :
    let arrival := Arrival.message message sent joined
    receive digest infoHash s arrival = .failed .reject ∨
      (receive digest infoHash s arrival = .next s ∧ ∀ piece, arrival.block piece = none) ∨
      ∃ piece data, receive digest infoHash s arrival =
          (s.storePiece piece data).finishPiece digest infoHash joined ∧
        ∀ other, arrival.block other = if other = piece then some data else none := by
  intro arrival
  cases message with
  | other => exact .inr (.inl ⟨rfl, fun _ => rfl⟩)
  | extended id payload =>
    have hid : id ≠ 0 := fun hzero => hmessage payload (hzero ▸ rfl)
    dsimp only [arrival, receive, Arrival.block]
    rw [if_neg hid]
    by_cases hmine : id = myUtMetadataId
    swap
    · exact .inr (.inl ⟨if_pos hmine, fun _ => if_neg hmine⟩)
    rw [if_neg (not_not.mpr hmine)]
    simp only [if_pos hmine]
    obtain ⟨handshake, _ | ⟨msgType, piece, data⟩⟩ := payload
    · exact .inr (.inl ⟨rfl, fun _ => rfl⟩)
    dsimp only [FetchState.handleMetadata, bind_some]
    split_ifs with hreject htype
    · exact .inl rfl
    · exact .inr (.inl ⟨rfl, fun other => if_neg fun hdata => htype hdata.1⟩)
    · cases data with
      | none => exact .inr (.inl ⟨rfl, fun other => ite_self none⟩)
      | some data =>
        refine .inr (.inr ⟨piece, data, rfl, fun other => ?_⟩)
        simp only [not_not.mp htype, true_and, eq_comm]

lemma silent_of_other (hmessage : ∀ payload, message ≠ .extended 0 payload)
    (sent joined : Bool) :
    (Arrival.message message sent joined).announcedSize = none ∧
      (Arrival.message message sent joined).announcedId = none := by
  cases message with
  | other => exact ⟨rfl, rfl⟩
  | extended id payload =>
    have hid : id ≠ 0 := fun hzero => hmessage payload (hzero ▸ rfl)
    exact ⟨if_neg hid, if_neg hid⟩

lemma finishPiece_next (h : s.finishPiece digest infoHash joined = .next s') : s' = s := by
  unfold FetchState.finishPiece at h
  split_ifs at h
  · cases h
    rfl
  · cases hbytes : s.assemble with
    | none =>
      rw [hbytes] at h
      cases h
    | some assembled =>
      rw [hbytes] at h
      dsimp only at h
      split_ifs at h

lemma finishPiece_fetched (h : s.finishPiece digest infoHash joined = .fetched bytes) :
    s.assemble = some bytes := by
  unfold FetchState.finishPiece at h
  split_ifs at h
  cases hbytes : s.assemble with
  | none =>
    rw [hbytes] at h
    cases h
  | some assembled =>
    rw [hbytes] at h
    dsimp only at h
    split_ifs at h
    cases h
    rfl

lemma finishPiece_ne_sizeLimit (s : FetchState) (joined : Bool) :
    s.finishPiece digest infoHash joined ≠ .failed .sizeLimit := by
  unfold FetchState.finishPiece
  split_ifs
  · nofun
  · cases s.assemble with
    | none => nofun
    | some assembled =>
      dsimp only
      split_ifs <;> nofun

lemma Heard.storePiece (hs : Heard read s) (hsize : arrival.announcedSize = none)
    (hid : arrival.announcedId = none) {piece : ℕ} {data : Bytes}
    (hblock : ∀ other, arrival.block other = if other = piece then some data else none) :
    Heard (read ++ [arrival]) (s.storePiece piece data) := by
  refine hs.silent hsize hid (fun other => ?_) _
  rw [get_insert, hblock]
  split_ifs <;> rfl

/-- The state and the bytes of a loop that reads one message more. -/
lemma Heard.receive_next (hs : Heard read s) (h : receive digest infoHash s arrival = .next s') :
    Heard (read ++ [arrival]) s' := by
  cases arrival with
  | broken => cases h
  | message message sent joined =>
    by_cases hmessage : ∃ payload, message = .extended 0 payload
    · obtain ⟨payload, rfl⟩ := hmessage
      rw [hs.handshake] at h
      split_ifs at h with hcalls hlimit hsent
      · cases h
        refine hs.applyHandshake rfl true ?_ fun size hsize => ?_
        · rw [requestSize_concat, hcalls.1, if_pos hcalls.2]
          rfl
        · rw [requestSize_concat, hcalls.1, if_pos hcalls.2] at hsize
          cases hsize
          exact not_lt.mp hlimit
      · cases h
        have hsame : requestSize (read ++ [.message (.extended 0 payload) sent joined]) = requestSize read := by
          rw [requestSize_concat]
          cases hrequest : requestSize read with
          | none => exact if_neg fun hready => hcalls ⟨hrequest, hready⟩
          | some size => rfl
        refine hs.applyHandshake rfl (s.applyHandshake payload.handshake).requestSent ?_ ?_
        · rw [hsame, applyHandshake_eq s payload sent joined, ← hs.requested]
        · rw [hsame]
          exact hs.tested
    · have hother : ∀ payload, message ≠ .extended 0 payload := fun payload heq => hmessage ⟨payload, heq⟩
      obtain ⟨hsize, hid⟩ := silent_of_other hother sent joined
      rcases receive_other s hother with hreject | ⟨hsame, hblock⟩ | ⟨piece, data, hstored, hblock⟩
      · cases hreject.symm.trans h
      · cases hsame.symm.trans h
        exact hs.silent hsize hid (fun piece => by rw [hblock]; rfl) _
      · rw [hstored] at h
        rw [finishPiece_next h]
        exact hs.storePiece hsize hid hblock

lemma Heard.receive_fetched (hs : Heard read s) (h : receive digest infoHash s arrival = .fetched bytes) :
    ∃ s', Heard (read ++ [arrival]) s' ∧ s'.assemble = some bytes ∧
      requestSize (read ++ [arrival]) = requestSize read := by
  cases arrival with
  | broken => cases h
  | message message sent joined =>
    by_cases hmessage : ∃ payload, message = .extended 0 payload
    · obtain ⟨payload, rfl⟩ := hmessage
      rw [hs.handshake] at h
      split_ifs at h
    · have hother : ∀ payload, message ≠ .extended 0 payload := fun payload heq => hmessage ⟨payload, heq⟩
      obtain ⟨hsize, hid⟩ := silent_of_other hother sent joined
      rcases receive_other s hother with hreject | ⟨hsame, -⟩ | ⟨piece, data, hstored, hblock⟩
      · cases hreject.symm.trans h
      · cases hsame.symm.trans h
      · rw [hstored] at h
        exact ⟨_, hs.storePiece hsize hid hblock, finishPiece_fetched h, requestSize_silent hsize hid⟩

/-- The message calls for the requests, for a size above the limit. -/
def Oversized (read : List Arrival) (arrival : Arrival) : Prop :=
  requestSize read = none ∧ ∃ size ∈ requestSize (read ++ [arrival]), maxMetadataSize < size

lemma oversized_iff : Oversized read arrival ↔
    (requestSize read = none ∧ Ready (read ++ [arrival])) ∧ maxMetadataSize < lastSize (read ++ [arrival]) := by
  rw [Oversized, requestSize_concat, and_assoc]
  refine and_congr_right fun hnone => ?_
  rw [hnone, none_or]
  split_ifs with hready
  · refine ⟨?_, fun h => ⟨_, rfl, h.2⟩⟩
    rintro ⟨size, hsize, hlt⟩
    cases hsize
    exact ⟨hready, hlt⟩
  · refine iff_of_false ?_ fun h => hready h.1
    rintro ⟨size, hsize, -⟩
    cases hsize

lemma not_oversized (hsize : arrival.announcedSize = none) (hid : arrival.announcedId = none) :
    ¬Oversized read arrival := by
  rintro ⟨hnone, size, hsize', -⟩
  rw [requestSize_silent hsize hid, hnone] at hsize'
  cases hsize'

/-- The test is made on the size for which the pieces would be requested. -/
lemma Heard.sizeLimit_iff (hs : Heard read s) :
    receive digest infoHash s arrival = .failed .sizeLimit ↔ Oversized read arrival := by
  cases arrival with
  | broken => exact iff_of_false nofun (not_oversized rfl rfl)
  | message message sent joined =>
    by_cases hmessage : ∃ payload, message = .extended 0 payload
    · obtain ⟨payload, rfl⟩ := hmessage
      rw [hs.handshake, oversized_iff]
      split_ifs with hcalls hlimit hsent
      · exact iff_of_true rfl ⟨hcalls, hlimit⟩
      · exact iff_of_false nofun fun h => hlimit h.2
      · exact iff_of_false nofun fun h => hlimit h.2
      · exact iff_of_false nofun fun h => hcalls h.1
    · have hother : ∀ payload, message ≠ .extended 0 payload := fun payload heq => hmessage ⟨payload, heq⟩
      obtain ⟨hsize, hid⟩ := silent_of_other hother sent joined
      refine iff_of_false (fun h => ?_) (not_oversized hsize hid)
      rcases receive_other s hother with hreject | ⟨hsame, -⟩ | ⟨piece, data, hstored, -⟩
      · cases hreject.symm.trans h
      · cases hsame.symm.trans h
      · exact absurd (hstored.symm.trans h) (finishPiece_ne_sizeLimit _ _)

/-! ### What is assembled -/

/-- The length of the last blocks that were sent for the pieces of the size that was announced last. -/
def sentLength (read : List Arrival) : ℕ :=
  ((range (metadataPieceCount (lastSize read))).map fun piece =>
    ((lastBlock read piece).map List.length).getD 0).sum

lemma length_mapM_flatten {parts : List Bytes}
    (hparts : indices.mapM pieces = some parts) :
    parts.flatten.length = (indices.map fun piece => ((pieces piece).map List.length).getD 0).sum := by
  induction indices generalizing parts with
  | nil =>
    cases hparts
    rfl
  | cons piece indices ih =>
    rw [mapM_cons] at hparts
    obtain ⟨part, hpart, hparts⟩ := bind_eq_some_iff.mp hparts
    obtain ⟨rest, hrest, hparts⟩ := bind_eq_some_iff.mp hparts
    cases hparts
    rw [flatten_cons, length_append, ih hrest, map_cons, sum_cons, hpart]
    rfl

lemma Heard.assemble_length (hs : Heard read s) (hbytes : s.assemble = some bytes) :
    bytes.length = sentLength read := by
  obtain ⟨parts, hparts, rfl⟩ := map_eq_some_iff.mp hbytes
  rw [length_mapM_flatten hparts, hs.size, sentLength]
  simp only [hs.block]

lemma sentLength_le (hsize : lastSize read ≤ maxMetadataSize)
    (hblock : ∀ piece, ∀ data ∈ lastBlock read piece, data.length ≤ metadataPieceSize) :
    sentLength read ≤ maxMetadataSize := by
  have hsum : sentLength read ≤ metadataPieceCount (lastSize read) * metadataPieceSize := by
    unfold sentLength
    refine (sum_le_card_nsmul _ metadataPieceSize fun length hlength => ?_).trans_eq ?_
    · obtain ⟨piece, -, rfl⟩ := mem_map.mp hlength
      cases hpiece : lastBlock read piece with
      | none => exact Nat.zero_le _
      | some data => exact hblock piece data hpiece
    · rw [length_map, length_range]
      rfl
  have hcount : metadataPieceCount (lastSize read) ≤ 640 := by
    have hsize : lastSize read ≤ 10485760 := hsize
    unfold metadataPieceCount divCeil metadataPieceSize
    omega
  have hlimit : 640 * metadataPieceSize = maxMetadataSize := by decide
  exact (hsum.trans (Nat.mul_le_mul_right metadataPieceSize hcount)).trans_eq hlimit

lemma receiveAll_heard (hs : Heard read s)
    (h : receiveAll digest infoHash s arrivals = .next s') : Heard (read ++ arrivals) s' := by
  induction arrivals generalizing read s with
  | nil =>
    cases h
    rwa [append_nil]
  | cons arrival arrivals ih =>
    unfold receiveAll at h
    cases hreceive : receive digest infoHash s arrival with
    | next t =>
      rw [hreceive] at h
      rw [← singleton_append, ← append_assoc]
      exact ih (hs.receive_next hreceive) h
    | failed failure =>
      rw [hreceive] at h
      cases h
    | fetched bytes =>
      rw [hreceive] at h
      cases h

/-- **The limit on fetched metadata.** The loop has read `read` and takes in another message. It refuses a size
above the limit exactly when the pieces would be requested for it. If it ends with bytes, their length is that of
the last blocks the peer sent for the pieces of the last announced size; so they are within the limit if no
block is longer than a piece and the last size is the one that was tested. -/
theorem fetched_size_limit (digest : Bytes → NodeId) (infoHash : NodeId) {read : List Arrival} {s : FetchState}
    (hread : receiveAll digest infoHash start read = .next s) (arrival : Arrival) :
    (receive digest infoHash s arrival = .failed .sizeLimit ↔ Oversized read arrival) ∧
    ∀ bytes, receive digest infoHash s arrival = .fetched bytes →
      (bytes.length ≤ maxMetadataSize ↔ sentLength (read ++ [arrival]) ≤ maxMetadataSize) ∧
      (requestSize read = some (lastSize (read ++ [arrival])) →
        (∀ piece, ∀ data ∈ lastBlock (read ++ [arrival]) piece, data.length ≤ metadataPieceSize) →
        bytes.length ≤ maxMetadataSize) := by
  have hs : Heard read s := receiveAll_heard heard_start hread
  refine ⟨hs.sizeLimit_iff, fun bytes hfetched => ?_⟩
  obtain ⟨s', hs', hbytes, hrequest⟩ := hs.receive_fetched hfetched
  rw [hs'.assemble_length hbytes]
  exact ⟨Iff.rfl, fun hsize hblock => sentLength_le (hs.tested _ hsize) hblock⟩

/-! ### A handshake after the request -/

lemma receiveAll_cons (h : receive digest infoHash s arrival = .next s') (arrivals : List Arrival) :
    receiveAll digest infoHash s (arrival :: arrivals) = receiveAll digest infoHash s' arrivals := by
  rw [receiveAll, h]

lemma receiveAll_append (h : receiveAll digest infoHash s arrivals = .next s')
    (rest : List Arrival) :
    receiveAll digest infoHash s (arrivals ++ rest) = receiveAll digest infoHash s' rest := by
  induction arrivals generalizing s with
  | nil =>
    cases h
    rfl
  | cons arrival arrivals ih =>
    rw [receiveAll] at h
    cases hreceive : receive digest infoHash s arrival with
    | next next =>
      rw [hreceive] at h
      rw [cons_append, receiveAll_cons hreceive]
      exact ih h
    | failed failure =>
      rw [hreceive] at h
      cases h
    | fetched bytes =>
      rw [hreceive] at h
      cases h

def handshakeOf (size : ℤ) : Arrival :=
  .message (.extended 0 ⟨some ⟨some size, some 1⟩, none⟩) true true

def pieceOf (piece : ℕ) (data : Bytes) : Arrival :=
  .message (.extended myUtMetadataId ⟨none, some ⟨.data, piece, some data⟩⟩) true true

lemma receive_pieceOf (s : FetchState) (piece : ℕ) (data : Bytes) :
    receive digest infoHash s (pieceOf piece data) =
      (s.storePiece piece data).finishPiece digest infoHash true := by
  simp [receive, pieceOf, myUtMetadataId, FetchState.handleMetadata]

theorem fetched_size_limit_oneByte :
    receive (fun _ => Vector.replicate 20 0) (Vector.replicate 20 0) start (handshakeOf (maxMetadataSize + 1)) =
        .failed .sizeLimit ∧
      ∃ s, receiveAll (fun _ => Vector.replicate 20 0) (Vector.replicate 20 0) start [handshakeOf 1] = .next s ∧
        receive (fun _ => Vector.replicate 20 0) (Vector.replicate 20 0) s (pieceOf 0 [7]) = .fetched [7] ∧
        [(7 : UInt8)].length ≤ maxMetadataSize := by
  have hover : Oversized [] (handshakeOf (maxMetadataSize + 1)) := ⟨rfl, maxMetadataSize + 1, rfl, by decide⟩
  have hblock : ∀ piece, ∀ data ∈ lastBlock ([handshakeOf 1] ++ [pieceOf 0 [7]]) piece,
      data.length ≤ metadataPieceSize := by
    intro piece data hdata
    have hlast : lastBlock ([handshakeOf 1] ++ [pieceOf 0 [7]]) piece = if 0 = piece then some [7] else none := by
      rw [lastBlock, latest_concat]
      simp [Arrival.block, pieceOf, handshakeOf, latest, myUtMetadataId]
    rw [hlast] at hdata
    split_ifs at hdata
    · cases hdata
      decide
    · cases hdata
  have hread : receiveAll (fun _ => Vector.replicate 20 0) (Vector.replicate 20 0) start [handshakeOf 1] =
      .next ⟨1, 1, .empty, 0, true⟩ := rfl
  have hfetched : receive (fun _ => Vector.replicate 20 0) (Vector.replicate 20 0) ⟨1, 1, .empty, 0, true⟩
      (pieceOf 0 [7]) = .fetched [7] := rfl
  refine ⟨(fetched_size_limit _ _ rfl _).1.mpr hover, _, hread, hfetched, ?_⟩
  exact ((fetched_size_limit _ _ hread (pieceOf 0 [7])).2 [7] hfetched).2 rfl hblock

def zeroPiece : Bytes := replicate metadataPieceSize 0

def raised (n : ℕ) : FetchState where
  metadataSize := maxMetadataSize + 1
  remoteUtMetadataId := 1
  pieces := (range n).foldl (fun pieces piece => pieces.insert piece zeroPiece) .empty
  totalReceived := n * metadataPieceSize
  requestSent := true

lemma get_raised (n piece : ℕ) : (raised n).pieces.get piece = if piece < n then some zeroPiece else none := by
  induction n with
  | zero => rfl
  | succ n ih =>
    have hpieces : (raised (n + 1)).pieces = (raised n).pieces.insert n zeroPiece := by
      unfold raised
      rw [range_succ, foldl_append]
      rfl
    rw [hpieces, get_insert, ih]
    by_cases hpiece : piece = n
    · rw [if_pos hpiece, if_pos (by omega)]
    · rw [if_neg hpiece]
      by_cases hlt : piece < n
      · rw [if_pos hlt, if_pos (by omega)]
      · rw [if_neg hlt, if_neg (by omega)]

lemma raised_handshakes (digest : Bytes → NodeId) (infoHash : NodeId) :
    receiveAll digest infoHash start [handshakeOf 1, handshakeOf (maxMetadataSize + 1)] = .next (raised 0) :=
  rfl

lemma raised_storePiece (hn : n ≤ 640) : (raised n).storePiece n zeroPiece = raised (n + 1) := by
  have htotal : min (n * metadataPieceSize + zeroPiece.length) usizeMax = (n + 1) * metadataPieceSize := by
    rw [zeroPiece, length_replicate, ← Nat.succ_mul]
    exact min_eq_left ((Nat.mul_le_mul_right _ (by omega : n + 1 ≤ 641)).trans (by decide))
  unfold FetchState.storePiece
  rw [get_raised, if_neg (lt_irrefl n)]
  unfold raised
  rw [range_succ, foldl_append]
  simp only [foldl_cons, foldl_nil, FetchState.mk.injEq, true_and, and_true]
  exact htotal

lemma receive_raised (hn : n < 640) :
    receive digest infoHash (raised n) (pieceOf n zeroPiece) = .next (raised (n + 1)) := by
  have htotal : (raised (n + 1)).totalReceived < (raised (n + 1)).metadataSize :=
    (Nat.mul_le_mul_right metadataPieceSize (by omega : n + 1 ≤ 640)).trans_lt
      (by decide : 640 * metadataPieceSize < maxMetadataSize + 1)
  rw [receive_pieceOf, raised_storePiece hn.le]
  exact if_pos (.inr htotal)

lemma receiveAll_raised (hn : n ≤ 640) :
    receiveAll digest infoHash (raised 0) ((range n).map (pieceOf · zeroPiece)) = .next (raised n) := by
  induction n with
  | zero => rfl
  | succ n ih =>
    rw [range_succ, map_append, receiveAll_append (ih (by omega)), map_singleton,
      receiveAll_cons (receive_raised (by omega)), receiveAll]

lemma mapM_eq_map {block : ℕ → Bytes}
    (hpieces : ∀ piece ∈ indices, pieces piece = some (block piece)) :
    indices.mapM pieces = some (indices.map block) := by
  induction indices with
  | nil => rfl
  | cons piece indices ih =>
    rw [mapM_cons, hpieces piece mem_cons_self, ih fun piece' h => hpieces piece' (mem_cons_of_mem _ h)]
    rfl

def zeroPieces : Bytes := (replicate 641 zeroPiece).flatten

lemma assemble_raised : (raised 641).assemble = some zeroPieces := by
  have hcount : metadataPieceCount (raised 641).metadataSize = 641 := by decide
  unfold FetchState.assemble
  rw [hcount, mapM_eq_map fun piece hpiece =>
    (get_raised 641 piece).trans (if_pos (mem_range.mp hpiece)), map_const', length_range,
    map_some, zeroPieces]

lemma finishPiece_raised (digest : Bytes → NodeId) :
    (raised 641).finishPiece digest (digest zeroPieces) true = .fetched zeroPieces := by
  have hcomplete : ¬((raised 641).metadataSize = 0 ∨
      (raised 641).totalReceived < (raised 641).metadataSize) := by
    show ¬(maxMetadataSize + 1 = 0 ∨ 641 * metadataPieceSize < maxMetadataSize + 1)
    decide
  rw [FetchState.finishPiece, if_neg hcomplete, assemble_raised]
  exact if_pos ⟨rfl, rfl⟩

lemma receive_last (digest : Bytes → NodeId) :
    receive digest (digest zeroPieces) (raised 640) (pieceOf 640 zeroPiece) = .fetched zeroPieces := by
  rw [receive_pieceOf, raised_storePiece le_rfl]
  exact finishPiece_raised digest

lemma receiveAll_above_limit (digest : Bytes → NodeId) :
    receiveAll digest (digest zeroPieces) start
        ([handshakeOf 1, handshakeOf (maxMetadataSize + 1)] ++
          ((range 640).map (pieceOf · zeroPiece) ++ [pieceOf 640 zeroPiece])) = .fetched zeroPieces := by
  rw [receiveAll_append (raised_handshakes _ _), receiveAll_append (receiveAll_raised le_rfl)]
  rw [receiveAll, receive_last]

/-- A peer announces one byte and, once the piece is requested, a byte more than the limit; the loop then takes
641 pieces of the usual length. -/
theorem fetched_above_limit :
    receiveAll (fun _ => Vector.replicate 20 0) (Vector.replicate 20 0) start
        ([handshakeOf 1, handshakeOf (maxMetadataSize + 1)] ++
          ((List.range 640).map (pieceOf · zeroPiece) ++ [pieceOf 640 zeroPiece])) = .fetched zeroPieces ∧
      maxMetadataSize < zeroPieces.length := by
  refine ⟨receiveAll_above_limit fun _ => Vector.replicate 20 0, ?_⟩
  rw [zeroPieces, length_flatten, map_replicate, sum_replicate, zeroPiece, length_replicate]
  decide

end RbitFetcher

end DhtCrawler
