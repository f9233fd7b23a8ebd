import Mathlib.Algebra.Order.BigOperators.Group.Finset
import DhtCrawler.FetchSize

/-! Metadata put together from its pieces. The loop counts bytes and takes off those of a piece that comes again, so
the count is the length of the blocks held and reaches the announced size with the last block. -/

namespace DhtCrawler.RbitFetcher

open FiniteMap List Finset FetchState

variable {piece : ℕ} {arrivals : List Arrival}

def blockOf (metadata : Bytes) (piece : ℕ) : Bytes :=
  (metadata.drop (piece * metadataPieceSize)).take metadataPieceSize

section Blocks

variable (metadata : Bytes)

lemma length_blockOf (piece : ℕ) :
    (blockOf metadata piece).length = min metadataPieceSize (metadata.length - piece * metadataPieceSize) := by
  simp [blockOf]

lemma flatten_blocks (n : ℕ) :
    ((List.range n).map (blockOf metadata)).flatten = metadata.take (n * metadataPieceSize) := by
  induction n with
  | zero => simp
  | succ n ih => simp [range_succ, ih, blockOf, Nat.succ_mul, take_add]

lemma sum_blocks (n : ℕ) :
    ∑ piece ∈ range n, (blockOf metadata piece).length = min (n * metadataPieceSize) metadata.length := by
  induction n with
  | zero => simp
  | succ n ih =>
    rw [Finset.sum_range_succ, ih, length_blockOf, Nat.succ_mul]
    omega

lemma lt_count_iff :
    piece < metadataPieceCount metadata.length ↔ 0 < (blockOf metadata piece).length := by
  rw [length_blockOf, metadataPieceCount, divCeil, metadataPieceSize]
  omega

lemma sum_held (held : Finset ℕ) :
    ∑ piece ∈ held, (blockOf metadata piece).length ≤ metadata.length ∧
      (∑ piece ∈ held, (blockOf metadata piece).length = metadata.length ↔
        ∀ piece < metadataPieceCount metadata.length, piece ∈ held) := by
  set count := metadataPieceCount metadata.length with hcount
  have hwhole : ∑ piece ∈ range count, (blockOf metadata piece).length = metadata.length := by
    rw [sum_blocks, hcount, metadataPieceCount, divCeil, metadataPieceSize]
    omega
  have hpart : ∑ piece ∈ held, (blockOf metadata piece).length =
      ∑ piece ∈ held ∩ range count, (blockOf metadata piece).length := by
    refine (sum_subset inter_subset_left fun piece hheld hout => ?_).symm
    have hbeyond : ¬ piece < count := fun hlt => hout (mem_inter.mpr ⟨hheld, Finset.mem_range.mpr hlt⟩)
    exact Nat.eq_zero_of_not_pos fun hpos => hbeyond ((lt_count_iff metadata).mpr hpos)
  rw [hpart, ← hwhole]
  refine ⟨sum_le_sum_of_subset inter_subset_right, fun heq piece hlt => ?_, fun hall => ?_⟩
  · by_contra hmissing
    have hout : piece ∉ held ∩ range count := fun hin => hmissing (mem_inter.mp hin).1
    exact heq.not_lt (sum_lt_sum_of_subset Finset.inter_subset_right (Finset.mem_range.mpr hlt) hout
      ((lt_count_iff metadata).mp hlt) fun _ _ _ => Nat.zero_le _)
  · rw [inter_eq_right.mpr fun piece hlt => hall piece (mem_range.mp hlt)]

end Blocks

/-! ### Faithful peers -/

def Faithful (metadata : Bytes) : Arrival → Prop
  | .broken => False
  | .message .other _ _ => True
  | .message (.extended id payload) _ _ =>
    (id = 0 → ∀ remote size, payload.handshake = some remote → remote.metadataSize = some size →
      size = metadata.length) ∧
    (id = myUtMetadataId → ∀ message, payload.metadata = some message → message.msgType ≠ .reject ∧
      ∀ data, message.msgType = .data → message.data = some data → data = blockOf metadata message.piece)

def delivered : Arrival → Option ℕ
  | .message (.extended id ⟨_, some ⟨.data, piece, some _⟩⟩) _ _ => if id = myUtMetadataId then some piece else none
  | _ => none

def joins : Arrival → Bool
  | .message _ _ joined => joined
  | .broken => false

def Complete (metadata : Bytes) (arrivals : List Arrival) : Prop :=
  ∀ piece < metadataPieceCount metadata.length, piece ∈ arrivals.filterMap delivered

instance (metadata : Bytes) (arrivals : List Arrival) : Decidable (Complete metadata arrivals) :=
  inferInstanceAs (Decidable (∀ piece < _, _))

structure Holding (metadata : Bytes) (held : Finset ℕ) (s : FetchState) : Prop where
  size : s.metadataSize = metadata.length
  requested : s.requestSent = true
  pieces : ∀ piece, s.pieces.get piece = if piece ∈ held then some (blockOf metadata piece) else none
  total : s.totalReceived = ∑ piece ∈ held, (blockOf metadata piece).length

variable {digest : Bytes → NodeId} {infoHash : NodeId} {metadata : Bytes} {held : Finset ℕ} {s : FetchState}
  {arrival : Arrival}

lemma Holding.applyHandshake (hs : Holding metadata held s) (hlimit : metadata.length ≤ maxMetadataSize)
    {handshake : Option ExtensionHandshake}
    (hsize : ∀ remote size, handshake = some remote → remote.metadataSize = some size → size = metadata.length) :
    ∃ id, s.applyHandshake handshake = { s with remoteUtMetadataId := id } := by
  rcases handshake with _ | ⟨_ | size, id⟩
  · exact ⟨s.remoteUtMetadataId, rfl⟩
  · exact ⟨_, rfl⟩
  · refine ⟨id.getD s.remoteUtMetadataId, ?_⟩
    have htruncated : truncateU32 size = s.metadataSize := by
      rw [hsize _ size rfl rfl, hs.size, truncateU32]
      have hlt : metadata.length < 2 ^ 32 := hlimit.trans_lt (by decide)
      omega
    simp [FetchState.applyHandshake, htruncated]

lemma Holding.receive (hs : Holding metadata held s) (hlimit : metadata.length ≤ maxMetadataSize)
    (hfaithful : Faithful metadata arrival) :
    (delivered arrival = none ∧
        ∃ id, receive digest infoHash s arrival = .next { s with remoteUtMetadataId := id }) ∨
      ∃ piece, delivered arrival = some piece ∧ receive digest infoHash s arrival =
        (s.storePiece piece (blockOf metadata piece)).finishPiece digest infoHash (joins arrival) := by
  match arrival, hfaithful with
  | .message .other _ _, _ => exact .inl ⟨rfl, _, rfl⟩
  | .message (.extended id ⟨handshake, message⟩) sent joined, ⟨hhandshake, hmessage⟩ =>
    by_cases hzero : id = 0
    · obtain ⟨remoteId, heq⟩ := hs.applyHandshake hlimit (hhandshake hzero)
      refine .inl ⟨?_, remoteId, ?_⟩
      · subst hzero
        rcases message with _ | ⟨_ | _ | _, piece, _ | data⟩ <;> rfl
      · simp [RbitFetcher.receive, hzero, heq, requestPieces, hs.requested]
    · by_cases hmine : id = myUtMetadataId
      · subst hmine
        have hmessage := hmessage rfl
        rcases message with _ | ⟨msgType, piece, data⟩
        · exact .inl ⟨rfl, _, rfl⟩
        · obtain ⟨haccept, hdata⟩ := hmessage _ rfl
          cases msgType with
          | request =>
            refine .inl ⟨rfl, s.remoteUtMetadataId, ?_⟩
            simp [RbitFetcher.receive, hzero, handleMetadata]
          | reject => exact absurd rfl haccept
          | data =>
            rcases data with _ | data
            · refine .inl ⟨rfl, s.remoteUtMetadataId, ?_⟩
              simp [RbitFetcher.receive, hzero, handleMetadata]
            · have hblock : data = blockOf metadata piece := hdata data rfl rfl
              refine .inr ⟨piece, by simp [delivered], ?_⟩
              simp [RbitFetcher.receive, hzero, handleMetadata, joins, hblock]
      · refine .inl ⟨?_, s.remoteUtMetadataId, by simp [RbitFetcher.receive, hzero, hmine]⟩
        rcases message with _ | ⟨_ | _ | _, piece, _ | data⟩ <;> simp [delivered, hmine]

lemma Holding.storePiece (hs : Holding metadata held s) (hlimit : metadata.length ≤ maxMetadataSize) (piece : ℕ) :
    Holding metadata (insert piece held) (s.storePiece piece (blockOf metadata piece)) := by
  have hbound := (sum_held metadata (insert piece held)).1
  have hmax : maxMetadataSize ≤ usizeMax := by decide
  refine ⟨hs.size, hs.requested, fun other => ?_, ?_⟩
  · simp only [FetchState.storePiece, get_insert, hs.pieces, mem_insert]
    by_cases hsame : other = piece <;> simp [hsame]
  · simp only [FetchState.storePiece, hs.pieces, hs.total]
    by_cases hheld : piece ∈ held
    · have hle : (blockOf metadata piece).length ≤ ∑ other ∈ held, (blockOf metadata other).length :=
        single_le_sum (f := fun other => (blockOf metadata other).length) (fun _ _ => Nat.zero_le _) hheld
      rw [insert_eq_of_mem hheld] at hbound ⊢
      simp only [if_pos hheld, Nat.sub_add_cancel hle]
      omega
    · rw [sum_insert hheld] at hbound ⊢
      simp only [if_neg hheld]
      omega

lemma Holding.finishPiece (hs : Holding metadata held s) (hpos : 1 ≤ metadata.length) (joined : Bool) :
    s.finishPiece digest infoHash joined = if ∀ piece < metadataPieceCount metadata.length, piece ∈ held then
        if joined = true ∧ digest metadata = infoHash then .fetched metadata else .failed .sha1
      else .next s := by
  obtain ⟨hle, hfull⟩ := sum_held metadata held
  rw [FetchState.finishPiece, hs.size, hs.total]
  by_cases hall : ∀ piece < metadataPieceCount metadata.length, piece ∈ held
  · have hassembled : s.assemble = some metadata := by
      have hparts : (List.range (metadataPieceCount metadata.length)).mapM s.pieces.get =
          some ((List.range (metadataPieceCount metadata.length)).map (blockOf metadata)) :=
        mapM_eq_map fun piece hpiece => (hs.pieces piece).trans (if_pos (hall piece (List.mem_range.mp hpiece)))
      rw [assemble, hs.size, hparts, Option.map_some, flatten_blocks, take_of_length_le]
      rw [metadataPieceCount, divCeil, metadataPieceSize]
      omega
    rw [if_neg (by rw [hfull.mpr hall]; omega), hassembled, if_pos hall]
  · have hless : ∑ piece ∈ held, (blockOf metadata piece).length < metadata.length :=
      lt_of_le_of_ne hle fun heq => hall (hfull.mp heq)
    rw [if_pos (.inr hless), if_neg hall]

lemma Holding.receiveAll (hpos : 1 ≤ metadata.length) (hlimit : metadata.length ≤ maxMetadataSize)
    (hs : Holding metadata held s) (hfaithful : ∀ arrival ∈ arrivals, Faithful metadata arrival)
    (hpiece : piece < metadataPieceCount metadata.length) (hmissing : piece ∉ held)
    (hnot : piece ∉ arrivals.filterMap delivered) :
    ∃ s', receiveAll digest infoHash s arrivals = .next s' ∧
      Holding metadata (held ∪ (arrivals.filterMap delivered).toFinset) s' := by
  induction arrivals generalizing s held with
  | nil => exact ⟨s, rfl, by simpa using hs⟩
  | cons arrival arrivals ih =>
    have hrest : ∀ other ∈ arrivals, Faithful metadata other := fun other hmem =>
      hfaithful other (List.mem_cons_of_mem _ hmem)
    rcases hs.receive hlimit (hfaithful arrival List.mem_cons_self) with ⟨hnone, id, hnext⟩ | ⟨got, hgot, hnext⟩
    · have hsame : Holding metadata held { s with remoteUtMetadataId := id } :=
        ⟨hs.size, hs.requested, hs.pieces, hs.total⟩
      rw [filterMap_cons_none hnone] at hnot ⊢
      rw [receiveAll_cons hnext]
      exact ih hsame hrest hmissing hnot
    · have hstored := hs.storePiece hlimit got
      rw [filterMap_cons_some hgot, List.mem_cons, not_or] at hnot
      have hstill : piece ∉ insert got held := by simp [hnot.1, hmissing]
      rw [hstored.finishPiece hpos, if_neg fun hall => hstill (hall piece hpiece)] at hnext
      rw [receiveAll_cons hnext, filterMap_cons_some hgot, toFinset_cons, union_insert, ← insert_union]
      exact ih hstored hrest hstill hnot.2

lemma exists_last_missing (hnot : ¬ Complete metadata [])
    (hall : Complete metadata arrivals) : ∃ before last after, arrivals = before ++ last :: after ∧
      ¬ Complete metadata before ∧ Complete metadata (before ++ [last]) := by
  induction arrivals using reverseRecOn with
  | nil => exact absurd hall hnot
  | append_singleton before last ih =>
    by_cases hbefore : Complete metadata before
    · obtain ⟨first, mid, rest, rfl, hfirst, hmid⟩ := ih hbefore
      exact ⟨first, mid, rest ++ [last], by simp, hfirst, hmid⟩
    · exact ⟨before, last, [], rfl, hbefore, hall⟩

/-- After a handshake that announces the size and an id, a peer that sends each piece with its block, in any
order and any number of times, is listened to until the last missing piece arrives; then the metadata is what is
validated. -/
theorem metadata_reassembled (digest : Bytes → NodeId) (infoHash : NodeId) (metadata : Bytes)
    (hpos : 1 ≤ metadata.length) (hlimit : metadata.length ≤ maxMetadataSize) (utMetadataId : ℕ)
    (hid : 0 < utMetadataId) (other : Option MetadataMessage) (joined : Bool) (arrivals : List Arrival)
    (hfaithful : ∀ arrival ∈ arrivals, Faithful metadata arrival) :
    let first := Arrival.message (.extended 0 ⟨some ⟨some metadata.length, some utMetadataId⟩, other⟩) true joined
    (¬ Complete metadata arrivals → ∃ s, receiveAll digest infoHash start (first :: arrivals) = .next s) ∧
      (Complete metadata arrivals → ∃ before last after, arrivals = before ++ last :: after ∧
        ¬ Complete metadata before ∧ Complete metadata (before ++ [last]) ∧
        (∃ s, receiveAll digest infoHash start (first :: before) = .next s) ∧
        receiveAll digest infoHash start (first :: arrivals) =
          if joins last = true ∧ digest metadata = infoHash then .fetched metadata else .failed .sha1) := by
  intro first
  have hfirst : ∃ s, receive digest infoHash start first = .next s ∧ Holding metadata ∅ s := by
    have hsize : truncateU32 metadata.length = metadata.length := by
      have hlt : metadata.length < 2 ^ 32 := hlimit.trans_lt (by decide)
      rw [truncateU32]
      omega
    refine ⟨⟨metadata.length, utMetadataId, .empty, 0, true⟩, ?_, ⟨rfl, rfl, fun _ => rfl, rfl⟩⟩
    simp [receive, first, start, applyHandshake, requestPieces, hsize, hid,
      Nat.not_lt.mpr hlimit, List.length_pos_iff.mp hpos]
  obtain ⟨s, hnext, hs⟩ := hfirst
  have hopen {before : List Arrival} (hbefore : ∀ arrival ∈ before, Faithful metadata arrival)
      (hnot : ¬ Complete metadata before) : ∃ s', receiveAll digest infoHash start (first :: before) = .next s' ∧
        Holding metadata (before.filterMap delivered).toFinset s' := by
    obtain ⟨piece, hpiece, hmissing⟩ : ∃ piece < metadataPieceCount metadata.length,
        piece ∉ before.filterMap delivered := by simpa [Complete] using hnot
    obtain ⟨s', hrun, hheld⟩ := hs.receiveAll hpos hlimit hbefore hpiece (notMem_empty piece) hmissing
    exact ⟨s', (receiveAll_cons hnext before).trans hrun, by simpa using hheld⟩
  refine ⟨fun hnot => (hopen hfaithful hnot).imp fun _ h => h.1, fun hall => ?_⟩
  have hnone : ¬ Complete metadata [] := fun h =>
    absurd (h 0 ((lt_count_iff metadata).mpr (by simp [length_blockOf, metadataPieceSize]; omega))) (by simp)
  obtain ⟨before, last, after, rfl, hbefore, hlast⟩ := exists_last_missing hnone hall
  obtain ⟨s', hrun, hheld⟩ := hopen (fun arrival hmem => hfaithful arrival (List.mem_append_left _ hmem)) hbefore
  refine ⟨before, last, after, rfl, hbefore, hlast, ⟨s', hrun⟩, ?_⟩
  rw [← List.cons_append, receiveAll_append hrun, receiveAll]
  rcases hheld.receive hlimit (hfaithful last (by simp)) with ⟨hskip, id, -⟩ | ⟨piece, hgot, hreceive⟩
  · rw [Complete, List.filterMap_append, List.filterMap_cons_none hskip, List.filterMap_nil, List.append_nil] at hlast
    exact absurd hlast hbefore
  · rw [hreceive, (hheld.storePiece hlimit piece).finishPiece hpos, if_pos]
    · split_ifs <;> rfl
    · intro other hother
      have hmem := hlast other hother
      rw [List.filterMap_append, List.filterMap_cons_some hgot] at hmem
      simpa [or_comm] using hmem

/-- A byte more than a piece. -/
def twoBlocks : Bytes := List.replicate (metadataPieceSize + 1) 7

lemma blockOf_twoBlocks (piece : ℕ) : blockOf twoBlocks piece =
    List.replicate (min metadataPieceSize (metadataPieceSize + 1 - piece * metadataPieceSize)) 7 := by
  rw [blockOf, twoBlocks, drop_replicate, take_replicate]

theorem metadata_reassembled_two_blocks :
    receiveAll (fun _ => Vector.replicate 20 0) (Vector.replicate 20 0) start
      [handshakeOf 16385, pieceOf 1 [7], pieceOf 1 [7], pieceOf 0 (List.replicate 16384 7)] =
        .fetched twoBlocks := by
  have hlength : twoBlocks.length = 16385 := length_replicate
  have hpiece {piece : ℕ} {data : Bytes} (hdata : data = blockOf twoBlocks piece) :
      Faithful twoBlocks (pieceOf piece data) := by simp [Faithful, pieceOf, myUtMetadataId, hdata]
  have hfaithful : ∀ arrival ∈ [pieceOf 1 [7], pieceOf 1 [7], pieceOf 0 (List.replicate 16384 7)],
      Faithful twoBlocks arrival := by
    have hlast : [7] = blockOf twoBlocks 1 := (blockOf_twoBlocks 1).symm
    have hfirst : List.replicate 16384 7 = blockOf twoBlocks 0 := (blockOf_twoBlocks 0).symm
    intro arrival hmem
    simp only [List.mem_cons, List.not_mem_nil, or_false] at hmem
    rcases hmem with rfl | rfl | rfl
    · exact hpiece hlast
    · exact hpiece hlast
    · exact hpiece hfirst
  have hcomplete : Complete twoBlocks [pieceOf 1 [7], pieceOf 1 [7], pieceOf 0 (List.replicate 16384 7)] := by
    intro piece hlt
    have hcount : metadataPieceCount 16385 = 2 := by decide
    rw [hlength, hcount] at hlt
    change piece ∈ [1, 1, 0]
    simp only [List.mem_cons, List.not_mem_nil, or_false]
    omega
  obtain ⟨before, last, after, harrivals, -, -, -, hresult⟩ := (metadata_reassembled (fun _ => Vector.replicate 20 0)
    (Vector.replicate 20 0) twoBlocks (by rw [hlength]; decide) (by rw [hlength]; decide) 1 (by decide) none true _
    hfaithful).2 hcomplete
  have hlast : last ∈ [pieceOf 1 [7], pieceOf 1 [7], pieceOf 0 (List.replicate 16384 7)] := by
    rw [harrivals]
    exact List.mem_append_right _ List.mem_cons_self
  have hjoins : joins last = true := by
    simp only [List.mem_cons, List.not_mem_nil, or_false] at hlast
    rcases hlast with rfl | rfl | rfl <;> rfl
  rw [hlength] at hresult
  exact hresult.trans (if_pos ⟨hjoins, rfl⟩)

end DhtCrawler.RbitFetcher
