import DhtCrawler.BaseTypes
import DhtCrawler.LibFiniteMap

/-! The receive loop of `fetch_with_peer` in `metadata.rs`. -/

namespace DhtCrawler

abbrev Bytes := List UInt8

inductive MetadataFetchFailure where
  | connect
  | noExtension
  | send
  | sizeLimit
  | sha1
  | parse
  | reject
  | other
  deriving DecidableEq, Repr

/-- The fields of an extension handshake that are read: `metadata_size`, an `i64`, and the id of `ut_metadata`,
a `u8`. -/
structure ExtensionHandshake where
  metadataSize : Option ℤ
  utMetadataId : Option ℕ

inductive MetadataMessageType where
  | request
  | data
  | reject
  deriving DecidableEq, Repr

structure MetadataMessage where
  msgType : MetadataMessageType
  piece : ℕ
  data : Option Bytes

structure Payload where
  handshake : Option ExtensionHandshake
  metadata : Option MetadataMessage

inductive Message where
  | extended (id : ℕ) (payload : Payload)
  | other

/-- What `receive_message` yields, with what happens to the requests and to the hashing task if the message
causes some. -/
inductive Arrival where
  | message (message : Message) (sent joined : Bool)
  | broken

namespace RbitFetcher

def myUtMetadataId : ℕ := 1

def maxMetadataSize : ℕ := 10 * 1024 * 1024

def metadataPieceSize : ℕ := 16384

def metadataPieceCount (size : ℕ) : ℕ := divCeil size metadataPieceSize

def truncateU32 (n : ℤ) : ℕ := (n % 2 ^ 32).toNat

structure FetchState where
  metadataSize : ℕ
  remoteUtMetadataId : ℕ
  pieces : FiniteMap ℕ Bytes
  totalReceived : ℕ
  requestSent : Bool

def start : FetchState where
  metadataSize := 0
  remoteUtMetadataId := 0
  pieces := .empty
  totalReceived := 0
  requestSent := false

/-- A round of the loop goes on, returns an error or breaks with the info bytes. -/
inductive Received where
  | next (s : FetchState)
  | failed (failure : MetadataFetchFailure)
  | fetched (bytes : Bytes)

namespace FetchState

def applyHandshake (s : FetchState) (handshake : Option ExtensionHandshake) : FetchState :=
  match handshake with
  | none => s
  | some remote =>
    { s with
      metadataSize := (remote.metadataSize.map truncateU32).getD s.metadataSize
      remoteUtMetadataId := remote.utMetadataId.getD s.remoteUtMetadataId }

/-- The pieces are requested once, as soon as their number and the id for the requests are known. -/
def requestPieces (s : FetchState) (sent : Bool) : Received :=
  if s.metadataSize > 0 ∧ s.remoteUtMetadataId > 0 ∧ s.requestSent = false then
    if s.metadataSize > maxMetadataSize then .failed .sizeLimit
    else if sent then .next { s with requestSent := true }
    else .failed .send
  else .next s

def storePiece (s : FetchState) (piece : ℕ) (data : Bytes) : FetchState :=
  let totalReceived :=
    match s.pieces.get piece with
    | some previous => s.totalReceived - previous.length
    | none => s.totalReceived
  { s with
    pieces := s.pieces.insert piece data
    totalReceived := min (totalReceived + data.length) usizeMax }

def assemble (s : FetchState) : Option Bytes :=
  ((List.range (metadataPieceCount s.metadataSize)).mapM s.pieces.get).map List.flatten

def finishPiece (s : FetchState) (digest : Bytes → NodeId) (infoHash : NodeId) (joined : Bool) : Received :=
  if s.metadataSize = 0 ∨ s.totalReceived < s.metadataSize then .next s
  else
    match s.assemble with
    | none => .failed .other
    | some bytes => if joined = true ∧ digest bytes = infoHash then .fetched bytes else .failed .sha1

def handleMetadata (s : FetchState) (digest : Bytes → NodeId) (infoHash : NodeId) (message : MetadataMessage)
    (joined : Bool) : Received :=
  if s.requestSent = true ∧ message.msgType = .reject ∧
      message.piece < metadataPieceCount s.metadataSize then .failed .reject
  else if message.msgType ≠ .data then .next s
  else
    match message.data with
    | none => .next s
    | some data => (s.storePiece message.piece data).finishPiece digest infoHash joined

end FetchState

def receive (digest : Bytes → NodeId) (infoHash : NodeId) (s : FetchState) : Arrival → Received
  | .broken => .failed .other
  | .message .other _ _ => .next s
  | .message (.extended id payload) sent joined =>
    if id = 0 then (s.applyHandshake payload.handshake).requestPieces sent
    else if id ≠ myUtMetadataId then .next s
    else
      match payload.metadata with
      | none => .next s
      | some message => s.handleMetadata digest infoHash message joined

def receiveAll (digest : Bytes → NodeId) (infoHash : NodeId) : FetchState → List Arrival → Received
  | s, [] => .next s
  | s, arrival :: arrivals =>
    match receive digest infoHash s arrival with
    | .next s => receiveAll digest infoHash s arrivals
    | r => r

end RbitFetcher

end DhtCrawler
