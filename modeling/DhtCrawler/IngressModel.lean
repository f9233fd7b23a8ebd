import DhtCrawler.BaseTypes
import DhtCrawler.LibChannel
import DhtCrawler.LibOutcome

/-! The dispatch of received datagrams to workers, from `udp_ingress.rs`, with the buffer pool of
`udp_buffer.rs`. -/

namespace DhtCrawler

def maxDhtUdpPacket : ℕ := 8192

def maxPoolSize : ℕ := 4096

structure UdpPacket where
  buf : List UInt8
  len : ℕ
  deriving DecidableEq, Repr

structure UdpBufferPool where
  free : List (List UInt8)
  bufCapacity : ℕ
  deriving DecidableEq, Repr

/-- A buffer of another length, or one too many, is dropped. -/
def UdpBufferPool.release (pool : UdpBufferPool) (buf : List UInt8) : UdpBufferPool :=
  if buf.length ≠ pool.bufCapacity then pool
  else if pool.free.length < maxPoolSize then { pool with free := pool.free ++ [buf] }
  else pool

/-- The counters of `DhtRuntimeStats` that the ingress updates. -/
structure UdpStats where
  udpReceived : ℕ
  udpRxBytes : ℕ
  udpInvalid : ℕ
  udpQueueFull : ℕ
  deriving DecidableEq, Repr

inductive ProcessUdpPacketError where
  | packetTooLarge
  | invalidPacket
  | chokedWorkers
  | noLiveWorkers
  deriving DecidableEq, Repr

abbrev WorkerHandle := ℕ

/-- What a worker is sent: the packet, its origin and the local address. -/
abbrev WorkerMessage := UdpPacket × SocketAddr × SocketAddr

/-- What `process_udp_packet` works on. The calls of `release` are kept as well, the newest first, since the
pool alone does not show a buffer that was dropped. -/
structure UdpIngress where
  workers : List WorkerHandle
  channels : WorkerHandle → Channel WorkerMessage
  bufferPool : UdpBufferPool
  releases : List (List UInt8)
  runtimeStats : UdpStats

namespace UdpIngress

def release (s : UdpIngress) (buf : List UInt8) : UdpIngress :=
  { s with bufferPool := s.bufferPool.release buf, releases := buf :: s.releases }

inductive Pass where
  | sent (worker : WorkerHandle) (channel : Channel WorkerMessage)
  | dropped (workerIndex : ℕ)
  | allFull

/-- The `for` loop over the offsets from the preferred worker. -/
def offerFrom (s : UdpIngress) (message : WorkerMessage) (preferredIndex : ℕ) : List ℕ → Except Panic Pass
  | [] => .ok .allFull
  | offset :: offsets => do
      let workerIndex := (preferredIndex + offset) % s.workers.length
      let worker ← unwrap s.workers[workerIndex]?
      match (s.channels worker).offer message with
      | .ok channel => .ok (.sent worker channel)
      | .error .full => offerFrom s message preferredIndex offsets
      | .error .closed => .ok (.dropped workerIndex)

def selectWorker (originHash : ℕ) (message : WorkerMessage)
    (round : UdpIngress × Option (Except ProcessUdpPacketError Unit)) :
    Except Panic (ForInStep (UdpIngress × Option (Except ProcessUdpPacketError Unit))) := do
  let s := round.1
  if s.workers.isEmpty then .ok (.done (s.release message.1.buf, some (.error .noLiveWorkers)))
  else
    let workerCount := s.workers.length
    match ← s.offerFrom message (originHash % workerCount) (List.range workerCount) with
    | .sent worker channel =>
      .ok (.done ({ s with channels := Function.update s.channels worker channel }, some (.ok ())))
    | .dropped workerIndex =>
      let (_, workers) ← swapRemove s.workers workerIndex
      .ok (.yield ({ s with workers }, none))
    | .allFull =>
      let stats := { s.runtimeStats with udpQueueFull := wrappingSucc s.runtimeStats.udpQueueFull }
      .ok (.done ({ s with runtimeStats := stats }.release message.1.buf, some (.error .chokedWorkers)))

/-- Each round that goes on removes a worker, so there are fewer rounds than the fuel allows; a loop that were
cut off would have no result to unwrap. -/
def processUdpPacket (hash : SocketAddr → ℕ) (s : UdpIngress) (buf : List UInt8) (size : ℕ)
    (originAddr localAddr : SocketAddr) : Except Panic (UdpIngress × Except ProcessUdpPacketError Unit) := do
  let stats := { s.runtimeStats with
    udpReceived := wrappingSucc s.runtimeStats.udpReceived
    udpRxBytes := (s.runtimeStats.udpRxBytes + size) % 2 ^ 64 }
  let invalid := { s with runtimeStats := { stats with udpInvalid := wrappingSucc stats.udpInvalid } }
  if size > maxDhtUdpPacket then .ok (invalid.release buf, .error .packetTooLarge)
  else if size = 0 then .ok (invalid.release buf, .error .invalidPacket)
  else
    let first ← unwrap buf[0]?
    if first ≠ 0x64 then .ok (invalid.release buf, .error .invalidPacket)
    else
      let message := (⟨buf, size⟩, originAddr, localAddr)
      let (s, result) ← Loop.run (selectWorker (hash originAddr) message) (s.workers.length + 1)
        ({ s with runtimeStats := stats }, none)
      let result ← unwrap result
      .ok (s, result)

end UdpIngress

end DhtCrawler
