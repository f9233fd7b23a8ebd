import DhtCrawler.CrawlModel
import DhtCrawler.DiscoveryModel
import DhtCrawler.LookupModel
import DhtCrawler.RaceModel
import DhtCrawler.SchedulerModel

/-! The server of `server.rs` with the actors it starts: workers that handle datagrams, the crawl, lookup and
discovery actors, the metadata scheduler and a race for every job. -/

namespace DhtCrawler

open PeerLookup MetadataScheduler
open Discovery (Answer DiscoveryActor)

/-! ### Messages -/

inductive IpAddr where
  | v4 (ip : Ipv4Addr)
  | v6 (ip : Ipv6Addr)
  deriving DecidableEq, Repr

namespace SocketAddr

def ip : SocketAddr → IpAddr
  | v4 ip _ => .v4 ip
  | v6 ip _ _ _ => .v6 ip

def ofIp (ip : IpAddr) (port : UInt16) : SocketAddr :=
  match ip with
  | .v4 ip => v4 ip port
  | .v6 ip => v6 ip port 0 0

end SocketAddr

structure DhtArgs where
  id : Option (List UInt8)
  infoHash : Option (List UInt8)
  token : Option (List UInt8)
  port : Option UInt16
  impliedPort : Option UInt8

inductive MessageKind where
  | query
  | response
  | error
  | other
  deriving DecidableEq, Repr

inductive QueryKind where
  | announcePeer
  | getPeers
  | other
  deriving DecidableEq, Repr

structure DhtMessage where
  t : List UInt8
  y : MessageKind
  q : Option QueryKind
  a : Option DhtArgs
  r : Option DhtResponse

def transactionIdFromBytes (bytes : List UInt8) : Option TransactionId :=
  if bytes.length = 8 then some (BigEndian.value bytes) else none

def tidTag (tid : TransactionId) : ℕ := tid / 2 ^ 56

def isSampleTid (tid : TransactionId) : Bool := tidTag tid = Discovery.sampleTidTag

def isPeerLookupTid (tid : TransactionId) : Bool := tidTag tid = lookupTidTag

/-! ### Announcements -/

def validateToken (generateToken : IpAddr → List UInt8) (token : List UInt8) (addr : SocketAddr) : Bool :=
  decide (token.length = 8) && decide (token = generateToken addr.ip)

def announcedPort (args : DhtArgs) (addr : SocketAddr) : UInt16 :=
  match args.impliedPort with
  | some implied => if implied ≠ 0 then addr.port else args.port.getD 0
  | none => args.port.getD addr.port

/-- The hash that `handle_announce_peer` queues; `accepted` is the verdict of the hash filter. -/
def handleAnnouncePeer (generateToken : IpAddr → List UInt8) (args : DhtArgs) (addr : SocketAddr)
    (accepted : Bool) (now : Instant) : Option HashDiscovered :=
  match args.token with
  | none => none
  | some token =>
    if !validateToken generateToken token addr then none
    else
      match args.infoHash.bind nodeIdOf with
      | none => none
      | some infoHash =>
        if !accepted then none
        else
          let port := announcedPort args addr
          if port > 0 then
            some
              { infoHash := hexEncode infoHash.toList
                peerAddr := some (.ofIp addr.ip port)
                sourceNode := (args.id.bind nodeIdOf).map fun id => ⟨id, addr⟩
                source := .announce
                discoveredAt := now }
          else none

/-! ### Workers of the scheduler -/

def hexValue (c : Char) : Option ℕ :=
  if '0' ≤ c ∧ c ≤ '9' then some (c.toNat - 48)
  else if 'a' ≤ c ∧ c ≤ 'f' then some (c.toNat - 87)
  else if 'A' ≤ c ∧ c ≤ 'F' then some (c.toNat - 55)
  else none

def hexDecode : List Char → Option (List UInt8)
  | [] => some []
  | [_] => none
  | high :: low :: rest => do
      let high ← hexValue high
      let low ← hexValue low
      let bytes ← hexDecode rest
      some (UInt8.ofNat (high * 16 + low) :: bytes)

def decodeInfoHash (hash : String) : Option NodeId := (hexDecode hash.toList).bind nodeIdOf

/-- The task of a job: before its race it holds the receiver of the live peers. -/
structure Worker (M : Type) where
  job : MetadataJob
  peerRx : Channel PeerCandidate
  race : Option (NodeId × Race M)

namespace Worker

variable {M : Type}

def onRace (w : Worker M) (f : Race M → Race M) : Worker M :=
  { w with race := w.race.map fun (infoHash, race) => (infoHash, f race) }

/-- The sender in the in-flight state of the job offers a live peer. -/
def sendLive (w : Worker M) (peer : PeerCandidate) : Worker M × Bool :=
  match w.race with
  | none =>
    let (peerRx, sent) := w.peerRx.trySend peer
    ({ w with peerRx }, sent)
  | some (infoHash, race) =>
    let (peerRx, sent) := race.peerRx.trySend peer
    ({ w with race := some (infoHash, { race with peerRx }) }, sent)

/-- The gate has let the job pass, and its race starts if the hash can be decoded. -/
def enterRace (w : Worker M) (hasLookup : Bool) : Worker M :=
  match w.race with
  | some _ => w
  | none =>
    { w with
      race := (decodeInfoHash w.job.infoHash).map fun infoHash =>
        (infoHash, Race.start w.job.peers w.peerRx hasLookup) }

end Worker

inductive WorkerEvent (M : Type) where
  | admitted
  | branch (branch : Race.Branch M)
  | liveDropped
  | lookupDropped

/-! ### The server -/

structure LookupReply where
  remoteAddr : SocketAddr
  tid : TransactionId
  response : DhtResponse

structure SampleReply where
  addr : SocketAddr
  tid : TransactionId
  response : Option DhtResponse

structure HashInput where
  hash : NodeId
  node : NodeTuple

structure ServerConfig where
  netmode : NetMode
  localId : NodeId
  generateToken : IpAddr → List UInt8
  crawlOptions : CrawlOptions
  lookupOptions : PeerLookupOptions
  discoveryOptions : Discovery.DiscoveryOptions
  scheduler : MetadataScheduler
  hashQueueCapacity : ℕ
  priorityEventChannelCapacity : ℕ

/-- `peerTx` stands for the senders in the in-flight states: the number of the job a hash is in flight for. -/
structure Server (M : Type) where
  crawl : CrawlActor
  lookup : PeerLookupActor
  discovery : DiscoveryActor
  scheduler : SchedulerState
  peerTx : FiniteMap String ℕ
  workers : FiniteMap ℕ (Worker M)
  crawlResponses : Channel LookupReply
  lookupResponses : Channel LookupReply
  sampleResponses : Channel SampleReply
  hashInputs : Channel HashInput
  lookupRequests : Channel PeerLookupRequest
  hashEvents : Channel HashDiscovered
  announces : List (DhtArgs × SocketAddr)
  answers : List (NodeId × DhtResponse)

namespace Server

variable {M : Type}

def lookupRequestCapacity : ℕ := 1024

def lookupResponseCapacity : ℕ := 4096

def hashInputCapacity : ℕ := 1024

def sampleResponseCapacity : ℕ := 256

def new (config : ServerConfig) (now : Instant) : Server M where
  crawl := .new (.fromOptions config.crawlOptions) config.netmode config.localId
    config.scheduler.maxQueueSize now
  lookup := .new config.lookupOptions config.netmode (config.netmode ≠ .ipv6Only)
    (config.netmode ≠ .ipv4Only) now
  discovery := .new config.discoveryOptions config.netmode (config.netmode ≠ .ipv6Only)
    (config.netmode ≠ .ipv4Only) now
  scheduler := config.scheduler.start
  peerTx := .empty
  workers := .empty
  crawlResponses := .new config.priorityEventChannelCapacity
  lookupResponses := .new lookupResponseCapacity
  sampleResponses := .new sampleResponseCapacity
  hashInputs := .new hashInputCapacity
  lookupRequests := .new lookupRequestCapacity
  hashEvents := .new config.hashQueueCapacity
  announces := []
  answers := []

/-! ### Datagrams -/

def routeSample (server : Server M) (reply : SampleReply) : Server M :=
  { server with sampleResponses := (server.sampleResponses.trySend reply).1 }

def routeLookup (server : Server M) (reply : LookupReply) : Server M :=
  { server with lookupResponses := (server.lookupResponses.trySend reply).1 }

def routeCrawl (server : Server M) (reply : LookupReply) : Server M :=
  { server with crawlResponses := (server.crawlResponses.trySend reply).1 }

def routeResponse (server : Server M) (addr : SocketAddr) (tid : TransactionId) (response : DhtResponse) :
    Server M :=
  if isSampleTid tid then server.routeSample ⟨addr, tid, some response⟩
  else if isPeerLookupTid tid then server.routeLookup ⟨addr, tid, response⟩
  else server.routeCrawl ⟨addr, tid, response⟩

def routeError (server : Server M) (addr : SocketAddr) (tid : TransactionId) : Server M :=
  if isSampleTid tid then server.routeSample ⟨addr, tid, none⟩ else server

def sendHash (server : Server M) (event : HashDiscovered) : Server M :=
  { server with hashEvents := (server.hashEvents.trySend event).1 }

def observeGetPeers (server : Server M) (args : DhtArgs) (addr : SocketAddr) : Server M :=
  if isValidNodeAddr addr then
    match args.infoHash.bind nodeIdOf, args.id.bind nodeIdOf with
    | some hash, some id =>
      { server with hashInputs := (server.hashInputs.trySend ⟨hash, ⟨id, addr⟩⟩).1 }
    | _, _ => server
  else server

def handleQuery (config : ServerConfig) (server : Server M) (kind : QueryKind) (args : DhtArgs)
    (addr : SocketAddr) (accepted : Bool) (now : Instant) : Server M :=
  match kind with
  | .announcePeer =>
    let server := { server with announces := (args, addr) :: server.announces }
    match handleAnnouncePeer config.generateToken args addr accepted now with
    | some event => server.sendHash event
    | none => server
  | .getPeers => server.observeGetPeers args addr
  | .other => server

def handleMessage (config : ServerConfig) (server : Server M) (msg : DhtMessage) (addr : SocketAddr)
    (accepted : Bool) (now : Instant) : Server M :=
  match msg.y with
  | .query =>
    match msg.q, msg.a with
    | some kind, some args => server.handleQuery config kind args addr accepted now
    | _, _ => server
  | .response =>
    match msg.r, transactionIdFromBytes msg.t with
    | some response, some tid => server.routeResponse addr tid response
    | _, _ => server
  | .error =>
    match transactionIdFromBytes msg.t with
    | some tid => server.routeError addr tid
    | none => server
  | .other => server

/-! ### The crawl actor -/

/-- The events of the crawl actor that are not responses, if they are possible. -/
def crawlReady (server : Server M) (now : Instant) : CrawlActor.Event → Bool
  | .response _ _ => false
  | .bootstrapResolved _ => decide (server.crawl.clock ≤ now) && decide (0 < server.crawl.resolving)
  | _ => decide (server.crawl.clock ≤ now)

def crawlEvent (server : Server M) (now : Instant) (event : CrawlActor.Event) : Except Panic (Server M) :=
  if server.crawlReady now event then do
    let crawl ← server.crawl.handle now event
    .ok { server with crawl }
  else .ok server

def crawlResponse (server : Server M) (now : Instant) : Except Panic (Server M) :=
  match server.crawlResponses.recv with
  | some (some reply, crawlResponses) =>
    if server.crawl.clock ≤ now then do
      let crawl ← server.crawl.handle now (.response ⟨reply.remoteAddr, reply.tid⟩ reply.response)
      .ok { server with crawl, crawlResponses }
    else .ok server
  | _ => .ok server

/-! ### The discovery actor -/

/-- The hashes that the actor has queued since are sent, the oldest first. -/
def withDiscovery (server : Server M) (discovery : DiscoveryActor) : Server M :=
  let queued := discovery.emitted.take (discovery.emitted.length - server.discovery.emitted.length)
  queued.reverse.foldl sendHash { server with discovery }

def discoveryTick (server : Server M) (future : ℕ → Discovery.Look) (iteration : Iteration SocketAddr)
    (seeds : List NodeTuple) : Except Panic (Server M) := do
  let discovery ← server.discovery.handle future (.tick iteration seeds)
  .ok (server.withDiscovery discovery)

def discoveryResponse (server : Server M) (future : ℕ → Discovery.Look) (answers : ℕ → Answer) :
    Except Panic (Server M) :=
  match server.sampleResponses.recv with
  | some (some reply, sampleResponses) => do
      let discovery ← server.discovery.handle future (.response reply.addr reply.tid reply.response answers)
      .ok ({ server with sampleResponses }.withDiscovery discovery)
  | _ => .ok server

def discoveryInput (server : Server M) (future : ℕ → Discovery.Look) (answer : Answer) :
    Except Panic (Server M) :=
  match server.hashInputs.recv with
  | some (some input, hashInputs) => do
      let discovery ← server.discovery.handle future (.input input.hash input.node answer)
      .ok ({ server with hashInputs }.withDiscovery discovery)
  | _ => .ok server

/-! ### The lookup actor -/

def onWorker (server : Server M) (serial : ℕ) (f : Worker M → Worker M) : Server M :=
  match server.workers.get serial with
  | none => server
  | some w => { server with workers := server.workers.insert serial (f w) }

def matchedLookup (server : Server M) (key : PeerLookup.PendingKey) : Option LookupState :=
  (server.lookup.pending.get key).bind fun query => server.lookup.active.get query.lookupId

def lookupRequest (server : Server M) (future : ℕ → Look) (published : Published) :
    Except Panic (Server M) :=
  match server.lookupRequests.recv with
  | some (some request, lookupRequests) => do
      let lookup ← server.lookup.handle future (.request request published)
      .ok { server with lookup, lookupRequests }
  | _ => .ok server

def deliver (server : Server M) (serial : ℕ) (peers : List SocketAddr) : Server M :=
  server.onWorker serial fun w => w.onRace fun race => race.run (peers.map .lookupSent)

/-- The peers that are learned from a response go to the stream of its lookup. -/
def lookupResponse (server : Server M) (future : ℕ → Look) : Except Panic (Server M) :=
  match server.lookupResponses.recv with
  | some (some reply, lookupResponses) => do
      let key : PeerLookup.PendingKey := ⟨reply.remoteAddr, reply.tid⟩
      let lookup ← server.lookup.handle future (.response key reply.response)
      match server.matchedLookup key with
      | none => .ok { server with lookup, lookupResponses }
      | some state =>
        let delivered := lookup.deliveries.take (lookup.deliveries.length - server.lookup.deliveries.length)
        .ok ({ server with
            lookup
            lookupResponses
            answers := (state.infoHash, reply.response) :: server.answers }.deliver state.peerTx
          (delivered.map Delivery.peer))
  | _ => .ok server

def lookupMaintenance (server : Server M) (future : ℕ → Look) (iteration : Iteration ℕ) :
    Except Panic (Server M) := do
  let lookup ← server.lookup.handle future (.maintenance iteration)
  .ok { server with lookup }

/-! ### The scheduler -/

def spawnWorker (server : Server M) (serial : ℕ) : Server M :=
  match server.scheduler.traces.get serial with
  | none => server
  | some trace =>
    { server with
      workers := server.workers.insert serial ⟨trace.job, .new maxMetadataCandidatesPerHash, none⟩
      peerTx := server.peerTx.insert trace.job.infoHash serial }

/-- The scheduler has taken a step; the jobs it dispatched get their workers. -/
def withScheduler (server : Server M) (scheduler : SchedulerState) : Server M :=
  (List.range' server.scheduler.totalDispatched
    (scheduler.totalDispatched - server.scheduler.totalDispatched)).foldl spawnWorker { server with scheduler }

def schedulerEvent (config : ServerConfig) (server : Server M)
    (event : SchedulerEvent) : Except Panic (Server M) :=
  match event with
  | .hashReceived .. => .ok server
  | event => do
      let scheduler ← config.scheduler.step server.scheduler event
      .ok (server.withScheduler scheduler)

/-- The candidate that `enqueue` offers to the job of a hash in flight. -/
def liveCandidate (scheduler : SchedulerState) (hash : HashDiscovered) (now : Instant) :
    Option PeerCandidate :=
  match scheduler.inFlight.get hash.infoHash, hash.peerAddr with
  | some state, some addr =>
    if now - hash.discoveredAt ≤ hashQueueTtl ∧ addr ∉ state.scheduledPeers ∧
        state.scheduledPeers.card < maxMetadataCandidatesPerHash then
      some ⟨addr, hash.discoveredAt⟩
    else none
  | _, _ => none

/-- The candidate is sent to the worker of the hash; the answer tells whether its channel took it. -/
def sendLive (server : Server M) (infoHash : String) : Option PeerCandidate → Server M × Bool
  | none => (server, false)
  | some peer =>
    match (server.peerTx.get infoHash).bind fun serial =>
        (server.workers.get serial).map fun w => (serial, w.sendLive peer) with
    | none => (server, false)
    | some (serial, w, sent) => ({ server with workers := server.workers.insert serial w }, sent)

/-- The branch of the scheduler that takes a hash from its queue. -/
def hashEvent (config : ServerConfig) (server : Server M) (now : Instant) : Except Panic (Server M) :=
  if server.scheduler.phase = .waiting ∧ server.scheduler.inputClosed = false then
    match server.hashEvents.recv with
    | some (some hash, hashEvents) => do
        let (server, room) :=
          { server with hashEvents }.sendLive hash.infoHash (liveCandidate server.scheduler hash now)
        let scheduler ← config.scheduler.step server.scheduler (.hashReceived hash now room)
        .ok (server.withScheduler scheduler)
    | _ => .ok server
  else .ok server

/-! ### The workers -/

/-- A race that is ready to submit its lookup sends the request, with its own number for the stream. -/
def submitLookup (server : Server M) (serial : ℕ) (w : Worker M) (infoHash : NodeId) (race : Race M) :
    Server M :=
  if race.phase matches .waiting && race.enabled (.submitLookup true) then
    let (lookupRequests, accepted) := server.lookupRequests.trySend ⟨infoHash, serial, w.job.sourceNodes⟩
    { server with lookupRequests }.onWorker serial fun w =>
      w.onRace fun race => race.step (.branch (.submitLookup accepted))
  else server

def workerEvent (config : ServerConfig) (server : Server M) (serial : ℕ) (event : WorkerEvent M) :
    Server M :=
  match event with
  | .admitted => server.onWorker serial fun w => w.enterRace config.scheduler.hasPeerLookup
  | .liveDropped => server.onWorker serial fun w => w.onRace fun race => race.step .liveDropped
  | .lookupDropped => server.onWorker serial fun w => w.onRace fun race => race.step .lookupDropped
  | .branch (.submitLookup _) =>
    match server.workers.get serial with
    | none => server
    | some w =>
      match w.race with
      | none => server
      | some (infoHash, race) => server.submitLookup serial w infoHash race
  | .branch branch => server.onWorker serial fun w => w.onRace fun race => race.step (.branch branch)

/-! ### Runs -/

inductive Event (M : Type) where
  | datagram (msg : DhtMessage) (addr : SocketAddr) (accepted : Bool) (now : Instant)
  | crawlEvent (now : Instant) (event : CrawlActor.Event)
  | crawlResponse (now : Instant)
  | discoveryTick (future : ℕ → Discovery.Look) (iteration : Iteration SocketAddr) (seeds : List NodeTuple)
  | discoveryResponse (future : ℕ → Discovery.Look) (answers : ℕ → Answer)
  | discoveryInput (future : ℕ → Discovery.Look) (answer : Answer)
  | lookupRequest (future : ℕ → Look) (published : Published)
  | lookupResponse (future : ℕ → Look)
  | lookupMaintenance (future : ℕ → Look) (iteration : Iteration ℕ)
  | schedulerEvent (event : SchedulerEvent)
  | hashEvent (now : Instant)
  | workerEvent (serial : ℕ) (event : WorkerEvent M)

def step (config : ServerConfig) (server : Server M) : Event M → Except Panic (Server M)
  | .datagram msg addr accepted now => .ok (server.handleMessage config msg addr accepted now)
  | .crawlEvent now event => server.crawlEvent now event
  | .crawlResponse now => server.crawlResponse now
  | .discoveryTick future iteration seeds => server.discoveryTick future iteration seeds
  | .discoveryResponse future answers => server.discoveryResponse future answers
  | .discoveryInput future answer => server.discoveryInput future answer
  | .lookupRequest future published => server.lookupRequest future published
  | .lookupResponse future => server.lookupResponse future
  | .lookupMaintenance future iteration => server.lookupMaintenance future iteration
  | .schedulerEvent event => server.schedulerEvent config event
  | .hashEvent now => server.hashEvent config now
  | .workerEvent serial event => .ok (server.workerEvent config serial event)

inductive Reachable (config : ServerConfig) : Server M → Prop where
  | start (now : Instant) : Reachable config (new config now)
  | step {server server'} (event : Event M) (hr : Reachable config server)
      (hs : server.step config event = .ok server') : Reachable config server'

end Server

end DhtCrawler
