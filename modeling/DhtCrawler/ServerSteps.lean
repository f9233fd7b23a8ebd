import DhtCrawler.CrawlAccounting
import DhtCrawler.DiscoveryReplies
import DhtCrawler.LookupBookkeeping
import DhtCrawler.LookupReplies
import DhtCrawler.ServerModel

/-! What a step of the server can be, and which of its parts each piece of a step leaves alone. -/

namespace DhtCrawler.Server

open FiniteMap PeerLookup Except Server MetadataScheduler

variable {M : Type} {config : ServerConfig} {server server' : Server M}

variable {event : CrawlActor.Event}

/-! ### Parts of a step -/

lemma sendHash_foldl (events : List HashDiscovered) (server : Server M) :
    ∃ hashEvents, events.foldl sendHash server = { server with hashEvents } := by
  induction events generalizing server with
  | nil => exact ⟨server.hashEvents, rfl⟩
  | cons event events ih =>
    obtain ⟨hashEvents, heq⟩ := ih (server.sendHash event)
    exact ⟨hashEvents, heq⟩

lemma withDiscovery_eq (server : Server M) (discovery : Discovery.DiscoveryActor) :
    ∃ hashEvents, server.withDiscovery discovery = { server with discovery, hashEvents } := by
  unfold withDiscovery
  exact sendHash_foldl _ { server with discovery }

lemma onWorker_eq (server : Server M) (serial : ℕ) (f : Worker M → Worker M) :
    ∃ workers, server.onWorker serial f = { server with workers } := by
  unfold onWorker
  split
  · exact ⟨server.workers, rfl⟩
  · exact ⟨_, rfl⟩

lemma spawnWorker_eq (server : Server M) (serial : ℕ) :
    ∃ workers peerTx, server.spawnWorker serial = { server with workers, peerTx } := by
  unfold spawnWorker
  split
  · exact ⟨server.workers, server.peerTx, rfl⟩
  · exact ⟨_, _, rfl⟩

lemma withScheduler_eq (server : Server M) (scheduler : SchedulerState) :
    ∃ workers peerTx, server.withScheduler scheduler = { server with scheduler, workers, peerTx } := by
  have hspawn : ∀ (serials : List ℕ) (server : Server M),
      ∃ workers peerTx, serials.foldl spawnWorker server = { server with workers, peerTx } := by
    intro serials
    induction serials with
    | nil => exact fun server => ⟨server.workers, server.peerTx, rfl⟩
    | cons serial serials ih =>
      intro server
      obtain ⟨workers, peerTx, heq⟩ := spawnWorker_eq server serial
      rw [List.foldl_cons, heq]
      exact ih _
  exact hspawn _ { server with scheduler }

lemma sendLive_eq (server : Server M) (infoHash : String) (peer : Option PeerCandidate) :
    ∃ workers sent, server.sendLive infoHash peer = ({ server with workers }, sent) := by
  unfold sendLive
  split
  · exact ⟨server.workers, false, rfl⟩
  · split
    · exact ⟨server.workers, false, rfl⟩
    · exact ⟨_, _, rfl⟩

lemma withScheduler_live_eq {live : Server M} {infoHash : String} {peer : Option PeerCandidate} {room : Bool}
    (hlive : server.sendLive infoHash peer = (live, room)) (scheduler : SchedulerState) :
    ∃ workers peerTx, live.withScheduler scheduler = { server with scheduler, workers, peerTx } := by
  obtain ⟨_, _, hsend⟩ := sendLive_eq server infoHash peer
  cases hlive.symm.trans hsend
  exact withScheduler_eq _ scheduler

lemma workerEvent_eq (config : ServerConfig) (server : Server M) (serial : ℕ) (event : WorkerEvent M) :
    ∃ workers lookupRequests, server.workerEvent config serial event =
      { server with workers, lookupRequests } := by
  have hworker : ∀ (server : Server M) (f : Worker M → Worker M), ∃ workers lookupRequests,
      server.onWorker serial f = { server with workers, lookupRequests } := by
    intro server f
    obtain ⟨workers, heq⟩ := onWorker_eq server serial f
    exact ⟨workers, server.lookupRequests, heq⟩
  have hidle : ∃ workers lookupRequests, server = { server with workers, lookupRequests } :=
    ⟨server.workers, server.lookupRequests, rfl⟩
  unfold workerEvent
  split
  · exact hworker server _
  · exact hworker server _
  · exact hworker server _
  · split
    · exact hidle
    · split
      · exact hidle
      · unfold submitLookup
        split_ifs
        · cases server.lookupRequests.trySend _ with
          | mk lookupRequests accepted =>
            obtain ⟨workers, heq⟩ := onWorker_eq { server with lookupRequests } serial _
            exact ⟨workers, lookupRequests, heq⟩
        · exact hidle
  · exact hworker server _

lemma routeResponse_eq (server : Server M) (addr : SocketAddr) (tid : TransactionId) (response : DhtResponse) :
    ∃ crawlResponses lookupResponses sampleResponses, server.routeResponse addr tid response =
      { server with crawlResponses, lookupResponses, sampleResponses } := by
  unfold routeResponse
  split_ifs
  · exact ⟨server.crawlResponses, server.lookupResponses, _, rfl⟩
  · exact ⟨server.crawlResponses, _, server.sampleResponses, rfl⟩
  · exact ⟨_, server.lookupResponses, server.sampleResponses, rfl⟩

/-! ### Steps -/

inductive Transition (config : ServerConfig) (server : Server M) : Event M → Server M → Prop where
  | idle (event : Event M) : Transition config server event server
  | datagram (msg : DhtMessage) (addr : SocketAddr) (accepted : Bool) (now : Instant) :
      Transition config server (.datagram msg addr accepted now)
        (server.handleMessage config msg addr accepted now)
  | crawlEvent (now : Instant) (event : CrawlActor.Event) {crawl}
      (hnow : server.crawl.clock ≤ now) (hpossible : event.Possible server.crawl)
      (hrun : server.crawl.handle now event = .ok crawl) :
      Transition config server (.crawlEvent now event) { server with crawl }
  | crawlResponse (now : Instant) {reply crawlResponses crawl} (hrecv : server.crawlResponses.recv = some (some reply, crawlResponses))
      (hnow : server.crawl.clock ≤ now)
      (hrun : server.crawl.handle now (.response ⟨reply.remoteAddr, reply.tid⟩ reply.response) = .ok crawl) :
      Transition config server (.crawlResponse now) { server with crawl, crawlResponses }
  | discoveryTick (future : ℕ → Discovery.Look) (iteration : Iteration SocketAddr)
      (seeds : List NodeTuple) {discovery}
      (hrun : server.discovery.handle future (.tick iteration seeds) = .ok discovery) :
      Transition config server (.discoveryTick future iteration seeds) (server.withDiscovery discovery)
  | discoveryResponse (future : ℕ → Discovery.Look) (answers : ℕ → Discovery.Answer) {reply sampleResponses discovery}
      (hrecv : server.sampleResponses.recv = some (some reply, sampleResponses))
      (hrun : server.discovery.handle future (.response reply.addr reply.tid reply.response answers) =
        .ok discovery) :
      Transition config server (.discoveryResponse future answers)
        ({ server with sampleResponses }.withDiscovery discovery)
  | discoveryInput (future : ℕ → Discovery.Look) (answer : Discovery.Answer) {input hashInputs discovery}
      (hrecv : server.hashInputs.recv = some (some input, hashInputs))
      (hrun : server.discovery.handle future (.input input.hash input.node answer) = .ok discovery) :
      Transition config server (.discoveryInput future answer)
        ({ server with hashInputs }.withDiscovery discovery)
  | lookupRequest (future : ℕ → Look) (published : Published)
      {request lookupRequests lookup}
      (hrecv : server.lookupRequests.recv = some (some request, lookupRequests))
      (hrun : server.lookup.handle future (.request request published) = .ok lookup) :
      Transition config server (.lookupRequest future published) { server with lookup, lookupRequests }
  | unmatchedResponse (future : ℕ → Look) {reply lookupResponses lookup}
      (hrecv : server.lookupResponses.recv = some (some reply, lookupResponses))
      (hrun : server.lookup.handle future (.response ⟨reply.remoteAddr, reply.tid⟩ reply.response) =
        .ok lookup) (hmatch : server.matchedLookup ⟨reply.remoteAddr, reply.tid⟩ = none) :
      Transition config server (.lookupResponse future) { server with lookup, lookupResponses }
  | matchedResponse (future : ℕ → Look) {reply lookupResponses lookup state}
      (hrecv : server.lookupResponses.recv = some (some reply, lookupResponses))
      (hrun : server.lookup.handle future (.response ⟨reply.remoteAddr, reply.tid⟩ reply.response) =
        .ok lookup) (hmatch : server.matchedLookup ⟨reply.remoteAddr, reply.tid⟩ = some state) :
      Transition config server (.lookupResponse future)
        ({ server with
            lookup
            lookupResponses
            answers := (state.infoHash, reply.response) :: server.answers }.deliver state.peerTx
          ((lookup.deliveries.take (lookup.deliveries.length - server.lookup.deliveries.length)).map
            Delivery.peer))
  | lookupMaintenance (future : ℕ → Look) (iteration : Iteration ℕ)
      {lookup}
      (hrun : server.lookup.handle future (.maintenance iteration) = .ok lookup) :
      Transition config server (.lookupMaintenance future iteration) { server with lookup }
  | schedulerEvent (event : SchedulerEvent) {scheduler}
      (hevent : ∀ hash now room, event ≠ .hashReceived hash now room)
      (hrun : config.scheduler.step server.scheduler event = .ok scheduler) :
      Transition config server (.schedulerEvent event) (server.withScheduler scheduler)
  | hashEvent (now : Instant) {hash hashEvents live room scheduler}
      (hrecv : server.hashEvents.recv = some (some hash, hashEvents))
      (hlive : { server with hashEvents }.sendLive hash.infoHash (liveCandidate server.scheduler hash now) =
        (live, room))
      (hrun : config.scheduler.step live.scheduler (.hashReceived hash now room) = .ok scheduler) :
      Transition config server (.hashEvent now) (live.withScheduler scheduler)
  | workerEvent (serial : ℕ) (event : WorkerEvent M) :
      Transition config server (.workerEvent serial event) (server.workerEvent config serial event)

variable {now : Instant}

lemma crawlReady_possible (h : server.crawlReady now event = true) :
    server.crawl.clock ≤ now ∧ event.Possible server.crawl := by
  unfold crawlReady at h
  split at h
  · cases h
  · obtain ⟨hnow, hresolving⟩ := Bool.and_eq_true_iff.mp h
    have hresolving : 0 < server.crawl.resolving := of_decide_eq_true hresolving
    exact ⟨of_decide_eq_true hnow, hresolving⟩
  · rename_i hresponse hresolved
    refine ⟨of_decide_eq_true h, ?_⟩
    cases event with
    | bootstrapResolved addrs => exact absurd rfl (hresolved addrs)
    | _ => trivial

lemma crawlEvent_transition (hs : server.crawlEvent now event = .ok server') :
    Transition config server (.crawlEvent now event) server' := by
  unfold crawlEvent at hs
  split_ifs at hs with hready
  · obtain ⟨crawl, hrun, heq⟩ := bind_eq_ok.mp hs
    cases heq
    obtain ⟨hnow, hpossible⟩ := crawlReady_possible hready
    exact .crawlEvent now event hnow hpossible hrun
  · cases hs
    exact .idle _

lemma crawlResponse_transition (hs : server.crawlResponse now = .ok server') :
    Transition config server (.crawlResponse now) server' := by
  unfold crawlResponse at hs
  split at hs
  · rename_i hrecv
    split_ifs at hs with hnow
    · obtain ⟨crawl, hrun, heq⟩ := bind_eq_ok.mp hs
      cases heq
      exact .crawlResponse now hrecv hnow hrun
    · cases hs
      exact .idle _
  · cases hs
    exact .idle _

lemma lookupResponse_transition {future : ℕ → Look} (hs : server.lookupResponse future = .ok server') :
    Transition config server (.lookupResponse future) server' := by
  unfold lookupResponse at hs
  split at hs
  · rename_i reply _ hrecv
    obtain ⟨lookup, hrun, heq⟩ := bind_eq_ok.mp hs
    cases hmatch : server.matchedLookup ⟨reply.remoteAddr, reply.tid⟩ with
    | none =>
      rw [hmatch] at heq
      cases heq
      exact .unmatchedResponse future hrecv hrun hmatch
    | some state =>
      rw [hmatch] at heq
      cases heq
      exact .matchedResponse future hrecv hrun hmatch
  · cases hs
    exact .idle _

lemma hashEvent_transition (hs : server.hashEvent config now = .ok server') :
    Transition config server (.hashEvent now) server' := by
  unfold hashEvent at hs
  split_ifs at hs
  · split at hs
    · rename_i hash hashEvents hrecv
      cases hlive : { server with hashEvents }.sendLive hash.infoHash
          (liveCandidate server.scheduler hash now) with
      | mk live room =>
        rw [hlive] at hs
        obtain ⟨scheduler, hrun, heq⟩ := bind_eq_ok.mp hs
        cases heq
        exact .hashEvent now hrecv hlive hrun
    · cases hs
      exact .idle _
  · cases hs
    exact .idle _

lemma step_transition {event : Event M} (hs : server.step config event = .ok server') :
    Transition config server event server' := by
  cases event with
  | datagram msg addr accepted now =>
    cases hs
    exact .datagram msg addr accepted now
  | crawlEvent now event => exact crawlEvent_transition hs
  | crawlResponse now => exact crawlResponse_transition hs
  | discoveryTick future iteration seeds =>
    obtain ⟨discovery, hrun, heq⟩ := bind_eq_ok.mp hs
    cases heq
    exact .discoveryTick future iteration seeds hrun
  | discoveryResponse future answers =>
    have hs : server.discoveryResponse future answers = .ok server' := hs
    unfold discoveryResponse at hs
    split at hs
    · rename_i hrecv
      obtain ⟨discovery, hrun, heq⟩ := bind_eq_ok.mp hs
      cases heq
      exact .discoveryResponse future answers hrecv hrun
    · cases hs
      exact .idle _
  | discoveryInput future answer =>
    have hs : server.discoveryInput future answer = .ok server' := hs
    unfold discoveryInput at hs
    split at hs
    · rename_i hrecv
      obtain ⟨discovery, hrun, heq⟩ := bind_eq_ok.mp hs
      cases heq
      exact .discoveryInput future answer hrecv hrun
    · cases hs
      exact .idle _
  | lookupRequest future published =>
    have hs : server.lookupRequest future published = .ok server' := hs
    unfold lookupRequest at hs
    split at hs
    · rename_i hrecv
      obtain ⟨lookup, hrun, heq⟩ := bind_eq_ok.mp hs
      cases heq
      exact .lookupRequest future published hrecv hrun
    · cases hs
      exact .idle _
  | lookupResponse future => exact lookupResponse_transition hs
  | lookupMaintenance future iteration =>
    obtain ⟨lookup, hrun, heq⟩ := bind_eq_ok.mp hs
    cases heq
    exact .lookupMaintenance future iteration hrun
  | schedulerEvent event =>
    have hs : server.schedulerEvent config event = .ok server' := hs
    unfold schedulerEvent at hs
    split at hs
    · cases hs
      exact .idle _
    · rename_i hevent
      obtain ⟨scheduler, hrun, heq⟩ := bind_eq_ok.mp hs
      cases heq
      exact .schedulerEvent event (fun hash now room heq => hevent hash now room heq) hrun
  | hashEvent now => exact hashEvent_transition hs
  | workerEvent serial event =>
    cases hs
    exact .workerEvent serial event

/-! ### The actors -/

structure Actors (config : ServerConfig) (server : Server M) : Prop where
  crawl : CrawlActor.Reachable config.crawlOptions server.crawl
  lookup : PeerLookupActor.Reachable config.lookupOptions server.lookup
  discovery : Discovery.DiscoveryActor.Reachable config.discoveryOptions server.discovery
  scheduler : MetadataScheduler.Reachable config.scheduler server.scheduler

lemma handleMessage_actors (config : ServerConfig) (server : Server M) (msg : DhtMessage)
    (addr : SocketAddr) (accepted : Bool) (now : Instant) :
    (server.handleMessage config msg addr accepted now).crawl = server.crawl ∧
      (server.handleMessage config msg addr accepted now).lookup = server.lookup ∧
      (server.handleMessage config msg addr accepted now).discovery = server.discovery ∧
      (server.handleMessage config msg addr accepted now).scheduler = server.scheduler := by
  unfold handleMessage
  split
  · split
    · unfold handleQuery
      split
      · split <;> exact ⟨rfl, rfl, rfl, rfl⟩
      · unfold observeGetPeers
        split_ifs
        · split <;> exact ⟨rfl, rfl, rfl, rfl⟩
        · exact ⟨rfl, rfl, rfl, rfl⟩
      · exact ⟨rfl, rfl, rfl, rfl⟩
    · exact ⟨rfl, rfl, rfl, rfl⟩
  · split
    · obtain ⟨_, _, _, heq⟩ := routeResponse_eq server addr _ _
      rw [heq]
      exact ⟨rfl, rfl, rfl, rfl⟩
    · exact ⟨rfl, rfl, rfl, rfl⟩
  · split
    · unfold routeError
      split_ifs <;> exact ⟨rfl, rfl, rfl, rfl⟩
    · exact ⟨rfl, rfl, rfl, rfl⟩
  · exact ⟨rfl, rfl, rfl, rfl⟩

lemma Transition.actors {event : Event M} (ht : Transition config server event server')
    (h : server.Actors config) : server'.Actors config := by
  cases ht with
  | idle => exact h
  | datagram msg addr accepted now =>
    obtain ⟨hcrawl, hlookup, hdiscovery, hscheduler⟩ := handleMessage_actors config server msg addr accepted now
    exact ⟨hcrawl ▸ h.crawl, hlookup ▸ h.lookup, hdiscovery ▸ h.discovery, hscheduler ▸ h.scheduler⟩
  | crawlEvent now event hnow hpossible hrun =>
    exact { h with crawl := h.crawl.step now event hnow hpossible hrun }
  | crawlResponse now hrecv hnow hrun =>
    exact { h with crawl := h.crawl.step now (.response _ _) hnow trivial hrun }
  | discoveryTick future iteration seeds hrun =>
    obtain ⟨_, heq⟩ := withDiscovery_eq server _
    rw [heq]
    exact { h with discovery := h.discovery.step ⟨_, _, hrun⟩ }
  | @discoveryResponse future answers reply sampleResponses discovery hrecv hrun =>
    obtain ⟨_, heq⟩ := withDiscovery_eq { server with sampleResponses } discovery
    rw [heq]
    exact { h with discovery := h.discovery.step ⟨_, _, hrun⟩ }
  | @discoveryInput future answer input hashInputs discovery hrecv hrun =>
    obtain ⟨_, heq⟩ := withDiscovery_eq { server with hashInputs } discovery
    rw [heq]
    exact { h with discovery := h.discovery.step ⟨_, _, hrun⟩ }
  | lookupRequest future published hrecv hrun => exact { h with lookup := h.lookup.step _ _ hrun }
  | unmatchedResponse future hrecv hrun => exact { h with lookup := h.lookup.step _ _ hrun }
  | matchedResponse future hrecv hrun =>
    unfold deliver
    obtain ⟨_, heq⟩ := onWorker_eq _ _ _
    rw [heq]
    exact { h with lookup := h.lookup.step _ _ hrun }
  | lookupMaintenance future iteration hrun => exact { h with lookup := h.lookup.step _ _ hrun }
  | schedulerEvent event hevent hrun =>
    obtain ⟨_, _, heq⟩ := withScheduler_eq server _
    rw [heq]
    exact { h with scheduler := h.scheduler.step event hrun }
  | @hashEvent now hash hashEvents live room scheduler hrecv hlive hrun =>
    obtain ⟨_, _, hsend⟩ := sendLive_eq { server with hashEvents } hash.infoHash _
    cases hlive.symm.trans hsend
    obtain ⟨_, _, heq⟩ := withScheduler_eq _ scheduler
    rw [heq]
    exact { h with scheduler := h.scheduler.step _ hrun }
  | workerEvent serial event =>
    obtain ⟨_, _, heq⟩ := workerEvent_eq config server serial event
    rw [heq]
    exact { h with }

lemma Reachable.actors (h : Reachable config server) : server.Actors config := by
  induction h with
  | start now => exact ⟨.start _ _ _ _, .start _ _ _ _, .start _ _ _ _, .start⟩
  | step event _ hs ih => exact (step_transition hs).actors ih

/-! ### Runs of events -/

def runEvents (config : ServerConfig) (server : Server M) : List (Event M) → Except Panic (Server M)
  | [] => .ok server
  | event :: rest => do
      let server ← server.step config event
      server.runEvents config rest

lemma Reachable.runEvents {events : List (Event M)} (h : Reachable config server)
    (hrun : server.runEvents config events = .ok server') : Reachable config server' := by
  induction events generalizing server with
  | nil =>
    cases hrun
    exact h
  | cons event rest ih =>
    obtain ⟨mid, hs, hrest⟩ := bind_eq_ok.mp hrun
    exact ih (h.step event hs) hrest

def sampleToken : List UInt8 := [1, 2, 3, 4, 5, 6, 7, 8]

def sampleConfig : ServerConfig where
  netmode := .ipv4Only
  localId := .replicate 20 0
  generateToken := fun _ => sampleToken
  crawlOptions := CrawlActor.sampleOptions
  lookupOptions := ⟨1, 2, 2, 16, 4, 2000, 500⟩
  discoveryOptions := Discovery.DiscoveryActor.sampleOptions
  scheduler := .new 4 2 {} true
  hashQueueCapacity := 4
  priorityEventChannelCapacity := 4

def sampleAddr (n : UInt8) : SocketAddr := exampleAddr n

def announceDatagram (n : UInt8) : Event M :=
  .datagram
    { t := [n]
      y := .query
      q := some .announcePeer
      a := some
        { id := some (.replicate 20 n)
          infoHash := some (.replicate 20 7)
          token := some sampleToken
          port := some 6881
          impliedPort := none }
      r := none }
    (sampleAddr n) true 0

def emptyResponse : DhtResponse where
  id := none
  nodes := none
  nodes6 := none
  values := none
  samples := none
  interval := none
  num := none

def answerDatagram (n : UInt8) (response : DhtResponse) : Event M :=
  .datagram ⟨[0xa5, 0, 0, 0, 0, 0, 0, n], .response, none, none, some response⟩ (sampleAddr n) true 0

def roundsAt (now : Instant) : ℕ → DispatchRound := fun n => ⟨now, now, n⟩

def lookupEvents : List (Event Unit) :=
  [announceDatagram 2, announceDatagram 1, .schedulerEvent (.loopHead 0 (roundsAt 0)), .hashEvent 0,
    .schedulerEvent (.loopHead 0 (roundsAt 0)), .hashEvent 0,
    .schedulerEvent (.loopHead (millis 100) (roundsAt (millis 100))), .workerEvent 0 .admitted,
    .workerEvent 0 (.branch (.submitLookup true)),
    .lookupRequest PeerLookupActor.calm PeerLookupActor.noNodes]

end DhtCrawler.Server
