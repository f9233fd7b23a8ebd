import DhtCrawler.RaceFlow
import DhtCrawler.SchedulerSources
import DhtCrawler.ServerSteps

/-! Where the addresses of metadata fetches come from. -/

namespace DhtCrawler

open FiniteMap List Option PeerLookup.PeerLookupActor PeerLookup Channel

variable {peer : PeerCandidate} {peers : List SocketAddr} {discovery : Discovery.DiscoveryActor} {now : Instant}
  {future : ℕ → Look}

/-! ### Hashes as text -/

lemma hexValue_hexDigit {n : ℕ} (h : n < 16) : hexValue (hexDigit n) = some n := by
  revert n
  decide

lemma hexDecode_hexEncode (bytes : List UInt8) : hexDecode (hexEncode bytes).toList = some bytes := by
  unfold hexEncode
  rw [String.toList_ofList]
  induction bytes with
  | nil => rfl
  | cons byte rest ih =>
    have hhigh : byte.toNat / 16 < 16 := Nat.div_lt_of_lt_mul byte.toNat_lt
    have hlow : byte.toNat % 16 < 16 := Nat.mod_lt _ (by decide)
    have hbyte : UInt8.ofNat (byte.toNat / 16 * 16 + byte.toNat % 16) = byte := by
      rw [Nat.div_add_mod', UInt8.ofNat_toNat]
    rw [flatMap_cons]
    simp only [cons_append, nil_append, hexDecode, hexValue_hexDigit hhigh,
      hexValue_hexDigit hlow, ih, bind_eq_bind, bind_some, hbyte]

lemma decodeInfoHash_hexEncode (hash : NodeId) : decodeInfoHash (hexEncode hash.toList) = some hash := by
  unfold decodeInfoHash
  rw [hexDecode_hexEncode, bind_some, nodeIdOf_toList]

/-! ### Races -/

namespace Race

variable {M : Type} {P Q : SocketAddr → Prop} {r r' : Race M}

lemma Sourced.mono (h : r.Sourced P) (hPQ : ∀ addr, P addr → Q addr) : r.Sourced Q where
  started peer hpeer := hPQ _ (h.started peer hpeer)
  pending candidate hcandidate := hPQ _ (h.pending candidate hcandidate)
  live peer hpeer := hPQ _ (h.live peer hpeer)
  lookup addr haddr := hPQ _ (h.lookup addr haddr)

lemma sourced_start {peers : List PeerCandidate} {peerRx : Channel PeerCandidate}
    (hpeers : ∀ peer ∈ peers, P peer.addr) (hlive : ∀ peer ∈ peerRx.buffer, P peer.addr) (hasLookup : Bool) :
    (start peers peerRx hasLookup : Race M).Sourced P := by
  have henter : ∀ (peers : List PeerCandidate) (r : Race M), (∀ peer ∈ peers, P peer.addr) → r.Sourced P →
      (peers.foldl (fun r peer => r.queueRaceCandidate peer .initial) r).Sourced P := by
    intro peers
    induction peers with
    | nil => exact fun r _ h => h
    | cons peer rest ih =>
      intro r hpeers h
      obtain ⟨hpeer, hrest⟩ := forall_mem_cons.mp hpeers
      obtain ⟨-, -, -, hqueue⟩ := queueRaceCandidate_spec r peer .initial
      exact ih _ hrest (hqueue P h hpeer)
  unfold start enter
  refine (passes_loopHead _).sourced P (henter peers _ hpeers ?_)
  exact ⟨nofun, nofun, hlive, nofun⟩

def Event.Allowed (P : SocketAddr → Prop) : Event M → Prop
  | .liveSent peer => P peer.addr
  | .lookupSent addr => P addr
  | _ => True

lemma Sourced.step (h : r.Sourced P) (event : Event M) (hevent : event.Allowed P) :
    (r.step event).Sourced P := by
  cases event with
  | branch branch => exact (passes_branch r branch).sourced P h
  | liveSent peer =>
    refine { h with live := fun other hother => ?_ }
    rcases mem_trySend hother with hold | rfl
    · exact h.live other hold
    · exact hevent
  | liveDropped => exact { h with }
  | lookupSent addr =>
    dsimp only [Race.step]
    split_ifs
    · refine { h with lookup := fun other hother => ?_ }
      rcases mem_trySend hother with hold | rfl
      · exact h.lookup other hold
      · exact hevent
    · exact h
  | lookupDropped =>
    dsimp only [Race.step]
    split_ifs
    · exact { h with }
    · exact h

lemma Sourced.run (events : List (Event M)) (h : r.Sourced P) (hevents : ∀ event ∈ events, event.Allowed P) :
    (r.run events).Sourced P := by
  induction events generalizing r with
  | nil => exact h
  | cons event rest ih =>
    exact ih (h.step event (hevents event mem_cons_self))
      fun other hother => hevents other (mem_cons_of_mem _ hother)

end Race

/-! ### Workers -/

structure Origins where
  announced : String → SocketAddr → Prop
  known : NodeId → SocketAddr → Prop
  known_of_announced : ∀ name hash addr, announced name addr → decodeInfoHash name = some hash → known hash addr

structure Origins.Le (origins origins' : Origins) : Prop where
  announced : ∀ name addr, origins.announced name addr → origins'.announced name addr
  known : ∀ hash addr, origins.known hash addr → origins'.known hash addr

namespace Worker

variable {M : Type} {origins : Origins} {w : Worker M}

structure Sourced (origins : Origins) (w : Worker M) : Prop where
  job : ∀ peer ∈ w.job.peers, origins.announced w.job.infoHash peer.addr
  live : ∀ peer ∈ w.peerRx.buffer, origins.announced w.job.infoHash peer.addr
  race : ∀ hash race, w.race = some (hash, race) →
    decodeInfoHash w.job.infoHash = some hash ∧ race.Sourced (origins.known hash)

lemma Sourced.onRace (h : w.Sourced origins) {f : Race M → Race M}
    (hf : ∀ hash race, w.race = some (hash, race) → race.Sourced (origins.known hash) → (f race).Sourced (origins.known hash)) :
    (w.onRace f).Sourced origins := by
  refine { h with race := fun hash race hrace => ?_ }
  obtain ⟨⟨hash', race'⟩, hold, heq⟩ := map_eq_some_iff.mp hrace
  cases heq
  obtain ⟨hdecode, hsourced⟩ := h.race _ race' hold
  exact ⟨hdecode, hf _ race' hold hsourced⟩

lemma Sourced.enterRace (h : w.Sourced origins) (hasLookup : Bool) :
    (w.enterRace hasLookup).Sourced origins := by
  unfold Worker.enterRace
  split
  · exact h
  · refine { h with race := fun hash race hrace => ?_ }
    obtain ⟨hash', hdecode, heq⟩ := map_eq_some_iff.mp hrace
    cases heq
    refine ⟨hdecode, Race.sourced_start (fun peer hpeer => ?_) (fun peer hpeer => ?_) hasLookup⟩
    · exact origins.known_of_announced _ _ _ (h.job peer hpeer) hdecode
    · exact origins.known_of_announced _ _ _ (h.live peer hpeer) hdecode

lemma Sourced.sendLive (h : w.Sourced origins)
    (hpeer : origins.announced w.job.infoHash peer.addr) : (w.sendLive peer).1.Sourced origins := by
  unfold Worker.sendLive
  cases hrace : w.race with
  | none =>
    refine ⟨h.job, fun other hother => ?_, fun hash race hsome => ?_⟩
    · rcases mem_trySend hother with hold | rfl
      · exact h.live other hold
      · exact hpeer
    · cases hsome
  | some entered =>
    obtain ⟨hash, race⟩ := entered
    obtain ⟨hdecode, hsourced⟩ := h.race hash race hrace
    refine ⟨h.job, h.live, fun hash' race' hsome => ?_⟩
    cases hsome
    refine ⟨hdecode, hsourced.step (.liveSent peer) ?_⟩
    exact origins.known_of_announced _ _ _ hpeer hdecode

end Worker

/-! ### The server -/

namespace Server

variable {M : Type} {config : ServerConfig} {server server' : Server M} {origins origins' : Origins} {n : ℕ}

def Streams (server : Server M) (serial : ℕ) (hash : NodeId) : Prop :=
  ∃ w, server.workers.get serial = some w ∧ decodeInfoHash w.job.infoHash = some hash

/-- Every address in the server is one that `origins` allows for the hash it is held for; the numbers of jobs
from `n` on have not been used. -/
structure Sourced (config : ServerConfig) (origins : Origins) (n : ℕ) (server : Server M) : Prop where
  netmode : server.lookup.netmode = config.netmode
  events : ∀ event ∈ server.hashEvents.buffer, ∀ addr, event.peerAddr = some addr →
    origins.announced event.infoHash addr
  scheduler : server.scheduler.work.Sourced origins.announced
  serials : ∀ serial w, server.workers.get serial = some w → serial < n
  workers : ∀ serial w, server.workers.get serial = some w → w.Sourced origins
  senders : ∀ name serial, server.peerTx.get name = some serial →
    ∃ w, server.workers.get serial = some w ∧ w.job.infoHash = name
  requests : ∀ request ∈ server.lookupRequests.buffer, server.Streams request.peerTx request.infoHash
  lookups : ∀ id state, server.lookup.active.get id = some state → server.Streams state.peerTx state.infoHash

lemma Sourced.mono (h : server.Sourced config origins n) (hle : Origins.Le origins origins') :
    server.Sourced config origins' n where
  netmode := h.netmode
  events event hevent addr haddr := hle.announced _ _ (h.events event hevent addr haddr)
  scheduler := h.scheduler.mono hle.announced
  serials := h.serials
  workers serial w hw :=
    ⟨fun peer hpeer => hle.announced _ _ ((h.workers serial w hw).job peer hpeer),
      fun peer hpeer => hle.announced _ _ ((h.workers serial w hw).live peer hpeer),
      fun hash race hrace =>
        ⟨((h.workers serial w hw).race hash race hrace).1,
          ((h.workers serial w hw).race hash race hrace).2.mono (hle.known hash)⟩⟩
  senders := h.senders
  requests := h.requests
  lookups := h.lookups

variable {serial : ℕ} {scheduler : SchedulerState} {hash : NodeId} {lookup : PeerLookupActor}

section

variable (h : server.Sourced config origins n)
include h

lemma Sourced.setWorker {w w' : Worker M} (hw : server.workers.get serial = some w) (hjob : w'.job = w.job)
    (hsourced : w'.Sourced origins) :
    { server with workers := server.workers.insert serial w' }.Sourced config origins n := by
  have hkept : ∀ other v, server.workers.get other = some v →
      ∃ v', (server.workers.insert serial w').get other = some v' ∧ v'.job = v.job := by
    intro other v hv
    by_cases hother : other = serial
    · subst hother
      cases hw.symm.trans hv
      exact ⟨w', get_insert_self _ _ _, hjob⟩
    · exact ⟨v, (get_insert_ne _ hother _).trans hv, rfl⟩
  have hstreams : ∀ other hash, server.Streams other hash →
      { server with workers := server.workers.insert serial w' }.Streams other hash := by
    rintro other hash ⟨v, hv, hdecode⟩
    obtain ⟨v', hv', hsame⟩ := hkept other v hv
    exact ⟨v', hv', by rw [hsame, hdecode]⟩
  refine { h with serials := ?_, workers := ?_, senders := ?_, requests := ?_, lookups := ?_ }
  · exact forall_insert (h.serials serial w hw) fun other v _ => h.serials other v
  · exact forall_insert hsourced fun other v _ => h.workers other v
  · intro name other hother
    obtain ⟨v, hv, hname⟩ := h.senders name other hother
    obtain ⟨v', hv', hsame⟩ := hkept other v hv
    exact ⟨v', hv', by rw [hsame, hname]⟩
  · exact fun request hrequest => hstreams _ _ (h.requests request hrequest)
  · exact fun id state hstate => hstreams _ _ (h.lookups id state hstate)

lemma Sourced.onWorker (serial : ℕ) {f : Worker M → Worker M}
    (hf : ∀ w, server.workers.get serial = some w → w.Sourced origins → (f w).Sourced origins ∧ (f w).job = w.job) :
    (server.onWorker serial f).Sourced config origins n := by
  unfold Server.onWorker
  split
  · exact h
  · rename_i w hw
    obtain ⟨hsourced, hjob⟩ := hf w hw (h.workers serial w hw)
    exact h.setWorker hw hjob hsourced

lemma Sourced.onRace (serial : ℕ) {f : Race M → Race M}
    (hf : ∀ hash race, server.Streams serial hash → race.Sourced (origins.known hash) → (f race).Sourced (origins.known hash)) :
    (server.onWorker serial fun w => w.onRace f).Sourced config origins n := by
  refine h.onWorker serial fun w hw hsourced => ⟨hsourced.onRace fun hash race hrace hold => ?_, rfl⟩
  exact hf hash race ⟨w, hw, (hsourced.race hash race hrace).1⟩ hold

/-! ### Hashes -/

lemma Sourced.sendHash (event : HashDiscovered)
    (hevent : ∀ addr, event.peerAddr = some addr → origins.announced event.infoHash addr) :
    (server.sendHash event).Sourced config origins n := by
  refine { h with events := fun other hother => ?_ }
  rcases mem_trySend hother with hold | rfl
  · exact h.events other hold
  · exact hevent

lemma Sourced.sendHashes (events : List HashDiscovered) (hevents : ∀ event ∈ events, event.peerAddr = none) :
    (events.foldl Server.sendHash server).Sourced config origins n := by
  induction events generalizing server with
  | nil => exact h
  | cons event rest ih =>
    refine ih (h.sendHash event fun addr haddr => ?_)
      fun other hother => hevents other (mem_cons_of_mem _ hother)
    rw [hevents event mem_cons_self] at haddr
    cases haddr

lemma Sourced.withDiscovery
    (hreach : Discovery.DiscoveryActor.Reachable config.discoveryOptions discovery) :
    (server.withDiscovery discovery).Sourced config origins n := by
  unfold Server.withDiscovery
  refine Sourced.sendHashes ?_ _ fun event hevent => ?_
  · exact { h with }
  · exact hreach.peerless event (mem_of_mem_take (mem_reverse.mp hevent))

/-! ### Jobs -/

lemma Sourced.spawnWorker : (server.spawnWorker n).Sourced config origins (n + 1) := by
  have hlater : ∀ serial w, server.workers.get serial = some w → serial < n + 1 :=
    fun serial w hw => (h.serials serial w hw).trans (Nat.lt_succ_self n)
  unfold Server.spawnWorker
  split
  · exact { h with serials := hlater }
  · rename_i trace htrace
    have hkept : ∀ serial w, server.workers.get serial = some w →
        (server.workers.insert n ⟨trace.job, .new maxMetadataCandidatesPerHash, none⟩).get serial = some w := by
      intro serial w hw
      exact (get_insert_ne _ (h.serials serial w hw).ne _).trans hw
    refine { h with serials := ?_, workers := ?_, senders := ?_, requests := ?_, lookups := ?_ }
    · exact forall_insert (Nat.lt_succ_self n) fun serial w _ => hlater serial w
    · refine forall_insert ⟨h.scheduler.jobs n trace.job (congrArg (Option.map JobTrace.job) htrace),
        fun peer hpeer => ?_, fun hash race hrace => ?_⟩ fun serial w _ => h.workers serial w
      · cases hpeer
      · cases hrace
    · refine forall_insert ⟨_, get_insert_self _ _ _, rfl⟩ fun name serial _ hserial => ?_
      obtain ⟨w, hw, hjob⟩ := h.senders name serial hserial
      exact ⟨w, hkept serial w hw, hjob⟩
    · intro request hrequest
      obtain ⟨w, hw, hdecode⟩ := h.requests request hrequest
      exact ⟨w, hkept _ w hw, hdecode⟩
    · intro id state hstate
      obtain ⟨w, hw, hdecode⟩ := h.lookups id state hstate
      exact ⟨w, hkept _ w hw, hdecode⟩

end

lemma Sourced.spawnWorkers (k : ℕ) (h : server.Sourced config origins n) :
    ((range' n k).foldl Server.spawnWorker server).Sourced config origins (n + k) := by
  induction k generalizing server n with
  | zero => exact h
  | succ k ih =>
    rw [range'_succ, foldl_cons, ← Nat.add_assoc, Nat.add_right_comm]
    exact ih h.spawnWorker

abbrev Steady (config : ServerConfig) (origins : Origins) (server : Server M) : Prop :=
  server.Sourced config origins server.scheduler.totalDispatched

lemma Steady.withScheduler (h : server.Steady config origins)
    (hsourced : scheduler.work.Sourced origins.announced)
    (hle : server.scheduler.totalDispatched ≤ scheduler.totalDispatched) :
    (server.withScheduler scheduler).Steady config origins := by
  have hstart : { server with scheduler }.Sourced config origins server.scheduler.totalDispatched :=
    { h with scheduler := hsourced }
  have hspawned := hstart.spawnWorkers (scheduler.totalDispatched - server.scheduler.totalDispatched)
  rw [Nat.add_sub_cancel' hle] at hspawned
  obtain ⟨_, _, heq⟩ := withScheduler_eq server scheduler
  have hsame : (server.withScheduler scheduler).scheduler = scheduler := by rw [heq]
  unfold Steady
  rw [hsame]
  unfold Server.withScheduler
  exact hspawned

lemma liveCandidate_addr {hash : HashDiscovered} 
    (h : liveCandidate scheduler hash now = some peer) : hash.peerAddr = some peer.addr := by
  unfold liveCandidate at h
  split at h
  · rename_i addr _ haddr
    split_ifs at h
    · cases h
      exact haddr
  · cases h

section

variable (h : server.Sourced config origins n)
include h

lemma Sourced.sendLive (name : String) {peer : Option PeerCandidate}
    (hpeer : ∀ candidate, peer = some candidate → origins.announced name candidate.addr) :
    (server.sendLive name peer).1.Sourced config origins n := by
  unfold Server.sendLive
  split
  · exact h
  · rename_i candidate
    cases hserial : server.peerTx.get name with
    | none => exact h
    | some serial =>
      obtain ⟨w, hw, hname⟩ := h.senders name serial hserial
      rw [bind_some, hw]
      dsimp only [map_some]
      have hallowed : origins.announced w.job.infoHash candidate.addr := by
        rw [hname]
        exact hpeer candidate rfl
      refine h.setWorker hw ?_ ((h.workers serial w hw).sendLive hallowed)
      unfold Worker.sendLive
      split <;> rfl

/-! ### Workers and lookups -/

lemma Sourced.submitLookup {w : Worker M} {race : Race M} (hw : server.workers.get serial = some w)
    (hrace : w.race = some (hash, race)) :
    (server.submitLookup serial w hash race).Sourced config origins n := by
  have hstream : server.Streams serial hash := ⟨w, hw, ((h.workers serial w hw).race hash race hrace).1⟩
  unfold Server.submitLookup
  split_ifs
  · have hsent : { server with
        lookupRequests := (server.lookupRequests.trySend ⟨hash, serial, w.job.sourceNodes⟩).1 }.Sourced
          config origins n := by
      refine { h with requests := fun request hrequest => ?_ }
      rcases mem_trySend hrequest with hold | rfl
      · exact h.requests request hold
      · exact hstream
    exact hsent.onRace serial fun hash' race' _ hold => hold.step _ trivial
  · exact h

lemma Sourced.workerEvent (serial : ℕ) (event : WorkerEvent M) :
    (server.workerEvent config serial event).Sourced config origins n := by
  unfold Server.workerEvent
  split
  · refine h.onWorker serial fun w _ hsourced => ⟨hsourced.enterRace _, ?_⟩
    unfold Worker.enterRace
    split <;> rfl
  · exact h.onRace serial fun _ _ _ hold => hold.step _ trivial
  · exact h.onRace serial fun _ _ _ hold => hold.step _ trivial
  · split
    · exact h
    · rename_i w hw
      split
      · exact h
      · rename_i hrace
        exact h.submitLookup hw hrace
  · exact h.onRace serial fun _ _ _ hold => hold.step _ trivial

lemma Sourced.withLookup (hkin : server.lookup.Kin lookup) : { server with lookup }.Sourced config origins n := by
  refine { h with netmode := hkin.netmode.trans h.netmode, lookups := fun id state' hstate' => ?_ }
  obtain ⟨state, hstate, hsame⟩ := hkin.active id state' hstate'
  rw [hsame.infoHash, hsame.peerTx]
  exact h.lookups id state hstate

lemma Sourced.lookupRequest {published : Published}
    {request : PeerLookupRequest} {lookupRequests : Channel PeerLookupRequest}
    (hr : PeerLookupActor.Reachable config.lookupOptions server.lookup)
    (hrecv : server.lookupRequests.recv = some (some request, lookupRequests))
    (hrun : server.lookup.handle future (.request request published) = .ok lookup) :
    { server with lookup, lookupRequests }.Sourced config origins n := by
  obtain ⟨hnetmode, hactive⟩ := handle_request hr hrun
  have hbuffer := (recv_some hrecv).1
  refine { h with netmode := hnetmode.trans h.netmode, requests := ?_, lookups := ?_ }
  · intro other hother
    refine h.requests other ?_
    rw [hbuffer]
    exact mem_cons_of_mem _ hother
  · intro id state' hstate'
    rcases hactive id state' hstate' with ⟨state, hstate, hsame⟩ | ⟨hhash, hstream⟩
    · rw [hsame.infoHash, hsame.peerTx]
      exact h.lookups id state hstate
    · rw [hhash, hstream]
      refine h.requests request ?_
      rw [hbuffer]
      exact mem_cons_self

lemma Sourced.deliver (hstream : server.Streams serial hash)
    (hpeers : ∀ addr ∈ peers, origins.known hash addr) :
    (server.deliver serial peers).Sourced config origins n := by
  refine h.onRace serial fun hash' race hstreams hold => hold.run _ fun event hevent => ?_
  obtain ⟨w, hw, hdecode⟩ := hstream
  obtain ⟨w', hw', hdecode'⟩ := hstreams
  cases hw.symm.trans hw'
  cases hdecode.symm.trans hdecode'
  obtain ⟨addr, haddr, rfl⟩ := List.mem_map.mp hevent
  exact hpeers addr haddr

end

/-! ### Runs -/

def Announced (config : ServerConfig) (announces : List (DhtArgs × SocketAddr)) (hash : NodeId)
    (addr : SocketAddr) : Prop :=
  ∃ args sender token, (args, sender) ∈ announces ∧ args.token = some token ∧
    validateToken config.generateToken token sender = true ∧ args.infoHash.bind nodeIdOf = some hash ∧
    addr = .ofIp sender.ip (announcedPort args sender)

def Answered (config : ServerConfig) (answers : List (NodeId × DhtResponse)) (hash : NodeId)
    (addr : SocketAddr) : Prop :=
  ∃ response, (hash, response) ∈ answers ∧ addr ∈ responsePeers response config.netmode

def remembered (config : ServerConfig) (announces : List (DhtArgs × SocketAddr))
    (answers : List (NodeId × DhtResponse)) : Origins where
  announced name addr := ∃ hash, decodeInfoHash name = some hash ∧ Announced config announces hash addr
  known hash addr := Announced config announces hash addr ∨ Answered config answers hash addr
  known_of_announced := by
    rintro name hash addr ⟨hash', hdecode', hannounced⟩ hdecode
    obtain rfl : hash = hash' := Option.some.inj (hdecode.symm.trans hdecode')
    exact .inl hannounced

lemma remembered_le (config : ServerConfig) {announces announces' : List (DhtArgs × SocketAddr)}
    {answers answers' : List (NodeId × DhtResponse)} (hannounces : announces ⊆ announces')
    (hanswers : answers ⊆ answers') :
    Origins.Le (remembered config announces answers) (remembered config announces' answers') := by
  have hannounced : ∀ hash addr, Announced config announces hash addr →
      Announced config announces' hash addr := by
    rintro hash addr ⟨args, sender, token, hmem, hvalid⟩
    exact ⟨args, sender, token, hannounces hmem, hvalid⟩
  constructor
  · rintro name addr ⟨hash, hdecode, h⟩
    exact ⟨hash, hdecode, hannounced hash addr h⟩
  · rintro hash addr (h | ⟨response, hmem, hpeer⟩)
    · exact .inl (hannounced hash addr h)
    · exact .inr ⟨response, hanswers hmem, hpeer⟩

abbrev Traced (config : ServerConfig) (server : Server M) : Prop :=
  server.Steady config (remembered config server.announces server.answers)

lemma Traced.of_sourced
    (h : server'.Sourced config (remembered config server.announces server.answers) server.scheduler.totalDispatched)
    (hannounces : server'.announces = server.announces) (hanswers : server'.answers = server.answers)
    (hscheduler : server'.scheduler = server.scheduler) : server'.Traced config := by
  unfold Traced Steady
  rw [hannounces, hanswers, hscheduler]
  exact h

lemma handleAnnouncePeer_announced {args : DhtArgs} {addr : SocketAddr} {accepted : Bool}
    {event : HashDiscovered} (h : handleAnnouncePeer config.generateToken args addr accepted now = some event)
    (announces : List (DhtArgs × SocketAddr)) (answers : List (NodeId × DhtResponse)) (peer : SocketAddr)
    (hpeer : event.peerAddr = some peer) :
    (remembered config ((args, addr) :: announces) answers).announced event.infoHash peer := by
  unfold handleAnnouncePeer at h
  split at h
  · cases h
  · rename_i token htoken
    by_cases hvalid : validateToken config.generateToken token addr = true
    · rw [hvalid] at h
      cases hhash : args.infoHash.bind nodeIdOf with
      | none =>
        rw [hhash] at h
        cases h
      | some hash =>
        rw [hhash] at h
        dsimp only [Bool.not_true] at h
        split_ifs at h
        cases h
        cases hpeer
        exact ⟨hash, decodeInfoHash_hexEncode hash, args, addr, token, mem_cons_self, htoken, hvalid,
          hhash, rfl⟩
    · rw [eq_false_of_ne_true hvalid] at h
      cases h

lemma Traced.handleQuery (h : server.Traced config) (kind : QueryKind) (args : DhtArgs)
    (addr : SocketAddr) (accepted : Bool) (now : Instant) :
    (server.handleQuery config kind args addr accepted now).Traced config := by
  unfold Server.handleQuery
  split
  · have hgrown : { server with announces := (args, addr) :: server.announces }.Traced config := by
      have hle := remembered_le config (subset_cons_self (args, addr) server.announces)
        (List.Subset.refl server.answers)
      exact { h.mono hle with }
    split
    · rename_i event hevent
      exact hgrown.sendHash event
        (handleAnnouncePeer_announced hevent server.announces server.answers)
    · exact hgrown
  · unfold observeGetPeers
    split_ifs
    · split
      · exact { h with }
      · exact h
    · exact h
  · exact h

lemma Traced.handleMessage (h : server.Traced config) (msg : DhtMessage) (addr : SocketAddr) (accepted : Bool)
    (now : Instant) : (server.handleMessage config msg addr accepted now).Traced config := by
  unfold Server.handleMessage
  split
  · split
    · exact h.handleQuery _ _ addr accepted now
    · exact h
  · split
    · obtain ⟨_, _, _, heq⟩ := routeResponse_eq server addr _ _
      rw [heq]
      exact { h with }
    · exact h
  · split
    · unfold routeError routeSample
      split_ifs
      · exact { h with }
      · exact h
    · exact h
  · exact h

lemma Traced.withDiscovery (h : server.Traced config)
    (hreach : Discovery.DiscoveryActor.Reachable config.discoveryOptions (server.withDiscovery discovery).discovery) :
    (server.withDiscovery discovery).Traced config := by
  obtain ⟨hashEvents, heq⟩ := withDiscovery_eq server discovery
  have hsame : (server.withDiscovery discovery).discovery = discovery := by rw [heq]
  rw [hsame] at hreach
  exact .of_sourced (Sourced.withDiscovery h hreach) (by rw [heq]) (by rw [heq]) (by rw [heq])

lemma Traced.workerEvent (h : server.Traced config) (serial : ℕ) (event : WorkerEvent M) :
    (server.workerEvent config serial event).Traced config := by
  obtain ⟨workers, lookupRequests, heq⟩ := workerEvent_eq config server serial event
  exact .of_sourced (Sourced.workerEvent h serial event) (by rw [heq]) (by rw [heq]) (by rw [heq])

lemma Traced.withScheduler (event : MetadataScheduler.SchedulerEvent) (h : server.Traced config)
    (hr : MetadataScheduler.Reachable config.scheduler server.scheduler)
    (hevent : event.Allowed (remembered config server.announces server.answers).announced)
    (hrun : config.scheduler.step server.scheduler event = .ok scheduler) :
    (server.withScheduler scheduler).Traced config := by
  have hnext := Steady.withScheduler h (hr.step_sourced h.scheduler hevent hrun) (hr.dispatched_le hrun)
  obtain ⟨workers, peerTx, heq⟩ := withScheduler_eq server scheduler
  have hannounces : (server.withScheduler scheduler).announces = server.announces := by rw [heq]
  have hanswers : (server.withScheduler scheduler).answers = server.answers := by rw [heq]
  unfold Traced
  rw [hannounces, hanswers]
  exact hnext

lemma Traced.deliver (h : server.Traced config) (hstream : server.Streams serial hash)
    (hpeers : ∀ addr ∈ peers, (remembered config server.announces server.answers).known hash addr) :
    (server.deliver serial peers).Traced config := by
  obtain ⟨workers, heq⟩ := onWorker_eq server serial fun w => w.onRace fun race =>
    race.run (peers.map .lookupSent)
  have heq : server.deliver serial peers = { server with workers } := heq
  exact .of_sourced (Sourced.deliver h hstream hpeers) (by rw [heq]) (by rw [heq]) (by rw [heq])

lemma Traced.matchedResponse (h : server.Traced config) {reply : LookupReply}
    {lookupResponses : Channel LookupReply} {state : LookupState}
    (hr : PeerLookupActor.Reachable config.lookupOptions server.lookup)
    (hrun : server.lookup.handle future (.response ⟨reply.remoteAddr, reply.tid⟩ reply.response) = .ok lookup)
    (hmatch : server.matchedLookup ⟨reply.remoteAddr, reply.tid⟩ = some state) :
    ({ server with
        lookup
        lookupResponses
        answers := (state.infoHash, reply.response) :: server.answers }.deliver state.peerTx
      ((lookup.deliveries.take (lookup.deliveries.length - server.lookup.deliveries.length)).map
        Delivery.peer)).Traced config := by
  have hkin := handle_kin hr hrun nofun
  obtain ⟨delivered, hdelivered, hpeers⟩ := handle_response hr hrun
  have htake : lookup.deliveries.take (lookup.deliveries.length - server.lookup.deliveries.length) =
      delivered := by
    rw [hdelivered, length_append, Nat.add_sub_cancel, take_left]
  have hstreams : { server with
      lookup
      lookupResponses
      answers := (state.infoHash, reply.response) :: server.answers }.Streams state.peerTx state.infoHash := by
    obtain ⟨query, _, hstate⟩ := bind_eq_some_iff.mp hmatch
    exact h.lookups query.lookupId state hstate
  have hle := remembered_le config (List.Subset.refl server.announces)
    (subset_cons_self (state.infoHash, reply.response) server.answers)
  have hgrown := (h.mono hle).withLookup hkin
  rw [htake]
  refine Traced.deliver ?_ hstreams ?_
  · exact { hgrown with }
  · intro addr haddr
    obtain ⟨d, hd, rfl⟩ := List.mem_map.mp haddr
    have hpeer := hpeers d hd
    rw [h.netmode] at hpeer
    exact .inr ⟨reply.response, mem_cons_self, hpeer⟩

lemma Transition.traced {event : Event M} (ht : Transition config server event server')
    (hbefore : server.Actors config) (hactors : server'.Actors config) (h : server.Traced config) :
    server'.Traced config := by
  cases ht with
  | idle => exact h
  | datagram msg addr accepted now => exact h.handleMessage msg addr accepted now
  | crawlEvent => exact { h with }
  | crawlResponse => exact { h with }
  | discoveryTick future iteration seeds hrun => exact h.withDiscovery hactors.discovery
  | @discoveryResponse future answers reply sampleResponses discovery hrecv hrun =>
    have hstart : { server with sampleResponses }.Traced config := { h with }
    exact hstart.withDiscovery hactors.discovery
  | @discoveryInput future answer input hashInputs discovery hrecv hrun =>
    have hstart : { server with hashInputs }.Traced config := { h with }
    exact hstart.withDiscovery hactors.discovery
  | lookupRequest future published hrecv hrun => exact h.lookupRequest hbefore.lookup hrecv hrun
  | unmatchedResponse future hrecv hrun hmatch =>
    exact { h.withLookup (handle_kin hbefore.lookup hrun nofun) with }
  | matchedResponse future hrecv hrun hmatch => exact h.matchedResponse hbefore.lookup hrun hmatch
  | lookupMaintenance future iteration hrun =>
    exact h.withLookup (handle_kin hbefore.lookup hrun nofun)
  | schedulerEvent event hevent hrun =>
    have hallowed : event.Allowed (remembered config server.announces server.answers).announced := by
      cases event with
      | hashReceived hash now room => exact absurd rfl (hevent hash now room)
      | _ => trivial
    exact Traced.withScheduler event h hbefore.scheduler hallowed hrun
  | @hashEvent now hash hashEvents live room scheduler hrecv hlive hrun =>
    obtain ⟨hbuffer, -⟩ := recv_some hrecv
    have hhash := h.events hash (by rw [hbuffer]; exact mem_cons_self)
    have hstart : { server with hashEvents }.Traced config := by
      refine { h with events := fun other hother => h.events other ?_ }
      rw [hbuffer]
      exact mem_cons_of_mem _ hother
    have hcandidate : ∀ candidate, liveCandidate server.scheduler hash now = some candidate →
        (remembered config server.announces server.answers).announced hash.infoHash candidate.addr :=
      fun candidate h => hhash candidate.addr (liveCandidate_addr h)
    have hlived := hstart.sendLive hash.infoHash hcandidate
    obtain ⟨workers, _, hsend⟩ := sendLive_eq { server with hashEvents } hash.infoHash
      (liveCandidate server.scheduler hash now)
    rw [hlive] at hlived hsend
    cases hsend
    exact Traced.withScheduler (.hashReceived hash now room) hlived hbefore.scheduler hhash hrun
  | workerEvent serial event => exact h.workerEvent serial event

lemma Reachable.traced (h : Reachable config server) : server.Traced config := by
  induction h with
  | start now =>
    refine ⟨rfl, nofun, MetadataScheduler.sourced_start _ _, ?_, ?_, ?_, nofun, ?_⟩
    all_goals intros; contradiction
  | step event hr hs ih => exact (step_transition hs).traced hr.actors (hr.step event hs).actors ih

/-- Every address that a fetch for a hash was started on was announced for this hash with a valid token, or was
among the `values` of a response to a query of a lookup for this hash. -/
theorem fetches_traced (hreach : Reachable config server) {serial : ℕ} {w : Worker M} {hash : NodeId}
    {race : Race M} (hw : server.workers.get serial = some w) (hrace : w.race = some (hash, race))
    {peer : PeerCandidate} (hpeer : peer ∈ race.started) :
    Announced config server.announces hash peer.addr ∨ Answered config server.answers hash peer.addr :=
  ((hreach.traced.workers serial w hw).race hash race hrace).2.started peer hpeer

def fetchEvents : List (Event Unit) :=
  lookupEvents ++ [answerDatagram 1 { emptyResponse with values := some [[8, 8, 4, 4, 26, 225]] },
      .lookupResponse calm, .workerEvent 0 (.branch (.lookupPeer 0))]

def racing (server : Server Unit) (addrs : List SocketAddr) : Bool :=
  ((server.workers.get 0).bind fun w => w.race).any fun race =>
    decide (race.1 = .replicate 20 7 ∧ race.2.started.map PeerCandidate.addr = addrs)

theorem fetches_traced_sample :
    ∃ server : Server Unit, Reachable sampleConfig server ∧
      server.racing [sampleAddr 2, sampleAddr 1, .v4 #v[8, 8, 4, 4] 6881] = true ∧
      ∀ addr ∈ [sampleAddr 2, sampleAddr 1, .v4 #v[8, 8, 4, 4] 6881],
        Announced sampleConfig server.announces (.replicate 20 7) addr ∨
          Answered sampleConfig server.answers (.replicate 20 7) addr := by
  have htest : ((new sampleConfig 0).runEvents sampleConfig fetchEvents).isOkAnd (fun server =>
      server.racing [sampleAddr 2, sampleAddr 1, .v4 #v[8, 8, 4, 4] 6881]) = true := by
    decide +kernel
  obtain ⟨server, hrun, hracing⟩ := Except.isOkAnd_eq_true.mp htest
  have hreach : Reachable sampleConfig server := (Reachable.start 0).runEvents hrun
  refine ⟨server, hreach, hracing, fun addr haddr => ?_⟩
  obtain ⟨⟨hash, race⟩, hget, htest⟩ := Option.any_eq_true _ _ |>.mp hracing
  obtain ⟨w, hw, hrace⟩ := Option.bind_eq_some_iff.mp hget
  obtain ⟨hhash, hstarted⟩ := of_decide_eq_true htest
  cases hhash
  rw [← hstarted] at haddr
  obtain ⟨peer, hpeer, rfl⟩ := List.mem_map.mp haddr
  exact fetches_traced hreach hw hrace hpeer

end Server

end DhtCrawler
