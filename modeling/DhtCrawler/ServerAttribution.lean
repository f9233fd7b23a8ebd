import DhtCrawler.ServerSteps

/-! Which request a response belongs to. The first byte of a transaction id tells the actor, and the ids of an actor
are different as long as it has not issued `2 ^ 56` queries. -/

namespace DhtCrawler

open FiniteMap List PeerLookup Channel Except

variable {tid : TransactionId} {reply : SampleReply} {rest : Channel LookupReply}

lemma tidTag_taggedTid (tag n : ℕ) : tidTag (taggedTid tag n) = tag := by
  unfold tidTag taggedTid
  omega

lemma tidTag_of_lt (h : tid < 2 ^ 56) : tidTag tid = 0 := Nat.div_eq_of_lt h

lemma not_both_tags (h : isPeerLookupTid tid = true) : isSampleTid tid = false := by
  unfold isPeerLookupTid at h
  unfold isSampleTid
  rw [of_decide_eq_true h]
  rfl

namespace Server

variable {M : Type} {config : ServerConfig} {server server' : Server M}

/-! ### Routing -/

structure Routed (server : Server M) : Prop where
  crawl : ∀ reply ∈ server.crawlResponses.buffer,
    isSampleTid reply.tid = false ∧ isPeerLookupTid reply.tid = false
  lookup : ∀ reply ∈ server.lookupResponses.buffer, isPeerLookupTid reply.tid = true
  sample : ∀ reply ∈ server.sampleResponses.buffer, isSampleTid reply.tid = true

lemma Routed.routeSample (h : server.Routed) (htag : isSampleTid reply.tid = true) :
    (server.routeSample reply).Routed := by
  refine { h with sample := fun other hother => ?_ }
  rcases mem_trySend hother with hold | rfl
  · exact h.sample other hold
  · exact htag

lemma Routed.routeResponse (h : server.Routed) (addr : SocketAddr) (tid : TransactionId)
    (response : DhtResponse) : (server.routeResponse addr tid response).Routed := by
  unfold Server.routeResponse
  split_ifs with hsample hlookup
  · exact h.routeSample hsample
  · refine { h with lookup := fun other hother => ?_ }
    rcases mem_trySend hother with hold | rfl
    · exact h.lookup other hold
    · exact hlookup
  · refine { h with crawl := fun other hother => ?_ }
    rcases mem_trySend hother with hold | rfl
    · exact h.crawl other hold
    · exact ⟨Bool.not_eq_true _ ▸ hsample, Bool.not_eq_true _ ▸ hlookup⟩

lemma Routed.handleMessage (h : server.Routed) (config : ServerConfig) (msg : DhtMessage) (addr : SocketAddr)
    (accepted : Bool) (now : Instant) : (server.handleMessage config msg addr accepted now).Routed := by
  unfold Server.handleMessage
  split
  · split
    · unfold handleQuery
      split
      · split <;> exact { h with }
      · unfold observeGetPeers
        split_ifs
        · split <;> exact { h with }
        · exact h
      · exact h
    · exact h
  · split
    · exact h.routeResponse addr _ _
    · exact h
  · split
    · unfold routeError
      split_ifs with htag
      · exact h.routeSample htag
      · exact h
    · exact h
  · exact h

lemma Transition.routed {event : Event M} (ht : Transition config server event server')
    (h : server.Routed) : server'.Routed := by
  cases ht with
  | idle => exact h
  | datagram msg addr accepted now => exact h.handleMessage config msg addr accepted now
  | crawlEvent => exact { h with }
  | crawlResponse now hrecv =>
    refine { h with crawl := fun other hother => h.crawl other ?_ }
    rw [(recv_some hrecv).1]
    exact mem_cons_of_mem _ hother
  | discoveryTick =>
    obtain ⟨_, heq⟩ := withDiscovery_eq server _
    rw [heq]
    exact { h with }
  | @discoveryResponse future answers reply sampleResponses discovery hrecv =>
    obtain ⟨_, heq⟩ := withDiscovery_eq { server with sampleResponses } discovery
    rw [heq]
    refine { h with sample := fun other hother => h.sample other ?_ }
    rw [(recv_some hrecv).1]
    exact mem_cons_of_mem _ hother
  | @discoveryInput future answer input hashInputs discovery =>
    obtain ⟨_, heq⟩ := withDiscovery_eq { server with hashInputs } discovery
    rw [heq]
    exact { h with }
  | lookupRequest => exact { h with }
  | unmatchedResponse future hrecv =>
    refine { h with lookup := fun other hother => h.lookup other ?_ }
    rw [(recv_some hrecv).1]
    exact mem_cons_of_mem _ hother
  | matchedResponse future hrecv =>
    unfold deliver
    obtain ⟨_, heq⟩ := onWorker_eq _ _ _
    rw [heq]
    refine { h with lookup := fun other hother => h.lookup other ?_ }
    rw [(recv_some hrecv).1]
    exact mem_cons_of_mem _ hother
  | lookupMaintenance => exact { h with }
  | schedulerEvent =>
    obtain ⟨_, _, heq⟩ := withScheduler_eq server _
    rw [heq]
    exact { h with }
  | @hashEvent now hash hashEvents live room scheduler hrecv hlive hrun =>
    obtain ⟨_, _, heq⟩ := withScheduler_live_eq hlive scheduler
    rw [heq]
    exact { h with }
  | workerEvent serial event =>
    obtain ⟨_, _, heq⟩ := workerEvent_eq config server serial event
    rw [heq]
    exact { h with }

lemma Reachable.routed (h : Reachable config server) : server.Routed := by
  induction h with
  | start now =>
    exact ⟨fun _ hmem => (not_mem_nil hmem).elim, fun _ hmem => (not_mem_nil hmem).elim,
      fun _ hmem => (not_mem_nil hmem).elim⟩
  | step event _ hs ih => exact (step_transition hs).routed ih

/-! ### Transaction ids -/

/-- The ids of different actors have different tags, and those of one actor are all different; what is pending
was sent. -/
structure Distinguished (server : Server M) : Prop where
  crawl_tag : ∀ key ∈ server.crawl.sentKeys, isSampleTid key.tid = false ∧ isPeerLookupTid key.tid = false
  lookup_tag : ∀ a ∈ server.lookup.queries, isPeerLookupTid a.tid = true ∧ isSampleTid a.tid = false
  sample_tag : ∀ a ∈ server.discovery.attempts, isSampleTid a.tid = true
  crawl_keys : server.crawl.sentKeys.Nodup
  lookup_tids : (server.lookup.queries.map Query.tid).Nodup
  sample_tids : (server.discovery.attempts.map Discovery.Attempt.tid).Nodup
  crawl_sent : ∀ key req, server.crawl.pending.get key = some req → key ∈ server.crawl.sentKeys
  lookup_sent : ∀ key query, server.lookup.pending.get key = some query →
    ∃ a ∈ server.lookup.queries, a.sent = true ∧ key = a.key
  sample_sent : ∀ addr sample, server.discovery.pending.get addr = some sample →
    ∃ a ∈ server.discovery.attempts, a.sent = true ∧ a.addr = addr ∧ a.tid = sample.tid

lemma tag_of_numbered {tag : ℕ} {tids : List TransactionId}
    (h : Numbered tag tids) (hmem : tid ∈ tids) : tidTag tid = tag := by
  obtain ⟨n, -, -, htid⟩ := h.exists_of_mem hmem
  rw [htid, tidTag_taggedTid]

lemma Actors.distinguished (h : server.Actors config) (hcrawl : server.crawl.dispatches.length < 2 ^ 56)
    (hlookup : server.lookup.queries.length < 2 ^ 56)
    (hdiscovery : server.discovery.attempts.length < 2 ^ 56) : server.Distinguished := by
  have haccounted := ((CrawlActor.accounted_invariant config.crawlOptions).reachable h.crawl).1
    (hcrawl.trans (by decide))
  have hlookups := (PeerLookupActor.issuing_invariant config.lookupOptions).reachable h.lookup
    hlookup.le
  have hsamples := h.discovery.issuing hdiscovery.le
  refine
    { crawl_tag := fun key hkey => ?_
      lookup_tag := fun a ha => ?_
      sample_tag := fun a ha => ?_
      crawl_keys := haccounted.keys_nodup
      lookup_tids := hlookups.nodup hlookup.le
      sample_tids := hsamples.numbered.nodup (by rw [length_map]; exact hdiscovery.le)
      crawl_sent := fun key req hreq => (haccounted.sent_iff key).mpr (.inr ⟨req, hreq⟩)
      lookup_sent := hlookups.issued
      sample_sent := hsamples.issued }
  · have htag := tidTag_of_lt ((haccounted.tid_le key hkey).trans_lt hcrawl)
    unfold isSampleTid isPeerLookupTid
    rw [htag]
    exact ⟨rfl, rfl⟩
  · have htag : isPeerLookupTid a.tid = true :=
      decide_eq_true (tag_of_numbered hlookups.numbered (mem_map_of_mem ha))
    exact ⟨htag, not_both_tags htag⟩
  · exact decide_eq_true (tag_of_numbered hsamples.numbered (mem_map_of_mem ha))

/-! ### Responses -/

/-- A datagram changes no actor, and is put on the channel of its tag if at all. -/
structure Received (tid : TransactionId) (server server' : Server M) : Prop where
  crawl : server'.crawl = server.crawl
  lookup : server'.lookup = server.lookup
  discovery : server'.discovery = server.discovery
  crawlResponses : isSampleTid tid = true ∨ isPeerLookupTid tid = true →
    server'.crawlResponses = server.crawlResponses
  lookupResponses : isPeerLookupTid tid = false → server'.lookupResponses = server.lookupResponses
  sampleResponses : isSampleTid tid = false → server'.sampleResponses = server.sampleResponses

/-- What the events that deal with responses do to the requests that are pending. -/
structure Attributed (server : Server M) (event : Event M) (server' : Server M) : Prop where
  datagram : ∀ msg addr accepted now tid, event = .datagram msg addr accepted now →
    transactionIdFromBytes msg.t = some tid → Received tid server server'
  crawl : ∀ now reply rest, event = .crawlResponse now →
    server.crawlResponses.recv = some (some reply, rest) → server.crawl.clock ≤ now →
      server'.crawl.pending = server.crawl.pending.erase ⟨reply.remoteAddr, reply.tid⟩ ∧
        server'.lookup = server.lookup ∧ server'.discovery = server.discovery
  lookup : ∀ future reply rest, event = .lookupResponse future →
    server.lookupResponses.recv = some (some reply, rest) →
      (server.lookup.pending.get ⟨reply.remoteAddr, reply.tid⟩ = none →
        server'.lookup.pending = server.lookup.pending) ∧
      (∀ query, server.lookup.pending.get ⟨reply.remoteAddr, reply.tid⟩ = some query →
        server.lookup.Answered server'.lookup ⟨reply.remoteAddr, reply.tid⟩ query) ∧
      server'.crawl = server.crawl ∧ server'.discovery = server.discovery
  sample : ∀ future answers reply rest, event = .discoveryResponse future answers →
    server.sampleResponses.recv = some (some reply, rest) → server'.discovery.pending =
        (if server.discovery.matched reply.addr reply.tid (server.discovery.clock + (future 0).elapsed) then
          server.discovery.pending.erase reply.addr
        else server.discovery.pending) ∧
      server'.crawl = server.crawl ∧ server'.lookup = server.lookup

lemma received_refl (tid : TransactionId) (server : Server M) : Received tid server server :=
  ⟨rfl, rfl, rfl, fun _ => rfl, fun _ => rfl, fun _ => rfl⟩

lemma received_routeSample (tid : TransactionId) (server : Server M)
    (htag : isSampleTid tid = true) : Received tid server (server.routeSample reply) :=
  ⟨rfl, rfl, rfl, fun _ => rfl, fun _ => rfl, fun hnot => nomatch htag.symm.trans hnot⟩

lemma handleMessage_received (config : ServerConfig) (server : Server M) (msg : DhtMessage) (addr : SocketAddr)
    (accepted : Bool) (now : Instant) (htid : transactionIdFromBytes msg.t = some tid) :
    Received tid server (server.handleMessage config msg addr accepted now) := by
  have hidle := received_refl tid server
  unfold handleMessage
  split
  · split
    · unfold handleQuery
      split
      · split <;> exact { hidle with }
      · unfold observeGetPeers
        split_ifs
        · split <;> exact { hidle with }
        · exact hidle
      · exact hidle
    · exact hidle
  · rw [htid]
    cases msg.r with
    | none => exact hidle
    | some response =>
      dsimp only
      unfold routeResponse
      split_ifs with hsample hlookup
      · exact received_routeSample tid server hsample
      · exact { hidle with lookupResponses := fun hnot => nomatch hlookup.symm.trans hnot }
      · exact { hidle with crawlResponses := fun htag => absurd htag (not_or.mpr ⟨hsample, hlookup⟩) }
  · rw [htid]
    dsimp only
    unfold routeError
    split_ifs with hsample
    · exact received_routeSample tid server hsample
    · exact hidle
  · exact hidle

lemma crawlResponse_attributed {now : Instant} {reply : LookupReply}
    (hs : server.crawlResponse now = .ok server')
    (hrecv : server.crawlResponses.recv = some (some reply, rest)) (hnow : server.crawl.clock ≤ now) :
    server'.crawl.pending = server.crawl.pending.erase ⟨reply.remoteAddr, reply.tid⟩ ∧
      server'.lookup = server.lookup ∧ server'.discovery = server.discovery := by
  unfold Server.crawlResponse at hs
  rw [hrecv] at hs
  dsimp only at hs
  rw [if_pos hnow] at hs
  obtain ⟨crawl, hrun, heq⟩ := bind_eq_ok.mp hs
  cases heq
  exact ⟨(CrawlActor.handleResponse_ended hrun).2.1, rfl, rfl⟩

lemma lookupResponse_handled {future : ℕ → Look} {reply : LookupReply}
    (hs : server.lookupResponse future = .ok server')
    (hrecv : server.lookupResponses.recv = some (some reply, rest)) :
    server.lookup.handle future (.response ⟨reply.remoteAddr, reply.tid⟩ reply.response) =
        .ok server'.lookup ∧ server'.crawl = server.crawl ∧ server'.discovery = server.discovery := by
  unfold Server.lookupResponse at hs
  rw [hrecv] at hs
  obtain ⟨lookup, hrun, heq⟩ := bind_eq_ok.mp hs
  split at heq
  · cases heq
    exact ⟨hrun, rfl, rfl⟩
  · cases heq
    unfold deliver
    obtain ⟨_, hworker⟩ := onWorker_eq _ _ _
    rw [hworker]
    exact ⟨hrun, rfl, rfl⟩

lemma discoveryResponse_attributed (h : server.discovery.Sound) {future : ℕ → Discovery.Look}
    {answers : ℕ → Discovery.Answer} {rest : Channel SampleReply}
    (hs : server.discoveryResponse future answers = .ok server')
    (hrecv : server.sampleResponses.recv = some (some reply, rest)) :
    server'.discovery.pending =
        (if server.discovery.matched reply.addr reply.tid (server.discovery.clock + (future 0).elapsed) then
          server.discovery.pending.erase reply.addr
        else server.discovery.pending) ∧
      server'.crawl = server.crawl ∧ server'.lookup = server.lookup := by
  unfold Server.discoveryResponse at hs
  rw [hrecv] at hs
  obtain ⟨discovery, hrun, heq⟩ := bind_eq_ok.mp hs
  cases heq
  obtain ⟨_, hsent⟩ := withDiscovery_eq { server with sampleResponses := rest } discovery
  rw [hsent]
  exact ⟨Discovery.DiscoveryActor.handle_response_pending h future _ _ _ _ hrun, rfl, rfl⟩

/-- Every response finds its request. In a run in which no actor has issued `2 ^ 56` queries, the ids of the
three actors are told apart by their tags and those of one actor are all different. -/
theorem responses_attributed (config : ServerConfig) (server : Server M) (h : Reachable config server)
    (hcrawl : server.crawl.dispatches.length < 2 ^ 56) (hlookup : server.lookup.queries.length < 2 ^ 56)
    (hdiscovery : server.discovery.attempts.length < 2 ^ 56) :
    server.Routed ∧ server.Distinguished ∧ ∀ event server', server.step config event = .ok server' →
        server'.lookup.queries.length < 2 ^ 56 → server.Attributed event server' := by
  refine ⟨h.routed, h.actors.distinguished hcrawl hlookup hdiscovery, fun event server' hs hbound => ?_⟩
  refine
    { datagram := fun msg addr accepted now tid hevent htid => ?_
      crawl := fun now reply rest hevent hrecv hnow => ?_
      lookup := fun future reply rest hevent hrecv => ?_
      sample := fun future answers reply rest hevent hrecv => ?_ }
  · subst hevent
    cases hs
    exact handleMessage_received config server msg addr accepted now htid
  · subst hevent
    exact crawlResponse_attributed hs hrecv hnow
  · subst hevent
    obtain ⟨hrun, hsame⟩ := lookupResponse_handled hs hrecv
    obtain ⟨hnone, hsome⟩ := PeerLookupActor.handle_response_pending h.actors.lookup hrun
      hbound.le
    exact ⟨fun hquery => (hnone hquery).1, hsome, hsame⟩
  · subst hevent
    exact discoveryResponse_attributed h.actors.discovery.sound hs hrecv

def underLimit (server : Server Unit) : Bool :=
  decide (server.crawl.dispatches.length < 2 ^ 56 ∧ server.lookup.queries.length < 2 ^ 56 ∧
    server.discovery.attempts.length < 2 ^ 56)

theorem responses_attributed_sample :
    ∃ server : Server Unit, Reachable sampleConfig server ∧ server.lookup.pending.len = 2 ∧
      server.Distinguished := by
  have htest : ((new sampleConfig 0).runEvents sampleConfig lookupEvents).isOkAnd (fun server =>
      decide (server.lookup.pending.len = 2) && server.underLimit) = true := by
    decide +kernel
  obtain ⟨server, hrun, htest⟩ := isOkAnd_eq_true.mp htest
  obtain ⟨hpending, hlimit⟩ := Bool.and_eq_true_iff.mp htest
  obtain ⟨hcrawl, hlookup, hdiscovery⟩ := of_decide_eq_true hlimit
  have h : Reachable sampleConfig server := (Reachable.start 0).runEvents hrun
  exact ⟨server, h, of_decide_eq_true hpending,
    (responses_attributed sampleConfig server h hcrawl hlookup hdiscovery).2.1⟩

def sampleKey (n : UInt8) : PeerLookup.PendingKey :=
  ⟨sampleAddr n, taggedTid lookupTidTag n.toNat⟩

def lateLook : ℕ → Look := fun _ => ⟨secs 2, ∅, true⟩

def answerWaits (server : Server Unit) : Bool :=
  (server.lookupResponses.buffer.map fun reply => (⟨reply.remoteAddr, reply.tid⟩ : PeerLookup.PendingKey)) ==
      [sampleKey 1] &&
    (server.lookup.pending.get (sampleKey 1)).isSome && (server.lookup.pending.get (sampleKey 2)).isSome

/-- A response can end more than its own request: it comes when the time of the lookup is over, and the query to
the other node ends with it. -/
theorem late_response_ends_both :
    ∃ server server' : Server Unit, Reachable sampleConfig server ∧ server.underLimit = true ∧
      server.answerWaits = true ∧ server.step sampleConfig (.lookupResponse lateLook) = .ok server' ∧
      server'.lookup.pending.get (sampleKey 1) = none ∧ server'.lookup.pending.get (sampleKey 2) = none := by
  have htest : ((new sampleConfig 0).runEvents sampleConfig
      (lookupEvents ++ [answerDatagram 1 emptyResponse])).isOkAnd (fun server =>
        server.underLimit && server.answerWaits &&
          (server.step sampleConfig (.lookupResponse lateLook)).isOkAnd fun server' =>
            (server'.lookup.pending.get (sampleKey 1)).isNone &&
              (server'.lookup.pending.get (sampleKey 2)).isNone) = true := by
    decide +kernel
  obtain ⟨server, hrun, htest⟩ := isOkAnd_eq_true.mp htest
  obtain ⟨hwaits, hstep⟩ := Bool.and_eq_true_iff.mp htest
  obtain ⟨hlimit, hwaits⟩ := Bool.and_eq_true_iff.mp hwaits
  obtain ⟨server', hs, hnone⟩ := isOkAnd_eq_true.mp hstep
  obtain ⟨hfirst, hsecond⟩ := Bool.and_eq_true_iff.mp hnone
  exact ⟨server, server', (Reachable.start 0).runEvents hrun, hlimit, hwaits, hs,
    Option.isNone_iff_eq_none.mp hfirst, Option.isNone_iff_eq_none.mp hsecond⟩

end Server

end DhtCrawler
