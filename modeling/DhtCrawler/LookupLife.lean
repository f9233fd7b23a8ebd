import DhtCrawler.LookupBookkeeping
import DhtCrawler.LookupSearch
import DhtCrawler.RaceFlow

/-! The life of one lookup, from the request that starts it until its id is given out again, and the race that
waits for it. -/

namespace DhtCrawler

open FiniteMap Search List Finset RoutingSnapshot

/-! ### The result stream -/

namespace Race

variable {M : Type} {r r' : Race M}

def Event.lookupSent? : Event M → Option SocketAddr
  | .lookupSent addr => some addr
  | _ => none

def lookupSent (events : List (Event M)) : List SocketAddr := events.filterMap Event.lookupSent?

structure Holds (r : Race M) (n : ℕ) : Prop where
  capacity : r.lookupPeerRx.capacity = maxMetadataCandidatesPerHash
  buffer : r.lookupPeerRx.buffer.length ≤ n

variable {n : ℕ}

lemma Holds.passes (h : r.Holds n) (hpasses : r.Passes r') : r'.Holds n :=
  ⟨hpasses.capacity.trans h.capacity, hpasses.length.trans h.buffer⟩

lemma Holds.step (h : r.Holds n) (event : Event M) :
    (r.step event).Holds (n + event.lookupSent?.toList.length) := by
  cases event with
  | branch branch => exact h.passes (passes_branch r branch)
  | liveSent | liveDropped => exact ⟨h.capacity, h.buffer⟩
  | lookupSent addr =>
    dsimp only [Race.step]
    split_ifs
    · rcases r.lookupPeerRx.trySend_cases addr with heq | ⟨-, heq⟩
      · refine ⟨?_, ?_⟩
        · rw [heq]
          exact h.capacity
        · rw [heq]
          exact Nat.le_succ_of_le h.buffer
      · refine ⟨?_, ?_⟩
        · rw [heq]
          exact h.capacity
        · rw [heq, length_append]
          exact Nat.succ_le_succ h.buffer
    · exact ⟨h.capacity, Nat.le_succ_of_le h.buffer⟩
  | lookupDropped =>
    dsimp only [Race.step]
    split_ifs <;> exact ⟨h.capacity, h.buffer⟩

lemma Holds.run (h : r.Holds n) (events : List (Event M)) :
    (r.run events).Holds (n + (lookupSent events).length) := by
  induction events generalizing r n with
  | nil => exact h
  | cons event events ih =>
    have hrest := ih (h.step event)
    have hlength : (lookupSent (event :: events)).length =
        event.lookupSent?.toList.length + (lookupSent events).length := by
      unfold lookupSent
      rw [filterMap_cons]
      cases event.lookupSent? with
      | none => exact (Nat.zero_add _).symm
      | some addr => exact Nat.add_comm _ _
    rw [hlength, ← Nat.add_assoc]
    exact hrest

lemma holds_start (peers : List PeerCandidate) (peerRx : Channel PeerCandidate) (hasLookup : Bool) :
    (start peers peerRx hasLookup : Race M).Holds 0 := by
  have hqueue : ∀ (peers : List PeerCandidate) {r : Race M}, r.Holds 0 →
      (peers.foldl (fun r peer => r.queueRaceCandidate peer .initial) r).Holds 0 := by
    intro peers
    induction peers with
    | nil => exact fun h => h
    | cons peer peers ih =>
      intro r h
      obtain ⟨-, hrx, -⟩ := queueRaceCandidate_spec r peer .initial
      refine ih ⟨?_, ?_⟩
      · rw [hrx]
        exact h.capacity
      · rw [hrx]
        exact h.buffer
  exact (hqueue peers ⟨rfl, le_rfl⟩).passes (passes_loopHead _)

lemma trySend_of_lookupSent (peers : List PeerCandidate) (peerRx : Channel PeerCandidate) (hasLookup : Bool)
    (events : List (Event M)) (addr : SocketAddr)
    (hroom : (lookupSent events).length < maxMetadataCandidatesPerHash)
    (hclosed : ((start peers peerRx hasLookup).run events).lookupPeerRx.closed = false)
    (hattached : ((start peers peerRx hasLookup).run events).lookupPeerRx.attached = true) :
    (((start peers peerRx hasLookup).run events).lookupPeerRx.trySend addr).2 = true := by
  have hholds := (holds_start peers peerRx hasLookup).run events
  have hfree : ((start peers peerRx hasLookup).run events).lookupPeerRx.buffer.length <
      ((start peers peerRx hasLookup).run events).lookupPeerRx.capacity := by
    have hbuffer := hholds.buffer
    rw [hholds.capacity]
    omega
  unfold Channel.trySend
  rw [hclosed, hattached, decide_eq_true hfree]
  rfl

end Race

namespace PeerLookup.PeerLookupActor

variable {σ₀ σ σ' : PeerLookupActor} {options : PeerLookupOptions} {request : PeerLookupRequest}
  {published : Published} {requestBudget : RateBucket}

/-! ### The nodes of a request -/

def sourceSeeds (σ : PeerLookupActor) (request : PeerLookupRequest) : List NodeTuple :=
  ((request.sourceNodes.filter (inFamily σ.filterIpv6)).eraseDupsBy
    fun a b => a.addr == b.addr).take 8

lemma distinctNodes_eq (n : ℕ) (seen : Finset SocketAddr) (nodes : List NodeTuple) :
    (distinctNodes n seen nodes).1 =
      ((nodes.filter fun node => decide (node.addr ∉ seen)).eraseDupsBy fun a b => a.addr == b.addr).take n := by
  fun_induction distinctNodes n seen nodes with
  | case1 => rw [take_zero]
  | case2 => rfl
  | case3 n seen node rest hseen ih =>
    rw [ih, List.filter_cons, if_neg (by simpa using hseen)]
  | case4 n seen node rest hseen nodes' seen' heq ih =>
    rw [heq] at ih
    have hfilter : ((rest.filter fun other => decide (other.addr ∉ seen)).filter
        fun other => decide ((other.addr == node.addr) = false)) =
          rest.filter fun other => decide (other.addr ∉ insert node.addr seen) := by
      rw [List.filter_filter]
      refine List.filter_congr fun other _ => ?_
      simp [mem_insert]
    rw [List.filter_cons, if_pos (decide_eq_true hseen), eraseDupsBy_cons, take_succ_cons, hfilter]
    exact congrArg (node :: ·) ih

lemma distinctNodes_seen (n : ℕ) (seen : Finset SocketAddr) (nodes : List NodeTuple) :
    (distinctNodes n seen nodes).2 = seen ∪ ((distinctNodes n seen nodes).1.map NodeTuple.addr).toFinset ∧
      ((distinctNodes n seen nodes).1.map NodeTuple.addr).Nodup ∧
      ∀ node ∈ (distinctNodes n seen nodes).1, node.addr ∉ seen := by
  fun_induction distinctNodes n seen nodes with
  | case1 => exact ⟨(union_empty _).symm, nodup_nil, fun _ hmem => absurd hmem not_mem_nil⟩
  | case2 => exact ⟨(union_empty _).symm, nodup_nil, fun _ hmem => absurd hmem not_mem_nil⟩
  | case3 n seen node rest hseen ih => exact ih
  | case4 n seen node rest hseen nodes' seen' heq ih =>
    rw [heq] at ih
    obtain ⟨hunion, hnodup, hfresh⟩ := ih
    refine ⟨?_, Search.unseen_cons hseen hnodup hfresh⟩
    rw [hunion, List.map_cons, toFinset_cons, insert_union, union_insert]

lemma chosenSources_eq (σ : PeerLookupActor) (request : PeerLookupRequest) :
    (σ.chosenSources request).1 = σ.sourceSeeds request := by
  have hfamily : (fun node : NodeTuple => σ.filterIpv6.all fun ipv6 => node.addr.isIpv6 == ipv6) =
      inFamily σ.filterIpv6 := by
    funext node
    unfold inFamily
    cases σ.filterIpv6 with
    | none => rfl
    | some ipv6 => rfl
  unfold chosenSources sourceSeeds
  rw [distinctNodes_eq, hfamily, List.filter_eq_self.mpr fun _ _ => decide_eq_true (notMem_empty _)]
  rfl

lemma bruteForce_nodup {nodes : List NodeTuple} {limit : ℕ}
    (hdistinct : ((nodes.take limit).map NodeTuple.addr).Nodup) (target : NodeId) (count : ℕ)
    (filterIpv6 : Option Bool) :
    ((bruteForce nodes limit target count filterIpv6).map NodeTuple.addr).Nodup := by
  have hsorted : (sortUnstableBy (closestCmp target)
      ((nodes.take limit).filter (inFamily filterIpv6))).Perm
        ((nodes.take limit).filter (inFamily filterIpv6)) := mergeSort_perm _ _
  have hfamily : (((nodes.take limit).filter (inFamily filterIpv6)).map NodeTuple.addr).Nodup :=
    hdistinct.sublist (filter_sublist.map NodeTuple.addr)
  exact ((hsorted.map NodeTuple.addr).nodup_iff.mpr hfamily).sublist ((take_sublist _ _).map NodeTuple.addr)

lemma chosen_nodup (hdistinct : ((published.nodes.take published.limit).map NodeTuple.addr).Nodup)
    (σ : PeerLookupActor) (request : PeerLookupRequest) :
    (((σ.chosenSources request).1 ++ σ.chosenNodes request published).map NodeTuple.addr).Nodup := by
  obtain ⟨hseen, hsources, -⟩ := distinctNodes_seen maxSourceNodes ∅
    (request.sourceNodes.filter fun node => σ.filterIpv6.all fun ipv6 => node.addr.isIpv6 == ipv6)
  have hnodes : ((σ.chosenNodes request published).map NodeTuple.addr).Nodup :=
    (bruteForce_nodup hdistinct request.infoHash (min σ.maxQueries maxFrontierNodes) σ.filterIpv6).sublist
      (filter_sublist.map NodeTuple.addr)
  rw [map_append]
  refine hsources.append hnodes fun addr hsource hnode => ?_
  obtain ⟨node, hmem, rfl⟩ := List.mem_map.mp hnode
  refine of_decide_eq_true (List.mem_filter.mp hmem).2 ?_
  change node.addr ∈ (distinctNodes _ _ _).2
  rw [hseen]
  exact Finset.mem_union_right _ (mem_toFinset.mpr hsource)

/-! ### Runs -/

lemma tracked_opened (hopen : σ.Opening requestBudget)
    (hdistinct : ((published.nodes.take published.limit).map NodeTuple.addr).Nodup) (hacts : Acts σ₀ σ)
    (hid : σ.nextLookupId = σ₀.nextLookupId) (hqueries : σ.queries = σ₀.queries)
    (hdeliveries : σ.deliveries = σ₀.deliveries) :
    Tracked σ₀ request (σ.sourceSeeds request) (σ.opened request published requestBudget) [] [] := by
  have hprogress : Progress NodeTuple.addr (σ.sourceSeeds request) [] (σ.chosenSources request).1
      (σ.chosenNodes request published)
      ((σ.chosenNodes request published ++ (σ.chosenSources request).1).map NodeTuple.addr).toFinset := by
    rw [← chosenSources_eq]
    refine .start (chosen_nodup hdistinct σ request) fun node hnode => ?_
    refine mem_toFinset.mpr (List.mem_map_of_mem ?_)
    exact (mem_append.mp hnode).elim (mem_append_right _) (mem_append_left _)
  refine ⟨hacts.tail (.opened request published hopen), ⟨[], hqueries, rfl⟩, ⟨[], hdeliveries, rfl⟩, Nat.zero_le _,
    ⟨_, _, _, hprogress⟩, fun later q earlier hsplit => ?_, nodup_nil, Nat.zero_le _, nofun,
    fun state hstate => ?_⟩
  · exact absurd hsplit (by simp)
  · rw [← hid] at hstate
    cases (get_insert_self _ _ _).symm.trans hstate
    exact ⟨rfl, rfl, rfl, hprogress⟩

lemma Tracked.steadies {seeds : List NodeTuple} (hsteps : Steadies σ σ')
    (h : ∃ asked peers, Tracked σ₀ request seeds σ asked peers) :
    ∃ asked peers, Tracked σ₀ request seeds σ' asked peers := by
  induction hsteps with
  | refl => exact h
  | tail _ hstep ih =>
    obtain ⟨cause, hact⟩ := hstep
    obtain ⟨asked, peers, htracked⟩ := ih
    exact htracked.moved (.single (.act hact)) (hact.moved _)

/-- The lookup that the request starts in `σ₀`; it goes on until its id is given out again. -/
inductive Life (options : PeerLookupOptions) (request : PeerLookupRequest) (published : Published)
    (σ₀ : PeerLookupActor) : PeerLookupActor → Prop where
  | begun {σ : PeerLookupActor} (future : ℕ → Look) (hσ₀ : Reachable options σ₀)
      (hrun : σ₀.handle future (.request request published) = .ok σ) (hstarted : σ.started = σ₀.started + 1) :
      Life options request published σ₀ σ
  | step {σ σ' : PeerLookupActor} (future : ℕ → Look) (event : Event)
      (h : Life options request published σ₀ σ) (hrun : σ.handle future event = .ok σ')
      (hid : σ'.started = σ.started ∨ σ.nextLookupId ≠ σ₀.nextLookupId) : Life options request published σ₀ σ'

lemma Life.reachable (h : Life options request published σ₀ σ) :
    Reachable options σ₀ ∧ Reachable options σ := by
  induction h with
  | begun future hσ₀ hrun => exact ⟨hσ₀, hσ₀.step future _ hrun⟩
  | step future event _ hrun _ ih => exact ⟨ih.1, ih.2.step future event hrun⟩

lemma Life.tracked (h : Life options request published σ₀ σ)
    (hdistinct : ((published.nodes.take published.limit).map NodeTuple.addr).Nodup) :
    ∃ asked peers, Tracked σ₀ request (σ₀.sourceSeeds request) σ asked peers := by
  induction h with
  | begun future hσ₀ hrun hstarted =>
    rcases hσ₀.steadies hrun with hsteps | ⟨request', published', budget, hevent, hopen, hsteps⟩
    · have hsame := (Steadies.kin hsteps).started
      omega
    · cases hevent
      have hlook := Steadies.acts (steadies_look σ₀ future)
      exact Tracked.steadies hsteps ⟨[], [], tracked_opened hopen hdistinct hlook rfl rfl rfl⟩
  | @step σ σ' future event hlife hrun hid ih =>
    rcases hlife.reachable.2.steadies hrun with hsteps | ⟨request', published', budget, -, hopen, hsteps⟩
    · exact Tracked.steadies hsteps ih
    · obtain ⟨asked, peers, htracked⟩ := Tracked.steadies (steadies_look σ future) ih
      have hlater : σ.started < σ'.started := (Steadies.kin hsteps).started.ge
      have hother : σ.nextLookupId ≠ σ₀.nextLookupId := hid.resolve_left hlater.ne'
      have hopened := Relation.ReflTransGen.single (Step.opened request' published' hopen)
      exact Tracked.steadies hsteps (htracked.moved hopened (moved_opened hother))

/-- **The queries and deliveries of one lookup.** They hold whatever it is answered. -/
theorem lookup_asks_once (hlife : Life options request published σ₀ σ)
    (hdistinct : ((published.nodes.take published.limit).map NodeTuple.addr).Nodup) :
    ((queriesSince σ₀ σ).map fun q => q.node.addr).Nodup ∧
      (queriesSince σ₀ σ).length ≤ options.maxQueries.toNat ∧
      (σ₀.sourceSeeds request).length ≤ 8 ∧
      ((queriesSince σ₀ σ).reverse.map Query.node).take (σ₀.sourceSeeds request).length =
        (σ₀.sourceSeeds request).take (queriesSince σ₀ σ).length ∧
      (∀ later q earlier, queriesSince σ₀ σ = later ++ q :: earlier →
        (σ₀.sourceSeeds request).length ≤ earlier.length → AskedNearest σ₀ σ request earlier q) ∧
      (peersSince σ₀ σ).Nodup ∧ (peersSince σ₀ σ).length ≤ 64 ∧
      (∀ peer ∈ peersSince σ₀ σ, addrAllowedByNetmode peer σ₀.netmode = true ∧ isValidNodeAddr peer = true) ∧
      ∀ (M : Type) (peers : List PeerCandidate) (peerRx : Channel PeerCandidate) (events : List (Race.Event M))
        (addr : SocketAddr), (Race.lookupSent events ++ [addr]).Subperm (peersSince σ₀ σ) →
        ((Race.start peers peerRx true).run events).lookupPeerRx.closed = false →
        ((Race.start peers peerRx true).run events).lookupPeerRx.attached = true →
        (((Race.start peers peerRx true).run events).lookupPeerRx.trySend addr).2 = true := by
  obtain ⟨asked, peers, h⟩ := hlife.tracked hdistinct
  have hfixed := Acts.fixed h.acts
  have hconfigured := (configured_invariant options).reachable hlife.reachable.2
  obtain ⟨sources, frontier, seen, hprogress⟩ := h.progress
  have hfirst := hprogress.take_seeds
  rw [← List.map_reverse, List.length_map] at hfirst
  have hnodup := hprogress.asked_nodup
  rw [List.map_map] at hnodup
  rw [h.queriesSince_eq, h.peersSince_eq]
  refine ⟨hnodup, hconfigured.maxQueries ▸ h.asked_le, List.length_take_le _ _, hfirst, h.nearest,
    h.peers_nodup, h.peers_le, fun peer hpeer => ?_,
    fun M candidates peerRx events addr hsent hclosed hattached => ?_⟩
  · have hvalid := h.peers_valid peer hpeer
    rw [Bool.and_eq_true, hfixed.netmode] at hvalid
    exact hvalid
  · have hlength := hsent.length_le.trans h.peers_le
    rw [List.length_append, List.length_singleton] at hlength
    exact Race.trySend_of_lookupSent candidates peerRx true events addr hlength hclosed hattached

lemma Life.runEvents {events : List ((ℕ → Look) × Event)} (h : Life options request published σ₀ σ)
    (hrun : σ.runEvents events = .ok σ')
    (hnone : ∀ e ∈ events, ∀ request published, e.2 ≠ .request request published) :
    Life options request published σ₀ σ' := by
  induction events generalizing σ with
  | nil =>
    cases hrun
    exact h
  | cons e events ih =>
    obtain ⟨σ₁, h₁, hrest⟩ := Except.bind_eq_ok.mp hrun
    obtain ⟨hfirst, hevents⟩ := List.forall_mem_cons.mp hnone
    refine ih (h.step e.1 e.2 h₁ (.inl ?_)) hrest hevents
    exact (handle_kin h.reachable.2 h₁ hfirst).started

def twiceRequest : PeerLookupRequest := ⟨default, 0, [chainNode 0 0, chainNode 0 0, chainNode 1 0]⟩

def twiceAnswers : List ((ℕ → Look) × Event) :=
  [(calm, .response (chainKey 0 0 1) { chainResponse 0 5 with
      values := some [(chainEntry 7 7).drop 20, (chainEntry 7 7).drop 20] }),
    (calm, .response (chainKey 1 0 2) (chainResponse 0 0))]

theorem lookup_asks_once_sources :
    ∃ σ, Life chainOptions twiceRequest noNodes (new chainOptions .ipv6Only false true 0) σ ∧
      (queriesSince (new chainOptions .ipv6Only false true 0) σ).reverse.map Query.node =
        [chainNode 0 0, chainNode 1 0, chainNode 0 5] ∧
      peersSince (new chainOptions .ipv6Only false true 0) σ = [(chainNode 7 7).addr] ∧
      ((queriesSince (new chainOptions .ipv6Only false true 0) σ).map fun q => q.node.addr).Nodup := by
  have htest : ((new chainOptions .ipv6Only false true 0).handle calm (.request twiceRequest noNodes)).isOkAnd
      (fun σ => decide (σ.started = 1) && (σ.runEvents twiceAnswers).isOkAnd fun σ' =>
        decide ((queriesSince (new chainOptions .ipv6Only false true 0) σ').reverse.map Query.node =
            [chainNode 0 0, chainNode 1 0, chainNode 0 5] ∧
          peersSince (new chainOptions .ipv6Only false true 0) σ' = [(chainNode 7 7).addr])) = true := by
    decide +kernel
  obtain ⟨σ₁, hstart, htest⟩ := Except.isOkAnd_eq_true.mp htest
  obtain ⟨hstarted, htest⟩ := (Bool.and_eq_true _ _).mp htest
  obtain ⟨σ, hrun, htest⟩ := Except.isOkAnd_eq_true.mp htest
  obtain ⟨hqueries, hpeers⟩ := of_decide_eq_true htest
  have hbegun : Life chainOptions twiceRequest noNodes (new chainOptions .ipv6Only false true 0) σ₁ :=
    .begun calm (.start _ _ _ _) hstart (of_decide_eq_true hstarted)
  have hlife := hbegun.runEvents hrun (by simp [twiceAnswers])
  exact ⟨σ, hlife, hqueries, hpeers, (lookup_asks_once hlife (by decide)).1⟩

end PeerLookup.PeerLookupActor

end DhtCrawler
