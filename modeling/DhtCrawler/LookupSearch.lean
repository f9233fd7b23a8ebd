import DhtCrawler.LibSearch
import DhtCrawler.LookupReplies

/-! One lookup from start to end: it asks its source nodes in order, then the nearest nodes it knows, every endpoint
once, and passes every peer on once. -/

namespace DhtCrawler

open FiniteMap Search List Finset

variable {q : Query} {next : LookupState} {discovered : List SocketAddr}

lemma foldl_least_le {α κ : Type} [LinearOrder κ] (key : α → κ) {cmp : α → α → Ordering}
    (hcmp : ∀ a b, cmp a b = compare (key a) (key b)) (xs : List α) (x : α) :
    ∀ y ∈ x :: xs, key (xs.foldl (fun least y => if cmp least y = .gt then y else least) x) ≤ key y := by
  induction xs generalizing x with
  | nil =>
    intro y hy
    rw [List.mem_singleton.mp hy]
    exact le_rfl
  | cons z xs ih =>
    have hleast : key (if cmp x z = .gt then z else x) ≤ key x ∧
        key (if cmp x z = .gt then z else x) ≤ key z := by
      split_ifs with hgt
      · rw [hcmp, compare_gt_iff_gt] at hgt
        exact ⟨hgt.le, le_rfl⟩
      · rw [hcmp, compare_gt_iff_gt] at hgt
        exact ⟨le_rfl, not_lt.mp hgt⟩
    have hrest := ih (if cmp x z = .gt then z else x)
    have hfirst := hrest _ List.mem_cons_self
    intro y hy
    rw [foldl_cons]
    rcases List.mem_cons.mp hy with rfl | hy
    · exact hfirst.trans hleast.1
    rcases List.mem_cons.mp hy with rfl | hy
    · exact hfirst.trans hleast.2
    · exact hrest y (List.mem_cons_of_mem _ hy)

lemma minBy_le {α κ : Type} [LinearOrder κ] (key : α → κ) {cmp : α → α → Ordering}
    (hcmp : ∀ a b, cmp a b = compare (key a) (key b)) {xs : List α} {x : α} (h : minBy cmp xs = some x) :
    ∀ y ∈ xs, key x ≤ key y := by
  cases xs with
  | nil => cases h
  | cons y ys =>
    cases h
    exact foldl_least_le key hcmp ys y

def newer {α : Type} (older xs : List α) : List α := xs.take (xs.length - older.length)

lemma newer_append {α : Type} (added older : List α) : newer older (added ++ older) = added := by
  unfold newer
  rw [length_append, Nat.add_sub_cancel, take_left]

def xorDistance (node : NodeTuple) (target : NodeId) : ℕ := idValue node.id ^^^ idValue target

namespace PeerLookup

namespace LookupState

variable {state state' : LookupState} {node : NodeTuple} {sourceSeed : Bool}

lemma Popped.nearest (h : state.Popped node sourceSeed state') (hsource : state.sourceNodes = []) :
    node ∈ state.frontier ∧
      ∀ other ∈ state.frontier, xorDistance node state.infoHash ≤ xorDistance other state.infoHash := by
  cases h with
  | source hcons =>
    rw [hsource] at hcons
    cases hcons
  | frontier index _ hleast hperm =>
    refine ⟨hperm.subset List.mem_cons_self, fun other hother => ?_⟩
    obtain ⟨i, hi, hget⟩ := getElem_of_mem hother
    have hmem : (other, i) ∈ state.frontier.zipIdx := by
      refine List.mem_zipIdx_iff_getElem?.mpr ?_
      rw [List.getElem?_eq_getElem hi, hget]
    exact minBy_le (fun pair : NodeTuple × ℕ => xorDistance pair.1 state.infoHash)
      (fun a b => xorDistanceCmp_eq _ _ _) hleast _ hmem

lemma Popped.popClosest (h : state.Popped node sourceSeed state') :
    ∃ next, state.popClosest = .ok (some (node, sourceSeed, next)) := by
  obtain ⟨r, hr, hpopped⟩ := state.popClosest_spec.exists
  match r, hpopped with
  | none, ⟨hsource, hfrontier⟩ =>
    cases h with
    | source hcons => exact nomatch hsource.symm.trans hcons
    | frontier index _ _ hperm =>
      rw [hfrontier] at hperm
      exact absurd hperm.length_eq (Nat.succ_ne_zero _)
  | some (node', sourceSeed', next), hpopped =>
    refine ⟨next, hr.trans ?_⟩
    cases h with
    | source hcons =>
      cases hpopped with
      | source hcons' =>
        rw [(List.cons.inj (hcons.symm.trans hcons')).1]
      | frontier _ hsource => exact nomatch hsource.symm.trans hcons
    | frontier index hsource hleast =>
      cases hpopped with
      | source hcons' => exact nomatch hsource.symm.trans hcons'
      | frontier index' _ hleast' =>
        rw [(Prod.mk.inj (Option.some_inj.mp (hleast.symm.trans hleast'))).1]

lemma learnPeers_spec (state : LookupState) (peers : List SocketAddr)
    (hcard : state.peers.card ≤ maxPeersPerLookup) :
    ∃ discovered,
      state.learnPeers peers = ({ state with peers := state.peers ∪ discovered.toFinset }, discovered) ∧
      discovered ⊆ peers ∧ discovered.Nodup ∧ (∀ peer ∈ discovered, peer ∉ state.peers) ∧
      (state.peers ∪ discovered.toFinset).card ≤ maxPeersPerLookup := by
  induction peers generalizing state with
  | nil =>
    refine ⟨[], ?_, List.Subset.refl _, nodup_nil, nofun, ?_⟩
    · rw [learnPeers, toFinset_nil, union_empty]
    · rw [toFinset_nil, union_empty]
      exact hcard
  | cons peer rest ih =>
    unfold learnPeers
    split_ifs with hnew
    · have hroom : (insert peer state.peers).card ≤ maxPeersPerLookup := by
        rw [card_insert_of_notMem hnew.2]
        exact hnew.1
      obtain ⟨discovered, heq, hsub, hnodup, hfresh, hcard'⟩ :=
        ih { state with peers := insert peer state.peers } hroom
      have hunion : insert peer state.peers ∪ discovered.toFinset =
          state.peers ∪ (peer :: discovered).toFinset := by
        rw [toFinset_cons, insert_union, union_insert]
      refine ⟨peer :: discovered, ?_, List.cons_subset_cons peer hsub, ?_, ?_, hunion ▸ hcard'⟩
      · rw [heq]
        rw [hunion]
      · exact hnodup.cons fun hmem => hfresh peer hmem (Finset.mem_insert_self _ _)
      · refine List.forall_mem_cons.mpr ⟨hnew.2, fun other hother hmem => ?_⟩
        exact hfresh other hother (Finset.mem_insert_of_mem hmem)
    · obtain ⟨discovered, heq, hsub, hrest⟩ := ih state hcard
      exact ⟨discovered, heq, subset_cons_of_subset peer hsub, hrest⟩

lemma learnNodes_spec (state : LookupState) (nodes : List NodeTuple) :
    ∃ added, state.learnNodes nodes =
        { state with
          seenNodes := state.seenNodes ∪ (added.map NodeTuple.addr).toFinset
          frontier := state.frontier ++ added } ∧
      (added.map NodeTuple.addr).Nodup ∧ ∀ node ∈ added, node.addr ∉ state.seenNodes := by
  have hnone : state = { state with
      seenNodes := state.seenNodes ∪ (([] : List NodeTuple).map NodeTuple.addr).toFinset
      frontier := state.frontier ++ [] } := by
    rw [map_nil, toFinset_nil, union_empty, append_nil]
  induction nodes generalizing state with
  | nil => exact ⟨[], hnone, nodup_nil, nofun⟩
  | cons node rest ih =>
    unfold learnNodes
    split_ifs with hfull hseen
    · exact ⟨[], hnone, nodup_nil, nofun⟩
    · exact ih state hnone
    · obtain ⟨added, heq, hnodup, hfresh⟩ := ih
        { state with
          seenNodes := insert node.addr state.seenNodes
          frontier := state.frontier ++ [node] } (by simp)
      refine ⟨node :: added, ?_, Search.unseen_cons hseen hnodup hfresh⟩
      rw [heq, List.map_cons, toFinset_cons, union_insert, ← insert_union]
      rw [append_assoc, singleton_append]

/-- The states differ at most in the number of queries under way. -/
structure Alike (state state' : LookupState) : Prop where
  infoHash : state'.infoHash = state.infoHash
  frontier : state'.frontier = state.frontier
  sourceNodes : state'.sourceNodes = state.sourceNodes
  seenNodes : state'.seenNodes = state.seenNodes
  peers : state'.peers = state.peers
  queried : state'.queried = state.queried

lemma Alike.refl (state : LookupState) : state.Alike state := ⟨rfl, rfl, rfl, rfl, rfl, rfl⟩

end LookupState

namespace PeerLookupActor

variable {σ₀ σ σ' : PeerLookupActor} {options : PeerLookupOptions} {request : PeerLookupRequest}
  {published : Published} {id : ℕ} {cause : Cause}

/-! ### Acts -/

inductive Moved (id : ℕ) (σ σ' : PeerLookupActor) : Prop where
  | idle (added : List Query) (offered : List Delivery) (hqueries : σ'.queries = added ++ σ.queries)
      (hadded : ∀ q ∈ added, q.lookupId ≠ id) (hdeliveries : σ'.deliveries = offered ++ σ.deliveries)
      (hoffered : ∀ d ∈ offered, d.lookupId ≠ id)
      (hactive : ∀ state', σ'.active.get id = some state' →
        ∃ state, σ.active.get id = some state ∧ state.Alike state')
  | asked (q : Query) {state next} (hid : q.lookupId = id)
      (hqueries : σ'.queries = q :: σ.queries) (hdeliveries : σ'.deliveries = σ.deliveries)
      (hstate : σ.active.get id = some state) (hmay : σ.mayQuery state = true)
      (hpop : state.Popped q.node q.sourceSeed next)
      (hactive : ∀ state', σ'.active.get id = some state' →
        { next with queried := next.queried + 1 }.Alike state')
  | learned (response : DhtResponse) {state next discovered}
      (hstate : σ.active.get id = some state) (hlearn : state.Learns response σ.netmode next discovered)
      (hqueries : σ'.queries = σ.queries)
      (hdeliveries : σ'.deliveries = (discovered.map fun peer => ⟨id, state.infoHash, peer⟩) ++ σ.deliveries)
      (hactive : ∀ state', σ'.active.get id = some state' → state' = next)

lemma moved_of_same (hqueries : σ'.queries = σ.queries) (hdeliveries : σ'.deliveries = σ.deliveries)
    (hactive : ∀ state', σ'.active.get id = some state' →
      ∃ state, σ.active.get id = some state ∧ state.Alike state') : Moved id σ σ' :=
  .idle [] [] hqueries nofun hdeliveries nofun hactive

lemma alike_of_get (hactive : σ'.active.get id = σ.active.get id) (state' : LookupState)
    (hstate' : σ'.active.get id = some state') : ∃ state, σ.active.get id = some state ∧ state.Alike state' :=
  ⟨state', hactive.symm.trans hstate', .refl state'⟩

lemma moved_attempted (lookupId : ℕ) {state state' : LookupState}
    (hq : q.lookupId = lookupId) (hqueries : σ'.queries = q :: σ.queries)
    (hdeliveries : σ'.deliveries = σ.deliveries) (hstate : σ.active.get lookupId = some state)
    (hmay : σ.mayQuery state = true) (hpop : state.Popped q.node q.sourceSeed state')
    (hactive : σ'.active = σ.active.insert lookupId next)
    (halike : { state' with queried := state'.queried + 1 }.Alike next) : Moved id σ σ' := by
  by_cases hid : lookupId = id
  · subst hid
    refine .asked q hq hqueries hdeliveries hstate hmay hpop fun s hs => ?_
    rw [hactive, get_insert_self] at hs
    cases hs
    exact halike
  · refine .idle [q] [] hqueries (fun q' hq' => ?_) hdeliveries nofun (alike_of_get ?_)
    · rw [List.mem_singleton.mp hq', hq]
      exact hid
    · rw [hactive]
      exact get_insert_ne _ (Ne.symm hid) _

lemma Act.moved (hact : Act cause σ σ') (id : ℕ) : Moved id σ σ' := by
  cases hact with
  | pass => exact moved_of_same rfl rfl (alike_of_get rfl)
  | charge => exact moved_of_same rfl rfl (alike_of_get rfl)
  | unsent lookupId clock dropped future hstate hmay hpop =>
    refine moved_attempted lookupId rfl rfl rfl hstate hmay hpop rfl ?_
    exact .refl _
  | sent lookupId clock dropped future hstate hmay hpop =>
    refine moved_attempted lookupId rfl rfl rfl hstate hmay hpop (insert_insert _ _ _ _) ?_
    exact ⟨rfl, rfl, rfl, rfl, rfl, rfl⟩
  | finish lookupId =>
    refine moved_of_same rfl rfl fun state' hstate' => ?_
    exact ⟨state', (get_active_finishLookup.mp hstate').2, .refl _⟩
  | @answer _ key query state next response discovered hquery hstate hdeadline hlearn =>
    by_cases hid : query.lookupId = id
    · subst hid
      refine .learned response hstate hlearn rfl rfl fun s hs => ?_
      exact Option.some_inj.mp (hs.symm.trans (get_insert_self _ _ _))
    · refine .idle [] _ rfl nofun rfl (fun d hd => ?_) (alike_of_get ?_)
      · obtain ⟨peer, -, rfl⟩ := List.mem_map.mp hd
        exact hid
      · exact get_insert_ne _ (Ne.symm hid) _
  | dropRecord => exact moved_of_same rfl rfl (alike_of_get rfl)
  | @timeout _ key query state pendingExpiry hfirst hquery hstate hdue =>
    refine moved_of_same rfl rfl fun state' hstate' => ?_
    rw [get_insert] at hstate'
    split_ifs at hstate' with hid
    · cases hstate'
      exact ⟨state, hid ▸ hstate, rfl, rfl, rfl, rfl, rfl, rfl⟩
    · exact ⟨state', hstate', .refl _⟩

lemma moved_opened {requestBudget : RateBucket} (hid : σ.nextLookupId ≠ id) :
    Moved id σ (σ.opened request published requestBudget) :=
  moved_of_same rfl rfl (alike_of_get (get_insert_ne _ (Ne.symm hid) _))

structure Fixed (σ σ' : PeerLookupActor) : Prop where
  netmode : σ'.netmode = σ.netmode
  maxQueries : σ'.maxQueries = σ.maxQueries

lemma Step.fixed (h : Step σ σ') : Fixed σ σ' := by
  cases h with
  | opened => exact ⟨rfl, rfl⟩
  | act hact =>
    cases hact with
    | _ => exact ⟨rfl, rfl⟩

/-! ### The history of a lookup -/

def queriesSince (σ₀ σ : PeerLookupActor) : List Query :=
  (newer σ₀.queries σ.queries).filter fun q => q.lookupId == σ₀.nextLookupId

def peersSince (σ₀ σ : PeerLookupActor) : List SocketAddr :=
  ((newer σ₀.deliveries σ.deliveries).filter fun d => d.lookupId == σ₀.nextLookupId).map Delivery.peer

def AskedNearest (σ₀ σ : PeerLookupActor) (request : PeerLookupRequest) (earlier : List Query) (q : Query) :
    Prop :=
  ∃ τ state next, Acts σ₀ τ ∧ Acts τ σ ∧ queriesSince σ₀ τ = earlier ∧
    τ.active.get σ₀.nextLookupId = some state ∧
    τ.nextQuery σ₀.nextLookupId = .ok (some (q.node, q.sourceSeed, next)) ∧ q.node ∈ state.frontier ∧
    ∀ node ∈ state.frontier, xorDistance q.node request.infoHash ≤ xorDistance node request.infoHash

structure Recalls (request : PeerLookupRequest) (seeds : List NodeTuple) (asked : List Query)
    (peers : List SocketAddr) (state : LookupState) : Prop where
  infoHash : state.infoHash = request.infoHash
  queried : state.queried = asked.length
  peers : state.peers = peers.toFinset
  progress : Progress NodeTuple.addr seeds (asked.map Query.node) state.sourceNodes state.frontier state.seenNodes

lemma Recalls.alike {seeds : List NodeTuple} {asked : List Query} {peers : List SocketAddr}
    {state state' : LookupState} (h : Recalls request seeds asked peers state) (halike : state.Alike state') :
    Recalls request seeds asked peers state' := by
  refine ⟨halike.infoHash.trans h.infoHash, halike.queried.trans h.queried, halike.peers.trans h.peers, ?_⟩
  rw [halike.sourceNodes, halike.frontier, halike.seenNodes]
  exact h.progress

structure Tracked (σ₀ : PeerLookupActor) (request : PeerLookupRequest) (seeds : List NodeTuple)
    (σ : PeerLookupActor) (asked : List Query) (peers : List SocketAddr) : Prop where
  acts : Acts σ₀ σ
  queries : ∃ added, σ.queries = added ++ σ₀.queries ∧
    asked = added.filter fun q => q.lookupId == σ₀.nextLookupId
  deliveries : ∃ offered, σ.deliveries = offered ++ σ₀.deliveries ∧
    peers = (offered.filter fun d => d.lookupId == σ₀.nextLookupId).map Delivery.peer
  asked_le : asked.length ≤ σ.maxQueries
  progress : ∃ sources frontier seen,
    Progress NodeTuple.addr seeds (asked.map Query.node) sources frontier seen
  nearest : ∀ later q earlier, asked = later ++ q :: earlier → seeds.length ≤ earlier.length →
    AskedNearest σ₀ σ request earlier q
  peers_nodup : peers.Nodup
  peers_le : peers.length ≤ maxPeersPerLookup
  peers_valid : ∀ peer ∈ peers, (addrAllowedByNetmode peer σ.netmode && isValidNodeAddr peer) = true
  recalls : ∀ state, σ.active.get σ₀.nextLookupId = some state → Recalls request seeds asked peers state

variable {seeds : List NodeTuple} {asked : List Query} {peers : List SocketAddr}

lemma Acts.fixed (h : Acts σ σ') : Fixed σ σ' := by
  induction h with
  | refl => exact ⟨rfl, rfl⟩
  | tail _ hstep ih => exact ⟨hstep.fixed.netmode.trans ih.netmode, hstep.fixed.maxQueries.trans ih.maxQueries⟩

lemma AskedNearest.later {earlier : List Query} (h : AskedNearest σ₀ σ request earlier q)
    (hacts : Acts σ σ') : AskedNearest σ₀ σ' request earlier q := by
  obtain ⟨τ, state, next, hbefore, hafter, hrest⟩ := h
  exact ⟨τ, state, next, hbefore, hafter.trans hacts, hrest⟩

lemma Tracked.queriesSince_eq (h : Tracked σ₀ request seeds σ asked peers) : queriesSince σ₀ σ = asked := by
  obtain ⟨added, hqueries, rfl⟩ := h.queries
  unfold queriesSince
  rw [hqueries, newer_append]

lemma Tracked.peersSince_eq (h : Tracked σ₀ request seeds σ asked peers) : peersSince σ₀ σ = peers := by
  obtain ⟨offered, hdeliveries, rfl⟩ := h.deliveries
  unfold peersSince
  rw [hdeliveries, newer_append]

/-! ### One act -/

lemma Recalls.popped {state : LookupState} {node : NodeTuple} {sourceSeed : Bool}
    (h : Recalls request seeds asked peers state) (hpop : state.Popped node sourceSeed next) (hq : q.node = node) :
    Recalls request seeds (q :: asked) peers { next with queried := next.queried + 1 } := by
  have hprogress := h.progress
  cases hpop with
  | source hsource =>
    rw [hsource] at hprogress
    refine ⟨h.infoHash, congrArg (· + 1) h.queried, h.peers, ?_⟩
    rw [List.map_cons, hq]
    exact hprogress.askSource
  | frontier index hsource hleast hperm =>
    rw [hsource] at hprogress
    refine ⟨h.infoHash, congrArg (· + 1) h.queried, h.peers, ?_⟩
    rw [List.map_cons, hq]
    rw [hsource]
    exact hprogress.askFrontier hperm

lemma Tracked.asks (h : Tracked σ₀ request seeds σ asked peers) (hacts : Acts σ σ')
    {state : LookupState} (hid : q.lookupId = σ₀.nextLookupId) (hqueries : σ'.queries = q :: σ.queries)
    (hdeliveries : σ'.deliveries = σ.deliveries) (hstate : σ.active.get σ₀.nextLookupId = some state)
    (hmay : σ.mayQuery state = true) (hpop : state.Popped q.node q.sourceSeed next)
    (hactive : ∀ state', σ'.active.get σ₀.nextLookupId = some state' →
      { next with queried := next.queried + 1 }.Alike state') :
    Tracked σ₀ request seeds σ' (q :: asked) peers := by
  have hfixed := Acts.fixed hacts
  have hold := h.recalls state hstate
  have hnew := hold.popped hpop rfl
  obtain ⟨added, hadded, hasked⟩ := h.queries
  have hlimit := (mayQuery_iff.mp hmay).2.2.2.1
  rw [hold.queried, ← hfixed.maxQueries] at hlimit
  refine ⟨h.acts.trans hacts, ⟨q :: added, ?_, ?_⟩, hdeliveries ▸ h.deliveries, hlimit,
    ⟨_, _, _, hnew.progress⟩, fun later q' earlier hsplit hlength => ?_, h.peers_nodup, h.peers_le,
    hfixed.netmode ▸ h.peers_valid, fun state' hstate' => hnew.alike (hactive state' hstate')⟩
  · rw [hqueries, hadded, cons_append]
  · rw [hasked, List.filter_cons, if_pos (beq_iff_eq.mpr hid)]
  cases later with
  | cons first later => exact (h.nearest later q' earlier (List.cons.inj hsplit).2 hlength).later hacts
  | nil =>
    obtain ⟨rfl, rfl⟩ := List.cons.inj hsplit
    have hsources : state.sourceNodes = [] := hold.progress.sources_eq_nil (by rwa [length_map])
    obtain ⟨hmem, hnearest⟩ := hpop.nearest hsources
    rw [hold.infoHash] at hnearest
    obtain ⟨popped, hpopped⟩ := hpop.popClosest
    have hquery : σ.nextQuery σ₀.nextLookupId =
        .ok (some (q.node, q.sourceSeed, { popped with queried := popped.queried + 1 })) := by
      unfold nextQuery
      rw [hstate]
      dsimp only
      rw [if_pos hmay, hpopped]
      rfl
    exact ⟨σ, state, _, h.acts, hacts, h.queriesSince_eq, hstate, hquery, hmem, hnearest⟩

lemma peers_of_offers (id : ℕ) (infoHash : NodeId) (peers : List SocketAddr) :
    ((peers.map fun peer => (⟨id, infoHash, peer⟩ : Delivery)).filter fun d => d.lookupId == id).map
      Delivery.peer = peers := by
  rw [List.filter_eq_self.mpr, List.map_map]
  · exact map_id' peers
  · intro d hd
    obtain ⟨peer, -, rfl⟩ := List.mem_map.mp hd
    exact beq_self_eq_true id

lemma Recalls.learned {state mid : LookupState}
    (h : Recalls request seeds asked peers state)
    (hmid : mid = { state with
      outstanding := state.outstanding - 1
      peers := state.peers ∪ discovered.toFinset }) (nodes : List NodeTuple) :
    Recalls request seeds asked (discovered ++ peers) (mid.learnNodes nodes) := by
  obtain ⟨added, heq, hnodup, hfresh⟩ := mid.learnNodes_spec nodes
  subst hmid
  rw [heq]
  refine ⟨h.infoHash, h.queried, ?_, h.progress.learn hnodup hfresh⟩
  rw [h.peers, toFinset_append, union_comm]

lemma Tracked.learns (h : Tracked σ₀ request seeds σ asked peers) (hacts : Acts σ σ')
    (response : DhtResponse) {state : LookupState}
    (hstate : σ.active.get σ₀.nextLookupId = some state)
    (hlearn : state.Learns response σ.netmode next discovered) (hqueries : σ'.queries = σ.queries)
    (hdeliveries : σ'.deliveries =
      (discovered.map fun peer => ⟨σ₀.nextLookupId, state.infoHash, peer⟩) ++ σ.deliveries)
    (hactive : ∀ state', σ'.active.get σ₀.nextLookupId = some state' → state' = next) :
    Tracked σ₀ request seeds σ' asked (discovered ++ peers) := by
  obtain ⟨mid, hlearn, rfl⟩ := hlearn
  have hfixed := Acts.fixed hacts
  have hold := h.recalls state hstate
  have hcard : state.peers.card ≤ maxPeersPerLookup := by
    rw [hold.peers, toFinset_card_of_nodup h.peers_nodup]
    exact h.peers_le
  obtain ⟨discovered', heq, hsub, hnodup, hfresh, hcard'⟩ := LookupState.learnPeers_spec
    { state with outstanding := state.outstanding - 1 } (responsePeers response σ.netmode) hcard
  obtain ⟨hmid, rfl⟩ := Prod.mk.inj (hlearn.symm.trans heq)
  have hall : (discovered ++ peers).Nodup := by
    refine hnodup.append h.peers_nodup fun peer hnew hpeer => ?_
    refine hfresh peer hnew ?_
    rw [hold.peers]
    exact mem_toFinset.mpr hpeer
  obtain ⟨offered, hoffered, hpeers⟩ := h.deliveries
  refine ⟨h.acts.trans hacts, hqueries ▸ h.queries,
    ⟨discovered.map (⟨σ₀.nextLookupId, state.infoHash, ·⟩) ++ offered, ?_, ?_⟩,
    hfixed.maxQueries ▸ h.asked_le, h.progress,
    fun later q earlier hsplit hlength => (h.nearest later q earlier hsplit hlength).later hacts,
    hall, ?_, fun peer hpeer => ?_, fun state' hstate' => ?_⟩
  · rw [hdeliveries, hoffered, append_assoc]
  · rw [hpeers, filter_append, map_append, peers_of_offers]
  · rw [← toFinset_card_of_nodup hall, toFinset_append, union_comm, ← hold.peers]
    exact hcard'
  · rw [hfixed.netmode]
    rcases mem_append.mp hpeer with hnew | hpeer
    · exact (List.mem_filter.mp (hsub hnew)).2
    · exact h.peers_valid peer hpeer
  · rw [hactive state' hstate']
    exact hold.learned hmid _

lemma Tracked.moved (h : Tracked σ₀ request seeds σ asked peers) (hacts : Acts σ σ')
    (hmoved : Moved σ₀.nextLookupId σ σ') : ∃ asked peers, Tracked σ₀ request seeds σ' asked peers := by
  cases hmoved with
  | asked q hid hqueries hdeliveries hstate hmay hpop hactive =>
    exact ⟨_, _, h.asks hacts hid hqueries hdeliveries hstate hmay hpop hactive⟩
  | learned response hstate hlearn hqueries hdeliveries hactive =>
    exact ⟨_, _, h.learns hacts response hstate hlearn hqueries hdeliveries hactive⟩
  | idle added offered hqueries hadded hdeliveries hoffered hactive =>
    have hfixed := Acts.fixed hacts
    obtain ⟨added', hadded', hasked⟩ := h.queries
    obtain ⟨offered', hoffered', hpeers⟩ := h.deliveries
    have hnone : (added.filter fun q => q.lookupId == σ₀.nextLookupId) = [] :=
      filter_eq_nil_iff.mpr fun q hq hid => hadded q hq (beq_iff_eq.mp hid)
    have hnone' : (offered.filter fun d => d.lookupId == σ₀.nextLookupId) = [] :=
      filter_eq_nil_iff.mpr fun d hd hid => hoffered d hd (beq_iff_eq.mp hid)
    refine ⟨asked, peers, h.acts.trans hacts, ⟨added ++ added', ?_, ?_⟩, ⟨offered ++ offered', ?_, ?_⟩,
      hfixed.maxQueries ▸ h.asked_le, h.progress, fun later q earlier hsplit hlength =>
        (h.nearest later q earlier hsplit hlength).later hacts, h.peers_nodup, h.peers_le,
      hfixed.netmode ▸ h.peers_valid, fun state' hstate' => ?_⟩
    · rw [hqueries, hadded', append_assoc]
    · rw [hasked, filter_append, hnone, nil_append]
    · rw [hdeliveries, hoffered', append_assoc]
    · rw [hpeers, filter_append, hnone', nil_append]
    · obtain ⟨state, hstate, halike⟩ := hactive state' hstate'
      exact (h.recalls state hstate).alike halike

end PeerLookupActor

end PeerLookup

end DhtCrawler
