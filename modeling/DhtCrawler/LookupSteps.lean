import DhtCrawler.LookupModel
import DhtCrawler.ProbesHeap
import DhtCrawler.RoutingNearest

/-! What the lookup actor can do, as a relation on its state. -/

namespace DhtCrawler

open FiniteMap List

variable {node : NodeTuple} {sourceSeed : Bool}

lemma foldl_least_mem {α : Type} {cmp : α → α → Ordering} (xs : List α) (x : α) :
    xs.foldl (fun least y => if cmp least y = .gt then y else least) x ∈ x :: xs := by
  induction xs generalizing x with
  | nil => exact mem_singleton_self x
  | cons y xs ih =>
    rw [foldl_cons]
    have h := ih (if cmp x y = .gt then y else x)
    split_ifs at h ⊢
    · exact mem_cons_of_mem x h
    · rcases mem_cons.mp h with heq | hmem
      · rw [heq]
        exact mem_cons_self
      · exact mem_cons_of_mem x (mem_cons_of_mem y hmem)

lemma minBy_mem {α : Type} {cmp : α → α → Ordering} {xs : List α} {x : α} (h : minBy cmp xs = some x) :
    x ∈ xs := by
  cases xs with
  | nil => cases h
  | cons y ys =>
    cases h
    exact foldl_least_mem ys y

lemma minBy_eq_none {α : Type} {cmp : α → α → Ordering} {xs : List α} (h : minBy cmp xs = none) : xs = [] := by
  cases xs with
  | nil => rfl
  | cons y ys => cases h

namespace PeerLookup

namespace LookupState

variable {state state' : LookupState}

/-- The node taken from the lookup, whether it was a source node, and the state left behind. -/
inductive Popped (state : LookupState) : NodeTuple → Bool → LookupState → Prop where
  | source {node sourceNodes}
      (hsource : state.sourceNodes = node :: sourceNodes) :
      Popped state node true { state with sourceNodes }
  | frontier {node frontier} (index : ℕ)
      (hsource : state.sourceNodes = [])
      (hleast : minBy (fun left right => xorDistanceCmp left.1.id right.1.id state.infoHash)
        state.frontier.zipIdx = some (node, index))
      (hperm : (node :: frontier).Perm state.frontier) :
      Popped state node false { state with frontier }

lemma popClosest_spec (state : LookupState) :
    Except.Sure state.popClosest fun
      | none => state.sourceNodes = [] ∧ state.frontier = []
      | some (node, sourceSeed, state') => Popped state node sourceSeed state' := by
  unfold popClosest
  split
  · rename_i node sourceNodes hsource
    exact .source hsource
  · rename_i hsource
    split
    · rename_i hleast
      exact ⟨hsource, zipIdx_eq_nil_iff.mp (minBy_eq_none hleast)⟩
    · rename_i node index hleast
      have hget : state.frontier[index]? = some node :=
        List.mem_zipIdx_iff_getElem?.mp (minBy_mem hleast)
      have hne : state.frontier ≠ [] := by
        intro hnil
        rw [hnil] at hget
        cases hget
      have hlast := List.getLast?_eq_some_getLast hne
      unfold swapRemove
      rw [hget, hlast]
      exact .frontier index hsource hleast (RecentProbes.swapRemove_perm hget hlast)

lemma Popped.backlog_lt (h : Popped state node sourceSeed state') :
    state'.sourceNodes.length + state'.frontier.length < state.sourceNodes.length + state.frontier.length := by
  cases h with
  | source hsource =>
    rw [hsource, length_cons]
    dsimp only
    omega
  | frontier index hsource hleast hperm =>
    have hlen := hperm.length_eq
    rw [length_cons] at hlen
    dsimp only
    omega

lemma Popped.outstanding_eq 
    (h : Popped state node sourceSeed state') : state'.outstanding = state.outstanding := by
  cases h with
  | source => rfl
  | frontier => rfl

lemma isComplete_iff {closed : Bool} {now : Instant} :
    state.isComplete closed now = true ↔
      closed = true ∨ state.deadline ≤ now ∨ state.peers.card ≥ maxPeersPerLookup ∨
        state.outstanding = 0 ∧ state.queried ≥ state.maxQueries ∨
        state.outstanding = 0 ∧ state.frontier = [] ∧ state.sourceNodes = [] := by
  unfold isComplete finishReason
  split_ifs <;> simp_all

lemma learnPeers_frame (state : LookupState) (peers : List SocketAddr) :
    ∃ known discovered, state.learnPeers peers = ({ state with peers := known }, discovered) ∧
      discovered ⊆ peers := by
  induction peers generalizing state with
  | nil => exact ⟨state.peers, [], rfl, List.Subset.refl _⟩
  | cons peer rest ih =>
    unfold learnPeers
    split_ifs
    · obtain ⟨known, discovered, heq, hsub⟩ := ih { state with peers := insert peer state.peers }
      rw [heq]
      exact ⟨known, peer :: discovered, rfl, cons_subset_cons peer hsub⟩
    · obtain ⟨known, discovered, heq, hsub⟩ := ih state
      exact ⟨known, discovered, heq, subset_cons_of_subset peer hsub⟩

lemma learnNodes_frame (state : LookupState) (nodes : List NodeTuple) :
    ∃ seenNodes frontier, state.learnNodes nodes = { state with seenNodes, frontier } ∧
      (state.frontier.length ≤ maxFrontierNodes → frontier.length ≤ maxFrontierNodes) := by
  induction nodes generalizing state with
  | nil => exact ⟨state.seenNodes, state.frontier, rfl, id⟩
  | cons node rest ih =>
    unfold learnNodes
    split_ifs with hfull hseen
    · exact ⟨state.seenNodes, state.frontier, rfl, id⟩
    · exact ih state
    · obtain ⟨seenNodes, frontier, heq, hlen⟩ := ih
        { state with
          seenNodes := insert node.addr state.seenNodes
          frontier := state.frontier ++ [node] }
      refine ⟨seenNodes, frontier, heq, fun _ => hlen ?_⟩
      rw [length_append, length_singleton]
      omega

/-- The answer of one of its queries takes the lookup to `next`, and `discovered` are the peers it offers. -/
def Learns (state : LookupState) (response : DhtResponse) (netmode : NetMode) (next : LookupState)
    (discovered : List SocketAddr) : Prop :=
  ∃ mid, { state with outstanding := state.outstanding - 1 }.learnPeers (responsePeers response netmode) =
      (mid, discovered) ∧ next = mid.learnNodes (responseNodes response netmode)

lemma Learns.frame {response : DhtResponse} {netmode : NetMode} {next : LookupState}
    {discovered : List SocketAddr} (h : state.Learns response netmode next discovered) :
    ∃ seenNodes frontier peers,
      next = { state with outstanding := state.outstanding - 1, seenNodes, frontier, peers } ∧
      (state.frontier.length ≤ maxFrontierNodes → frontier.length ≤ maxFrontierNodes) ∧
      discovered ⊆ responsePeers response netmode := by
  obtain ⟨mid, hlearn, rfl⟩ := h
  obtain ⟨peers, discovered', hpeers, hsub⟩ := learnPeers_frame
    { state with outstanding := state.outstanding - 1 } (responsePeers response netmode)
  cases hlearn.symm.trans hpeers
  obtain ⟨seenNodes, frontier, hnodes, hlen⟩ := learnNodes_frame
    { state with outstanding := state.outstanding - 1, peers } (responseNodes response netmode)
  exact ⟨seenNodes, frontier, peers, hnodes, hlen, hsub⟩

end LookupState

namespace PeerLookupActor

variable {σ σ' : PeerLookupActor} {lookupId : ℕ} {cause : Cause}

def pass (σ : PeerLookupActor) (clock : Instant) (dropped : Finset ℕ) (future : ℕ → Look) :
    PeerLookupActor :=
  { σ with clock, dropped, future }

def attempted (σ : PeerLookupActor) (lookupId : ℕ) (node : NodeTuple) (sourceSeed : Bool)
    (state : LookupState) (sent : Bool) : PeerLookupActor :=
  { σ with
    active := σ.active.insert lookupId state
    nextTid := max (wrappingSucc σ.nextTid) 1
    queries := ⟨lookupId, node, taggedTid lookupTidTag σ.nextTid, sourceSeed, sent⟩ :: σ.queries }

def nextKey (σ : PeerLookupActor) (node : NodeTuple) : PendingKey :=
  ⟨node.addr, taggedTid lookupTidTag σ.nextTid⟩

lemma send_eq (σ : PeerLookupActor) (addr : SocketAddr) :
    ∃ clock dropped future sent, σ.clock ≤ clock ∧ σ.dropped ⊆ dropped ∧
      σ.send addr = (σ.pass clock dropped future, sent) := by
  unfold send
  generalize (if addr.isIpv4 = true then σ.socketV4 else σ.socketV6) = socket
  cases socket with
  | true =>
    exact ⟨σ.clock + (σ.future 0).elapsed, σ.dropped ∪ (σ.future 0).dropped, _, (σ.future 0).sent,
      Nat.le_add_right _ _, Finset.subset_union_left, rfl⟩
  | false => exact ⟨σ.clock, σ.dropped, σ.future, false, le_rfl, Finset.Subset.refl _, rfl⟩

lemma attempt_eq (σ : PeerLookupActor) (lookupId : ℕ) (node : NodeTuple) (sourceSeed : Bool)
    (state : LookupState) :
    ∃ clock dropped future sent, σ.clock ≤ clock ∧ σ.dropped ⊆ dropped ∧
      σ.attempt lookupId node sourceSeed state =
        ((σ.attempted lookupId node sourceSeed state sent).pass clock dropped future, sent) := by
  unfold attempt
  obtain ⟨clock, dropped, future, sent, hclock, hdropped, hsend⟩ := send_eq
    { σ with
      active := σ.active.insert lookupId state
      nextTid := max (wrappingSucc σ.nextTid) 1 } node.addr
  rw [hsend]
  exact ⟨clock, dropped, future, sent, hclock, hdropped, rfl⟩

/-! ### Acts -/

/-- The nodes of a request that are asked first, with their addresses. -/
def chosenSources (σ : PeerLookupActor) (request : PeerLookupRequest) : List NodeTuple × Finset SocketAddr :=
  distinctNodes maxSourceNodes ∅
    (request.sourceNodes.filter fun node => σ.filterIpv6.all fun ipv6 => node.addr.isIpv6 == ipv6)

/-- The nodes of the snapshot that a lookup starts with. -/
def chosenNodes (σ : PeerLookupActor) (request : PeerLookupRequest) (published : Published) :
    List NodeTuple :=
  (RoutingSnapshot.bruteForce published.nodes published.limit request.infoHash
    (min σ.maxQueries maxFrontierNodes) σ.filterIpv6).filter
      fun node => decide (node.addr ∉ (σ.chosenSources request).2)

/-- There is room for another lookup, and the budget pays for it. -/
structure Opening (σ : PeerLookupActor) (requestBudget : RateBucket) : Prop where
  room : σ.active.len < σ.maxActiveLookups
  paid : σ.requestBudget.tryTakeOne σ.clock = (requestBudget, true)

def opened (σ : PeerLookupActor) (request : PeerLookupRequest) (published : Published)
    (requestBudget : RateBucket) : PeerLookupActor :=
  { σ with requestBudget }.openLookup request (σ.chosenNodes request published) (σ.chosenSources request).1
    σ.clock

def answered (σ : PeerLookupActor) (key : PendingKey) (lookupId : ℕ) (next : LookupState)
    (offered : List Delivery) : PeerLookupActor :=
  { σ with
    pending := σ.pending.erase key
    active := σ.active.insert lookupId next
    deliveries := offered ++ σ.deliveries }

/-- What the actor is at work on: the queries of one lookup, a request, a response, or the maintenance. -/
inductive Cause where
  | dispatch (lookupId : ℕ)
  | request
  | response (key : PendingKey) (response : DhtResponse)
  | maintenance

/-- A dispatch goes on with its own lookup only. -/
def Cause.Serves (lookupId : ℕ) : Cause → Prop
  | .dispatch id => lookupId = id
  | _ => True

/-- What the actor does to the lookups it has. -/
inductive Act : Cause → PeerLookupActor → PeerLookupActor → Prop where
  | pass {cause : Cause} {σ : PeerLookupActor} (clock : Instant) (dropped : Finset ℕ) (future : ℕ → Look)
      (hclock : σ.clock ≤ clock) (hdropped : σ.dropped ⊆ dropped) :
      Act cause σ (σ.pass clock dropped future)
  | charge {σ : PeerLookupActor} (requestBudget : RateBucket) (taken : Bool)
      (htake : σ.requestBudget.tryTakeOne σ.clock = (requestBudget, taken)) :
      Act .request σ { σ with requestBudget }
  | unsent {cause : Cause} {σ : PeerLookupActor} (lookupId : ℕ) {node : NodeTuple} {sourceSeed : Bool}
      {state state' : LookupState} (clock : Instant) (dropped : Finset ℕ) (future : ℕ → Look)
      (hstate : σ.active.get lookupId = some state) (hmay : σ.mayQuery state = true)
      (hpop : state.Popped node sourceSeed state') (hclock : σ.clock ≤ clock)
      (hdropped : σ.dropped ⊆ dropped) (hserves : cause.Serves lookupId) :
      Act cause σ ((σ.attempted lookupId node sourceSeed { state' with queried := state'.queried + 1 }
        false).pass clock dropped future)
  | sent {cause : Cause} {σ : PeerLookupActor} (lookupId : ℕ) {node : NodeTuple} {sourceSeed : Bool}
      {state state' : LookupState} (clock : Instant) (dropped : Finset ℕ) (future : ℕ → Look)
      (hstate : σ.active.get lookupId = some state) (hmay : σ.mayQuery state = true)
      (hpop : state.Popped node sourceSeed state') (hclock : σ.clock ≤ clock)
      (hdropped : σ.dropped ⊆ dropped) (hserves : cause.Serves lookupId) :
      Act cause σ (((σ.attempted lookupId node sourceSeed { state' with queried := state'.queried + 1 }
        true).pass clock dropped future).awaitReply lookupId (σ.nextKey node)
          { state' with queried := state'.queried + 1 })
  | finish {cause : Cause} {σ : PeerLookupActor} (lookupId : ℕ) (hserves : cause.Serves lookupId) :
      Act cause σ (σ.finishLookup lookupId)
  | answer {σ : PeerLookupActor} (key : PendingKey) {query : PendingQuery} {state next : LookupState}
      (response : DhtResponse) {discovered : List SocketAddr} (hquery : σ.pending.get key = some query)
      (hstate : σ.active.get query.lookupId = some state) (hdeadline : σ.clock < state.deadline)
      (hlearn : state.Learns response σ.netmode next discovered) :
      Act (.response key response) σ (σ.answered key query.lookupId next
        (discovered.map fun peer => ⟨query.lookupId, state.infoHash, peer⟩))
  /-- A record of a query that has ended before. -/
  | dropRecord {σ : PeerLookupActor} (deadline : Instant) (key : PendingKey)
      (pendingExpiry : List (Instant × PendingKey))
      (hfirst : σ.pendingExpiry = (deadline, key) :: pendingExpiry)
      (hended : (σ.pending.get key).filter (fun query => query.deadline = deadline) = none) :
      Act .maintenance σ { σ with pendingExpiry }
  | timeout {σ : PeerLookupActor} (key : PendingKey) {query : PendingQuery} {state : LookupState}
      (pendingExpiry : List (Instant × PendingKey))
      (hfirst : σ.pendingExpiry = (query.deadline, key) :: pendingExpiry)
      (hquery : σ.pending.get key = some query) (hstate : σ.active.get query.lookupId = some state)
      (hdue : query.deadline ≤ σ.clock) :
      Act .maintenance σ
        { σ with
          pendingExpiry
          pending := σ.pending.erase key
          active := σ.active.insert query.lookupId { state with outstanding := state.outstanding - 1 } }

/-- Acts of one cause. -/
abbrev Caused (cause : Cause) : PeerLookupActor → PeerLookupActor → Prop := Relation.ReflTransGen (Act cause)

inductive Step (σ : PeerLookupActor) : PeerLookupActor → Prop where
  | act {cause : Cause} {σ' : PeerLookupActor} (hact : Act cause σ σ') : Step σ σ'
  | opened (request : PeerLookupRequest) (published : Published) {requestBudget : RateBucket}
      (hopen : σ.Opening requestBudget) : Step σ (σ.opened request published requestBudget)

abbrev Acts : PeerLookupActor → PeerLookupActor → Prop := Relation.ReflTransGen Step

/-- Steps that open no lookup. -/
abbrev Steadies : PeerLookupActor → PeerLookupActor → Prop :=
  Relation.ReflTransGen fun σ σ' => ∃ cause, Act cause σ σ'

lemma Caused.steadies (h : Caused cause σ σ') : Steadies σ σ' :=
  Relation.ReflTransGen.mono (fun _ _ hact => ⟨cause, hact⟩) _ _ h

lemma Steadies.acts (h : Steadies σ σ') : Acts σ σ' :=
  Relation.ReflTransGen.mono (fun _ _ ⟨_, hact⟩ => .act hact) _ _ h

lemma look_eq (σ : PeerLookupActor) :
    ∃ clock dropped future, σ.clock ≤ clock ∧ σ.dropped ⊆ dropped ∧ σ.look = σ.pass clock dropped future :=
  ⟨σ.clock + (σ.future 0).elapsed, σ.dropped ∪ (σ.future 0).dropped, fun n => σ.future (n + 1),
    Nat.le_add_right _ _, Finset.subset_union_left, rfl⟩

lemma act_look (cause : Cause) (σ : PeerLookupActor) : Act cause σ σ.look := by
  obtain ⟨clock, dropped, future, hclock, hdropped, heq⟩ := look_eq σ
  rw [heq]
  exact .pass clock dropped future hclock hdropped

/-! ### What every act keeps -/

structure Limited (σ : PeerLookupActor) (state : LookupState) : Prop where
  outstanding : state.outstanding ≤ σ.maxConcurrentQueries
  queried : state.queried ≤ σ.maxQueries
  frontier : state.frontier.length ≤ maxFrontierNodes
  sourceNodes : state.sourceNodes.length ≤ maxSourceNodes
  maxQueries : state.maxQueries = σ.maxQueries

structure Sound (σ : PeerLookupActor) : Prop where
  concurrent : 1 ≤ σ.maxConcurrentQueries
  limited : ∀ id state, σ.active.get id = some state → σ.Limited state
  owned : ∀ key query, σ.pending.get key = some query → ∃ state, σ.active.get query.lookupId = some state
  recorded : ∀ key query, σ.pending.get key = some query → (query.deadline, key) ∈ σ.pendingExpiry
  room : σ.active.len ≤ σ.maxActiveLookups

lemma sound_new (options : PeerLookupOptions) (netmode : NetMode) (socketV4 socketV6 : Bool)
    (now : Instant) : (new options netmode socketV4 socketV6 now).Sound where
  concurrent := Nat.le_max_right _ _
  limited := fun id state h => by rw [new, get_empty] at h; cases h
  owned := fun key query h => by rw [new, get_empty] at h; cases h
  recorded := fun key query h => by rw [new, get_empty] at h; cases h
  room := by rw [new, len_empty]; exact Nat.zero_le _

lemma mayQuery_iff {state : LookupState} :
    σ.mayQuery state = true ↔ σ.isClosed state.peerTx = false ∧ σ.clock < state.deadline ∧
        state.peers.card < maxPeersPerLookup ∧ state.queried < σ.maxQueries ∧
        state.outstanding < σ.maxConcurrentQueries := by
  simp only [mayQuery, Bool.not_eq_true', Bool.or_eq_false_iff, decide_eq_false_iff_not, not_le, ge_iff_le]
  tauto

lemma Sound.update (h : σ.Sound) {state : LookupState} (hold : ∃ old, σ.active.get lookupId = some old)
    (hstate : σ.Limited state) {pending : FiniteMap PendingKey PendingQuery}
    (hpending : ∀ key query, pending.get key = some query →
      σ.pending.get key = some query ∨ query.lookupId = lookupId)
    {pendingExpiry : List (Instant × PendingKey)}
    (hrecord : ∀ key query, pending.get key = some query → (query.deadline, key) ∈ pendingExpiry)
    (hlimits : σ'.maxConcurrentQueries = σ.maxConcurrentQueries ∧ σ'.maxQueries = σ.maxQueries ∧
      σ'.maxActiveLookups = σ.maxActiveLookups)
    (hnew : σ'.active = σ.active.insert lookupId state ∧ σ'.pending = pending ∧
      σ'.pendingExpiry = pendingExpiry) :
    σ'.Sound := by
  obtain ⟨hconcurrent, hqueries, hactive⟩ := hlimits
  obtain ⟨hactive', rfl, rfl⟩ := hnew
  have hlim : ∀ {s : LookupState}, σ.Limited s → σ'.Limited s := by
    intro s hs
    exact ⟨hconcurrent ▸ hs.outstanding, hqueries ▸ hs.queried, hs.frontier, hs.sourceNodes,
      hqueries ▸ hs.maxQueries⟩
  refine ⟨hconcurrent ▸ h.concurrent, ?_, ?_, hrecord, ?_⟩
  · rw [hactive']
    exact forall_insert (hlim hstate) fun id s _ hs => hlim (h.limited id s hs)
  · intro key query hquery
    rw [hactive', get_insert]
    split_ifs with hid
    · exact ⟨state, rfl⟩
    · rcases hpending key query hquery with hold' | heq
      · exact h.owned key query hold'
      · exact absurd heq hid
  · obtain ⟨old, hold⟩ := hold
    rw [hactive, hactive', len_insert_old hold]
    exact h.room

lemma Limited.popped {state state' : LookupState} 
    (h : σ.Limited state) (hmay : σ.mayQuery state = true) (hpop : state.Popped node sourceSeed state') :
    σ.Limited { state' with queried := state'.queried + 1 } := by
  obtain ⟨_, _, _, hqueried, _⟩ := mayQuery_iff.mp hmay
  cases hpop with
  | source hsource =>
    have hlen := h.sourceNodes
    rw [hsource, length_cons] at hlen
    exact ⟨h.outstanding, hqueried, h.frontier, Nat.le_of_succ_le hlen, h.maxQueries⟩
  | frontier index hsource hleast hperm =>
    have hlen := h.frontier
    rw [← hperm.length_eq, length_cons] at hlen
    exact ⟨h.outstanding, hqueried, Nat.le_of_succ_le hlen, h.sourceNodes, h.maxQueries⟩

lemma Limited.awaited {state state' : LookupState} 
    (h : σ.Limited state) (hmay : σ.mayQuery state = true) (hpop : state.Popped node sourceSeed state') :
    σ.Limited { state' with queried := state'.queried + 1, outstanding := state'.outstanding + 1 } := by
  obtain ⟨_, _, _, _, houtstanding⟩ := mayQuery_iff.mp hmay
  have h' := h.popped hmay hpop
  exact ⟨hpop.outstanding_eq ▸ houtstanding, h'.queried, h'.frontier, h'.sourceNodes, h'.maxQueries⟩

lemma learn_eq (σ : PeerLookupActor) (key : PendingKey) (lookupId : ℕ) (state : LookupState)
    (response : DhtResponse) :
    ∃ next discovered, state.Learns response σ.netmode next discovered ∧
      { σ with pending := σ.pending.erase key }.learn lookupId state response =
        σ.answered key lookupId next (discovered.map fun peer => ⟨lookupId, state.infoHash, peer⟩) := by
  obtain ⟨peers, discovered, hpeers, -⟩ := LookupState.learnPeers_frame
    { state with outstanding := state.outstanding - 1 } (responsePeers response σ.netmode)
  refine ⟨_, discovered, ⟨_, hpeers, rfl⟩, ?_⟩
  unfold learn
  rw [hpeers]
  rfl

lemma distinctNodes_length (n : ℕ) (seen : Finset SocketAddr) (nodes : List NodeTuple) :
    (distinctNodes n seen nodes).1.length ≤ n := by
  fun_induction distinctNodes n seen nodes with
  | case1 => exact Nat.le_refl _
  | case2 => exact Nat.zero_le _
  | case3 _ _ _ _ _ ih => exact ih
  | case4 n seen node rest hseen nodes' seen' heq ih =>
    rw [heq] at ih
    exact Nat.succ_le_succ ih

lemma chosenNodes_length (σ : PeerLookupActor) (request : PeerLookupRequest) (published : Published) :
    (σ.chosenNodes request published).length ≤ maxFrontierNodes := by
  calc _ ≤ _ := length_filter_le _ _
    _ ≤ _ := length_take_le _ _
    _ ≤ maxFrontierNodes := min_le_right _ _

lemma Sound.opened (h : σ.Sound) {requestBudget : RateBucket} (hopen : σ.Opening requestBudget)
    (request : PeerLookupRequest) (published : Published) :
    (σ.opened request published requestBudget).Sound := by
  unfold PeerLookupActor.opened openLookup
  refine ⟨h.concurrent, forall_insert ?_ fun id state _ hstate => ?_, ?_, h.recorded, ?_⟩
  · exact ⟨Nat.zero_le _, Nat.zero_le _, σ.chosenNodes_length request published, distinctNodes_length _ _ _, rfl⟩
  · exact { h.limited id state hstate with }
  · intro key query hquery
    rw [get_insert]
    split_ifs with hid
    · exact ⟨_, rfl⟩
    · exact h.owned key query hquery
  · exact (len_insert_le _ _ _).trans hopen.room

lemma get_pending_finishLookup {key : PendingKey} {query : PendingQuery} :
    (σ.finishLookup lookupId).pending.get key = some query ↔
      σ.pending.get key = some query ∧ query.lookupId ≠ lookupId := by
  unfold PeerLookupActor.finishLookup
  rw [get_retain, Option.filter_eq_some_iff]
  simp

lemma get_active_finishLookup {id : ℕ} {state : LookupState} :
    (σ.finishLookup lookupId).active.get id = some state ↔ id ≠ lookupId ∧ σ.active.get id = some state := by
  unfold PeerLookupActor.finishLookup
  rw [get_erase]
  split_ifs with h <;> simp [h]

lemma Sound.finishLookup (h : σ.Sound) (lookupId : ℕ) : (σ.finishLookup lookupId).Sound := by
  refine ⟨h.concurrent, ?_, ?_, ?_, ?_⟩
  · intro id state hstate
    exact { h.limited id state (get_active_finishLookup.mp hstate).2 with }
  · intro key query hquery
    obtain ⟨hold, hne⟩ := get_pending_finishLookup.mp hquery
    obtain ⟨state, hstate⟩ := h.owned key query hold
    exact ⟨state, get_active_finishLookup.mpr ⟨hne, hstate⟩⟩
  · intro key query hquery
    exact h.recorded key query (get_pending_finishLookup.mp hquery).1
  · exact (len_erase_le _ _).trans h.room

lemma get_pending_awaitReply (σ : PeerLookupActor) (lookupId : ℕ) (key k : PendingKey) (state : LookupState) :
    (σ.awaitReply lookupId key state).pending.get k =
      if k = key then some ⟨lookupId, min (lookupDeadline σ.clock σ.queryTimeout) state.deadline⟩
      else σ.pending.get k :=
  get_insert _ _ _ _

lemma Act.sound (hact : Act cause σ σ') (h : σ.Sound) : σ'.Sound := by
  cases hact with
  | pass => exact { h with limited := fun id state hs => { h.limited id state hs with } }
  | charge => exact { h with limited := fun id state hs => { h.limited id state hs with } }
  | unsent lookupId clock dropped future hstate hmay hpop =>
    exact h.update ⟨_, hstate⟩ ((h.limited _ _ hstate).popped hmay hpop)
      (fun key query hq => Or.inl hq) h.recorded ⟨rfl, rfl, rfl⟩ ⟨rfl, rfl, rfl⟩
  | @sent _ _ lookupId node sourceSeed state state' clock dropped future hstate hmay hpop =>
    refine h.update ⟨_, hstate⟩ ((h.limited _ _ hstate).awaited hmay hpop) ?_ ?_ ⟨rfl, rfl, rfl⟩
      ⟨insert_insert _ _ _ _, rfl, rfl⟩
    · intro key query hq
      rw [get_pending_awaitReply] at hq
      split_ifs at hq with hkey
      · cases hq
        exact Or.inr rfl
      · exact Or.inl hq
    · intro key query hq
      rw [get_pending_awaitReply] at hq
      rw [awaitReply, mem_append, mem_singleton]
      split_ifs at hq with hkey
      · cases hq
        rw [hkey]
        exact Or.inr rfl
      · exact Or.inl (h.recorded key query hq)
  | finish lookupId => exact h.finishLookup lookupId
  | @answer _ key query state next response discovered hquery hstate hdeadline hlearn =>
    obtain ⟨seenNodes, frontier, peers, hnext, hlen, -⟩ := hlearn.frame
    have hlim := h.limited _ _ hstate
    have hlearned : σ.Limited next := by
      rw [hnext]
      exact ⟨(Nat.sub_le _ _).trans hlim.outstanding, hlim.queried, hlen hlim.frontier, hlim.sourceNodes,
        hlim.maxQueries⟩
    exact h.update ⟨_, hstate⟩ hlearned (fun k q hq => Or.inl (get_of_get_erase hq).2)
      (fun k q hq => h.recorded k q (get_of_get_erase hq).2) ⟨rfl, rfl, rfl⟩ ⟨rfl, rfl, rfl⟩
  | dropRecord deadline key pendingExpiry hfirst hended =>
    refine ⟨h.concurrent, fun id state hs => { h.limited id state hs with }, h.owned, ?_, h.room⟩
    intro k q hq
    have hmem := h.recorded k q hq
    rw [hfirst] at hmem
    rcases mem_cons.mp hmem with heq | hmem
    · -- the record of a query that is still pending is not dropped
      obtain ⟨rfl, rfl⟩ := Prod.mk.inj heq
      change (σ.pending.get k) = some q at hq
      rw [hq, Option.filter_some, if_pos (decide_eq_true rfl)] at hended
      cases hended
    · exact hmem
  | @timeout _ key query state pendingExpiry hfirst hquery hstate hdue =>
    have hlim := h.limited _ _ hstate
    have hended : σ.Limited { state with outstanding := state.outstanding - 1 } :=
      ⟨(Nat.sub_le _ _).trans hlim.outstanding, hlim.queried, hlim.frontier, hlim.sourceNodes, hlim.maxQueries⟩
    refine h.update ⟨_, hstate⟩ hended
      (fun k q hq => Or.inl (get_of_get_erase hq).2) ?_ ⟨rfl, rfl, rfl⟩ ⟨rfl, rfl, rfl⟩
    intro k q hq
    obtain ⟨hne, hq⟩ := get_of_get_erase hq
    have hmem := h.recorded k q hq
    rw [hfirst] at hmem
    rcases mem_cons.mp hmem with heq | hmem
    · exact absurd (Prod.mk.inj heq).2 hne
    · exact hmem

lemma Steadies.sound (hsteps : Steadies σ σ') (h : σ.Sound) : σ'.Sound := by
  induction hsteps with
  | refl => exact h
  | tail _ hstep ih => exact hstep.elim fun _ hact => hact.sound ih

end PeerLookupActor

end PeerLookup

end DhtCrawler
