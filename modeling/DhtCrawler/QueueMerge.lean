import DhtCrawler.LibNewest
import DhtCrawler.QueueModel

/-! What `merge_candidate` makes of the events of one hash. -/

namespace DhtCrawler

open Newest List

variable {entry : QueuedHash} {event : HashDiscovered} {events events' : List HashDiscovered}
  {seen peers : List PeerCandidate}

def announcements (events : List HashDiscovered) : List PeerCandidate :=
  events.filterMap fun event => event.peerAddr.map fun addr => ⟨addr, event.discoveredAt⟩

def mergeAll (entry : QueuedHash) (events : List HashDiscovered) : QueuedHash :=
  events.foldl (fun entry event => (mergeCandidate entry event).1) entry

abbrev NewestPeers (seen peers : List PeerCandidate) : Prop :=
  IsNewest PeerCandidate.addr PeerCandidate.discoveredAt maxMetadataCandidatesPerHash seen peers

/-! ### Peers -/

def renewedPeer (peers : List PeerCandidate) (next : PeerCandidate) : PeerCandidate :=
  match peers.find? fun peer => peer.addr == next.addr with
  | some peer => ⟨next.addr, max peer.discoveredAt next.discoveredAt⟩
  | none => next

lemma renewedPeer_renews (hnewest : NewestPeers seen peers)
    (htimes : TellsApart PeerCandidate.discoveredAt seen) (next : PeerCandidate) :
    Renews PeerCandidate.addr PeerCandidate.discoveredAt peers next (renewedPeer peers next) := by
  unfold renewedPeer
  cases hfind : peers.find? fun peer => peer.addr == next.addr with
  | none =>
    have hnew := List.find?_eq_none.mp hfind
    exact ⟨rfl, .inl rfl, le_refl _, fun p hp haddr => absurd (beq_iff_eq.mpr haddr) (hnew p hp)⟩
  | some peer =>
    have hpeer := List.mem_of_find?_eq_some hfind
    have hfound := List.find?_some hfind
    have haddr : peer.addr = next.addr := beq_iff_eq.mp hfound
    refine ⟨rfl, ?_, le_max_right _ _, fun p hp hsame => ?_⟩
    · dsimp only
      rcases le_total peer.discoveredAt next.discoveredAt with hle | hle
      · rw [max_eq_right hle]
        exact .inl rfl
      · rw [max_eq_left hle, ← haddr]
        exact .inr hpeer
    · rw [hnewest.eq_of_subject hnewest htimes hp hpeer (hsame.trans haddr.symm)]
      exact le_max_left _ _

lemma renewedPeer_addr (peers : List PeerCandidate) (next : PeerCandidate) :
    (renewedPeer peers next).addr = next.addr := by
  unfold renewedPeer
  split
  · rfl
  · rfl

lemma filter_bne_addr {C : Type} (addr : C → SocketAddr) (kept : List C) (new : SocketAddr) :
    kept.filter (fun p => addr p != new) = kept.filter (fun p => addr p ≠ new) := by
  refine filter_congr fun p _ => ?_
  rw [bne, Bool.beq_eq_decide_eq, decide_not]

lemma mergePeer_eq (peers : List PeerCandidate) (next : PeerCandidate) :
    mergePeer peers next.addr next.discoveredAt =
      ((peers.filter (fun p => p.addr ≠ (renewedPeer peers next).addr) ++
          [renewedPeer peers next]).insertionSort
        fun a b : PeerCandidate => b.discoveredAt ≤ a.discoveredAt).take maxMetadataCandidatesPerHash := by
  unfold mergePeer
  rw [renewedPeer_addr, filter_bne_addr PeerCandidate.addr]
  unfold renewedPeer
  cases peers.find? fun peer => peer.addr == next.addr with
  | none => rfl
  | some peer => rfl

lemma mergePeer_displaced (peers : List PeerCandidate) (next : PeerCandidate) :
    Displaced PeerCandidate.addr maxMetadataCandidatesPerHash peers (renewedPeer peers next)
      (mergePeer peers next.addr next.discoveredAt) :=
  ⟨_, perm_insertionSort _ _, mergePeer_eq peers next⟩

lemma insertionSort_extended (hnewest : NewestPeers seen peers) {next renewed : PeerCandidate}
    (htimes : TellsApart PeerCandidate.discoveredAt (next :: seen))
    (hrenews : Renews PeerCandidate.addr PeerCandidate.discoveredAt peers next renewed) :
    Extended PeerCandidate.addr PeerCandidate.discoveredAt peers renewed
      ((peers.filter (fun p => p.addr ≠ renewed.addr) ++ [renewed]).insertionSort
        fun a b : PeerCandidate => b.discoveredAt ≤ a.discoveredAt) := by
  have hperm := perm_insertionSort (fun a b : PeerCandidate => b.discoveredAt ≤ a.discoveredAt)
    (peers.filter (fun p => p.addr ≠ renewed.addr) ++ [renewed])
  refine ⟨?_, hperm⟩
  have hrenewed : renewed ∈ next :: seen := by
    rcases hrenews.mem with rfl | hold
    · exact mem_cons_self
    · exact mem_cons_of_mem _ (hnewest.mem _ hold)
  have hdistinct : (peers.filter (fun p => p.addr ≠ renewed.addr) ++ [renewed]).Pairwise
      fun a b => a.discoveredAt ≠ b.discoveredAt := by
    refine pairwise_append.mpr ⟨?_, pairwise_singleton _ _, fun p hp q hq hsame => ?_⟩
    · exact (hnewest.sorted.imp fun hlt => hlt.ne').sublist filter_sublist
    · obtain ⟨hold, hother⟩ := mem_filter.mp hp
      rw [mem_singleton.mp hq] at hsame
      rw [htimes p (mem_cons_of_mem _ (hnewest.mem p hold)) renewed hrenewed hsame] at hother
      exact of_decide_eq_true hother rfl
  have hdistinct' := (hperm.pairwise_iff fun {a b} (hne : a.discoveredAt ≠ b.discoveredAt) => hne.symm).mpr
    hdistinct
  have : Std.Total fun a b : PeerCandidate => b.discoveredAt ≤ a.discoveredAt := ⟨fun a b => le_total _ _⟩
  have : IsTrans PeerCandidate fun a b => b.discoveredAt ≤ a.discoveredAt := ⟨fun _ _ _ hab hbc => hbc.trans hab⟩
  refine ((pairwise_insertionSort (fun a b : PeerCandidate => b.discoveredAt ≤ a.discoveredAt) _).and
    hdistinct').imp fun {a b} hab => ?_
  exact lt_of_le_of_ne hab.1 (Ne.symm hab.2)

lemma mergePeer_newest (hnewest : NewestPeers seen peers) (next : PeerCandidate)
    (htimes : TellsApart PeerCandidate.discoveredAt (next :: seen)) :
    NewestPeers (next :: seen) (mergePeer peers next.addr next.discoveredAt) := by
  have hseen : TellsApart PeerCandidate.discoveredAt seen :=
    fun p hp q hq => htimes p (mem_cons_of_mem _ hp) q (mem_cons_of_mem _ hq)
  have hrenews := renewedPeer_renews hnewest hseen next
  rw [mergePeer_eq]
  exact hnewest.announce hseen hrenews (insertionSort_extended hnewest htimes hrenews)

lemma mergeCandidate_peers (entry : QueuedHash) (event : HashDiscovered) :
    (mergeCandidate entry event).1.peers =
      (event.peerAddr.map fun addr => mergePeer entry.peers addr event.discoveredAt).getD entry.peers := by
  unfold mergeCandidate
  cases event.peerAddr <;> rfl

lemma mergeAll_newest (hnewest : NewestPeers seen entry.peers)
    (htimes : TellsApart PeerCandidate.discoveredAt (seen ++ announcements events)) :
    NewestPeers (seen ++ announcements events) (mergeAll entry events).peers := by
  induction events generalizing entry seen with
  | nil =>
    rw [announcements, filterMap_nil, append_nil]
    exact hnewest
  | cons event rest ih =>
    have hmerge : mergeAll entry (event :: rest) = mergeAll (mergeCandidate entry event).1 rest := rfl
    rw [hmerge]
    cases hpeer : event.peerAddr with
    | none =>
      have hsame : announcements (event :: rest) = announcements rest := by
        rw [announcements, filterMap_cons_none (by rw [hpeer]; rfl)]
        rfl
      have hpeers : (mergeCandidate entry event).1.peers = entry.peers := by
        rw [mergeCandidate_peers, hpeer]
        rfl
      rw [hsame] at htimes ⊢
      rw [← hpeers] at hnewest
      exact ih hnewest htimes
    | some addr =>
      have hnext : announcements (event :: rest) = ⟨addr, event.discoveredAt⟩ :: announcements rest := by
        rw [announcements, filterMap_cons_some (by rw [hpeer]; rfl)]
        rfl
      have hpeers : (mergeCandidate entry event).1.peers = mergePeer entry.peers addr event.discoveredAt := by
        rw [mergeCandidate_peers, hpeer]
        rfl
      rw [hnext, append_cons] at htimes ⊢
      have hmem : ∀ q, q ∈ seen ++ [⟨addr, event.discoveredAt⟩] ↔ q ∈ ⟨addr, event.discoveredAt⟩ :: seen := by
        intro q
        rw [mem_append, mem_singleton, mem_cons, or_comm]
      have hstep := mergePeer_newest hnewest ⟨addr, event.discoveredAt⟩ fun p hp q hq =>
        htimes p (mem_append_left _ ((hmem p).mpr hp)) q (mem_append_left _ ((hmem q).mpr hq))
      rw [← hpeers] at hstep
      exact ih (hstep.congr hmem) htimes

/-! ### The other parts of an entry -/

def Supplied (nodes : List NodeTuple) : Prop := nodes.length ≤ 8 ∧ (nodes.map NodeTuple.addr).Nodup

lemma mergeSourceNode_displaced (nodes : List NodeTuple) (node : NodeTuple) :
    Displaced NodeTuple.addr 8 nodes node (mergeSourceNode nodes node) := by
  unfold mergeSourceNode
  rw [filter_bne_addr NodeTuple.addr]
  exact ⟨_, (perm_append_singleton node _).symm, rfl⟩

lemma mergeSourceNode_supplied {nodes : List NodeTuple} (h : Supplied nodes) (node : NodeTuple) :
    Supplied (mergeSourceNode nodes node) :=
  ⟨length_take_le _ _, (mergeSourceNode_displaced nodes node).nodup h.2⟩

lemma mergeAll_supplied (h : Supplied entry.sourceNodes) (events : List HashDiscovered) :
    Supplied (mergeAll entry events).sourceNodes := by
  induction events generalizing entry with
  | nil => exact h
  | cons event rest ih =>
    have hstep : Supplied (mergeCandidate entry event).1.sourceNodes := by
      unfold mergeCandidate
      cases event.sourceNode with
      | none => exact h
      | some node => exact mergeSourceNode_supplied h node
    exact ih hstep

lemma mergeAll_latestAt (entry : QueuedHash) (events : List HashDiscovered) :
    (∀ event ∈ events, event.discoveredAt ≤ (mergeAll entry events).latestAt) ∧
      ((mergeAll entry events).latestAt = entry.latestAt ∨
        ∃ event ∈ events, (mergeAll entry events).latestAt = event.discoveredAt) ∧
      entry.latestAt ≤ (mergeAll entry events).latestAt := by
  induction events generalizing entry with
  | nil => exact ⟨nofun, .inl rfl, le_refl _⟩
  | cons event rest ih =>
    have hstep : (mergeCandidate entry event).1.latestAt = max entry.latestAt event.discoveredAt := rfl
    obtain ⟨hle, hwhich, hkept⟩ := ih (mergeCandidate entry event).1
    have hmerge : mergeAll entry (event :: rest) = mergeAll (mergeCandidate entry event).1 rest := rfl
    rw [hstep] at hwhich hkept
    rw [hmerge]
    refine ⟨fun e he => ?_, ?_, (le_max_left _ _).trans hkept⟩
    · rcases mem_cons.mp he with rfl | he
      · exact (le_max_right _ _).trans hkept
      · exact hle e he
    · rcases hwhich with hfirst | ⟨e, he, hlast⟩
      · rcases max_choice entry.latestAt event.discoveredAt with hmax | hmax
        · exact .inl (hfirst.trans hmax)
        · exact .inr ⟨event, mem_cons_self, hfirst.trans hmax⟩
      · exact .inr ⟨e, mem_cons_of_mem _ he, hlast⟩

/-! ### What is kept -/

lemma mergeCandidate_sourceNodes (entry : QueuedHash) (event : HashDiscovered) :
    (mergeCandidate entry event).1.sourceNodes =
      (event.sourceNode.map (mergeSourceNode entry.sourceNodes)).getD entry.sourceNodes := by
  unfold mergeCandidate
  cases event.sourceNode <;> rfl

lemma mergeAll_displaces_peers (entry : QueuedHash) (events : List HashDiscovered) :
    ∃ news : List PeerCandidate, news.map PeerCandidate.addr = events.filterMap HashDiscovered.peerAddr ∧
      Displaces PeerCandidate.addr maxMetadataCandidatesPerHash entry.peers news
        (mergeAll entry events).peers := by
  induction events generalizing entry with
  | nil => exact ⟨[], rfl, .nil _⟩
  | cons event rest ih =>
    obtain ⟨news, hnews, hrest⟩ := ih (mergeCandidate entry event).1
    rw [mergeCandidate_peers] at hrest
    cases hpeer : event.peerAddr with
    | none =>
      rw [hpeer] at hrest
      rw [filterMap_cons_none hpeer]
      exact ⟨news, hnews, hrest⟩
    | some addr =>
      rw [hpeer] at hrest
      rw [filterMap_cons_some hpeer]
      have hstep := mergePeer_displaced entry.peers ⟨addr, event.discoveredAt⟩
      refine ⟨renewedPeer entry.peers ⟨addr, event.discoveredAt⟩ :: news, ?_, .cons hstep hrest⟩
      rw [map_cons, hnews, renewedPeer_addr]

lemma mergeAll_displaces_sourceNodes (entry : QueuedHash) (events : List HashDiscovered) :
    Displaces NodeTuple.addr 8 entry.sourceNodes (events.filterMap HashDiscovered.sourceNode)
      (mergeAll entry events).sourceNodes := by
  induction events generalizing entry with
  | nil => exact .nil _
  | cons event rest ih =>
    have hrest := ih (mergeCandidate entry event).1
    rw [mergeCandidate_sourceNodes] at hrest
    cases hnode : event.sourceNode with
    | none =>
      rw [hnode] at hrest
      rw [filterMap_cons_none hnode]
      exact hrest
    | some node =>
      rw [hnode] at hrest
      rw [filterMap_cons_some hnode]
      exact .cons (mergeSourceNode_displaced _ _) hrest

/-! ### All orders -/

/-- The events of a hash may come in any order: the peers of its entry are the sixty-four addresses that were
announced last, each with the time of its last announcement, newest first. -/
theorem merge_order_independent (hpeers : entry.peers = []) (hsources : Supplied entry.sourceNodes)
    (hlatest : ∀ event ∈ events, entry.latestAt ≤ event.discoveredAt)
    (hdistinct : ((announcements events).map PeerCandidate.discoveredAt).Nodup) :
    (∀ events', events'.Perm events → (mergeAll entry events').peers = (mergeAll entry events).peers) ∧
    (mergeAll entry events).peers.Pairwise (fun a b => b.discoveredAt < a.discoveredAt) ∧
    (mergeAll entry events).peers.length ≤ 64 ∧
    ((mergeAll entry events).peers.map PeerCandidate.addr).Nodup ∧
    (∀ p ∈ (mergeAll entry events).peers, p ∈ announcements events ∧
      ∀ q ∈ announcements events, q.addr = p.addr → q.discoveredAt ≤ p.discoveredAt) ∧
    (∀ q ∈ announcements events, (∃ p ∈ (mergeAll entry events).peers, p.addr = q.addr) ∨
      (mergeAll entry events).peers.length = 64 ∧
        ∀ p ∈ (mergeAll entry events).peers, q.discoveredAt < p.discoveredAt) ∧
    (∀ event ∈ events, event.discoveredAt ≤ (mergeAll entry events).latestAt) ∧
    (events ≠ [] → ∃ event ∈ events, (mergeAll entry events).latestAt = event.discoveredAt) ∧
    (mergeAll entry events).sourceNodes.length ≤ 8 ∧
    ((mergeAll entry events).sourceNodes.map NodeTuple.addr).Nodup := by
  have htimes : TellsApart PeerCandidate.discoveredAt (announcements events) :=
    fun p hp q hq => List.inj_on_of_nodup_map hdistinct hp hq
  have hstart : NewestPeers [] entry.peers := by
    rw [hpeers]
    exact isNewest_nil _ _ _
  have hnewest : NewestPeers (announcements events) (mergeAll entry events).peers :=
    mergeAll_newest hstart htimes
  obtain ⟨hle, hwhich, hkept⟩ := mergeAll_latestAt entry events
  obtain ⟨height, hnodup⟩ := mergeAll_supplied hsources events
  refine ⟨fun events' hperm => ?_, hnewest.sorted, hnewest.length_le, ?_,
    fun p hp => ⟨hnewest.mem p hp, hnewest.last p hp⟩, hnewest.left, hle, fun hsome => ?_, height, hnodup⟩
  · have hsame : ∀ q, q ∈ announcements events' ↔ q ∈ announcements events :=
      fun q => (hperm.filterMap _).mem_iff
    have hnewest' : NewestPeers (announcements events') (mergeAll entry events').peers :=
      mergeAll_newest hstart fun p hp q hq => htimes p ((hsame p).mp hp) q ((hsame q).mp hq)
    exact (hnewest'.congr fun q => (hsame q).symm).unique hnewest htimes
  · refine hnewest.nodup.map_on fun p hp q hq haddr => hnewest.eq_of_subject hnewest htimes hp hq haddr
  · rcases hwhich with hfirst | hlast
    · obtain ⟨event, hevent⟩ := List.exists_mem_of_ne_nil _ hsome
      refine ⟨event, hevent, le_antisymm ?_ (hle event hevent)⟩
      rw [hfirst]
      exact hlatest event hevent
    · exact hlast

def bareEntry : QueuedHash where
  infoHash := "a"
  peers := []
  queuedAt := 0
  readyAt := 0
  latestAt := 0
  orderKey := toLex (0, 0)
  sourceNodes := []
  source := .announce
  expiresAt := secs 60
  isRetry := false
  ready := false

def announcedBy (octet : UInt8) (discoveredAt : Instant) : HashDiscovered :=
  exampleEvent "a" (some (exampleAddr octet)) discoveredAt

theorem merge_order_independent_three :
    (mergeAll bareEntry [announcedBy 1 5, announcedBy 2 3, announcedBy 1 4]).peers =
        [⟨.v4 #v[8, 8, 8, 1] 6881, 5⟩, ⟨.v4 #v[8, 8, 8, 2] 6881, 3⟩] ∧
      (mergeAll bareEntry [announcedBy 1 4, announcedBy 2 3, announcedBy 1 5]).peers =
        (mergeAll bareEntry [announcedBy 1 5, announcedBy 2 3, announcedBy 1 4]).peers := by
  have hdistinct : ((announcements [announcedBy 1 5, announcedBy 2 3, announcedBy 1 4]).map
      PeerCandidate.discoveredAt).Nodup := by decide
  have hbare : bareEntry.peers = [] := rfl
  have hmerge := merge_order_independent hbare ⟨Nat.zero_le _, .nil⟩ (fun _ _ => Nat.zero_le _) hdistinct
  exact ⟨by decide, hmerge.1 _ (List.reverse_perm [announcedBy 1 5, announcedBy 2 3, announcedBy 1 4])⟩

end DhtCrawler
