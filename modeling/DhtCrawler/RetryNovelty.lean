import DhtCrawler.RetryRules

/-! Which candidates earn an exhausted hash another attempt. -/

namespace DhtCrawler

open FiniteMap List Option Finset

variable {now : Instant}

namespace RetryState

variable {capacity : ℕ} {seen : List SocketAddr} {shown peers sources : Finset SocketAddr}

structure Remembers (capacity : ℕ) (seen : List SocketAddr) (shown : Finset SocketAddr) : Prop where
  nodup : seen.Nodup
  subset : ∀ a ∈ seen, a ∈ shown
  all : seen.length < capacity → ∀ a ∈ shown, a ∈ seen

lemma remembers_nil (capacity : ℕ) : Remembers capacity [] ∅ :=
  ⟨nodup_nil, nofun, fun _ _ ha => absurd ha (notMem_empty _)⟩

lemma Remembers.complete (h : Remembers capacity seen shown) (hcard : shown.card ≤ capacity)
    {a : SocketAddr} (ha : a ∈ shown) : a ∈ seen := by
  by_cases hroom : seen.length < capacity
  · exact h.all hroom a ha
  · have hsub : seen.toFinset ⊆ shown := fun b hb => h.subset b (List.mem_toFinset.mp hb)
    have hle : shown.card ≤ seen.toFinset.card := by
      rw [toFinset_card_of_nodup h.nodup]
      exact hcard.trans (not_lt.mp hroom)
    rw [← eq_of_subset_of_card_le hsub hle] at ha
    exact List.mem_toFinset.mp ha

lemma Remembers.observeOne (h : Remembers capacity seen shown) (candidate : Option SocketAddr) :
    Remembers capacity (observeOne candidate seen capacity).1 (shown ∪ candidate.toFinset) := by
  unfold RetryState.observeOne
  cases candidate with
  | none =>
    rw [toFinset_none, union_empty]
    exact h
  | some addr =>
    have hshown : ∀ a, a ∈ shown ∪ (some addr).toFinset ↔ a ∈ shown ∨ a = addr := fun a => by
      rw [mem_union, toFinset_some, Finset.mem_singleton]
    have hgrow : ∀ a ∈ seen, a ∈ shown ∪ (some addr).toFinset :=
      fun a ha => (hshown a).mpr (.inl (h.subset a ha))
    dsimp only
    split_ifs with hseen hroom
    · refine ⟨h.nodup, hgrow, fun hroom a ha => ?_⟩
      rcases (hshown a).mp ha with ha | rfl
      · exact h.all hroom a ha
      · exact hseen
    · refine ⟨h.nodup.append (nodup_singleton _) (List.disjoint_singleton.mpr hseen), fun a ha => ?_,
        fun _ a ha => ?_⟩
      · rcases mem_append.mp ha with ha | ha
        · exact hgrow a ha
        · exact (hshown a).mpr (.inr (List.mem_singleton.mp ha))
      · rcases (hshown a).mp ha with ha | rfl
        · exact mem_append_left _ (h.all hroom a ha)
        · exact mem_append_right _ (List.mem_singleton_self _)
    · exact ⟨h.nodup, hgrow, fun hroom' => absurd hroom' hroom⟩

lemma observeOne_listed {candidate : Option SocketAddr} (hseen : ∀ a, candidate = some a → a ∈ seen) :
    (observeOne candidate seen capacity).2 = false := by
  unfold RetryState.observeOne
  cases candidate with
  | none => rfl
  | some addr =>
    dsimp only
    rw [if_pos (hseen addr rfl)]

structure Recalls (state : RetryState) (peers sources : Finset SocketAddr) : Prop where
  peers : Remembers maxMetadataCandidatesPerHash state.peers peers
  sources : Remembers 8 state.sources sources

variable {state : RetryState}

lemma Recalls.observe (h : Recalls state peers sources) (peer source : Option SocketAddr) :
    Recalls (state.observe peer source).1 (peers ∪ peer.toFinset) (sources ∪ source.toFinset) :=
  ⟨h.peers.observeOne peer, h.sources.observeOne source⟩

lemma Recalls.rememberPeers (h : Recalls state peers sources) (candidates : List PeerCandidate) :
    Recalls (candidates.foldl (fun s peer => (s.observe (some peer.addr) none).1) state)
      (peers ∪ (candidates.map PeerCandidate.addr).toFinset) sources := by
  induction candidates generalizing state peers with
  | nil =>
    rw [map_nil, toFinset_nil, union_empty]
    exact h
  | cons peer rest ih =>
    have hstep := h.observe (some peer.addr) none
    rw [toFinset_none, union_empty] at hstep
    have hrest := ih hstep
    rw [toFinset_some, union_assoc, singleton_union] at hrest
    rw [List.map_cons, toFinset_cons]
    exact hrest

lemma Recalls.rememberSources (h : Recalls state peers sources) (nodes : List NodeTuple) :
    Recalls (nodes.foldl (fun s node => (s.observe none (some node.addr)).1) state) peers
      (sources ∪ (nodes.map NodeTuple.addr).toFinset) := by
  induction nodes generalizing state sources with
  | nil =>
    rw [map_nil, toFinset_nil, union_empty]
    exact h
  | cons node rest ih =>
    have hstep := h.observe none (some node.addr)
    rw [toFinset_none, union_empty] at hstep
    have hrest := ih hstep
    rw [toFinset_some, union_assoc, singleton_union] at hrest
    rw [List.map_cons, toFinset_cons]
    exact hrest

end RetryState

/-! ### Lifetimes -/

inductive HistoryCall where
  | observeEvent (event : HashDiscovered) (now : Instant)
  | remember (entry : QueuedHash)
  | record (hash : String) (now : Instant) (failed : Bool) (delay : Duration)

namespace HistoryCall

def peers (hash : String) : HistoryCall → Finset SocketAddr
  | .observeEvent event _ => if event.infoHash = hash then event.peerAddr.toFinset else ∅
  | .remember entry => if entry.infoHash = hash then (entry.peers.map PeerCandidate.addr).toFinset else ∅
  | .record .. => ∅

def sources (hash : String) : HistoryCall → Finset SocketAddr
  | .observeEvent event _ =>
    if event.infoHash = hash then (event.sourceNode.map NodeTuple.addr).toFinset else ∅
  | .remember entry => if entry.infoHash = hash then (entry.sourceNodes.map NodeTuple.addr).toFinset else ∅
  | .record .. => ∅

def Spares (hash : String) (history : RetryHistory) : HistoryCall → Prop
  | .observeEvent _ now => (history.expire now).entries.get hash ≠ none
  | .remember _ => True
  | .record _ now _ _ => (history.expire now).entries.get hash ≠ none

end HistoryCall

namespace RetryHistory

variable {policy : MetadataOptions} {hash : String} {history history' : RetryHistory}
  {peers sources : Finset SocketAddr}

def call (policy : MetadataOptions) (history : RetryHistory) : HistoryCall → Except Panic RetryHistory
  | .observeEvent event now => .ok (history.observeEvent event now policy).1
  | .remember entry => .ok (history.remember entry)
  | .record hash now failed delay => do
      let (history, _) ← history.record hash now failed delay policy
      .ok history

/-- `Shown policy hash history peers sources`: in the lifetime of its record `hash` was shown these endpoints.
-/
inductive Shown (policy : MetadataOptions) (hash : String) :
    RetryHistory → Finset SocketAddr → Finset SocketAddr → Prop where
  | created {history history' : RetryHistory} {now : Instant} {failed : Bool} {delay : Duration}
      {record : RetryRecord} (hexact : history.Exact) (hnone : (history.expire now).entries.get hash = none)
      (hrun : history.record hash now failed delay policy = .ok (history', some record)) :
      Shown policy hash history' ∅ ∅
  | call {history history' : RetryHistory} {peers sources : Finset SocketAddr} (op : HistoryCall)
      (hshown : Shown policy hash history peers sources) (hspares : op.Spares hash history)
      (hrun : history.call policy op = .ok history') :
      Shown policy hash history' (peers ∪ op.peers hash) (sources ∪ op.sources hash)

def Recalled (hash : String) (history : RetryHistory) (peers sources : Finset SocketAddr) : Prop :=
  history.Exact ∧ ∃ state, history.entries.get hash = some state ∧ state.Recalls peers sources

lemma expire_survivor (h : history.Exact) {state : RetryState}
    (hstate : history.entries.get hash = some state) (hspares : (history.expire now).entries.get hash ≠ none) :
    (history.expire now).entries.get hash = some state := by
  rw [(expire_spec h now).entries hash, hstate] at hspares ⊢
  by_cases hlate : decide (now < state.record.expiresAt) = true
  · exact filter_some_pos hlate
  · exact (hspares (filter_some_neg (Bool.eq_false_iff.mpr hlate))).elim

lemma Recalled.observeEvent (h : Recalled hash history peers sources) (event : HashDiscovered)
    (now : Instant) (hspares : (history.expire now).entries.get hash ≠ none) :
    Recalled hash (history.observeEvent event now policy).1
      (peers ∪ (HistoryCall.observeEvent event now).peers hash)
      (sources ∪ (HistoryCall.observeEvent event now).sources hash) := by
  obtain ⟨hexact, state, hstate, hrecalls⟩ := h
  have halive := expire_survivor hexact hstate hspares
  refine ⟨(observes hexact event now policy).exact, ?_⟩
  unfold RetryHistory.observeEvent HistoryCall.peers HistoryCall.sources
  dsimp only
  by_cases hhash : event.infoHash = hash
  · subst hhash
    rw [halive, if_pos rfl, if_pos rfl]
    have hshown := hrecalls.observe event.peerAddr (event.sourceNode.map NodeTuple.addr)
    exact ⟨_, get_insert_self _ _ _, hshown.peers, hshown.sources⟩
  · rw [if_neg hhash, if_neg hhash, union_empty, union_empty]
    cases (history.expire now).entries.get event.infoHash with
    | none => exact ⟨state, halive, hrecalls⟩
    | some other => exact ⟨state, (get_insert_ne _ (Ne.symm hhash) _).trans halive, hrecalls⟩

lemma Recalled.remember (h : Recalled hash history peers sources) (entry : QueuedHash) :
    Recalled hash (history.remember entry) (peers ∪ (HistoryCall.remember entry).peers hash)
      (sources ∪ (HistoryCall.remember entry).sources hash) := by
  obtain ⟨hexact, state, hstate, hrecalls⟩ := h
  refine ⟨(remember_spec hexact entry).1, ?_⟩
  unfold RetryHistory.remember HistoryCall.peers HistoryCall.sources
  dsimp only
  by_cases hhash : entry.infoHash = hash
  · subst hhash
    rw [hstate, if_pos rfl, if_pos rfl]
    exact ⟨_, get_insert_self _ _ _, (hrecalls.rememberPeers entry.peers).rememberSources entry.sourceNodes⟩
  · rw [if_neg hhash, if_neg hhash, union_empty, union_empty]
    cases history.entries.get entry.infoHash with
    | none => exact ⟨state, hstate, hrecalls⟩
    | some other => exact ⟨state, (get_insert_ne _ (Ne.symm hhash) _).trans hstate, hrecalls⟩

lemma Recalled.record (h : Recalled hash history peers sources) {name : String} {failed : Bool}
    {delay : Duration} {record : Option RetryRecord} (hspares : (history.expire now).entries.get hash ≠ none)
    (hrun : history.record name now failed delay policy = .ok (history', record)) :
    Recalled hash history' peers sources := by
  obtain ⟨hexact, state, hstate, hrecalls⟩ := h
  have halive := expire_survivor hexact hstate hspares
  cases (record_spec hexact name now failed delay policy).of_ok hrun with
  | full => exact ⟨(expire_spec hexact now).exact, state, halive, hrecalls⟩
  | stored _ hexact' hentries _ =>
    refine ⟨hexact', ?_⟩
    rw [hentries]
    by_cases hname : hash = name
    · subst hname
      have hresumed : history.resumed hash now policy = state := by
        rw [resumed, halive, getD_some]
      rw [hresumed]
      exact ⟨_, get_insert_self _ _ _, hrecalls.peers, hrecalls.sources⟩
    · exact ⟨state, (get_insert_ne _ hname _).trans halive, hrecalls⟩

lemma Shown.recalled (h : Shown policy hash history peers sources) : Recalled hash history peers sources := by
  induction h with
  | @created history history' now failed delay record hexact hnone hrun =>
    cases (record_spec hexact hash now failed delay policy).of_ok hrun with
    | stored _ hexact' hentries _ =>
      refine ⟨hexact', _, hentries ▸ get_insert_self _ _ _, ?_, ?_⟩
      · rw [resumed, hnone, getD_none]
        exact RetryState.remembers_nil _
      · rw [resumed, hnone, getD_none]
        exact RetryState.remembers_nil _
  | @call history history' peers sources op _ hspares hrun ih =>
    cases op with
    | observeEvent event now =>
      cases hrun
      exact ih.observeEvent event now hspares
    | remember entry =>
      cases hrun
      exact ih.remember entry
    | record name now failed delay =>
      obtain ⟨x, hrecord, hdone⟩ := Except.bind_eq_ok.mp hrun
      cases hdone
      have hrecalled := ih.record hspares hrecord
      exact (union_empty peers).symm ▸ (union_empty sources).symm ▸ hrecalled

/-- An event that names nobody new grants no attempt, as long as the record has not been shown more peers and
source nodes than it can list. -/
theorem shown_candidates_grant_nothing (h : Shown policy hash history peers sources)
    (hpeers : peers.card ≤ maxMetadataCandidatesPerHash) (hsources : sources.card ≤ 8) (event : HashDiscovered)
    (now : Instant) (hhash : event.infoHash = hash) (hpeer : ∀ a, event.peerAddr = some a → a ∈ peers)
    (hsource : ∀ node, event.sourceNode = some node → node.addr ∈ sources) :
    (history.observeEvent event now policy).2.map RetryRecord.extraAttempts =
      ((history.expire now).recordOf hash).map RetryRecord.extraAttempts := by
  subst hhash
  obtain ⟨hexact, state, hstate, hrecalls⟩ := h.recalled
  unfold RetryHistory.observeEvent recordOf
  dsimp only
  cases halive : (history.expire now).entries.get event.infoHash with
  | none => rfl
  | some survivor =>
    have hsame : (history.expire now).entries.get event.infoHash = some state :=
      expire_survivor hexact hstate (by rw [halive]; nofun)
    cases halive.symm.trans hsame
    have hlisted : (state.observe event.peerAddr (event.sourceNode.map NodeTuple.addr)).2 = false := by
      unfold RetryState.observe
      dsimp only
      rw [Bool.or_eq_false_iff]
      refine ⟨RetryState.observeOne_listed fun a ha => ?_, RetryState.observeOne_listed fun a ha => ?_⟩
      · exact hrecalls.peers.complete hpeers (hpeer a ha)
      · obtain ⟨node, hnode, rfl⟩ := Option.map_eq_some_iff.mp ha
        exact hrecalls.sources.complete hsources (hsource node hnode)
    have hkept : grantedRecord state.record false now policy = state.record := by
      unfold grantedRecord
      exact if_neg fun hgrant => Bool.false_ne_true hgrant.2.1
    dsimp only
    rw [hlisted, observe_record, hkept]
    rfl

/-! ### A full list -/

def strictPolicy : MetadataOptions := { retryMaxAttempts := 1 }

def suppliedBy (octet : UInt8) : NodeTuple := ⟨.replicate 20 octet, exampleAddr octet⟩

def failedEntry (n : ℕ) : QueuedHash where
  infoHash := "a"
  peers := []
  queuedAt := 0
  readyAt := 0
  latestAt := 0
  orderKey := toLex (0, 1)
  sourceNodes := (List.range n).map fun i => suppliedBy (.ofNat i)
  source := .getPeers
  expiresAt := secs 60
  isRetry := false
  ready := true

def heardFromNinth : HashDiscovered where
  infoHash := "a"
  peerAddr := none
  sourceNode := some (suppliedBy 8)
  source := .getPeers
  discoveredAt := secs 1

def granted (history : RetryHistory) : Option ℕ := (history.recordOf "a").map RetryRecord.extraAttempts

def failsTwice (n : ℕ) (test : RetryHistory → RetryHistory → RetryHistory → Bool) : Bool :=
  (new.record "a" 0 true 0 strictPolicy).isOkAnd fun x =>
    let first := x.1.remember (failedEntry n)
    let heard := (first.observeEvent heardFromNinth (secs 1) strictPolicy).1
    x.2.isSome && ((first.expire (secs 1)).entries.get "a").isSome &&
      ((heard.expire (secs 2)).entries.get "a").isSome &&
      (heard.record "a" (secs 2) true 0 strictPolicy).isOkAnd fun y => test first heard y.1

lemma failsTwice_shown (n : ℕ) (test : RetryHistory → RetryHistory → RetryHistory → Bool)
    (htest : failsTwice n test = true) :
    ∃ first heard second peers sources, Shown strictPolicy "a" first peers sources ∧
      heard = (first.observeEvent heardFromNinth (secs 1) strictPolicy).1 ∧
      Shown strictPolicy "a" second ∅ (((failedEntry n).sourceNodes.map NodeTuple.addr).toFinset ∪
        {(suppliedBy 8).addr}) ∧ test first heard second = true := by
  obtain ⟨⟨history, record⟩, hrecord, htest⟩ := Except.isOkAnd_eq_true.mp htest
  obtain ⟨htest, hsecond⟩ := (Bool.and_eq_true _ _).mp htest
  obtain ⟨htest, hlater⟩ := (Bool.and_eq_true _ _).mp htest
  obtain ⟨hsome, halive⟩ := (Bool.and_eq_true _ _).mp htest
  obtain ⟨record, rfl⟩ := isSome_iff_exists.mp hsome
  obtain ⟨⟨second, _⟩, hrun, htest⟩ := Except.isOkAnd_eq_true.mp hsecond
  have hcreated : Shown strictPolicy "a" history ∅ ∅ := .created exact_new rfl hrecord
  have hfirst := hcreated.call (.remember (failedEntry n)) trivial rfl
  have hheard := hfirst.call (.observeEvent heardFromNinth (secs 1)) (isSome_iff_ne_none.mp halive) rfl
  have hdone := hheard.call (.record "a" (secs 2) true 0) (isSome_iff_ne_none.mp hlater)
    (Except.bind_eq_ok.mpr ⟨_, hrun, rfl⟩)
  refine ⟨_, _, second, _, _, hfirst, rfl, ?_, htest⟩
  have hsources : ∅ ∪ (HistoryCall.remember (failedEntry n)).sources "a" ∪
      (HistoryCall.observeEvent heardFromNinth (secs 1)).sources "a" ∪
      (HistoryCall.record "a" (secs 2) true 0).sources "a" =
      ((failedEntry n).sourceNodes.map NodeTuple.addr).toFinset ∪ {(suppliedBy 8).addr} := by
    rw [show (HistoryCall.record "a" (secs 2) true 0).sources "a" = ∅ from rfl, union_empty, empty_union]
    rfl
  rw [← hsources]
  exact hdone

theorem shown_candidates_grant_nothing_listed :
    ∃ history sources, Shown strictPolicy "a" history ∅ sources ∧ (suppliedBy 8).addr ∈ sources ∧
      (history.expire (secs 3)).granted = some 1 ∧
      (history.observeEvent heardFromNinth (secs 3) strictPolicy).2.map RetryRecord.extraAttempts = some 1 := by
  obtain ⟨_, _, second, _, _, _, _, hshown, htest⟩ := failsTwice_shown 7 (fun _ _ second =>
    decide ((second.expire (secs 3)).granted = some 1)) (by decide +kernel)
  have hgranted := of_decide_eq_true htest
  have hmem : (suppliedBy 8).addr ∈
      ((failedEntry 7).sourceNodes.map NodeTuple.addr).toFinset ∪ {(suppliedBy 8).addr} :=
    Finset.mem_union_right _ (Finset.mem_singleton_self _)
  refine ⟨second, _, hshown, hmem, hgranted, ?_⟩
  rw [← hgranted]
  refine shown_candidates_grant_nothing hshown (by decide) (by decide) heardFromNinth (secs 3) rfl nofun ?_
  intro node hnode
  cases hnode
  exact hmem

/-- With eight source nodes before it the ninth one is not listed. -/
theorem full_list_grants_again :
    ∃ first heard second peers sources, Shown strictPolicy "a" first peers sources ∧
      heard = (first.observeEvent heardFromNinth (secs 1) strictPolicy).1 ∧
      first.granted = some 0 ∧ heard.granted = some 1 ∧
      ∃ shown, Shown strictPolicy "a" second ∅ shown ∧ (suppliedBy 8).addr ∈ shown ∧
        (second.expire (secs 3)).granted = some 1 ∧
        (second.observeEvent heardFromNinth (secs 3) strictPolicy).2.map RetryRecord.extraAttempts = some 2 := by
  obtain ⟨first, heard, second, peers, sources, hfirst, hheard, hshown, htest⟩ :=
    failsTwice_shown 8 (fun first heard second =>
      decide (first.granted = some 0 ∧ heard.granted = some 1 ∧ (second.expire (secs 3)).granted = some 1 ∧
        (second.observeEvent heardFromNinth (secs 3) strictPolicy).2.map RetryRecord.extraAttempts = some 2))
      (by decide +kernel)
  obtain ⟨hbefore, hafter, hgranted, hagain⟩ := of_decide_eq_true htest
  exact ⟨first, heard, second, peers, sources, hfirst, hheard, hbefore, hafter, _, hshown,
    Finset.mem_union_right _ (Finset.mem_singleton_self _), hgranted, hagain⟩

end RetryHistory

end DhtCrawler
