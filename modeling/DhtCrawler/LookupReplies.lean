import DhtCrawler.LookupHandlers
import DhtCrawler.TidNumbering

/-! What a request, a response and a maintenance tick of the lookup actor do to its lookups and to its pending
queries. A lookup keeps its hash and its stream for life, and only an opening adds one. A pending query is one
that was sent under a transaction id of its own, so the dispatch that follows a response ends none of the others
unless it finishes their lookup. -/

namespace DhtCrawler.PeerLookup

open FiniteMap List

structure LookupState.Same (state state' : LookupState) : Prop where
  infoHash : state'.infoHash = state.infoHash
  peerTx : state'.peerTx = state.peerTx

lemma LookupState.Popped.same {state state' : LookupState} {node : NodeTuple} {sourceSeed : Bool}
    (h : state.Popped node sourceSeed state') : state.Same state' := by
  cases h with
  | source => exact ⟨rfl, rfl⟩
  | frontier => exact ⟨rfl, rfl⟩

def Query.key (a : Query) : PendingKey := ⟨a.node.addr, a.tid⟩

namespace PeerLookupActor

variable {base σ σ' σ'' : PeerLookupActor} {lookupId : ℕ} {options : PeerLookupOptions} {cause : Cause}

/-! ### Lookups -/

/-- Every lookup of `σ'` goes back to one of `σ`. -/
structure Kin (σ σ' : PeerLookupActor) : Prop where
  netmode : σ'.netmode = σ.netmode
  started : σ'.started = σ.started
  active : ∀ id state', σ'.active.get id = some state' →
    ∃ state, σ.active.get id = some state ∧ state.Same state'

lemma Kin.refl (σ : PeerLookupActor) : Kin σ σ := ⟨rfl, rfl, fun _ state h => ⟨state, h, ⟨rfl, rfl⟩⟩⟩

lemma Kin.trans (h : Kin σ σ') (h' : Kin σ' σ'') : Kin σ σ'' := by
  refine ⟨h'.netmode.trans h.netmode, h'.started.trans h.started, fun id state'' hstate'' => ?_⟩
  obtain ⟨state', hstate', hsame'⟩ := h'.active id state'' hstate''
  obtain ⟨state, hstate, hsame⟩ := h.active id state' hstate'
  exact ⟨state, hstate, hsame'.infoHash.trans hsame.infoHash, hsame'.peerTx.trans hsame.peerTx⟩

lemma kin_insert {state next : LookupState} (hstate : σ.active.get lookupId = some state)
    (hnetmode : σ'.netmode = σ.netmode) (hstarted : σ'.started = σ.started)
    (hactive : σ'.active = σ.active.insert lookupId next) (hsame : state.Same next) : Kin σ σ' := by
  refine ⟨hnetmode, hstarted, ?_⟩
  rw [hactive]
  exact forall_insert ⟨state, hstate, hsame⟩ fun id state' _ hstate' => (Kin.refl σ).active id state' hstate'

lemma Act.kin (hact : Act cause σ σ') : Kin σ σ' := by
  cases hact with
  | unsent lookupId clock dropped future hstate hmay hpop =>
    exact kin_insert hstate rfl rfl rfl ⟨hpop.same.infoHash, hpop.same.peerTx⟩
  | sent lookupId clock dropped future hstate hmay hpop =>
    exact kin_insert hstate rfl rfl (insert_insert _ _ _ _) ⟨hpop.same.infoHash, hpop.same.peerTx⟩
  | finish lookupId => exact ⟨rfl, rfl, fun _ state h => ⟨state, (get_active_finishLookup.mp h).2, ⟨rfl, rfl⟩⟩⟩
  | answer key response hquery hstate hdeadline hlearn =>
    obtain ⟨seenNodes, frontier, peers, rfl, -⟩ := hlearn.frame
    exact kin_insert hstate rfl rfl rfl ⟨rfl, rfl⟩
  | timeout key pendingExpiry hfirst hquery hstate => exact kin_insert hstate rfl rfl rfl ⟨rfl, rfl⟩
  | _ => exact ⟨rfl, rfl, (Kin.refl σ).active⟩

lemma Steadies.kin (hsteps : Steadies σ σ') : Kin σ σ' := by
  induction hsteps with
  | refl => exact .refl σ
  | tail _ hstep ih => exact hstep.elim fun _ hact => ih.trans hact.kin

lemma Caused.deliveries (hacts : Caused (.dispatch lookupId) σ σ') : σ'.deliveries = σ.deliveries := by
  induction hacts with
  | refl => rfl
  | tail _ hact ih =>
    rw [← ih]
    cases hact with
    | _ => rfl

/-! ### Queries -/

structure Issuing (σ : PeerLookupActor) : Prop where
  nextTid : σ.nextTid = σ.queries.length + 1
  numbered : Numbered lookupTidTag (σ.queries.map Query.tid)
  issued : ∀ key query, σ.pending.get key = some query → ∃ a ∈ σ.queries, a.sent = true ∧ key = a.key

lemma Issuing.nodup (h : σ.Issuing) (hbound : σ.queries.length ≤ 2 ^ 56) : (σ.queries.map Query.tid).Nodup :=
  h.numbered.nodup (by rwa [length_map])

lemma Issuing.fresh (h : σ.Issuing) (hbound : σ.queries.length + 1 ≤ 2 ^ 56) (node : NodeTuple) :
    σ.pending.get (σ.nextKey node) = none := by
  cases hget : σ.pending.get (σ.nextKey node) with
  | none => rfl
  | some query =>
    obtain ⟨a, ha, -, hkey⟩ := h.issued _ query hget
    have hfresh := h.numbered.fresh (by rwa [length_map])
    rw [length_map, ← h.nextTid] at hfresh
    have htid : taggedTid lookupTidTag σ.nextTid = a.tid := congrArg PendingKey.tid hkey
    exact absurd (htid ▸ mem_map_of_mem ha) hfresh

lemma Issuing.of_pending (h : σ.Issuing) (htid : σ'.nextTid = σ.nextTid) (hqueries : σ'.queries = σ.queries)
    (hsub : ∀ key query, σ'.pending.get key = some query → σ.pending.get key = some query) : σ'.Issuing := by
  refine ⟨?_, ?_, fun key query hget => ?_⟩
  · rw [htid, hqueries, h.nextTid]
  · rw [hqueries]
    exact h.numbered
  · rw [hqueries]
    exact h.issued key query (hsub key query hget)

lemma Issuing.attempted (h : σ.Issuing) (hbound : σ.queries.length + 1 ≤ 2 ^ 56) (lookupId : ℕ)
    (node : NodeTuple) (sourceSeed : Bool) (state : LookupState) (sent : Bool) (clock : Instant)
    (dropped : Finset ℕ) (future : ℕ → Look) :
    ((σ.attempted lookupId node sourceSeed state sent).pass clock dropped future).Issuing := by
  unfold PeerLookupActor.attempted pass
  refine ⟨?_, ⟨?_, h.numbered⟩, fun key query hget => ?_⟩
  · rw [succ_counter (by have := h.nextTid; omega), h.nextTid, length_cons]
  · rw [length_map, h.nextTid]
  · obtain ⟨a, ha, hsent, hkey⟩ := h.issued key query hget
    exact ⟨a, mem_cons_of_mem _ ha, hsent, hkey⟩

lemma Issuing.sent (h : σ.Issuing) (hbound : σ.queries.length + 1 ≤ 2 ^ 56) (lookupId : ℕ) (node : NodeTuple)
    (sourceSeed : Bool) (state : LookupState) (clock : Instant) (dropped : Finset ℕ) (future : ℕ → Look) :
    (((σ.attempted lookupId node sourceSeed state true).pass clock dropped future).awaitReply lookupId
      (σ.nextKey node) state).Issuing := by
  have hattempted := h.attempted hbound lookupId node sourceSeed state true clock dropped future
  refine ⟨hattempted.nextTid, hattempted.numbered, fun key query hget => ?_⟩
  rw [get_pending_awaitReply] at hget
  split_ifs at hget with hkey
  · exact ⟨_, mem_cons_self, rfl, hkey⟩
  · exact hattempted.issued key query hget

lemma Act.issuing (hact : Act cause σ σ') (h : σ.queries.length ≤ 2 ^ 56 → σ.Issuing)
    (hbound : σ'.queries.length ≤ 2 ^ 56) : σ'.Issuing := by
  cases hact with
  | unsent lookupId clock dropped future =>
    have hbound : σ.queries.length + 1 ≤ 2 ^ 56 := hbound
    exact (h (Nat.le_of_succ_le hbound)).attempted hbound _ _ _ _ _ _ _ _
  | sent lookupId clock dropped future =>
    have hbound : σ.queries.length + 1 ≤ 2 ^ 56 := hbound
    exact (h (Nat.le_of_succ_le hbound)).sent hbound _ _ _ _ _ _ _
  | finish lookupId => exact (h hbound).of_pending rfl rfl fun _ _ hget => (get_pending_finishLookup.mp hget).1
  | answer => exact (h hbound).of_pending rfl rfl fun _ _ hget => (get_of_get_erase hget).2
  | timeout => exact (h hbound).of_pending rfl rfl fun _ _ hget => (get_of_get_erase hget).2
  | _ => exact (h hbound).of_pending rfl rfl fun _ _ hget => hget

lemma issuing_invariant (options : PeerLookupOptions) :
    Invariant options fun σ => σ.queries.length ≤ 2 ^ 56 → σ.Issuing where
  start := fun _ _ _ _ _ => ⟨rfl, trivial, fun _ _ h => nomatch h⟩
  act := fun hact _ h hbound => hact.issuing h hbound
  opened := fun _ _ h _ _ hbound => (h hbound).of_pending rfl rfl fun _ _ hget => hget

/-- A dispatch for one lookup that began in `base` has ended no query of another; those it added are its own. -/
structure Asked (lookupId : ℕ) (base σ : PeerLookupActor) : Prop where
  issuing : σ.queries.length ≤ 2 ^ 56 → σ.Issuing
  added : ∃ asked, σ.queries = asked ++ base.queries ∧ ∀ key query, σ.pending.get key = some query →
      base.pending.get key = some query ∨ ∃ a ∈ asked, key = a.key
  kept : σ.queries.length ≤ 2 ^ 56 → ∀ key query, base.pending.get key = some query →
    σ.pending.get key = some query ∨ query.lookupId = lookupId ∧ σ.active.get lookupId = none

lemma Asked.act (h : Asked lookupId base σ) (hact : Act (.dispatch lookupId) σ σ') :
    Asked lookupId base σ' := by
  refine ⟨hact.issuing h.issuing, ?_, fun hbound key query hget => ?_⟩
  · obtain ⟨asked, hqueries, hadded⟩ := h.added
    have hmore : ∀ a, ∀ key query, σ.pending.get key = some query →
        base.pending.get key = some query ∨ ∃ b ∈ a :: asked, key = b.key := fun a key query hget =>
      (hadded key query hget).imp_right fun ⟨b, hb, hkey⟩ => ⟨b, mem_cons_of_mem _ hb, hkey⟩
    cases hact with
    | pass => exact ⟨asked, hqueries, hadded⟩
    | unsent => exact ⟨_ :: asked, congrArg (_ :: ·) hqueries, hmore _⟩
    | sent =>
      exact ⟨_ :: asked, congrArg (_ :: ·) hqueries,
        forall_insert (.inr ⟨_, mem_cons_self, rfl⟩) fun key query _ hget => hmore _ key query hget⟩
    | finish => exact ⟨asked, hqueries, fun key query hget => hadded key query (get_pending_finishLookup.mp hget).1⟩
  · cases hact with
    | pass => exact h.kept hbound key query hget
    | unsent id clock dropped future hstate hmay hpop hclock hdropped hserves =>
      refine (h.kept (Nat.le_of_succ_le hbound) key query hget).imp_right fun ⟨_, hnone⟩ => ?_
      cases hserves
      exact nomatch hnone.symm.trans hstate
    | @sent _ _ id node _ _ _ clock dropped future hstate hmay hpop hclock hdropped hserves =>
      have hbound : σ.queries.length + 1 ≤ 2 ^ 56 := hbound
      rcases h.kept (Nat.le_of_succ_le hbound) key query hget with hold | ⟨_, hnone⟩
      · refine .inl ((get_insert_ne _ (fun hkey => ?_) _).trans hold)
        rw [hkey] at hold
        exact nomatch ((h.issuing (Nat.le_of_succ_le hbound)).fresh hbound node).symm.trans hold
      · cases hserves
        exact nomatch hnone.symm.trans hstate
    | finish other hserves =>
      cases hserves
      by_cases hid : query.lookupId = lookupId
      · exact .inr ⟨hid, get_erase_self _ _⟩
      · exact .inl (get_pending_finishLookup.mpr
          ⟨(h.kept hbound key query hget).resolve_right fun hother => hid hother.1, hid⟩)

lemma Caused.asked (hacts : Caused (.dispatch lookupId) σ σ') (h : σ.queries.length ≤ 2 ^ 56 → σ.Issuing) :
    Asked lookupId σ σ' := by
  induction hacts with
  | refl => exact ⟨h, ⟨[], rfl, fun _ _ => .inl⟩, fun _ _ _ => .inl⟩
  | tail _ hact ih => exact ih.act hact

/-! ### Events -/

section

variable (h : Reachable options σ) {future : ℕ → Look}
include h

lemma handle_request {request : PeerLookupRequest} {published : Published}
    (hrun : σ.handle future (.request request published) = .ok σ') :
    σ'.netmode = σ.netmode ∧ ∀ id state', σ'.active.get id = some state' →
        (∃ state, σ.active.get id = some state ∧ state.Same state') ∨
          state'.infoHash = request.infoHash ∧ state'.peerTx = request.peerTx := by
  rcases h.steadies hrun with hsteps | ⟨request', published', _, hevent, hopen, hsteps⟩
  · have hkin := Steadies.kin hsteps
    exact ⟨hkin.netmode, fun id state' hstate' => .inl (hkin.active id state' hstate')⟩
  · cases hevent
    have hkin := Steadies.kin hsteps
    refine ⟨hkin.netmode, fun id state' hstate' => ?_⟩
    obtain ⟨mid, hmid, hsame⟩ := hkin.active id state' hstate'
    revert hsame
    refine forall_insert (P := fun id mid => mid.Same state' →
      (∃ state, σ.active.get id = some state ∧ state.Same state') ∨ _) ?_ ?_ id mid hmid
    · exact fun hsame => .inr ⟨hsame.infoHash, hsame.peerTx⟩
    · exact fun _ state _ hstate hsame => .inl ⟨state, hstate, hsame⟩

lemma handle_kin {event : Event} (hrun : σ.handle future event = .ok σ')
    (hevent : ∀ request published, event ≠ .request request published) : Kin σ σ' := by
  rcases h.steadies hrun with hsteps | ⟨request, published, _, hrequest, -⟩
  · exact Steadies.kin hsteps
  · exact absurd hrequest (hevent request published)

lemma handle_response {key : PendingKey} {response : DhtResponse}
    (hrun : σ.handle future (.response key response) = .ok σ') :
    ∃ delivered, σ'.deliveries = delivered ++ σ.deliveries ∧
      ∀ d ∈ delivered, d.peer ∈ responsePeers response σ.netmode := by
  cases h.handled hrun with
  | ignored => exact ⟨[], rfl, nofun⟩
  | late => exact ⟨[], rfl, nofun⟩
  | learned hquery hstate hdeadline hlearn hacts =>
    obtain ⟨-, -, -, -, -, hsub⟩ := hlearn.frame
    refine ⟨_, Caused.deliveries hacts, fun d hd => ?_⟩
    obtain ⟨peer, hpeer, rfl⟩ := mem_map.mp hd
    exact hsub hpeer

end

/-! ### Responses -/

structure Answered (σ σ' : PeerLookupActor) (key : PendingKey) (query : PendingQuery) : Prop where
  ended : σ'.pending.get key = none
  kept : ∀ k q, k ≠ key → σ.pending.get k = some q →
    σ'.pending.get k = some q ∨ q.lookupId = query.lookupId ∧ σ'.active.get query.lookupId = none
  added : ∃ asked, σ'.queries = asked ++ σ.queries ∧
    ∀ k q, σ'.pending.get k = some q → σ.pending.get k = some q ∨ ∃ a ∈ asked, k = a.key

lemma answered_late {key : PendingKey} {query : PendingQuery} (hquery : σ.pending.get key = some query) :
    Answered σ (σ.finishLookup query.lookupId) key query := by
  refine ⟨?_, fun k q hk hget => ?_, [], rfl, fun k q hget => .inl (get_pending_finishLookup.mp hget).1⟩
  · refine Option.eq_none_iff_forall_ne_some.mpr fun q hget => ?_
    obtain ⟨hold, hne⟩ := get_pending_finishLookup.mp hget
    cases hquery.symm.trans hold
    exact hne rfl
  · by_cases hid : q.lookupId = query.lookupId
    · exact .inr ⟨hid, get_erase_self _ _⟩
    · exact .inl (get_pending_finishLookup.mpr ⟨hget, hid⟩)

lemma answered_of_asked {key : PendingKey} {query : PendingQuery} (hissuing : σ.Issuing)
    (hquery : σ.pending.get key = some query) (hasked : Asked query.lookupId base σ')
    (hbase : base.pending = σ.pending.erase key) (hqueries : base.queries = σ.queries)
    (hbound : σ'.queries.length ≤ 2 ^ 56) : Answered σ σ' key query := by
  obtain ⟨asked, hgrown, hadded⟩ := hasked.added
  rw [hqueries] at hgrown
  rw [hbase] at hadded
  have hkept := hasked.kept hbound
  rw [hbase] at hkept
  refine ⟨?_, fun k q hk hget => hkept k q ?_, asked, hgrown, fun k q hget => ?_⟩
  · refine Option.eq_none_iff_forall_ne_some.mpr fun q hget => ?_
    rcases hadded key q hget with hold | ⟨a, ha, hkey⟩
    · exact nomatch (get_erase_self _ _).symm.trans hold
    · obtain ⟨b, hb, -, hkey'⟩ := hissuing.issued key query hquery
      have hnodup := (hasked.issuing hbound).nodup hbound
      rw [hgrown, map_append] at hnodup
      have htid : b.tid = a.tid := congrArg PendingKey.tid (hkey'.symm.trans hkey)
      exact absurd (htid ▸ mem_map_of_mem hb)
        ((disjoint_of_nodup_append hnodup) (mem_map_of_mem ha))
  · rw [get_erase_ne _ hk]
    exact hget
  · exact (hadded k q hget).imp_left fun hold => (get_of_get_erase hold).2

lemma handle_response_pending (h : Reachable options σ) {future : ℕ → Look} {key : PendingKey}
    {response : DhtResponse} (hrun : σ.handle future (.response key response) = .ok σ')
    (hbound : σ'.queries.length ≤ 2 ^ 56) :
    (σ.pending.get key = none → σ'.pending = σ.pending ∧ σ'.queries = σ.queries) ∧
      ∀ query, σ.pending.get key = some query → Answered σ σ' key query := by
  have hissuing := (issuing_invariant options).reachable h
  cases h.handled hrun with
  | ignored hnone => exact ⟨fun _ => ⟨rfl, rfl⟩, fun query hquery => nomatch hquery.symm.trans hnone⟩
  | late hquery =>
    refine ⟨fun hnone => (nomatch hnone.symm.trans hquery), fun query' hquery' => ?_⟩
    cases hquery.symm.trans hquery'
    exact { answered_late hquery with }
  | @learned _ _ query state next discovered _ hquery hstate hdeadline hlearn hacts =>
    refine ⟨fun hnone => (nomatch hnone.symm.trans hquery), fun query' hquery' => ?_⟩
    cases hquery.symm.trans hquery'
    have hasked := Caused.asked hacts fun hlen =>
      (hissuing hlen).of_pending rfl rfl fun _ _ hget => (get_of_get_erase hget).2
    refine answered_of_asked (hissuing ?_) hquery hasked rfl rfl hbound
    obtain ⟨asked, hgrown, -⟩ := hasked.added
    rw [hgrown, length_append] at hbound
    exact (Nat.le_add_left _ _).trans hbound

end PeerLookupActor

end DhtCrawler.PeerLookup
