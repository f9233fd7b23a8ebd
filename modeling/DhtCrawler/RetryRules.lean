import DhtCrawler.RetryModel

/-! What the operations of the retry history do to the record of each hash. -/

namespace DhtCrawler.RetryHistory

open FiniteMap Option

variable {history : RetryHistory} {hash other : String} {now : Instant} {policy : MetadataOptions}

def Exact (history : RetryHistory) : Prop :=
  ∀ key, history.expiry.get key = some () ↔
    (history.entries.get (ofLex key).2).map (fun state => state.record.expiresAt) = some (ofLex key).1

lemma exact_new : new.Exact := fun _ => ⟨fun h => (nomatch h), fun h => (nomatch h)⟩

lemma Exact.update (h : history.Exact) {old state : RetryState}
    (hold : history.entries.get hash = some old) (hsame : state.record.expiresAt = old.record.expiresAt) :
    Exact { history with entries := history.entries.insert hash state } := by
  intro key
  rw [h key, get_insert]
  split_ifs with hkey
  · rw [hkey, hold, map_some, map_some, hsame]
  · rfl

/-! ### Expiry -/

structure Expired (history : RetryHistory) (now : Instant) (history' : RetryHistory) : Prop where
  exact : history'.Exact
  entries : ∀ hash, history'.entries.get hash =
    (history.entries.get hash).filter fun state => decide (now < state.record.expiresAt)
  len : history'.entries.len ≤ history.entries.len

/-- What the rounds of `expire` keep: only records whose time is over are gone. -/
structure Expiring (history : RetryHistory) (now : Instant) (history' : RetryHistory) : Prop where
  exact : history'.Exact
  kept : ∀ hash state, history.entries.get hash = some state → now < state.record.expiresAt →
    history'.entries.get hash = some state
  only : ∀ hash state, history'.entries.get hash = some state → history.entries.get hash = some state
  len : history'.entries.len ≤ history.entries.len

variable {history' : RetryHistory}

lemma Expiring.done (h : Expiring history now history')
    (hlater : ∀ hash state, history'.entries.get hash = some state → now < state.record.expiresAt) :
    Expired history now history' := by
  refine ⟨h.exact, fun hash => ?_, h.len⟩
  cases hstate' : history'.entries.get hash with
  | some state =>
    rw [h.only hash state hstate']
    refine (filter_some_pos ?_).symm
    exact decide_eq_true (hlater hash state hstate')
  | none =>
    cases hstate : history.entries.get hash with
    | none => rfl
    | some state =>
      refine (filter_some_neg ?_).symm
      refine decide_eq_false fun hlt => ?_
      rw [h.kept hash state hstate hlt] at hstate'
      cases hstate'

lemma Exact.listed (h : history.Exact) {state : RetryState} (hstate : history.entries.get hash = some state) :
    toLex (state.record.expiresAt, hash) ∈ history.expiry.keys :=
  mem_keys_of_get ((h _).mpr (by rw [ofLex_toLex, hstate, map_some]))

lemma Exact.erase (h : history.Exact) {key : Instant ×ₗ String} (hkey : history.expiry.get key = some ()) :
    Exact ⟨history.entries.erase (ofLex key).2, history.expiry.erase key⟩ := by
  have hrecord := (h key).mp hkey
  intro other
  rw [get_erase, get_erase]
  by_cases hother : other = key
  · rw [if_pos hother, if_pos (by rw [hother])]
    simp
  · rw [if_neg hother, h other]
    split_ifs with hhash
    · rw [hhash, hrecord]
      simp only [some_inj, map_none, reduceCtorEq, iff_false]
      intro htime
      exact hother (ofLex_inj.mp (Prod.ext htime.symm hhash))
    · rfl

lemma Expiring.round (h : Expiring history now history') :
    Loop.Round (Expiring history now) (Expired history now) (fun H => H.expiry.len) history'.expiry.len
      (expireStep now history') := by
  unfold expireStep
  cases hfirst : history'.expiry.first with
  | none =>
    refine h.done fun hash state hstate => ?_
    have hlisted := h.exact.listed hstate
    rw [first_eq_none_iff.mp hfirst] at hlisted
    exact absurd hlisted (Finset.notMem_empty _)
  | some entry =>
    obtain ⟨key, value⟩ := entry
    obtain ⟨hkey, hleast⟩ := first_eq_some_iff.mp hfirst
    dsimp only
    split_ifs with hover
    · refine h.done fun hash state hstate => lt_of_lt_of_le hover ?_
      exact (Prod.Lex.monotone_fst _ _ (hleast _ (h.exact.listed hstate)))
    · obtain ⟨state, hstate, htime⟩ := map_eq_some_iff.mp ((h.exact key).mp hkey)
      refine ⟨⟨h.exact.erase hkey, fun hash kept hkept hlt => ?_, fun hash kept hkept => ?_, ?_⟩, ?_⟩
      · have hsame := h.kept hash kept hkept hlt
        refine (get_erase_ne _ ?_).trans hsame
        rintro rfl
        rw [hstate] at hsame
        cases hsame
        rw [htime] at hlt
        exact hover hlt
      · exact h.only hash kept (get_of_get_erase hkept).2
      · exact (len_erase_le _ _).trans h.len
      · have hless := len_erase_old hkey
        dsimp only
        omega

lemma expire_spec (h : history.Exact) (now : Instant) : Expired history now (history.expire now) := by
  have hstart : Expiring history now history :=
    ⟨h, fun _ _ hstate _ => hstate, fun _ _ hstate => hstate, le_rfl⟩
  exact Loop.iterate_exit (fun H : RetryHistory => H.expiry.len)
    (fun _ (hH : Expiring history now _) => hH.round) _ hstart (Nat.lt_succ_self _)

/-! ### Results -/

lemma remove_spec (h : history.Exact) (hash : String) :
    (history.remove hash).Exact ∧ (history.remove hash).entries = history.entries.erase hash := by
  unfold remove
  cases hstate : history.entries.get hash with
  | none => exact ⟨h, (erase_of_get_none hstate).symm⟩
  | some state =>
    have hkey : history.expiry.get (toLex (state.record.expiresAt, hash)) = some () :=
      (h _).mpr (by rw [ofLex_toLex, hstate, map_some])
    exact ⟨h.erase hkey, rfl⟩

lemma Exact.create (h : history.Exact) (hnone : history.entries.get hash = none) (state : RetryState) :
    Exact
      { entries := history.entries.insert hash state
        expiry := history.expiry.insert (toLex (state.record.expiresAt, hash)) () } := by
  intro key
  rw [get_insert, get_insert]
  by_cases hhash : (ofLex key).2 = hash
  · rw [if_pos hhash, map_some, some_inj]
    by_cases hkey : key = toLex (state.record.expiresAt, hash)
    · rw [if_pos hkey, hkey, ofLex_toLex]
      simp
    · rw [if_neg hkey, h key, hhash, hnone]
      simp only [map_none, reduceCtorEq, false_iff]
      intro htime
      exact hkey (ofLex_inj.mp (Prod.ext htime.symm hhash))
  · rw [if_neg hhash, if_neg, h key]
    rintro rfl
    exact hhash rfl

def resumed (history : RetryHistory) (hash : String) (now : Instant) (policy : MetadataOptions) : RetryState :=
  ((history.expire now).entries.get hash).getD (freshState now policy)

/-- What `record` returns: nothing if the history is full, and otherwise the record of the state that took the
result. -/
inductive Recorded (history : RetryHistory) (hash : String) (now : Instant) (failed : Bool)
    (delay : Duration) (policy : MetadataOptions) : RetryHistory × Option RetryRecord → Prop where
  | full (hnone : (history.expire now).entries.get hash = none) :
      Recorded history hash now failed delay policy (history.expire now, none)
  | stored (history' : RetryHistory) (hexact : history'.Exact)
      (hentries : history'.entries = (history.expire now).entries.insert hash
        { history.resumed hash now policy with
          record := recordedResult (history.resumed hash now policy).record now failed delay policy })
      (hlen : history'.entries.len ≤ max (history.expire now).entries.len policy.retryHistoryCapacity) :
      Recorded history hash now failed delay policy
        (history', some (recordedResult (history.resumed hash now policy).record now failed delay policy))

lemma recordedResult_expiresAt (record : RetryRecord) (now : Instant) (failed : Bool) (delay : Duration)
    (policy : MetadataOptions) :
    (recordedResult record now failed delay policy).expiresAt = record.expiresAt := rfl

lemma record_spec (h : history.Exact) (hash : String) (now : Instant) (failed : Bool) (delay : Duration)
    (policy : MetadataOptions) :
    Except.Sure (history.record hash now failed delay policy)
      (Recorded history hash now failed delay policy) := by
  have hexpired := expire_spec h now
  unfold record
  cases hstate : (history.expire now).entries.get hash with
  | none =>
    have hresumed : history.resumed hash now policy = freshState now policy := by
      rw [resumed, hstate, getD_none]
    have hcontains := contains_eq_false.mpr hstate
    simp only [hcontains, Bool.not_false, Bool.true_and, decide_eq_true_eq, Bool.false_eq_true, if_false]
    split_ifs with hfull
    · exact .full hstate
    · rw [get_insert_self, unwrap_some, Except.ok_bind, insert_insert, ← hresumed]
      refine .stored _ ?_ rfl ?_
      · have hcreated := hexpired.exact.create hstate
          { history.resumed hash now policy with
            record := recordedResult (history.resumed hash now policy).record now failed delay policy }
        rw [hresumed] at hcreated ⊢
        exact hcreated
      · rw [len_insert_new hstate]
        exact le_max_of_le_right (Nat.lt_of_not_le hfull)
  | some state =>
    have hresumed : history.resumed hash now policy = state := by
      rw [resumed, hstate, getD_some]
    have hcontains := contains_iff.mpr ⟨state, hstate⟩
    simp only [hcontains, Bool.not_true, Bool.false_and, Bool.false_eq_true, if_false, if_true]
    rw [hstate, unwrap_some, Except.ok_bind, ← hresumed]
    refine .stored _ (hexpired.exact.update hstate ?_) rfl ?_
    · rw [recordedResult_expiresAt, hresumed]
    · rw [len_insert_old hstate]
      exact le_max_left _ _

/-! ### Events -/

lemma grantedRecord_expiresAt (record : RetryRecord) (novel : Bool) (now : Instant)
    (policy : MetadataOptions) : (grantedRecord record novel now policy).expiresAt = record.expiresAt := by
  unfold grantedRecord
  split_ifs <;> rfl

lemma grantedRecord_failures (record : RetryRecord) (novel : Bool) (now : Instant)
    (policy : MetadataOptions) : (grantedRecord record novel now policy).failures = record.failures := by
  unfold grantedRecord
  split_ifs <;> rfl

/-- What `observe_event` returns: nothing for a hash without a record, and otherwise its record, with another
attempt perhaps. -/
inductive Observed (history : RetryHistory) (event : HashDiscovered) (now : Instant)
    (policy : MetadataOptions) : RetryHistory × Option RetryRecord → Prop where
  | unknown (hnone : (history.expire now).entries.get event.infoHash = none) :
      Observed history event now policy (history.expire now, none)
  | known (state : RetryState) (novel : Bool) (peers sources : List SocketAddr)
      (hstate : (history.expire now).entries.get event.infoHash = some state) :
      Observed history event now policy
        ({ history.expire now with
            entries := (history.expire now).entries.insert event.infoHash
              ⟨grantedRecord state.record novel now policy, peers, sources⟩ },
          some (grantedRecord state.record novel now policy))

lemma observe_record (state : RetryState) (peer source : Option SocketAddr) :
    (state.observe peer source).1.record = state.record := rfl

lemma observeEvent_spec (history : RetryHistory) (event : HashDiscovered) (now : Instant)
    (policy : MetadataOptions) : Observed history event now policy (history.observeEvent event now policy) := by
  unfold observeEvent
  dsimp only
  cases hstate : (history.expire now).entries.get event.infoHash with
  | none => exact .unknown hstate
  | some state => exact .known state _ _ _ hstate

lemma remember_spec (h : history.Exact) (entry : QueuedHash) :
    (history.remember entry).Exact ∧ (history.remember entry).entries.len = history.entries.len ∧
      ∀ hash, ((history.remember entry).entries.get hash).map RetryState.record =
        (history.entries.get hash).map RetryState.record := by
  unfold remember
  cases hstate : history.entries.get entry.infoHash with
  | none => exact ⟨h, rfl, fun _ => rfl⟩
  | some state =>
    have hpeers : ∀ (peers : List PeerCandidate) (s : RetryState),
        (peers.foldl (fun s peer => (s.observe (some peer.addr) none).1) s).record = s.record := by
      intro peers
      induction peers with
      | nil => exact fun _ => rfl
      | cons peer rest ih => exact fun s => ih _
    have hsources : ∀ (nodes : List NodeTuple) (s : RetryState),
        (nodes.foldl (fun s node => (s.observe none (some node.addr)).1) s).record = s.record := by
      intro nodes
      induction nodes with
      | nil => exact fun _ => rfl
      | cons node rest ih => exact fun s => ih _
    have hrecord := (hsources entry.sourceNodes _).trans (hpeers entry.peers state)
    refine ⟨h.update hstate (by rw [hrecord]), len_insert_old hstate _, fun hash => ?_⟩
    rw [get_insert]
    split_ifs with hhash
    · rw [hhash, hstate, map_some, map_some, hrecord]
    · rfl

/-! ### Records -/

def recordOf (history : RetryHistory) (hash : String) : Option RetryRecord :=
  (history.entries.get hash).map RetryState.record

lemma recordOf_expire (h : history.Exact) (now : Instant) (hash : String) :
    (history.expire now).recordOf hash =
      (history.recordOf hash).filter fun record => decide (now < record.expiresAt) := by
  rw [recordOf, recordOf, (expire_spec h now).entries hash, filter_map]
  rfl

lemma recordOf_of_expire (h : history.Exact) {record : RetryRecord}
    (hrecord : (history.expire now).recordOf hash = some record) :
    history.recordOf hash = some record ∧ now < record.expiresAt := by
  rw [recordOf_expire h] at hrecord
  obtain ⟨hold, hlt⟩ := filter_eq_some_iff.mp hrecord
  exact ⟨hold, of_decide_eq_true hlt⟩

lemma recordOf_remove (h : history.Exact) (hash other : String) :
    (history.remove hash).recordOf other = if other = hash then none else history.recordOf other := by
  rw [recordOf, (remove_spec h hash).2, get_erase]
  split_ifs <;> rfl

lemma recordOf_insert (history : RetryHistory) (entries : FiniteMap String RetryState)
    (expiry : FiniteMap (Instant ×ₗ String) Unit) (state : RetryState)
    (hentries : entries = history.entries.insert hash state) (other : String) :
    recordOf ⟨entries, expiry⟩ other = if other = hash then some state.record else history.recordOf other := by
  rw [recordOf, hentries, get_insert]
  split_ifs <;> rfl

/-- An event may grant the record of its hash another attempt; the other records only expire. -/
structure Observes (history : RetryHistory) (event : HashDiscovered) (now : Instant)
    (policy : MetadataOptions) (history' : RetryHistory) (record : Option RetryRecord) : Prop where
  exact : history'.Exact
  len : history'.entries.len ≤ history.entries.len
  answer : history'.recordOf event.infoHash = record
  granted : ∃ novel, record = ((history.expire now).recordOf event.infoHash).map fun old =>
    grantedRecord old novel now policy
  others : ∀ other, other ≠ event.infoHash → history'.recordOf other = (history.expire now).recordOf other

lemma observes (h : history.Exact) (event : HashDiscovered) (now : Instant) (policy : MetadataOptions) :
    Observes history event now policy (history.observeEvent event now policy).1
      (history.observeEvent event now policy).2 := by
  have hexpired := expire_spec h now
  have hspec := observeEvent_spec history event now policy
  generalize history.observeEvent event now policy = r at hspec
  cases hspec with
  | unknown hnone =>
    exact ⟨hexpired.exact, hexpired.len, by rw [recordOf, hnone]; rfl,
      ⟨true, by rw [recordOf, hnone]; rfl⟩, fun _ _ => rfl⟩
  | known state novel peers sources hstate =>
    refine ⟨hexpired.exact.update hstate (grantedRecord_expiresAt _ _ _ _), ?_, ?_, ⟨novel, ?_⟩,
      fun other hother => ?_⟩
    · rw [len_insert_old hstate]
      exact hexpired.len
    · rw [recordOf_insert (history.expire now) _ _ _ rfl, if_pos rfl]
    · rw [recordOf, hstate]
      rfl
    · rw [recordOf_insert (history.expire now) _ _ _ rfl, if_neg hother]

/-- A result changes the record of its hash, or makes one; the other records only expire. -/
structure Records (history : RetryHistory) (hash : String) (now : Instant) (failed : Bool)
    (delay : Duration) (policy : MetadataOptions) (history' : RetryHistory) (record : Option RetryRecord) :
    Prop where
  exact : history'.Exact
  len : history'.entries.len ≤ max history.entries.len policy.retryHistoryCapacity
  answer : history'.recordOf hash = record
  result : (record = none ∧ (history.expire now).recordOf hash = none) ∨
    record = some (recordedResult (((history.expire now).recordOf hash).getD (freshState now policy).record)
      now failed delay policy)
  others : ∀ other, other ≠ hash → history'.recordOf other = (history.expire now).recordOf other

lemma records (h : history.Exact) {failed : Bool} {delay : Duration} {record : Option RetryRecord}
    (hrecord : history.record hash now failed delay policy = .ok (history', record)) (entry : QueuedHash) :
    Records history hash now failed delay policy (history'.remember entry) record := by
  have hexpired := expire_spec h now
  have hspec := (record_spec h hash now failed delay policy).of_ok hrecord
  have hkept : ∀ H : RetryHistory, H.Exact → ∀ other, (H.remember entry).recordOf other = H.recordOf other :=
    fun H hH other => (remember_spec hH entry).2.2 other
  cases hspec with
  | full hnone =>
    obtain ⟨hexact, hlen, -⟩ := remember_spec hexpired.exact entry
    have hnorecord : (history.expire now).recordOf hash = none := by rw [recordOf, hnone]; rfl
    refine ⟨hexact, ?_, ?_, .inl ⟨rfl, hnorecord⟩, fun other _ => hkept _ hexpired.exact other⟩
    · rw [hlen]
      exact le_max_of_le_left hexpired.len
    · rw [hkept _ hexpired.exact, hnorecord]
  | stored history' hexact' hentries hlen' =>
    obtain ⟨hexact, hlen, -⟩ := remember_spec hexact' entry
    have hresumed : (history.resumed hash now policy).record =
        ((history.expire now).recordOf hash).getD (freshState now policy).record := by
      rw [resumed, recordOf]
      cases (history.expire now).entries.get hash <;> rfl
    refine ⟨hexact, ?_, ?_, .inr ?_, fun other hother => ?_⟩
    · rw [hlen]
      exact hlen'.trans (max_le_max_right _ hexpired.len)
    · rw [hkept _ hexact']
      exact (recordOf_insert (history.expire now) _ _ _ hentries hash).trans (if_pos rfl)
    · rw [hresumed]
    · rw [hkept _ hexact']
      exact (recordOf_insert (history.expire now) _ _ _ hentries other).trans (if_neg hother)

end DhtCrawler.RetryHistory
