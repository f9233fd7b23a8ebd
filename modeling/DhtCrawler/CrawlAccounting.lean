import DhtCrawler.CrawlHandlers
import DhtCrawler.LibExpiry

/-! The accounting of the requests in flight. -/

namespace DhtCrawler.CrawlActor

open FiniteMap
open List (mem_cons nodup_cons nodup_nil)

variable {σ : CrawlActor} {key : PendingKey} {req : PendingRequest}

variable {pendingExpiry : List (Instant × PendingKey)} {response : DhtResponse}

def pendingIn (σ : CrawlActor) (subnet : SubnetKey) : ℕ :=
  σ.pending.count fun req => req.subnet = subnet

def tally (n : ℕ) : Option ℕ := if n = 0 then none else some n

lemma getD_tally (n : ℕ) : (tally n).getD 0 = n := by
  unfold tally
  split_ifs with h
  · exact h.symm
  · rfl

/-! ### Without a bound on the number of requests -/

structure Capped (σ : CrawlActor) : Prop where
  pending_le : σ.pending.len ≤ σ.config.maxInFlight
  addr : ∀ key req, σ.pending.get key = some req → req.node.addr = key.addr
  sorted : σ.pendingExpiry.Pairwise fun a b => a.1 ≤ b.1
  deadline_le : ∀ record ∈ σ.pendingExpiry, record.1 ≤ σ.clock + σ.config.requestTimeout

lemma Capped.finish (h : Capped σ) (key : PendingKey) (req : PendingRequest) : Capped (σ.finish key req) := by
  rw [finish_eq]
  exact { h with
    pending_le := (len_erase_le _ _).trans h.pending_le
    addr := fun key' req' hget => h.addr key' req' (get_of_get_erase hget).2 }

lemma Capped.dropRecord {record : Instant × PendingKey} (h : Capped σ)
    (hfirst : σ.pendingExpiry = record :: pendingExpiry) : Capped { σ with pendingExpiry } :=
  { h with
    sorted := (List.pairwise_cons.mp (hfirst ▸ h.sorted)).2
    deadline_le := (List.forall_mem_cons.mp (hfirst ▸ h.deadline_le)).2 }

lemma Capped.clock (h : Capped σ) {now : Instant} (hnow : σ.clock ≤ now) : Capped { σ with clock := now } :=
  { h with
    deadline_le := fun record hrecord => (h.deadline_le record hrecord).trans (Nat.add_le_add_right hnow _) }

variable {p q : Phase} {stage : Stage} {now : Instant} {σ' : CrawlActor}

lemma Capped.act (hact : Act stage p q) (h : Capped p.actor) : Capped q.actor := by
  cases hact with
  | send node purpose charged target pool responsive hroom =>
    exact ⟨(len_insert_le _ _ _).trans hroom, forall_insert rfl fun key req _ => h.addr key req,
      Expiry.Sorted.append h.sorted h.deadline_le _,
      List.forall_mem_append.mpr ⟨h.deadline_le, List.forall_mem_singleton.mpr le_rfl⟩⟩
  | finish key req responsive hreq hresponsive => exact { h.finish key req with }
  | dropRecord deadline key pendingExpiry hfirst => exact h.dropRecord hfirst
  | timeout key req pendingExpiry responsive hfirst => exact { (h.dropRecord hfirst).finish key req with }
  | _ => exact { h with }

lemma capped_invariant (options : CrawlOptions) : Invariant options fun p => Capped p.actor where
  start _ _ _ _ := ⟨Nat.zero_le _, nofun, .nil, nofun⟩
  clock _ _ _ _ hnow h := h.clock hnow
  act _ _ _ _ hact h := h.act hact
  batch _ _ _ _ _ _ h := { h with }
  refund _ _ h := { h with }

/-! ### With fresh ids -/

def sentKeys (σ : CrawlActor) : List PendingKey := σ.dispatches.map Dispatch.key

structure Accounted (σ : CrawlActor) : Prop where
  nextTid : σ.dispatches.length + 1 < 2 ^ 64 → σ.nextTid = σ.dispatches.length + 1
  tid_le : ∀ key ∈ σ.sentKeys, key.tid ≤ σ.dispatches.length
  keys_nodup : σ.sentKeys.Nodup
  sent_iff : ∀ key, key ∈ σ.sentKeys ↔ key ∈ σ.released ∨ ∃ req, σ.pending.get key = some req
  released_nodup : σ.released.Nodup
  ended : ∀ key ∈ σ.released, σ.pending.get key = none
  subnets : ∀ subnet, σ.subnetInFlight.get subnet = tally (σ.pendingIn subnet)
  subnet_le : ∀ subnet, σ.pendingIn subnet ≤ σ.config.maxInFlightPerSubnet
  records_nodup : (σ.pendingExpiry.map Prod.snd).Nodup
  record_sent : ∀ record ∈ σ.pendingExpiry, record.2 ∈ σ.sentKeys
  recorded : ∀ key req, σ.pending.get key = some req → (req.deadline, key) ∈ σ.pendingExpiry

lemma accounted_new (config : ResolvedCrawlConfig) (netmode : NetMode) (localId : NodeId)
    (maxMetadataQueueSize : ℕ) (now : Instant) :
    Accounted (new config netmode localId maxMetadataQueueSize now) := by
  refine ⟨fun _ => rfl, nofun, nodup_nil, fun key => ?_, nodup_nil, nofun, fun subnet => ?_,
    fun subnet => ?_, nodup_nil, nofun, nofun⟩
  · simp [sentKeys, new]
  · simp [pendingIn, tally, new]
  · simp [pendingIn, new]

namespace Accounted

section

variable (h : Accounted σ)
include h

lemma subnetCount_eq (subnet : SubnetKey) : σ.subnetCount subnet = σ.pendingIn subnet := by
  unfold subnetCount
  rw [h.subnets, getD_tally]

lemma finish_subnets (hreq : σ.pending.get key = some req) (subnet : SubnetKey) :
    (σ.finish key req).subnetInFlight.get subnet =
      tally ((σ.pending.erase key).count fun req => req.subnet = subnet) := by
  have hcount : ∀ s, (σ.pending.erase key).count (fun req => req.subnet = s) +
      (if req.subnet = s then 1 else 0) = σ.pendingIn s := by
    intro s
    have hc := count_erase hreq fun req => decide (req.subnet = s)
    simp only [decide_eq_true_eq] at hc
    exact hc
  have hown := hcount req.subnet
  rw [if_pos rfl] at hown
  have hget : σ.subnetInFlight.get req.subnet = some (σ.pendingIn req.subnet) := by
    rw [h.subnets, tally, if_neg (by omega)]
  have hrest := hcount subnet
  unfold finish releasePending
  rw [hget]
  dsimp only
  by_cases hs : subnet = req.subnet
  · subst hs
    rw [← hown, Nat.add_sub_cancel]
    unfold tally
    split_ifs
    · rw [get_erase_self]
    · rw [get_insert_self]
  · rw [if_neg (Ne.symm hs), Nat.add_zero] at hrest
    rw [hrest, ← h.subnets]
    split_ifs
    · exact get_erase_ne _ hs
    · exact get_insert_ne _ hs _

lemma finish (hreq : σ.pending.get key = some req) : Accounted (σ.finish key req) := by
  have hsubnets := h.finish_subnets hreq
  rw [finish_eq] at hsubnets ⊢
  have hback : ∀ {key' req'}, (σ.pending.erase key).get key' = some req' →
      σ.pending.get key' = some req' := fun hget => (get_of_get_erase hget).2
  have hnew : key ∉ σ.released := by
    intro hmem
    rw [h.ended key hmem] at hreq
    cases hreq
  refine { h with
    sent_iff := fun key' => ?_
    released_nodup := nodup_cons.mpr ⟨hnew, h.released_nodup⟩
    ended := fun key' hmem => ?_
    subnets := hsubnets
    subnet_le := fun subnet => le_trans ?_ (h.subnet_le subnet)
    recorded := fun key' req' hget => h.recorded key' req' (hback hget) }
  · refine (h.sent_iff key').trans ?_
    rw [mem_cons, get_erase]
    by_cases hk : key' = key
    · subst hk
      exact ⟨fun _ => Or.inl (Or.inl rfl), fun _ => Or.inr ⟨req, hreq⟩⟩
    · rw [if_neg hk]
      simp only [hk, false_or]
  · rcases mem_cons.mp hmem with rfl | hmem
    · exact get_erase_self _ _
    · rw [get_erase]
      split_ifs
      · rfl
      · exact h.ended key' hmem
  · have hc := count_erase hreq fun req => decide (req.subnet = subnet)
    exact Nat.le.intro hc

lemma dropRecord {deadline : Instant}
    (hfirst : σ.pendingExpiry = (deadline, key) :: pendingExpiry)
    (hended : (σ.pending.get key).filter (fun req => req.deadline = deadline) = none) :
    Accounted { σ with pendingExpiry } := by
  have hnodup := h.records_nodup
  rw [hfirst] at hnodup
  have hsub : ∀ record ∈ pendingExpiry, record ∈ σ.pendingExpiry := by
    intro record hrecord
    rw [hfirst]
    exact List.mem_cons_of_mem _ hrecord
  refine { h with
    records_nodup := (nodup_cons.mp hnodup).2
    record_sent := fun record hrecord => h.record_sent record (hsub record hrecord)
    recorded := fun key' req' hget => ?_ }
  have hmem := h.recorded key' req' hget
  rw [hfirst] at hmem
  rcases mem_cons.mp hmem with heq | hmem
  · obtain ⟨hdeadline, hkey⟩ := Prod.mk.inj heq
    have hkept : (σ.pending.get key).filter (fun req => req.deadline = deadline) = some req' := by
      rw [← hkey, (hget : σ.pending.get key' = some req')]
      exact Option.filter_some_pos (decide_eq_true hdeadline)
    rw [hkept] at hended
    cases hended
  · exact hmem

lemma key_fresh (hlt : σ.dispatches.length + 1 < 2 ^ 64) (addr : SocketAddr) :
    (⟨addr, σ.nextTid⟩ : PendingKey) ∉ σ.sentKeys := by
  intro hmem
  have hle : σ.nextTid ≤ σ.dispatches.length := h.tid_le _ hmem
  rw [h.nextTid hlt] at hle
  exact Nat.not_succ_le_self _ hle

lemma notPending_of_fresh (hfresh : key ∉ σ.sentKeys) : σ.pending.get key = none :=
  Option.eq_none_iff_forall_ne_some.mpr fun req hreq => hfresh ((h.sent_iff key).mpr (Or.inr ⟨req, hreq⟩))

end

section Launched

variable (node : NodeTuple) (purpose : ProbePurpose) (fresh charged : Bool) (target : Option (Fin 256))

lemma pendingIn_launched (h : Accounted σ) (hlt : σ.dispatches.length + 1 < 2 ^ 64) (subnet : SubnetKey) :
    (σ.launched node purpose σ.clock fresh charged target).pendingIn subnet =
      σ.pendingIn subnet + if .fromAddr node.addr = subnet then 1 else 0 := by
  have hnew := h.notPending_of_fresh (h.key_fresh hlt node.addr)
  unfold pendingIn CrawlActor.launched
  rw [count_insert_new hnew]
  simp only [decide_eq_true_eq]

lemma launched_subnets (h : Accounted σ) (hlt : σ.dispatches.length + 1 < 2 ^ 64) (subnet : SubnetKey) :
    (σ.launched node purpose σ.clock fresh charged target).subnetInFlight.get subnet =
      tally ((σ.launched node purpose σ.clock fresh charged target).pendingIn subnet) := by
  rw [h.pendingIn_launched node purpose fresh charged target hlt]
  unfold CrawlActor.launched
  rw [get_insert, h.subnetCount_eq]
  by_cases hs : subnet = .fromAddr node.addr
  · subst hs
    rw [if_pos rfl, if_pos rfl, tally, if_neg (Nat.succ_ne_zero _)]
  · rw [if_neg hs, if_neg (Ne.symm hs)]
    exact h.subnets subnet

lemma launched_subnet_le (h : Accounted σ) (hlt : σ.dispatches.length + 1 < 2 ^ 64)
    (hsubnet : σ.subnetCount (.fromAddr node.addr) < σ.config.maxInFlightPerSubnet) (subnet : SubnetKey) :
    (σ.launched node purpose σ.clock fresh charged target).pendingIn subnet ≤
      σ.config.maxInFlightPerSubnet := by
  rw [h.pendingIn_launched node purpose fresh charged target hlt]
  split_ifs with hs
  · rw [h.subnetCount_eq, hs] at hsubnet
    exact hsubnet
  · exact h.subnet_le subnet

lemma launched (h : Accounted σ) (hlt : σ.dispatches.length + 1 < 2 ^ 64)
    (hsubnet : σ.subnetCount (.fromAddr node.addr) < σ.config.maxInFlightPerSubnet) :
    Accounted (σ.launched node purpose σ.clock fresh charged target) := by
  have hfresh := h.key_fresh hlt node.addr
  have htid := h.nextTid hlt
  have hnew := h.notPending_of_fresh hfresh
  have hsent : ∀ record ∈ σ.pendingExpiry, record.2 ≠ ⟨node.addr, σ.nextTid⟩ :=
    fun record hrecord hkey => hfresh (hkey ▸ h.record_sent record hrecord)
  refine
    { nextTid := fun hnext => ?_
      tid_le := fun key hmem => ?_
      keys_nodup := nodup_cons.mpr ⟨hfresh, h.keys_nodup⟩
      sent_iff := fun key => ?_
      released_nodup := h.released_nodup
      ended := fun key hmem => ?_
      subnets := h.launched_subnets node purpose fresh charged target hlt
      subnet_le := h.launched_subnet_le node purpose fresh charged target hlt hsubnet
      records_nodup := ?_
      record_sent := ?_
      recorded := ?_ }
  · show max (wrappingSucc σ.nextTid) 1 = σ.dispatches.length + 1 + 1
    rw [htid, wrappingSucc_of_lt (n := σ.dispatches.length + 1) hnext]
    exact max_eq_left (Nat.le_add_left 1 _)
  · rcases mem_cons.mp hmem with rfl | hmem
    · exact htid.le
    · exact (h.tid_le key hmem).trans (Nat.le_succ _)
  · show key ∈ _ :: σ.sentKeys ↔ key ∈ σ.released ∨ ∃ req, (σ.pending.insert _ _).get key = some req
    rw [mem_cons, h.sent_iff, get_insert]
    split_ifs with hk
    · simp [hk]
    · simp [hk]
  · have hne : key ≠ ⟨node.addr, σ.nextTid⟩ :=
      fun hk => hfresh ((h.sent_iff _).mpr (Or.inl (hk ▸ hmem)))
    exact (get_insert_ne _ hne _).trans (h.ended key hmem)
  · show ((σ.pendingExpiry ++ [_]).map Prod.snd).Nodup
    rw [List.map_append]
    refine h.records_nodup.append (List.nodup_singleton _) fun key hmem hkey => ?_
    obtain ⟨record, hrecord, rfl⟩ := List.mem_map.mp hmem
    exact hsent record hrecord (List.mem_singleton.mp hkey)
  · refine List.forall_mem_append.mpr ⟨fun record hrecord => ?_, List.forall_mem_singleton.mpr List.mem_cons_self⟩
    exact List.mem_cons_of_mem _ (h.record_sent record hrecord)
  · exact forall_insert (List.mem_append_right _ List.mem_cons_self)
      fun key req _ hget => List.mem_append_left _ (h.recorded key req hget)

end Launched

lemma finish_pendingExpiry (σ : CrawlActor) (key : PendingKey) (req : PendingRequest)
    (pendingExpiry : List (Instant × PendingKey)) :
    { σ with pendingExpiry }.finish key req = { σ.finish key req with pendingExpiry } := by
  unfold CrawlActor.finish releasePending
  cases σ.subnetInFlight.get req.subnet with
  | none => rfl
  | some count =>
    dsimp only
    split_ifs
    · rfl
    · rfl

lemma timeout (h : Accounted σ)
    (hfirst : σ.pendingExpiry = (req.deadline, key) :: pendingExpiry) (hreq : σ.pending.get key = some req) :
    Accounted ({ σ with pendingExpiry }.finish key req) := by
  have hfirst' : (σ.finish key req).pendingExpiry = (req.deadline, key) :: pendingExpiry := by
    rw [finish_eq]
    exact hfirst
  rw [finish_pendingExpiry]
  refine (h.finish hreq).dropRecord hfirst' ?_
  rw [finish_eq]
  rw [get_erase_self]
  rfl

end Accounted

lemma Act.dispatches_le (h : Act stage p q) : p.actor.dispatches.length ≤ q.actor.dispatches.length := by
  cases h with
  | send node purpose charged target pool responsive => exact Nat.le_succ _
  | finish key req responsive hreq hresponsive => rw [finish_eq]
  | timeout key req pendingExpiry responsive hfirst hreq hresponsive => rw [finish_eq]
  | _ => exact le_refl _

lemma Accounted.act (hact : Act stage p q) (hlt : q.actor.dispatches.length < 2 ^ 64) (h : Accounted p.actor) :
    Accounted q.actor := by
  cases hact with
  | send node purpose charged target pool responsive hroom hsubnet =>
    exact { h.launched node purpose _ charged target hlt hsubnet with }
  | finish key req responsive hreq hresponsive => exact { h.finish hreq with }
  | dropRecord deadline key pendingExpiry hfirst hended => exact h.dropRecord hfirst hended
  | timeout key req pendingExpiry responsive hfirst hreq hresponsive =>
    exact { h.timeout hfirst hreq with }
  | _ => exact { h with }

lemma accounted_invariant (options : CrawlOptions) :
    Invariant options fun p => p.actor.dispatches.length < 2 ^ 64 → Accounted p.actor where
  start _ _ _ _ _ := accounted_new _ _ _ _ _
  clock _ _ _ _ _ h hlt := { h hlt with }
  act _ _ _ _ hact h hlt := (h (hact.dispatches_le.trans_lt hlt)).act hact hlt
  batch _ _ _ _ _ _ h hlt := { h hlt with }
  refund _ _ h hlt := { h hlt with }

lemma Act.idle (h : Act stage p q) (hheld : p.held = 0) :
    q.held = 0 ∧ q.actor.dispatches = p.actor.dispatches ∧
      ∀ key req, q.actor.pending.get key = some req → p.actor.pending.get key = some req := by
  cases h with
  | send node purpose charged target pool responsive => exact absurd hheld (Nat.succ_ne_zero _)
  | refuse addr mid pool => exact absurd hheld (Nat.succ_ne_zero _)
  | finish key req responsive hreq hresponsive =>
    rw [finish_eq]
    exact ⟨hheld, rfl, fun key' req' hget => (get_of_get_erase hget).2⟩
  | timeout key req pendingExpiry responsive hfirst hreq hresponsive =>
    rw [finish_eq]
    exact ⟨hheld, rfl, fun key' req' hget => (get_of_get_erase hget).2⟩
  | _ => exact ⟨hheld, rfl, fun _ _ hget => hget⟩

lemma Acts.idle (h : Acts stage p q) (hheld : p.held = 0) :
    q.held = 0 ∧ q.actor.dispatches = p.actor.dispatches ∧
      ∀ key req, q.actor.pending.get key = some req → p.actor.pending.get key = some req := by
  induction h with
  | refl => exact ⟨hheld, rfl, fun _ _ hget => hget⟩
  | tail _ hact ih =>
    obtain ⟨hheld', hdispatches, hpending⟩ := hact.idle ih.1
    exact ⟨hheld', hdispatches.trans ih.2.1, fun key req hget => ih.2.2 key req (hpending key req hget)⟩

def releasedBy (σ : CrawlActor) (key : PendingKey) : List PendingKey :=
  if σ.pending.contains key then key :: σ.released else σ.released

lemma releasedBy_eq (hreq : σ.pending.get key = some req) : σ.releasedBy key = (σ.finish key req).released := by
  rw [finish_eq]
  exact if_pos (contains_iff.mpr ⟨req, hreq⟩)

lemma releasedBy_unknown (hreq : σ.pending.get key = none) : σ.releasedBy key = σ.released :=
  if_neg (Bool.eq_false_iff.mp (contains_eq_false.mpr hreq))

lemma sendFailed_released (hrun : σ.sendFailed key now = .ok σ') : σ'.released = σ.releasedBy key := by
  unfold sendFailed at hrun
  cases hreq : σ.pending.get key with
  | none =>
    rw [hreq] at hrun
    cases hrun
    exact (releasedBy_unknown hreq).symm
  | some req =>
    rw [hreq] at hrun
    obtain ⟨x, _, hx⟩ := Except.bind_eq_ok.mp hrun
    cases hx
    rw [releasedBy_eq hreq]
    unfold markTimeout
    split_ifs
    · rfl
    · rfl

lemma handleResponse_ended (hrun : σ.handleResponse key response now = .ok σ') :
    σ'.released = σ.releasedBy key ∧ σ'.pending = σ.pending.erase key ∧ σ'.dispatches = σ.dispatches := by
  unfold handleResponse at hrun
  cases hreq : σ.pending.get key with
  | none =>
    rw [hreq] at hrun
    cases hrun
    exact ⟨(releasedBy_unknown hreq).symm, (erase_of_get_none hreq).symm, rfl⟩
  | some req =>
    rw [hreq] at hrun
    obtain ⟨responsive, _, hadmit⟩ := Except.bind_eq_ok.mp hrun
    obtain ⟨pool, _, hpool⟩ := Except.bind_eq_ok.mp hadmit
    cases hpool
    rw [releasedBy_eq hreq]
    unfold markSuccess
    rw [finish_eq]
    split_ifs
    · exact ⟨rfl, rfl, rfl⟩
    · exact ⟨rfl, rfl, rfl⟩

lemma handle_released (h : Sound ∅ σ) (hnow : σ.clock ≤ now) (key : PendingKey) {event : Event}
    (hevent : event = .sendFailed key ∨ ∃ response, event = .response key response) :
    ∃ σ', σ.handle now event = .ok σ' ∧ σ'.released = σ.releasedBy key := by
  have hran := Ran.of_sound .receive (h.clock hnow) 0 false
  rcases hevent with rfl | ⟨response, rfl⟩
  · obtain ⟨σ', hrun, _⟩ := (sendFailed_ran hran key).exists
    exact ⟨σ', hrun, (sendFailed_released hrun :)⟩
  · obtain ⟨σ', hrun, _⟩ := (handleResponse_ran hran key response).exists
    exact ⟨σ', hrun, (handleResponse_ended hrun).1⟩

namespace Accounted

lemma record_unique (h : Accounted σ) (hreq : σ.pending.get key = some req) :
    σ.pendingExpiry.filter (fun record => record.2 = key) = [(req.deadline, key)] := by
  have hnodup := h.records_nodup
  have hmem := h.recorded key req hreq
  generalize σ.pendingExpiry = records at hnodup hmem
  obtain ⟨a, b, rfl⟩ := List.append_of_mem hmem
  rw [List.map_append, List.map_cons, List.nodup_middle, nodup_cons, List.mem_append] at hnodup
  have hnone : ∀ l : List (Instant × PendingKey), key ∉ l.map Prod.snd →
      l.filter (fun record => record.2 = key) = [] := by
    intro l hl
    refine List.filter_eq_nil_iff.mpr fun record hrecord hkey => hl ?_
    exact of_decide_eq_true hkey ▸ List.mem_map_of_mem hrecord
  rw [List.filter_append, List.filter_cons, if_pos (decide_eq_true rfl),
    hnone a fun ha => hnodup.1 (Or.inl ha), hnone b fun hb => hnodup.1 (Or.inr hb)]
  rfl

lemma sent_perm (h : Accounted σ) : σ.sentKeys.Perm (σ.released ++ σ.pending.keys.toList) := by
  refine (List.perm_ext_iff_of_nodup h.keys_nodup ?_).mpr fun key => ?_
  · refine h.released_nodup.append (Finset.nodup_toList _) fun key hreleased hpending => ?_
    obtain ⟨req, hreq⟩ := mem_keys.mp (Finset.mem_toList.mp hpending)
    rw [h.ended key hreleased] at hreq
    cases hreq
  · rw [h.sent_iff, List.mem_append, Finset.mem_toList, mem_keys]

lemma unexpired (h : Accounted σ) (hcapped : Capped σ) {now : Instant} (hunexpired : Unexpired now σ)
    (hreq : σ.pending.get key = some req) : now < req.deadline := by
  have hmem := h.recorded key req hreq
  have hsorted := hcapped.sorted
  unfold Unexpired at hunexpired
  cases hq : σ.pendingExpiry with
  | nil =>
    rw [hq] at hmem
    cases hmem
  | cons first rest =>
    rw [hq] at hmem hsorted
    have hfirst := hunexpired first.1 first.2 rest hq
    rcases mem_cons.mp hmem with heq | hrest
    · rw [← heq] at hfirst
      exact hfirst
    · exact hfirst.trans_le ((List.pairwise_cons.mp hsorted).1 _ hrest)

end Accounted

/-- A request is pending or released, once; the subnet counters and the deadlines follow the pending requests.
-/
theorem inFlight_accounting {options : CrawlOptions} (hσ : Reachable options σ)
    (hlt : σ.dispatches.length < 2 ^ 64) :
    (∀ subnet, σ.subnetInFlight.get subnet = tally (σ.pendingIn subnet) ∧
      σ.pendingIn subnet ≤ σ.config.maxInFlightPerSubnet) ∧
    σ.pending.len ≤ σ.config.maxInFlight ∧
    (∀ key req, σ.pending.get key = some req →
      σ.pendingExpiry.filter (fun record => record.2 = key) = [(req.deadline, key)]) ∧
    σ.pendingExpiry.Pairwise (fun a b => a.1 ≤ b.1) ∧
    σ.sentKeys.Nodup ∧ σ.sentKeys.Perm (σ.released ++ σ.pending.keys.toList) ∧
    ∀ now, σ.clock ≤ now → (∃ σ', { σ with clock := now }.expirePending now = .ok σ' ∧
        (∀ key req, σ'.pending.get key = some req → now < req.deadline) ∧
        (∀ key req, σ.pending.get key = some req → req.deadline ≤ now → key ∈ σ'.released) ∧
        σ'.released.Nodup) ∧
      ∀ key event, (event = .sendFailed key ∨ ∃ response, event = .response key response) →
        ∃ σ', σ.handle now event = .ok σ' ∧ σ'.released = σ.releasedBy key := by
  obtain ⟨hinv, hconfig⟩ := (accounted_invariant options).reachable hσ
  have h : Accounted σ := hinv hlt
  have hcapped := ((capped_invariant options).reachable hσ).1
  refine ⟨fun subnet => ⟨h.subnets subnet, h.subnet_le subnet⟩, hcapped.pending_le,
    fun key req hreq => h.record_unique hreq, hcapped.sorted, h.keys_nodup, h.sent_perm, fun now hnow => ⟨?_, ?_⟩⟩
  · obtain ⟨σ', hrun, hran, hunexpired⟩ :=
      (expirePending_ran (Ran.of_sound .expire (hσ.sound.clock hnow) 0 false)).exists
    obtain ⟨_, hdispatches, hpending⟩ := Acts.idle hran.acts rfl
    have h' : Accounted σ' :=
      (accounted_invariant options).acts hran.acts hconfig (fun _ => { h with }) (hdispatches ▸ hlt)
    have hcapped' := (capped_invariant options).acts hran.acts hconfig (hcapped.clock hnow)
    refine ⟨σ', hrun, fun key req hreq => h'.unexpired hcapped' hunexpired hreq, fun key req hreq hdue => ?_,
      h'.released_nodup⟩
    have hsent : key ∈ σ'.sentKeys := by
      unfold sentKeys
      rw [hdispatches]
      exact (h.sent_iff key).mpr (Or.inr ⟨req, hreq⟩)
    rcases (h'.sent_iff key).mp hsent with hreleased | ⟨req', hreq'⟩
    · exact hreleased
    · have hsame := hpending key req' hreq'
      dsimp only at hsame
      rw [hreq] at hsame
      cases hsame
      exact absurd (h'.unexpired hcapped' hunexpired hreq') (not_lt.mpr hdue)
  · exact fun key event hevent => handle_released hσ.sound hnow key hevent

theorem inFlight_accounting_sample :
    ∃ σ, Reachable sampleOptions σ ∧ σ.sizes = (1, 1, 2) ∧ σ.dispatches.length < 2 ^ 64 ∧
      σ.sentKeys.Perm (σ.released ++ σ.pending.keys.toList) := by
  obtain ⟨σ, hσ, hsizes⟩ := sample_reachable
  have hlt : σ.dispatches.length < 2 ^ 64 := by
    have hlen : σ.dispatches.length = 2 := congrArg (fun s => s.2.2) hsizes
    rw [hlen]
    decide
  exact ⟨σ, hσ, hsizes, hlt, (inFlight_accounting hσ hlt).2.2.2.2.2.1⟩

end DhtCrawler.CrawlActor
