import DhtCrawler.DiscoverySteps

/-! The handlers of the discovery actor never panic and are sequences of acts. -/

namespace DhtCrawler.Discovery.DiscoveryActor

open FiniteMap List Except Acts

variable {key : DueKey} {node : NodeTuple} {u : Instant}

/-- The state `σ` comes from `start` by acts, and the clock has passed `now`. -/
structure Ran (busy : Bool) (start : DiscoveryActor) (now : Instant) (σ : DiscoveryActor) : Prop where
  sound : σ.Sound
  acts : Acts busy start σ
  clock : now ≤ σ.clock

variable {busy : Bool} {start σ σ' : DiscoveryActor} {now : Instant}

lemma Act.clock_le (h : Act busy σ σ') : σ.clock ≤ σ'.clock := by
  cases h with
  | pass clock future hclock => exact hclock
  | sent key now clock future deadline hkey hentry hflight hslot hclock => exact hclock
  | unsent key now clock future hkey hentry hslot hclock => exact hclock
  | _ => exact le_rfl

lemma Acts.config_eq (h : Acts busy σ σ') : σ'.config = σ.config := by
  induction h with
  | refl => rfl
  | tail _ hact ih => cases hact <;> exact ih

lemma Acts.calm (h : Acts false σ σ') : σ'.pending = σ.pending ∧ σ'.attempts = σ.attempts := by
  induction h with
  | refl => exact ⟨rfl, rfl⟩
  | tail _ hact ih => cases hact <;> exact ih

lemma Ran.act (h : Ran busy start now σ) (hact : Act busy σ σ') : Ran busy start now σ' :=
  ⟨hact.sound h.sound, h.acts.tail hact, h.clock.trans hact.clock_le⟩

lemma Ran.refl {busy' : Bool} (h : Ran busy start now σ) : Ran busy' σ now σ := ⟨h.sound, .refl, h.clock⟩

lemma Ran.trans (h : Ran busy start now σ) (h' : Ran busy σ now σ') : Ran busy start now σ' :=
  ⟨h'.sound, h.acts.trans h'.acts, h'.clock⟩

lemma Act.eager (h : Act false σ σ') : Act true σ σ' := by
  cases h <;> constructor <;> assumption

lemma Ran.eager (h : Ran false start now σ) : Ran true start now σ :=
  ⟨h.sound, h.acts.lift id fun _ _ => Act.eager, h.clock⟩

/-! ### Candidates -/

lemma schedule_new (σ : DiscoveryActor) (node : NodeTuple) (now : Instant) :
    { σ with nodes := σ.nodes.insert node.addr ⟨node, none⟩ }.schedule node.addr now = { σ with
        sequence := wrappingSucc σ.sequence
        nodes := σ.nodes.insert node.addr
          ⟨node, some (toLex (now, toLex (wrappingSucc σ.sequence, node.addr)))⟩
        due := insert (toLex (now, toLex (wrappingSucc σ.sequence, node.addr))) σ.due } := by
  unfold schedule
  rw [get_insert_self]
  dsimp only
  rw [insert_insert]

lemma firstDue_mem (h : σ.firstDue now = some key) : key ∈ σ.due ∧ key.at ≤ now := by
  obtain ⟨hleast, hat⟩ := Option.filter_eq_some_iff.mp h
  exact ⟨(Finset.least_eq_some_iff.mp hleast).1, of_decide_eq_true hat⟩

lemma Ran.enroll (h : Ran busy start now σ) (hvalid : isValidNodeAddr node.addr = true)
    (hentry : σ.nodes.get node.addr = none) (hcooldown : σ.cooldowns.get node.addr = none) :
    Ran busy start now (σ.enroll node now) := by
  unfold DiscoveryActor.enroll
  split_ifs with hfull
  · cases hfirst : σ.firstDue now with
    | none => exact h
    | some key =>
      obtain ⟨hkey, -⟩ := firstDue_mem hfirst
      obtain ⟨entry, hold, -⟩ := h.sound.entry_of_due hkey
      have hevict := h.act (.evict key hkey)
      have hless := len_erase_old hold
      have hbound := h.sound.nodes_len
      have hnone : (σ.nodes.erase key.addr).get node.addr = none := by
        rw [get_erase, hentry, ite_self]
      dsimp only
      rw [schedule_new { σ with due := σ.due.erase key, nodes := σ.nodes.erase key.addr }]
      exact hevict.act (.enroll node _ rfl hvalid hnone hcooldown (by dsimp only; omega))
  · rw [schedule_new]
    exact h.act (.enroll node _ rfl hvalid hentry hcooldown (Nat.lt_of_not_le hfull))

lemma Ran.admitKnown (h : Ran busy start now σ) (hvalid : isValidNodeAddr node.addr = true)
    (hcooldown : σ.cooldowns.get node.addr = none) : Ran busy start now (σ.admitKnown node now) := by
  unfold DiscoveryActor.admitKnown
  cases hentry : σ.nodes.get node.addr with
  | some entry => exact h.act (.rename node hentry)
  | none => exact h.enroll hvalid hentry hcooldown

lemma Ran.admitNode (h : Ran busy start now σ) (node : NodeTuple) : Ran busy start now (σ.admitNode node now) := by
  unfold DiscoveryActor.admitNode
  split_ifs with hvalid
  · exact h
  · have hvalid : isValidNodeAddr node.addr = true := by
      cases hv : isValidNodeAddr node.addr with
      | true => rfl
      | false => simp [hv] at hvalid
    cases hcooldown : σ.cooldowns.get node.addr with
    | none => exact h.admitKnown hvalid hcooldown
    | some rest =>
      obtain ⟨old, until'⟩ := rest
      dsimp only
      split_ifs with hrest
      · exact h
      · exact (h.act (.thaw node.addr hcooldown ((Nat.le_of_not_lt hrest).trans h.clock))).admitKnown
          hvalid (get_erase_self _ _)

lemma Ran.admitAll (nodes : List NodeTuple) (h : Ran busy start now σ) :
    Ran busy start now (nodes.foldl (fun σ node => σ.admitNode node now) σ) := by
  induction nodes generalizing σ with
  | nil => exact h
  | cons node rest ih => exact ih (h.admitNode node)

/-! ### Ticks -/

lemma Ran.thawStep (h : Ran busy start now σ) : Ran busy start now (thawStep now σ).value := by
  unfold DiscoveryActor.thawStep
  cases hfirst : σ.cooldownExpiry.least.filter fun record => (ofLex record).1 ≤ now with
  | none => exact h
  | some record =>
    obtain ⟨hleast, hover⟩ := Option.filter_eq_some_iff.mp hfirst
    have hmem := (Finset.least_eq_some_iff.mp hleast).1
    obtain ⟨rest, hcooldown, huntil⟩ := Option.map_eq_some_iff.mp ((h.sound.expiry record).mp hmem)
    obtain ⟨node, until'⟩ := rest
    dsimp only at huntil ⊢
    subst huntil
    rw [hcooldown]
    exact (h.act (.thaw _ hcooldown ((of_decide_eq_true hover).trans h.clock))).admitNode node

variable {addr : SocketAddr} {sample : PendingSample} {options : DiscoveryOptions}

lemma enterCooldown_eq (entry : SampleNode) (until' : Instant) (hentry : σ.nodes.get addr = some entry)
    (hdue : entry.due = none) (hslot : σ.cooldowns.len < max σ.config.sampleCooldownCapacity 1) :
    σ.enterCooldown addr until' = .ok (σ.rest entry.node addr until') := by
  unfold enterCooldown
  rw [hentry]
  dsimp only
  rw [hdue, if_pos hslot]
  rfl

lemma Sound.reserved (h : σ.Sound) (hpending : σ.pending.get addr = some sample) :
    σ.cooldowns.len < max σ.config.sampleCooldownCapacity 1 := by
  have hless := len_erase_old hpending
  have hhistory := h.history
  omega

lemma Sound.endRequest (h : σ.Sound) (hpending : σ.pending.get addr = some sample) (until' : Instant) :
    ∃ node, node.addr = addr ∧ (σ.forget addr).enterCooldown addr until' =
        .ok ((σ.forget addr).rest node addr until') := by
  obtain ⟨entry, hentry, hdue⟩ := h.entry_of_pending hpending
  exact ⟨entry.node, (h.keyed addr entry hentry).1,
    enterCooldown_eq entry until' hentry hdue (h.reserved hpending)⟩

lemma timeOuts_spec (addrs : List SocketAddr) (h : Ran true start now σ) (hnodup : addrs.Nodup)
    (hpending : ∀ addr ∈ addrs, ∃ sample, σ.pending.get addr = some sample) :
    Safe (fun _ => False) (addrs.foldlM (timeOut now) σ) fun σ' =>
      Ran true start now σ' ∧ σ'.attempts = σ.attempts ∧ ∀ addr ∈ addrs, σ'.Barred addr (now + σ.failureDelay) := by
  induction addrs generalizing start σ with
  | nil => exact ⟨h, rfl, fun _ hmem => (nomatch hmem)⟩
  | cons addr rest ih =>
    obtain ⟨sample, hsample⟩ := hpending addr mem_cons_self
    obtain ⟨node, hnode, hend⟩ := h.sound.endRequest hsample (now + σ.failureDelay)
    rw [foldlM_cons, timeOut, hend, ok_bind]
    obtain ⟨hnotin, hnodup⟩ := nodup_cons.mp hnodup
    have hsettled := h.act (.settle addr node (now + σ.failureDelay) hsample hnode)
    refine (ih hsettled.refl hnodup fun other hother => ?_).mono fun σ' hσ' => ?_
    · obtain ⟨sample', hsample'⟩ := hpending other (mem_cons_of_mem _ hother)
      refine ⟨sample', (get_erase_ne _ ?_).trans hsample'⟩
      rintro rfl
      exact hnotin hother
    · obtain ⟨hran, hattempts, hbarred⟩ := hσ'
      refine ⟨hsettled.trans hran, hattempts, fun other hother => ?_⟩
      rcases mem_cons.mp hother with rfl | hother
      · exact barred hran.acts hsettled.sound (barred_rest _ _ _ _)
      · exact hbarred other hother

lemma expirePending_spec (h : Ran true start now σ) (iteration : Iteration SocketAddr) :
    Safe (fun _ => False) (σ.expirePending iteration now) fun σ' =>
      Ran true start now σ' ∧ σ'.attempts = σ.attempts ∧
        ∀ addr sample, σ.pending.get addr = some sample → sample.deadline ≤ now →
          σ'.Barred addr (now + σ.failureDelay) := by
  unfold expirePending
  refine (timeOuts_spec _ h ((iteration.nodup_order _).filter _) fun addr haddr => ?_).mono
    fun σ' hσ' => ⟨hσ'.1, hσ'.2.1, fun addr sample hsample hdeadline => hσ'.2.2 addr ?_⟩
  · exact mem_keys.mp (iteration.mem_order.mp (mem_filter.mp haddr).1)
  · refine mem_filter.mpr ⟨iteration.mem_order.mpr (mem_keys.mpr ⟨sample, hsample⟩), ?_⟩
    rw [hsample]
    exact decide_eq_true hdeadline

lemma Ran.refreshSeeds (h : Ran busy start now σ) (seeds : List NodeTuple) :
    Ran busy start now (σ.refreshSeeds seeds now) := by
  unfold DiscoveryActor.refreshSeeds
  split_ifs
  · exact (h.act (.refresh (now + seedRefresh))).admitAll seeds
  · exact h

lemma dispatch_spec (h : Ran true start now σ) (hkey : key ∈ σ.due)
    (hflight : σ.pending.len < σ.config.sampleMaxInFlight)
    (hslot : σ.cooldowns.len + σ.pending.len < max σ.config.sampleCooldownCapacity 1) :
    Safe (fun _ => False) (σ.dispatch key now) (Ran true start now) := by
  obtain ⟨entry, hentry, hdue⟩ := h.sound.entry_of_due hkey
  have haddr := (h.sound.keyed _ _ hentry).1
  obtain ⟨clock, future, sent, hclock, hattempt⟩ := attempt_eq
    { σ with
      due := σ.due.erase key
      nodes := σ.nodes.insert key.addr { entry with due := none } } key.addr now
  unfold dispatch
  rw [hentry, unwrap_some, ok_bind]
  dsimp only
  rw [haddr, hattempt]
  cases sent with
  | true =>
    refine h.act (.sent key now clock future _ hkey hentry hflight hslot hclock ?_)
    exact Nat.lt_add_of_pos_right (Nat.mul_pos (lt_max_of_lt_right Nat.one_pos) (by decide))
  | false =>
    have hrest : ({ σ with
        due := σ.due.erase key
        nodes := σ.nodes.insert key.addr { entry with due := none } }.attempted key.addr now clock future
          false).enterCooldown key.addr (now + σ.failureDelay) =
        .ok ({ σ.attempted key.addr now clock future false with due := σ.due.erase key }.rest entry.node
          key.addr (now + σ.failureDelay)) := by
      refine (enterCooldown_eq { entry with due := none } _ (get_insert_self _ _ _) rfl
        (by exact (Nat.le_add_right _ _).trans_lt hslot)).trans ?_
      unfold rest attempted
      rw [erase_insert_self]
    refine (congrArg (fun x => Safe (fun _ => False) x (Ran true start now)) hrest).mpr ?_
    exact h.act (.unsent key now clock future hkey hentry hslot hclock)

lemma dispatchStep_spec (h : Ran true start now σ) :
    Safe (fun _ => False) (dispatchStep now σ) fun r => Ran true start now r.value := by
  unfold dispatchStep
  by_cases hflight : σ.pending.len ≥ σ.config.sampleMaxInFlight
  · rw [if_pos hflight]
    exact h
  rw [if_neg hflight]
  cases hfirst : σ.firstDue now with
  | none => exact h
  | some key =>
    split_ifs with hfull
    · exact h
    have hslot : σ.cooldowns.len + σ.pending.len < max σ.config.sampleCooldownCapacity 1 := by
      rcases min_lt_iff.mp (Nat.lt_of_not_le hfull) with hlt | hlt
      · exact hlt
      · exact absurd hlt (Nat.not_lt.mpr h.sound.capacity)
    cases htake : σ.queryBudget.tryTakeOne now with
    | mk queryBudget taken =>
      have hcharge := h.act (.charge now queryBudget taken htake)
      cases taken with
      | false => exact hcharge
      | true =>
        exact (dispatch_spec hcharge (firstDue_mem hfirst).1 (Nat.lt_of_not_le hflight)
          hslot).bind fun σ' hσ' => hσ'

/-- The rest of an endpoint began between `start` and `σ`, before any other request was made. -/
def RestedIn (start : DiscoveryActor) (now : Instant) (addr : SocketAddr) (u : Instant)
    (σ : DiscoveryActor) : Prop :=
  ∃ ρ, Ran true start now ρ ∧ ρ.attempts = start.attempts ∧ ρ.Barred addr u ∧ Ran true ρ now σ

lemma onTick_spec (h : Ran true σ now σ) (iteration : Iteration SocketAddr) (seeds : List NodeTuple) :
    Safe (fun _ => False) (σ.onTick iteration seeds now) fun σ' =>
      Ran true σ now σ' ∧ ∀ addr sample, σ.pending.get addr = some sample → sample.deadline ≤ now →
        RestedIn σ now addr (now + σ.failureDelay) σ' := by
  unfold onTick
  have hthaws : Ran false σ now (Loop.iterate (DiscoveryActor.thawStep now) maxThawsPerTick σ) :=
    Loop.iterate_inv (fun τ hτ => hτ.thawStep) maxThawsPerTick h.refl
  obtain ⟨hpending, hsame⟩ := calm hthaws.acts
  refine (expirePending_spec hthaws.eager iteration).bind fun σ₁ h₁ => ?_
  obtain ⟨hran₁, hattempts, hbarred⟩ := h₁
  refine (Loop.safe_run (fun τ hτ => dispatchStep_spec hτ) _ (hran₁.refl.refreshSeeds seeds)).mono
    fun σ' hσ' => ⟨hran₁.trans hσ', fun addr sample hsample hdeadline => ?_⟩
  refine ⟨σ₁, hran₁, hattempts.trans hsame, ?_, hσ'⟩
  have := hbarred addr sample (by rw [hpending, hsample]) hdeadline
  rwa [failureDelay, config_eq hthaws.acts] at this

/-! ### Hashes -/

lemma emitHash_side (s : HashSide) (hash : NodeId) (node : NodeTuple) (source : HashSource)
    (now : Instant) (answer : Answer) :
    ∃ s' taken, ∀ σ : DiscoveryActor, σ.side = s →
      σ.emitHash hash node source now answer = (σ.withSide s', taken) := by
  cases hcontains : s.dedup.contains hash node.addr source now with
  | mk dedup known =>
    cases known with
    | true =>
      refine ⟨{ s with dedup }, false, fun σ hσ => ?_⟩
      subst hσ
      unfold emitHash
      rw [show σ.dedup.contains hash node.addr source now = (dedup, true) from hcontains]
      rfl
    | false =>
      cases htake : (if source = .getPeers then s.getPeersBudget else s.sampleHashBudget).tryTakeOne
          now with
      | mk budget taken =>
        refine ⟨
          { dedup := if taken && answer.accepted && answer.room then
              dedup.insert hash node.addr source now else dedup
            getPeersBudget := if source = .getPeers then budget else s.getPeersBudget
            sampleHashBudget := if source = .getPeers then s.sampleHashBudget else budget
            emitted := if taken && answer.accepted && answer.room then
              ⟨hexEncode hash.toList, none, some node, source, now⟩ :: s.emitted else s.emitted },
          taken && answer.accepted && answer.room, fun σ hσ => ?_⟩
        subst hσ
        unfold emitHash
        rw [show σ.dedup.contains hash node.addr source now = (dedup, false) from hcontains]
        dsimp only
        rw [show (if source = .getPeers then σ.getPeersBudget else σ.sampleHashBudget).tryTakeOne
          now = (budget, taken) from htake]
        unfold withSide
        split_ifs <;> simp_all [side]

lemma Ran.emitHash (h : Ran busy start now σ) (hash : NodeId) (node : NodeTuple) (source : HashSource)
    (answer : Answer) : Ran busy start now (σ.emitHash hash node source σ.clock answer).1 := by
  obtain ⟨s, taken, hside⟩ := emitHash_side σ.side hash node source σ.clock answer
  have hemit := congrArg Prod.fst (hside σ rfl)
  rw [hemit]
  exact h.act (.emit hash node source answer s hemit)

lemma emitSamples_side (node : NodeTuple) (now : Instant) (answers : ℕ → Answer) (hashes : List NodeId)
    (index : ℕ) (s : HashSide) :
    ∃ s' novel, ∀ σ : DiscoveryActor, σ.side = s →
      emitSamples node now answers hashes index σ = (σ.withSide s', novel) ∧
        (σ.clock = now → Acts false σ (σ.withSide s')) := by
  induction hashes generalizing index s with
  | nil =>
    refine ⟨s, 0, fun σ hσ => ?_⟩
    subst hσ
    exact ⟨rfl, fun _ => .refl⟩
  | cons hash rest ih =>
    obtain ⟨s₁, taken, hemit⟩ := emitHash_side
      { s with dedup := (s.dedup.contains hash node.addr .sample now).1 } hash node .sample now
      (answers index)
    obtain ⟨s₂, novel, hrest⟩ := ih (index + 1) s₁
    refine ⟨s₂, if (s.dedup.contains hash node.addr .sample now).2 then novel else novel + 1, fun σ hσ => ?_⟩
    subst hσ
    have hhash := hemit { σ with dedup := (σ.dedup.contains hash node.addr .sample now).1 } rfl
    obtain ⟨htail, hacts⟩ := hrest (σ.withSide s₁) rfl
    constructor
    · unfold emitSamples
      dsimp only
      rw [hhash]
      exact congrArg (fun r : DiscoveryActor × ℕ =>
        (r.1, if (σ.dedup.contains hash node.addr .sample now).2 = true then r.2 else r.2 + 1)) htail
    · rintro rfl
      exact .head (.recall hash node.addr .sample)
        (.head (.emit hash node .sample (answers index) s₁ (congrArg Prod.fst hhash)) (hacts rfl))

/-! ### Responses -/

def wellFormed (id : Option (List UInt8)) (samples : List UInt8) (interval num : ℕ) : Bool :=
  (id.bind nodeIdOf).isSome && decide (interval ≤ maxRemoteInterval) && decide (samples.length % 20 = 0) &&
    decide (samples.length / 20 ≤ num)

def restAfter (config : DiscoveryConfig) : Option DhtResponse → Duration
  | none => secs config.sampleFailureBackoffSecs
  | some response =>
    match response.samples, response.interval, response.num with
    | some samples, some interval, some num =>
      if wellFormed response.id samples interval num then
        secs (max (max interval config.sampleMinIntervalSecs) 1)
      else secs (max config.sampleFailureBackoffSecs (min interval maxRemoteInterval))
    | _, _, _ => secs config.sampleFailureBackoffSecs

lemma secs_le_failureDelay (σ : DiscoveryActor) : secs σ.config.sampleFailureBackoffSecs ≤ σ.failureDelay :=
  Nat.mul_le_mul_right _ (le_max_left _ _)

lemma le_waitSecs (σ : DiscoveryActor) (interval novelHashes samples : ℕ) :
    max (max interval σ.config.sampleMinIntervalSecs) 1 ≤ σ.waitSecs interval novelHashes samples := by
  unfold waitSecs
  split_ifs
  · exact le_max_left _ _
  · exact le_rfl

/-- The request to `addr` was settled between `start` and `σ`, with a rest until `u` or later, and no other. -/
def Settled (start : DiscoveryActor) (now : Instant) (addr : SocketAddr) (u : Instant) (σ : DiscoveryActor) : Prop :=
  ∃ ρ node sample until', Ran false start now ρ ∧ ρ.pending.get addr = some sample ∧ node.addr = addr ∧
    u ≤ until' ∧ Ran false ((ρ.forget addr).rest node addr until') now σ

lemma Settled.mono {u' : Instant} (h : Settled start now addr u σ) (hle : u' ≤ u) :
    Settled start now addr u' σ := by
  obtain ⟨ρ, node, sample, until', hρ, hpending, hnode, huntil, hσ⟩ := h
  exact ⟨ρ, node, sample, until', hρ, hpending, hnode, hle.trans huntil, hσ⟩

lemma Settled.restedIn (h : Settled start now addr u σ) : RestedIn start now addr u σ := by
  obtain ⟨ρ, node, sample, until', hρ, hpending, hnode, huntil, hσ⟩ := h
  exact ⟨_, hρ.eager.act (.settle addr node until' hpending hnode), (calm hρ.acts).2,
    (barred_rest _ _ _ _).mono huntil, hσ.eager⟩

lemma Settled.requests (h : Settled start now addr u σ) :
    σ.pending = start.pending.erase addr ∧ σ.attempts = start.attempts := by
  obtain ⟨ρ, node, sample, until', hρ, -, -, -, hσ⟩ := h
  obtain ⟨hpending, hattempts⟩ := calm hσ.acts
  obtain ⟨hbefore, hsame⟩ := calm hρ.acts
  exact ⟨hpending.trans (congrArg (FiniteMap.erase · addr) hbefore), hattempts.trans hsame⟩

lemma endRequest_spec (h : Ran true σ now σ) (hpending : σ.pending.get addr = some sample) (until' : Instant) :
    Safe (fun _ => False) ((σ.forget addr).enterCooldown addr until') (Settled σ now addr until') := by
  obtain ⟨node, hnode, hend⟩ := h.sound.endRequest hpending until'
  have hsettled := h.act (.settle addr node until' hpending hnode)
  rw [hend]
  exact ⟨σ, node, sample, until', h.refl, hpending, hnode, le_rfl, hsettled.refl⟩

lemma acceptSamples_spec (h : Ran true σ now σ) (hnow : σ.clock = now) (hpending : σ.pending.get addr = some sample)
    (id : NodeId) (response : DhtResponse) (samples : List UInt8) (interval : ℕ) (answers : ℕ → Answer) :
    Safe (fun _ => False)
      ((σ.forget addr).acceptSamples addr id response samples interval answers now)
      (Settled σ now addr (now + secs (max (max interval σ.config.sampleMinIntervalSecs) 1))) := by
  obtain ⟨entry, hentry, hdue⟩ := h.sound.entry_of_pending hpending
  obtain ⟨s, novel, hsamples⟩ := emitSamples_side ⟨id, addr⟩ now answers (sampleHashes samples) 0 σ.side
  -- the hashes are emitted while the request counts as pending no more; the order makes no difference
  have hemitted : Ran false σ now (σ.withSide s) := by
    have hacts := (hsamples σ rfl).2 hnow
    exact ⟨sound hacts h.sound, hacts, h.clock⟩
  have hsettled := hemitted.eager.act (.settle addr ⟨id, addr⟩
    (now + secs (σ.waitSecs interval novel samples.length)) hpending rfl)
  have hrest : Safe (fun _ => False)
      (({ σ.forget addr with
        nodes := σ.nodes.insert addr { entry with node := ⟨id, addr⟩ } }.withSide s).enterCooldown addr
          (now + secs (σ.waitSecs interval novel samples.length)))
      (· = ((σ.withSide s).forget addr).rest ⟨id, addr⟩ addr
        (now + secs (σ.waitSecs interval novel samples.length))) := by
    rw [enterCooldown_eq { entry with node := ⟨id, addr⟩ } _ (by exact get_insert_self _ _ _)
      (by exact hdue) (by exact h.sound.reserved hpending)]
    unfold rest withSide forget
    dsimp only [Safe]
    rw [erase_insert_self]
  unfold acceptSamples
  dsimp only
  rw [show (σ.forget addr).nodes.get addr = some entry from hentry, unwrap_some, ok_bind,
    (hsamples _ (by rfl)).1]
  refine hrest.bind fun τ hτ => ?_
  subst hτ
  refine Settled.mono ⟨_, _, _, _, hemitted, hpending, rfl, le_rfl, hsettled.refl.admitAll _⟩ ?_
  exact Nat.add_le_add_left (Nat.mul_le_mul_right _ (le_waitSecs σ interval novel samples.length)) _

lemma checkSamples_spec (h : Ran true σ now σ) (hnow : σ.clock = now) (hpending : σ.pending.get addr = some sample)
    (response : DhtResponse) (samples : List UInt8) (interval num : ℕ) (answers : ℕ → Answer) :
    Safe (fun _ => False)
      ((σ.forget addr).checkSamples addr response samples interval num answers now)
      (Settled σ now addr (now + if wellFormed response.id samples interval num then
        secs (max (max interval σ.config.sampleMinIntervalSecs) 1)
        else secs (max σ.config.sampleFailureBackoffSecs (min interval maxRemoteInterval)))) := by
  have hmalformed : secs (max σ.config.sampleFailureBackoffSecs (min interval maxRemoteInterval)) ≤
      max σ.failureDelay (secs (min interval maxRemoteInterval)) := by
    rw [secs, max_mul_of_nonneg _ _ (Nat.zero_le _)]
    exact max_le_max σ.secs_le_failureDelay le_rfl
  have hbad := (endRequest_spec h hpending
    (now + max σ.failureDelay (secs (min interval maxRemoteInterval)))).mono
      fun σ' hσ' => hσ'.mono (Nat.add_le_add_left hmalformed now)
  unfold checkSamples
  cases hid : response.id.bind nodeIdOf with
  | none =>
    have hformed : wellFormed response.id samples interval num = false := by rw [wellFormed, hid]; rfl
    rw [hformed]
    exact hbad
  | some id =>
    have hformed : wellFormed response.id samples interval num = true ↔
        ¬(interval > maxRemoteInterval ∨ samples.length % 20 ≠ 0 ∨ samples.length / 20 > num) := by
      simp [wellFormed, hid, and_assoc]
    dsimp only
    by_cases hshape : interval > maxRemoteInterval ∨ samples.length % 20 ≠ 0 ∨ samples.length / 20 > num
    · rw [if_pos hshape, if_neg (fun hwell => hformed.mp hwell hshape)]
      exact hbad
    · rw [if_neg hshape, if_pos (hformed.mpr hshape)]
      exact acceptSamples_spec h hnow hpending id response samples interval answers

lemma handleResponse_spec (h : Ran true σ now σ) (hnow : σ.clock = now) (addr : SocketAddr)
    (tid : TransactionId) (response : Option DhtResponse) (answers : ℕ → Answer) :
    Safe (fun _ => False) (σ.handleResponse addr tid response answers now) fun σ' =>
      (σ.matched addr tid now = true → Settled σ now addr (now + restAfter σ.config response) σ') ∧
        (σ.matched addr tid now = false → σ' = σ) := by
  unfold handleResponse
  split_ifs with hmatched
  · obtain ⟨sample, hpending, -⟩ := (Option.any_eq_true _ _).mp hmatched
    have hfailed := (endRequest_spec h hpending (now + σ.failureDelay)).mono
      fun σ' hσ' => hσ'.mono (Nat.add_le_add_left σ.secs_le_failureDelay now)
    suffices hsettled : Safe (fun _ => False) _ (Settled σ now addr (now + restAfter σ.config response)) from
      hsettled.mono fun σ' hσ' => ⟨fun _ => hσ', fun hm => absurd (hmatched.symm.trans hm) nofun⟩
    unfold restAfter
    cases response with
    | none => exact hfailed
    | some response =>
      dsimp only
      cases response.samples with
      | none => exact hfailed
      | some samples =>
        cases response.interval with
        | none => exact hfailed
        | some interval =>
          cases response.num with
          | none => exact hfailed
          | some num => exact checkSamples_spec h hnow hpending response samples interval num answers
  · exact ⟨fun hm => absurd hm hmatched, fun _ => rfl⟩

/-! ### Runs -/

lemma Sound.ran_look (h : σ.Sound) (future : ℕ → Look) :
    Ran true { σ with future }.look (σ.clock + (future 0).elapsed) { σ with future }.look :=
  ⟨{ h with }, .refl, le_rfl⟩

lemma handle_spec (h : σ.Sound) (future : ℕ → Look) (event : Event) :
    Safe (fun _ => False) (σ.handle future event)
      (Ran true { σ with future }.look (σ.clock + (future 0).elapsed)) := by
  have hstart := h.ran_look future
  unfold handle dispatchEvent
  cases event with
  | tick iteration seeds => exact (onTick_spec hstart iteration seeds).mono fun _ hσ' => hσ'.1
  | response addr tid response answers =>
    refine (handleResponse_spec hstart rfl addr tid response answers).mono fun σ' hσ' => ?_
    cases hmatched : { σ with future }.look.matched addr tid (σ.clock + (future 0).elapsed) with
    | true =>
      obtain ⟨ρ, hρ, -, -, hrest⟩ := (hσ'.1 hmatched).restedIn
      exact hρ.trans hrest
    | false => exact hσ'.2 hmatched ▸ hstart
  | input hash node answer => exact hstart.emitHash hash node .getPeers answer

lemma acts_look (σ : DiscoveryActor) (future : ℕ → Look) : Acts true σ { σ with future }.look :=
  .single (.pass (σ.clock + (future 0).elapsed) (fun n => future (n + 1)) (Nat.le_add_right _ _))

lemma Step.acts (hstep : Step σ σ') (h : σ.Sound) : Acts true σ σ' := by
  obtain ⟨future, event, hhandle⟩ := hstep
  exact (acts_look σ future).trans ((handle_spec h future event).of_ok hhandle).acts

lemma Reachable.sound (hσ : Reachable options σ) : σ.Sound := by
  induction hσ with
  | start netmode v4 v6 now => exact sound_new options netmode v4 v6 now
  | step _ hstep ih => exact Acts.sound (hstep.acts ih) ih

lemma Reachable.config_eq (hσ : Reachable options σ) : σ.config = .fromOptions options := by
  induction hσ with
  | start => rfl
  | step hσ hstep ih => exact (Acts.config_eq (hstep.acts hσ.sound)).trans ih

def runEvents (σ : DiscoveryActor) : List ((ℕ → Look) × Event) → Except Panic DiscoveryActor
  | [] => .ok σ
  | (future, event) :: rest => do
      let σ ← σ.handle future event
      σ.runEvents rest

lemma Reachable.run (hσ : Reachable options σ) {events : List ((ℕ → Look) × Event)}
    (hrun : σ.runEvents events = .ok σ') : Reachable options σ' := by
  induction events generalizing σ with
  | nil =>
    cases hrun
    exact hσ
  | cons event rest ih =>
    obtain ⟨τ, hhandle, hrest⟩ := bind_eq_ok.mp hrun
    exact ih (hσ.step ⟨_, _, hhandle⟩) hrest

end DhtCrawler.Discovery.DiscoveryActor
