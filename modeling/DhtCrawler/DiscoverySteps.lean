import DhtCrawler.DiscoveryModel

/-! What the discovery actor can do, as a relation on its state, and the invariant `Sound` of its five collections:
a node waits, has a request pending with its place in the history reserved, or rests in the history. -/

namespace DhtCrawler.Discovery.DiscoveryActor

open FiniteMap Option

variable {sample : PendingSample}

def pass (σ : DiscoveryActor) (clock : Instant) (future : ℕ → Look) : DiscoveryActor :=
  { σ with clock, future }

def attempted (σ : DiscoveryActor) (addr : SocketAddr) (now clock : Instant) (future : ℕ → Look)
    (sent : Bool) : DiscoveryActor :=
  { σ with
    nextTid := max (wrappingSucc σ.nextTid) 1
    clock
    future
    attempts := ⟨addr, taggedTid sampleTidTag σ.nextTid, now, σ.clock, clock, sent⟩ :: σ.attempts }

lemma send_eq (σ : DiscoveryActor) (addr : SocketAddr) :
    ∃ clock future sent, σ.clock ≤ clock ∧ σ.send addr = (σ.pass clock future, sent) := by
  unfold send
  generalize (if addr.isIpv4 = true then σ.v4 else σ.v6) = socket
  cases socket with
  | true =>
    exact ⟨σ.clock + (σ.future 0).elapsed, fun n => σ.future (n + 1), (σ.future 0).sent,
      Nat.le_add_right _ _, rfl⟩
  | false => exact ⟨σ.clock, σ.future, false, le_rfl, rfl⟩

lemma attempt_eq (σ : DiscoveryActor) (addr : SocketAddr) (now : Instant) :
    ∃ clock future sent, σ.clock ≤ clock ∧
      σ.attempt addr now = (σ.attempted addr now clock future sent, sent) := by
  obtain ⟨clock, future, sent, hclock, hsend⟩ :=
    send_eq { σ with nextTid := max (wrappingSucc σ.nextTid) 1 } addr
  unfold attempt
  rw [hsend]
  exact ⟨clock, future, sent, hclock, rfl⟩

def rest (σ : DiscoveryActor) (node : NodeTuple) (addr : SocketAddr) (until' : Instant) :
    DiscoveryActor :=
  { σ with
    nodes := σ.nodes.erase addr
    cooldowns := σ.cooldowns.insert addr (node, until')
    cooldownExpiry := insert (toLex (until', addr)) σ.cooldownExpiry }

/-- What the emission of a hash reads and changes. -/
structure HashSide where
  dedup : HashDedup
  getPeersBudget : RateBucket
  sampleHashBudget : RateBucket
  emitted : List HashDiscovered

def side (σ : DiscoveryActor) : HashSide := ⟨σ.dedup, σ.getPeersBudget, σ.sampleHashBudget, σ.emitted⟩

def withSide (σ : DiscoveryActor) (s : HashSide) : DiscoveryActor :=
  { σ with
    dedup := s.dedup
    getPeersBudget := s.getPeersBudget
    sampleHashBudget := s.sampleHashBudget
    emitted := s.emitted }

/-- One thing that a handler does. Those of every kind leave the requests alone; only a `busy` handler sends,
fails to send or settles one. -/
inductive Act : Bool → DiscoveryActor → DiscoveryActor → Prop where
  | pass {busy σ} (clock : Instant) (future : ℕ → Look) (hclock : σ.clock ≤ clock) :
      Act busy σ (σ.pass clock future)
  | refresh {busy σ} (nextSeedRefresh : Instant) : Act busy σ { σ with nextSeedRefresh }
  | recall {busy σ} (hash : NodeId) (addr : SocketAddr) (source : HashSource) :
      Act busy σ { σ with dedup := (σ.dedup.contains hash addr source σ.clock).1 }
  | emit {busy σ} (hash : NodeId) (node : NodeTuple) (source : HashSource) (answer : Answer) (s : HashSide)
      (hemit : (σ.emitHash hash node source σ.clock answer).1 = σ.withSide s) : Act busy σ (σ.withSide s)
  | thaw {busy σ} (addr : SocketAddr) {node until'}
      (hcooldown : σ.cooldowns.get addr = some (node, until')) (hover : until' ≤ σ.clock) :
      Act busy σ
        { σ with
          cooldowns := σ.cooldowns.erase addr
          cooldownExpiry := σ.cooldownExpiry.erase (toLex (until', addr)) }
  | rename {busy σ} (node : NodeTuple) {entry}
      (hentry : σ.nodes.get node.addr = some entry) :
      Act busy σ { σ with nodes := σ.nodes.insert node.addr { entry with node } }
  | evict {busy σ} (key : DueKey) (hkey : key ∈ σ.due) :
      Act busy σ { σ with due := σ.due.erase key, nodes := σ.nodes.erase key.addr }
  | enroll {busy σ} (node : NodeTuple) (key : DueKey) (hkey : key.addr = node.addr)
      (hvalid : isValidNodeAddr node.addr = true)
      (hentry : σ.nodes.get node.addr = none) (hcooldown : σ.cooldowns.get node.addr = none)
      (hroom : σ.nodes.len < max σ.config.sampleMaxNodes 1) :
      Act busy σ
        { σ with
          sequence := wrappingSucc σ.sequence
          nodes := σ.nodes.insert node.addr ⟨node, some key⟩
          due := insert key σ.due }
  | charge {σ} (now : Instant) (queryBudget : RateBucket) (taken : Bool)
      (htake : σ.queryBudget.tryTakeOne now = (queryBudget, taken)) : Act true σ { σ with queryBudget }
  | sent {σ} (key : DueKey) {entry} (now clock : Instant)
      (future : ℕ → Look) (deadline : Instant) (hkey : key ∈ σ.due) (hentry : σ.nodes.get key.addr = some entry)
      (hflight : σ.pending.len < σ.config.sampleMaxInFlight)
      (hslot : σ.cooldowns.len + σ.pending.len < max σ.config.sampleCooldownCapacity 1)
      (hclock : σ.clock ≤ clock) (hdeadline : clock < deadline) :
      Act true σ
        { σ.attempted key.addr now clock future true with
          due := σ.due.erase key
          nodes := σ.nodes.insert key.addr { entry with due := none }
          pending := σ.pending.insert key.addr ⟨taggedTid sampleTidTag σ.nextTid, deadline⟩
          inFlight := key.addr :: σ.inFlight }
  | unsent {σ} (key : DueKey) {entry} (now clock : Instant)
      (future : ℕ → Look) (hkey : key ∈ σ.due) (hentry : σ.nodes.get key.addr = some entry)
      (hslot : σ.cooldowns.len + σ.pending.len < max σ.config.sampleCooldownCapacity 1)
      (hclock : σ.clock ≤ clock) :
      Act true σ
        ({ σ.attempted key.addr now clock future false with due := σ.due.erase key }.rest entry.node
          key.addr (now + σ.failureDelay))
  | settle {σ} (addr : SocketAddr) {sample} (node : NodeTuple)
      (until' : Instant) (hpending : σ.pending.get addr = some sample) (hnode : node.addr = addr) :
      Act true σ ((σ.forget addr).rest node addr until')

abbrev Acts (busy : Bool) : DiscoveryActor → DiscoveryActor → Prop := Relation.ReflTransGen (Act busy)

/-! ### What every act keeps -/

variable {busy : Bool} {σ σ' : DiscoveryActor}

structure Sound (σ : DiscoveryActor) : Prop where
  keyed : ∀ addr entry, σ.nodes.get addr = some entry →
    entry.node.addr = addr ∧ ∀ key, entry.due = some key → key.addr = addr
  due : ∀ key, key ∈ σ.due ↔ (σ.nodes.get key.addr).bind SampleNode.due = some key
  idle : ∀ addr, (σ.pending.get addr).isSome = (σ.nodes.get addr).any fun entry => entry.due.isNone
  inFlight : ∀ addr, addr ∈ σ.inFlight ↔ (σ.pending.get addr).isSome = true
  inFlight_nodup : σ.inFlight.Nodup
  disjoint : ∀ addr, σ.nodes.get addr = none ∨ σ.cooldowns.get addr = none
  named : ∀ addr node until', σ.cooldowns.get addr = some (node, until') → node.addr = addr
  expiry : ∀ record, record ∈ σ.cooldownExpiry ↔
    (σ.cooldowns.get (ofLex record).2).map Prod.snd = some (ofLex record).1
  nodes_len : σ.nodes.len ≤ max σ.config.sampleMaxNodes 1
  pending_len : σ.pending.len ≤ σ.config.sampleMaxInFlight
  history : σ.cooldowns.len + σ.pending.len ≤ max σ.config.sampleCooldownCapacity 1
  capacity : max σ.config.sampleCooldownCapacity 1 ≤ usizeMax

lemma sound_new (options : DiscoveryOptions) (netmode : NetMode) (v4 v6 : Bool) (now : Instant) :
    (new options netmode v4 v6 now).Sound where
  keyed := fun _ _ h => (nomatch h)
  due := fun key => ⟨fun h => absurd h (Finset.notMem_empty key), fun h => (nomatch h)⟩
  idle := fun _ => rfl
  inFlight := fun _ => ⟨fun h => (nomatch h), fun h => (nomatch h)⟩
  inFlight_nodup := .nil
  disjoint := fun _ => Or.inl rfl
  named := fun _ _ _ h => (nomatch h)
  expiry := fun r => ⟨fun h => absurd h (Finset.notMem_empty r), fun h => (nomatch h)⟩
  nodes_len := Nat.zero_le _
  pending_len := Nat.zero_le _
  history := Nat.zero_le _
  capacity := max_le (Nat.le_sub_one_of_lt options.sampleCooldownCapacity.toNat_lt) (by decide)

variable {key : DueKey} {addr : SocketAddr} {entry : SampleNode} {node : NodeTuple} {u : Instant}

section

variable (h : σ.Sound)
include h

lemma Sound.entry_of_due (hkey : key ∈ σ.due) :
    ∃ entry, σ.nodes.get key.addr = some entry ∧ entry.due = some key :=
  bind_eq_some_iff.mp ((h.due key).mp hkey)

lemma Sound.entry_of_pending (hpending : σ.pending.get addr = some sample) :
    ∃ entry, σ.nodes.get addr = some entry ∧ entry.due = none := by
  have hidle := h.idle addr
  rw [hpending] at hidle
  obtain ⟨entry, hentry, hnone⟩ := (any_eq_true _ _).mp hidle.symm
  exact ⟨entry, hentry, isNone_iff_eq_none.mp hnone⟩

lemma Sound.cooldown_none (hentry : σ.nodes.get addr = some entry) : σ.cooldowns.get addr = none := by
  rcases h.disjoint addr with hnone | hnone
  · rw [hentry] at hnone
    cases hnone
  · exact hnone

lemma Sound.pending_none (hentry : σ.nodes.get addr = some entry) (hdue : entry.due ≠ none) :
    σ.pending.get addr = none := by
  cases hpending : σ.pending.get addr with
  | none => rfl
  | some sample =>
    obtain ⟨entry', hentry', hnone⟩ := h.entry_of_pending hpending
    rw [hentry] at hentry'
    cases hentry'
    exact absurd hnone hdue

lemma Sound.thaw {until' : Instant} (hcooldown : σ.cooldowns.get addr = some (node, until')) :
    Sound
      { σ with
        cooldowns := σ.cooldowns.erase addr
        cooldownExpiry := σ.cooldownExpiry.erase (toLex (until', addr)) } :=
  { h with
    disjoint := by have := h.disjoint; grind
    named := fun a n u hget => h.named a n u (get_of_get_erase hget).2
    expiry := fun record => by
      rw [Finset.mem_erase, h.expiry record, get_erase]
      by_cases haddr : (ofLex record).2 = addr
      · rw [if_pos haddr, haddr, hcooldown]
        simp only [map_some, some_inj, map_none, reduceCtorEq, iff_false, not_and]
        intro hne huntil
        exact hne (ofLex_inj.mp (Prod.ext huntil.symm haddr))
      · rw [if_neg haddr, and_iff_right_iff_imp]
        rintro - rfl
        exact haddr rfl
    history := (Nat.add_le_add_right (len_erase_le _ _) _).trans h.history }

lemma Sound.rename (node : NodeTuple) (hentry : σ.nodes.get node.addr = some entry) :
    Sound { σ with nodes := σ.nodes.insert node.addr { entry with node } } :=
  { h with
    keyed := by have := h.keyed; grind
    due := by have := h.due; grind
    idle := by have := h.idle; grind
    disjoint := by have := h.disjoint; grind
    nodes_len := by rw [len_insert_old hentry]; exact h.nodes_len }

lemma Sound.evict (hkey : key ∈ σ.due) :
    Sound { σ with due := σ.due.erase key, nodes := σ.nodes.erase key.addr } :=
  { h with
    keyed := by have := h.keyed; grind
    due := by have := h.due; have := h.keyed; grind
    idle := by have := h.idle; obtain ⟨entry, hentry, hdue⟩ := h.entry_of_due hkey; grind
    disjoint := by have := h.disjoint; grind
    nodes_len := (len_erase_le _ _).trans h.nodes_len }

lemma Sound.enroll (hkey : key.addr = node.addr) (hentry : σ.nodes.get node.addr = none)
    (hcooldown : σ.cooldowns.get node.addr = none) (hroom : σ.nodes.len < max σ.config.sampleMaxNodes 1) :
    Sound
      { σ with
        sequence := wrappingSucc σ.sequence
        nodes := σ.nodes.insert node.addr ⟨node, some key⟩
        due := insert key σ.due } :=
  { h with
    keyed := by have := h.keyed; grind
    due := by have := h.due; have := h.keyed; grind
    idle := by have := h.idle; grind
    disjoint := by have := h.disjoint; grind
    nodes_len := by rw [len_insert_new hentry]; exact hroom }

lemma Sound.expiry_insert (hnone : σ.cooldowns.get addr = none) (node : NodeTuple) (until' : Instant)
    (record : Instant ×ₗ SocketAddr) :
    record ∈ insert (toLex (until', addr)) σ.cooldownExpiry ↔
      ((σ.cooldowns.insert addr (node, until')).get (ofLex record).2).map Prod.snd = some (ofLex record).1 := by
  rw [Finset.mem_insert, h.expiry record, get_insert]
  by_cases haddr : (ofLex record).2 = addr
  · rw [if_pos haddr, haddr, hnone]
    simp only [map_none, reduceCtorEq, or_false, map_some, some_inj]
    constructor
    · intro heq
      rw [heq]
      rfl
    · intro huntil
      exact ofLex_inj.mp (Prod.ext huntil.symm haddr)
  · rw [if_neg haddr, or_iff_right]
    intro heq
    rw [heq] at haddr
    exact haddr rfl

lemma Sound.named_insert (hnode : node.addr = addr) (until' : Instant) (a : SocketAddr) (n : NodeTuple)
    (u : Instant) (hget : (σ.cooldowns.insert addr (node, until')).get a = some (n, u)) : n.addr = a := by
  rw [get_insert] at hget
  split_ifs at hget with ha
  · cases hget
    rw [ha, hnode]
  · exact h.named a n u hget

lemma Sound.sent (now clock : Instant) (future : ℕ → Look) (deadline : Instant) (hkey : key ∈ σ.due)
    (hentry : σ.nodes.get key.addr = some entry) (hflight : σ.pending.len < σ.config.sampleMaxInFlight)
    (hslot : σ.cooldowns.len + σ.pending.len < max σ.config.sampleCooldownCapacity 1) :
    Sound
      { σ.attempted key.addr now clock future true with
        due := σ.due.erase key
        nodes := σ.nodes.insert key.addr { entry with due := none }
        pending := σ.pending.insert key.addr ⟨taggedTid sampleTidTag σ.nextTid, deadline⟩
        inFlight := key.addr :: σ.inFlight } := by
  obtain ⟨entry', hentry', hdue⟩ := h.entry_of_due hkey
  have hnone := h.pending_none hentry' (by rw [hdue]; exact some_ne_none key)
  have hlen := len_insert_le σ.pending key.addr ⟨taggedTid sampleTidTag σ.nextTid, deadline⟩
  exact
    { h with
      keyed := by have := h.keyed; grind
      due := by have := h.due; have := h.keyed; grind
      idle := by have := h.idle; grind
      inFlight := by have := h.inFlight; grind [attempted]
      inFlight_nodup := by
        refine List.nodup_cons.mpr ⟨fun hmem => ?_, h.inFlight_nodup⟩
        have hsome := (h.inFlight key.addr).mp hmem
        rw [hnone] at hsome
        cases hsome
      disjoint := by have := h.disjoint; grind [attempted]
      nodes_len := by rw [len_insert_old hentry]; exact h.nodes_len
      pending_len := hlen.trans hflight
      history := (Nat.add_le_add_left hlen _).trans hslot }

lemma Sound.unsent (now clock : Instant) (future : ℕ → Look) (until' : Instant) (hkey : key ∈ σ.due)
    (hentry : σ.nodes.get key.addr = some entry)
    (hslot : σ.cooldowns.len + σ.pending.len < max σ.config.sampleCooldownCapacity 1) :
    Sound ({ σ.attempted key.addr now clock future false with due := σ.due.erase key }.rest entry.node
      key.addr until') := by
  have hnone := h.cooldown_none hentry
  obtain ⟨entry', hentry', hdue⟩ := h.entry_of_due hkey
  have hlen := len_insert_new hnone (entry.node, until')
  exact
    { h with
      keyed := fun a e he => h.keyed a e (get_of_get_erase he).2
      due := by
        have := h.due
        have := h.keyed
        unfold rest
        grind [attempted]
      idle := by
        have := h.idle
        unfold rest
        grind [attempted]
      disjoint := by
        have := h.disjoint
        unfold rest
        grind [attempted]
      named := h.named_insert (h.keyed _ _ hentry).1 until'
      expiry := h.expiry_insert hnone entry.node until'
      nodes_len := (len_erase_le _ _).trans h.nodes_len
      history := by
        unfold rest
        dsimp only [attempted]
        rw [hlen]
        omega }

lemma Sound.settle (until' : Instant) (hpending : σ.pending.get addr = some sample)
    (hnode : node.addr = addr) : Sound ((σ.forget addr).rest node addr until') := by
  obtain ⟨entry, hentry, hdue⟩ := h.entry_of_pending hpending
  have hnone := h.cooldown_none hentry
  have hlen := len_insert_new hnone (node, until')
  have hless := len_erase_old hpending
  have hhistory := h.history
  exact
    { h with
      keyed := fun a e he => h.keyed a e (get_of_get_erase he).2
      due := by
        have := h.due
        have := h.keyed
        unfold rest forget
        grind
      idle := by
        have := h.idle
        unfold rest forget
        grind
      inFlight := fun other => by
        unfold rest forget
        rw [h.inFlight_nodup.mem_erase_iff, h.inFlight other, get_erase]
        split_ifs with hother
        · simp [hother]
        · simp [hother]
      inFlight_nodup := h.inFlight_nodup.erase _
      disjoint := by
        have := h.disjoint
        unfold rest forget
        grind
      named := h.named_insert hnode until'
      expiry := h.expiry_insert hnone node until'
      nodes_len := (len_erase_le _ _).trans h.nodes_len
      pending_len := (len_erase_le _ _).trans h.pending_len
      history := by
        unfold rest forget
        dsimp only
        rw [hlen]
        omega }

end

lemma Act.sound (hact : Act busy σ σ') (h : σ.Sound) : σ'.Sound := by
  cases hact with
  | thaw addr hcooldown => exact h.thaw hcooldown
  | rename node hentry => exact h.rename node hentry
  | evict key hkey => exact h.evict hkey
  | enroll node key hkey hvalid hentry hcooldown hroom => exact h.enroll hkey hentry hcooldown hroom
  | sent key now clock future deadline hkey hentry hflight hslot =>
    exact h.sent now clock future deadline hkey hentry hflight hslot
  | unsent key now clock future hkey hentry hslot =>
    exact h.unsent now clock future (now + σ.failureDelay) hkey hentry hslot
  | settle addr node until' hpending hnode => exact h.settle until' hpending hnode
  | _ => exact { h with }

lemma Acts.sound (hacts : Acts busy σ σ') (h : σ.Sound) : σ'.Sound := by
  induction hacts with
  | refl => exact h
  | tail _ hact ih => exact hact.sound ih

/-! ### Rests -/

def Barred (addr : SocketAddr) (u : Instant) (σ : DiscoveryActor) : Prop :=
  u ≤ σ.clock ∨ ∃ node until', σ.cooldowns.get addr = some (node, until') ∧ u ≤ until'

lemma barred_rest (σ : DiscoveryActor) (node : NodeTuple) (addr : SocketAddr) (until' : Instant) :
    (σ.rest node addr until').Barred addr until' :=
  .inr ⟨node, until', get_insert_self _ _ _, le_rfl⟩

lemma Barred.mono {u' : Instant} (h : σ.Barred addr u) (hle : u' ≤ u) : σ.Barred addr u' := by
  rcases h with hover | ⟨node, until', hrest, huntil⟩
  · exact .inl (hle.trans hover)
  · exact .inr ⟨node, until', hrest, hle.trans huntil⟩

lemma Barred.over (h : σ.Barred addr u) (hnone : σ.cooldowns.get addr = none) : u ≤ σ.clock := by
  rcases h with hover | ⟨node, until', hrest, -⟩
  · exact hover
  · rw [hnone] at hrest
    cases hrest

lemma Barred.insert {other : SocketAddr} (h : σ.Barred addr u) (hnone : σ.cooldowns.get other = none)
    (rested : NodeTuple × Instant) (hclock : σ.clock ≤ σ'.clock)
    (hcooldowns : σ'.cooldowns = σ.cooldowns.insert other rested) : σ'.Barred addr u := by
  rcases h with hover | ⟨node, until', hrest, hle⟩
  · exact .inl (hover.trans hclock)
  · have hne : addr ≠ other := by
      rintro rfl
      rw [hnone] at hrest
      cases hrest
    exact .inr ⟨node, until', by rw [hcooldowns, get_insert_ne _ hne, hrest], hle⟩

lemma Barred.keep (h : σ.Barred addr u) (hclock : σ.clock ≤ σ'.clock)
    (hcooldowns : σ'.cooldowns = σ.cooldowns) : σ'.Barred addr u := by
  rcases h with hover | hrest
  · exact .inl (hover.trans hclock)
  · exact .inr (by rwa [hcooldowns])

lemma Act.barred (hact : Act busy σ σ') (h : σ.Sound) (hbarred : σ.Barred addr u) : σ'.Barred addr u := by
  cases hact with
  | pass clock future hclock => exact hbarred.keep hclock rfl
  | thaw other hcooldown hover =>
    rcases hbarred with hpast | ⟨node, until', hrest, hle⟩
    · exact .inl hpast
    · rcases eq_or_ne addr other with rfl | hne
      · cases hrest.symm.trans hcooldown
        exact .inl (hle.trans hover)
      · exact .inr ⟨node, until', (get_erase_ne _ hne).trans hrest, hle⟩
  | sent key now clock future deadline hkey hentry hflight hslot hclock =>
    exact hbarred.keep hclock rfl
  | unsent key now clock future hkey hentry hslot hclock =>
    exact hbarred.insert (h.cooldown_none hentry) _ hclock rfl
  | settle other node until' hpending hnode =>
    obtain ⟨entry, hentry, -⟩ := h.entry_of_pending hpending
    exact hbarred.insert (h.cooldown_none hentry) _ le_rfl rfl
  | _ => exact hbarred.keep le_rfl rfl

lemma Acts.barred (hacts : Acts busy σ σ') (h : σ.Sound) (hbarred : σ.Barred addr u) : σ'.Barred addr u := by
  induction hacts with
  | refl => exact hbarred
  | tail hacts hact ih => exact hact.barred (Acts.sound hacts h) ih

end DhtCrawler.Discovery.DiscoveryActor
