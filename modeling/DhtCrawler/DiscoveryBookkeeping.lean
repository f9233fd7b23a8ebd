import DhtCrawler.DiscoveryHandlers

/-! The five collections of the discovery actor agree in every reachable state, and no handler panics. -/

namespace DhtCrawler.Discovery.DiscoveryActor

open FiniteMap Option DiscoveryConfig

variable {σ : DiscoveryActor} {now : Instant}

structure Bookkept (options : DiscoveryOptions) (σ : DiscoveryActor) : Prop where
  due : ∀ key, key ∈ σ.due ↔ ∃ addr entry, σ.nodes.get addr = some entry ∧ entry.due = some key
  pending : ∀ addr, (∃ sample, σ.pending.get addr = some sample) ↔
    ∃ entry, σ.nodes.get addr = some entry ∧ entry.due = none
  disjoint : ∀ addr, σ.nodes.get addr = none ∨ σ.cooldowns.get addr = none
  expiry : ∀ until' addr, toLex (until', addr) ∈ σ.cooldownExpiry ↔
    ∃ node, σ.cooldowns.get addr = some (node, until')
  nodes_len : σ.nodes.len ≤ max options.sampleMaxNodes.toNat 1
  pending_len : σ.pending.len ≤ options.sampleMaxInFlight.toNat
  history : σ.cooldowns.len + σ.pending.len ≤ max options.sampleCooldownCapacity.toNat 1

lemma Sound.bookkept {options : DiscoveryOptions} (h : σ.Sound) (hconfig : σ.config = .fromOptions options) :
    Bookkept options σ where
  due := fun key => by
    rw [h.due key, bind_eq_some_iff]
    refine ⟨fun ⟨entry, hentry, hdue⟩ => ⟨key.addr, entry, hentry, hdue⟩, ?_⟩
    rintro ⟨addr, entry, hentry, hdue⟩
    rw [(h.keyed addr entry hentry).2 key hdue]
    exact ⟨entry, hentry, hdue⟩
  pending := fun addr => by
    rw [← isSome_iff_exists, h.idle addr, any_eq_true]
    simp only [isNone_iff_eq_none]
  disjoint := h.disjoint
  expiry := fun until' addr => by
    rw [h.expiry, map_eq_some_iff]
    simp only [ofLex_toLex, Prod.exists, exists_eq_right]
  nodes_len := by simpa only [hconfig, fromOptions] using h.nodes_len
  pending_len := by simpa only [hconfig, fromOptions] using h.pending_len
  history := by simpa only [hconfig, fromOptions] using h.history

/-- The bookkeeping of every run. An endpoint has at most one query in flight, and exactly those of the requests
are in flight; no handler fails an assertion or an unwrap; and however many nodes a handler admits, one with a
pending request is not evicted. -/
theorem discovery_bookkeeping (options : DiscoveryOptions) (σ : DiscoveryActor) (hσ : Reachable options σ) :
    Bookkept options σ ∧
      σ.inFlight.Nodup ∧ (∀ addr, addr ∈ σ.inFlight ↔ ∃ sample, σ.pending.get addr = some sample) ∧
      (∀ future event, ∃ σ', σ.handle future event = .ok σ') ∧
      ∀ (future : ℕ → Look) (nodes : List NodeTuple) (addr : SocketAddr) (sample : PendingSample),
        σ.pending.get addr = some sample →
          ∃ entry, (nodes.foldl (fun (τ : DiscoveryActor) node => τ.admitNode node (σ.clock + (future 0).elapsed))
            { σ with future }.look).nodes.get addr = some entry ∧ entry.due = none := by
  have hsound := hσ.sound
  refine ⟨hsound.bookkept hσ.config_eq, hsound.inFlight_nodup, fun addr => ?_, fun future event => ?_,
    fun future nodes addr sample hpending => ?_⟩
  · rw [hsound.inFlight addr, Option.isSome_iff_exists]
  · obtain ⟨σ', hhandle, -⟩ := (handle_spec hsound future event).exists
    exact ⟨σ', hhandle⟩
  · have hadmitted : Ran false _ _ _ := Ran.admitAll nodes (hsound.ran_look future).refl
    have hkept := (Acts.calm hadmitted.acts).1
    exact hadmitted.sound.entry_of_pending ((congrArg (FiniteMap.get · addr) hkept).trans hpending)

def sampleOptions : DiscoveryOptions where
  sampleQueriesPerSecond := 64
  sampleBurst := 64
  sampleMaxInFlight := 4
  sampleQueryTimeoutSecs := 5
  sampleMinIntervalSecs := 60
  sampleFailureBackoffSecs := 1
  sampleNoNewBackoffSecs := 600
  sampleMaxNodes := 16
  sampleCooldownCapacity := 32
  hashDedupCapacity := 8
  hashDedupTtlSecs := 60
  getPeersHashesPerSecond := 1
  getPeersBurst := 1
  sampleHashesPerSecond := 8
  sampleHashBurst := 8

def sampleNode (n : UInt8) : NodeTuple := ⟨default, exampleAddr n⟩

def unevenSends : ℕ → Look
  | 0 => ⟨secs 1, true⟩
  | 1 => ⟨0, false⟩
  | _ => ⟨0, true⟩

theorem discovery_bookkeeping_sample :
    ∃ σ, Reachable sampleOptions σ ∧ σ.pending.len = 1 ∧ σ.cooldowns.len = 1 ∧ Bookkept sampleOptions σ := by
  have htest : ((new sampleOptions .ipv4Only true false 0).runEvents
      [(unevenSends, .tick .ascending [sampleNode 1, sampleNode 2])]).isOkAnd
        (fun σ => decide (σ.pending.len = 1 ∧ σ.cooldowns.len = 1)) = true := by
    decide +kernel
  obtain ⟨σ, hrun, htest⟩ := Except.isOkAnd_eq_true.mp htest
  obtain ⟨hpending, hcooldowns⟩ := of_decide_eq_true htest
  have hσ : Reachable sampleOptions σ := (Reachable.start _ _ _ _).run hrun
  exact ⟨σ, hσ, hpending, hcooldowns, (discovery_bookkeeping sampleOptions σ hσ).1⟩

end DhtCrawler.Discovery.DiscoveryActor
