import DhtCrawler.DiscoveryReplies
import DhtCrawler.LookupExpiry

/-! What the discovery and lookup actors pass on to the others stays within their budgets. -/

namespace DhtCrawler

open Meter RateBucket

variable {burst rate : ℚ}

lemma RateBucket.Conforms.settle {b b' : RateBucket} {log : List Instant} {now : Instant}
    {taken : Bool} (h : b.Conforms burst rate log 0 now) (htake : b.tryTakeOne now = (b', taken)) (used : Bool) :
    b'.Conforms burst rate (if taken && used then now :: log else log) 0 now := by
  have hpaid := (h.tryTakeOne htake).1
  cases taken with
  | false => exact hpaid
  | true =>
    cases used with
    | false => exact hpaid.wasted
    | true => exact hpaid.spend

/-! ### Hashes -/

namespace Discovery.DiscoveryActor

variable {options : DiscoveryOptions} {σ σ' : DiscoveryActor}

/-- The rate for hashes of `get_peers` queries or of sample responses. -/
def hashRate (options : DiscoveryOptions) (asked : Bool) : ℚ :=
  (if asked then options.getPeersHashesPerSecond else options.sampleHashesPerSecond).toNat

def hashBurst (options : DiscoveryOptions) (asked : Bool) : ℚ :=
  if hashRate options asked ≤ 0 then 0
  else max ((if asked then options.getPeersBurst else options.sampleHashBurst).toNat : ℚ) 1

def hashBudget (σ : DiscoveryActor) (asked : Bool) : RateBucket :=
  if asked then σ.getPeersBudget else σ.sampleHashBudget

def emissions (σ : DiscoveryActor) (asked : Bool) : List Instant :=
  (σ.emitted.filter fun event => decide (event.source = .getPeers) == asked).map HashDiscovered.discoveredAt

def Paid (options : DiscoveryOptions) (σ : DiscoveryActor) : Prop :=
  ∀ asked, (σ.hashBudget asked).Conforms (hashBurst options asked) (hashRate options asked) (σ.emissions asked) 0
    σ.clock

lemma Paid.emitHash (h : Paid options σ) (hash : NodeId) (node : NodeTuple) (source : HashSource)
    (answer : Answer) : Paid options (σ.emitHash hash node source σ.clock answer).1 := by
  unfold DiscoveryActor.emitHash
  cases σ.dedup.contains hash node.addr source σ.clock with
  | mk dedup known =>
    cases known with
    | true => exact h
    | false =>
      have hbudget : (if source = .getPeers then σ.getPeersBudget else σ.sampleHashBudget) =
          σ.hashBudget (decide (source = .getPeers)) := by simp [hashBudget]
      dsimp only
      rw [hbudget]
      cases htake : (σ.hashBudget (decide (source = .getPeers))).tryTakeOne σ.clock with
      | mk budget taken =>
        have hsettled := (h _).settle htake (answer.accepted && answer.room)
        rw [← Bool.and_assoc] at hsettled
        intro asked
        have hother := h asked
        by_cases hsource : source = .getPeers <;> cases asked <;>
          cases hemit : taken && answer.accepted && answer.room <;> simp_all [hashBudget, emissions]

lemma Act.paid (hact : Act true σ σ') (h : Paid options σ) : Paid options σ' := by
  cases hact with
  | pass clock future hclock => exact fun asked => (h asked).later hclock
  | emit hash node source answer s hemit => exact hemit ▸ h.emitHash hash node source answer
  | sent key now clock future deadline hkey hentry hflight hslot hclock => exact fun asked => (h asked).later hclock
  | unsent key now clock future hkey hentry hslot hclock => exact fun asked => (h asked).later hclock
  | _ => exact h

/-- Whatever comes in, the hashes handed on to the scheduler in a window stay within the rate and the burst of
their kind. -/
theorem emission_rates (hσ : Reachable options σ) (asked : Bool) (s e : ℤ) (hse : s ≤ e) :
    (within (σ.emissions asked) s e : ℚ) ≤
      hashRate options asked * ((e - s) / 1000000000) + hashBurst options asked := by
  have hpaid : Paid options σ := by
    refine hσ.induct (fun netmode v4 v6 now asked => ?_) fun hact => hact.paid
    cases asked <;> exact conforms_new (Nat.cast_nonneg _) _ (Nat.cast_nonneg _) true now
  refine ((hpaid asked).metered.window s e hse).trans (le_of_eq ?_)
  ring

theorem emission_rates_sample :
    ∃ σ, Reachable sampleOptions σ ∧ (σ.emissions true).length = 1 ∧
      (within (σ.emissions true) 0 (secs 1 : ℕ) : ℚ) ≤
        hashRate sampleOptions true * (((secs 1 : ℕ) - (0 : ℤ) : ℚ) / 1000000000) + hashBurst sampleOptions true := by
  have hσ : Reachable sampleOptions _ := .step (.start .ipv4Only true false 0)
    ⟨fun _ => ⟨1, true⟩, .input default (sampleNode 1) ⟨true, true⟩, rfl⟩
  exact ⟨_, hσ, by decide +kernel, emission_rates hσ true 0 (secs 1 : ℕ) (by decide)⟩

end Discovery.DiscoveryActor

/-! ### Lookups -/

namespace PeerLookup.PeerLookupActor

variable {options : PeerLookupOptions} {σ σ' : PeerLookupActor} {log : List Instant}

/-- A run with the times at which it started lookups. -/
inductive Traced (options : PeerLookupOptions) : PeerLookupActor → List Instant → Prop where
  | start (netmode : NetMode) (socketV4 socketV6 : Bool) (now : Instant) :
      Traced options (new options netmode socketV4 socketV6 now) []
  | step {σ σ' : PeerLookupActor} {log : List Instant} (future : ℕ → Look) (event : Event)
      (hσ : Traced options σ log) (hrun : σ.handle future event = .ok σ') :
      Traced options σ' (if σ'.started = σ.started then log else (σ.clock + (future 0).elapsed) :: log)

lemma Traced.reachable (h : Traced options σ log) : Reachable options σ := by
  induction h with
  | start netmode socketV4 socketV6 now => exact .start netmode socketV4 socketV6 now
  | step future event _ hrun ih => exact .step future event ih hrun

lemma Steadies.paid (h : Steadies σ σ')
    (hpaid : σ.requestBudget.Conforms burst rate log 0 σ.clock) :
    σ'.requestBudget.Conforms burst rate log 0 σ'.clock := by
  induction h with
  | refl => exact hpaid
  | tail _ hstep ih => exact hstep.elim fun _ hact => hact.paid ih

lemma Traced.paid (h : Traced options σ log) :
    σ.requestBudget.Conforms (startBurst options) (startRate options) log 0 σ.clock ∧ log.length = σ.started := by
  induction h with
  | start netmode socketV4 socketV6 now => exact ⟨(logged_new options netmode socketV4 socketV6 now).paid, rfl⟩
  | @step σ σ' log future event hσ hrun ih =>
    obtain ⟨hpaid, hlength⟩ := ih
    rcases hσ.reachable.steadies hrun with hsteps | ⟨request, published, budget, -, hopen, hsteps⟩
    · have hsame := (Steadies.kin hsteps).started
      rw [if_pos hsame]
      exact ⟨Steadies.paid hsteps hpaid, hlength.trans hsame.symm⟩
    · have hlook := Steadies.paid (steadies_look σ future) hpaid
      have hstarted : σ'.started = σ.started + 1 := (Steadies.kin hsteps).started
      rw [if_neg (by omega), List.length_cons]
      exact ⟨Steadies.paid hsteps (hlook.tryTakeOne hopen.paid).1.spend, by omega⟩

/-- However many jobs ask for one, the lookups started in a window stay within the rate and the burst. -/
theorem lookup_start_rate (h : Traced options σ log) (s e : ℤ) (hse : s ≤ e) :
    log.length = σ.started ∧
      (within log s e : ℚ) ≤ startRate options * ((e - s) / 1000000000) + startBurst options := by
  obtain ⟨hpaid, hlength⟩ := h.paid
  refine ⟨hlength, (hpaid.metered.window s e hse).trans (le_of_eq ?_)⟩
  ring

theorem lookup_start_rate_one :
    ∃ σ log, Traced hidingOptions σ log ∧ log.length = 1 ∧ (within log (-1) 0 : ℚ) ≤
      startRate hidingOptions * (((0 : ℤ) - (-1 : ℤ)) / 1000000000) + startBurst hidingOptions := by
  have htest : ((new hidingOptions .ipv6Only false true 0).handle (lapse 0)
      (.request ⟨default, 0, [chainNode 0 0]⟩ noNodes)).isOkAnd (fun σ => decide (σ.started = 1)) = true := by
    decide +kernel
  obtain ⟨σ, hrun, hstarted⟩ := Except.isOkAnd_eq_true.mp htest
  have htraced := Traced.step _ _ (.start _ _ _ _) hrun
  obtain ⟨hlength, hwindow⟩ := lookup_start_rate htraced (-1) 0 (by decide)
  exact ⟨σ, _, htraced, hlength.trans (of_decide_eq_true hstarted), hwindow⟩

end PeerLookup.PeerLookupActor

end DhtCrawler
