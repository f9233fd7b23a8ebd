import DhtCrawler.ClockSums

/-! When the clock is large enough for the durations a user asks for. The durations of the configuration are
the user's seconds, raised to one second where a zero would make no sense and limited nowhere from above; each
component is shown to stay within the clock for every reading exactly if its own durations leave room for the
readings. -/

namespace DhtCrawler

open ResolvedCrawlConfig CrawlActor

variable {seconds : ℕ}

/-- The seconds between the last reading and the end of the clock. -/
def longestSecs : ℕ := 2 ^ 63 - 2 ^ 62

lemma addable_secs : Addable (secs seconds) ↔ seconds ≤ longestSecs := by
  have hend : clockEnd = readingsEnd + secs longestSecs := by decide
  unfold Addable
  rw [hend, Nat.add_le_add_iff_left]
  exact Nat.mul_le_mul_right_iff (by decide)

lemma addable_max_one : Addable (secs (max seconds 1)) ↔ seconds ≤ longestSecs := by
  rw [addable_secs, max_le_iff]
  exact and_iff_left (by decide)

lemma addable_backoff {base limit : ℕ} :
    Addable (min (secs (max base 1) * 2 ^ 16) (secs (max limit 1))) ↔
      base * 2 ^ 16 ≤ longestSecs ∨ limit ≤ longestSecs := by
  have hmul : secs (max base 1) * 2 ^ 16 = secs (max base 1 * 2 ^ 16) := Nat.mul_right_comm _ _ _
  have hbase : max base 1 * 2 ^ 16 ≤ longestSecs ↔ base * 2 ^ 16 ≤ longestSecs := by
    unfold longestSecs
    omega
  have hmin : ∀ a b : Duration, Addable (min a b) ↔ Addable a ∨ Addable b := by
    intro a b
    unfold Addable
    rw [← min_add_add_left, min_le_iff]
  rw [hmin, hmul, addable_secs, addable_max_one, hbase]

/-- **The exact bounds.** Each component keeps the instants it stores within the clock, for all its calls at all
readings, if and only if the durations it adds leave room for the readings: the backoff of a bootstrap source by
its maximum or by its base, and the cache of failed peers by its time to live unless it is switched off. -/
theorem clock_sums_fit (options : CrawlOptions) (peerFailureCapacity : ℕ) (peerFailureTtlSecs : UInt64) :
    ((∀ t pool, NodePool.Reached (.fromOptions options) t pool → t < readingsEnd → pool.Fits) ↔
      options.pool.recentProbeTtlSecs.toNat ≤ longestSecs) ∧
    ((∀ t r, ResponsiveReservoir.Prompted (ResolvedCrawlConfig.fromOptions options).responsiveCapacity
        (ResolvedCrawlConfig.fromOptions options).responsiveTtl
        (ResolvedCrawlConfig.fromOptions options).revisitInterval t r → t < readingsEnd → r.Fits) ↔
      options.pool.responsiveTtlSecs.toNat ≤ longestSecs ∧
        options.pool.revisitIntervalSecs.toNat ≤ longestSecs) ∧
    ((∀ σ, CrawlActor.Reachable options σ → ∀ now, σ.clock ≤ now → now < readingsEnd →
        ∀ input node purpose fresh charged σ' sent,
          σ.tryDispatch input node purpose now fresh charged = .ok (σ', sent) → σ'.Fits) ↔
      options.rateLimit.requestTimeoutSecs.toNat ≤ longestSecs) ∧
    ((∀ history pool, (∀ call ∈ history, BootstrapSourcePool.SourceCall.time call < readingsEnd) →
        BootstrapSourcePool.after (ResolvedCrawlConfig.fromOptions options).bootstrapNodes
          (ResolvedCrawlConfig.fromOptions options).bootstrapBackoffBase
          (ResolvedCrawlConfig.fromOptions options).bootstrapBackoffMax history = .ok pool → pool.Fits) ↔
      options.bootstrap.sourceBackoffBaseSecs.toNat * 2 ^ 16 ≤ longestSecs ∨
        options.bootstrap.sourceBackoffMaxSecs.toNat ≤ longestSecs) ∧
    ((∀ t cache log, PeerFailureCache.Reached peerFailureCapacity (secs peerFailureTtlSecs.toNat) t cache log →
        t < readingsEnd → cache.Fits) ↔
      peerFailureCapacity = 0 ∨ peerFailureTtlSecs.toNat ≤ longestSecs) := by
  refine ⟨?_, ?_, ?_, ?_, ?_⟩
  · exact (NodePool.fits_iff _).trans addable_max_one
  · exact (ResponsiveReservoir.fits_iff _ _ _).trans (and_congr addable_max_one addable_secs)
  · exact (fits_iff options).trans addable_max_one
  · exact (BootstrapSourcePool.fits_iff _ _ _).trans addable_backoff
  · exact (PeerFailureCache.fits_iff _ _).trans (or_congr_right addable_secs)

/-- The pool and the reservoir of the sample options, and the bootstrap sources without a limit on their backoff:
a base of 300 s alone keeps it within the clock. -/
theorem clock_sums_fit_sample :
    (∀ t pool, NodePool.Reached (.fromOptions CrawlActor.sampleOptions) t pool → t < readingsEnd → pool.Fits) ∧
    (∀ t r, ResponsiveReservoir.Prompted 2 (secs 300) (secs 30) t r → t < readingsEnd → r.Fits) ∧
    ∀ options : CrawlOptions, options.bootstrap = ⟨[], 60, 0, 300, 18446744073709551615⟩ →
      ∀ history pool, (∀ call ∈ history, BootstrapSourcePool.SourceCall.time call < readingsEnd) →
        BootstrapSourcePool.after (ResolvedCrawlConfig.fromOptions options).bootstrapNodes (secs 300)
          (secs 18446744073709551615) history = .ok pool → pool.Fits := by
  obtain ⟨hpool, hreservoir, -⟩ := clock_sums_fit sampleOptions 64 60
  refine ⟨hpool.mpr (by decide), hreservoir.mpr (by decide), fun options hbootstrap => ?_⟩
  have hsources := (clock_sums_fit options 64 60).2.2.2.1
  unfold fromOptions at hsources ⊢
  rw [hbootstrap] at hsources ⊢
  exact hsources.mpr (by decide)

/-- Durations of `u64::MAX` seconds. -/
def endlessOptions : CrawlOptions where
  pool := ⟨4, 18446744073709551615, 2, 18446744073709551615, 18446744073709551615, 0⟩
  rateLimit := ⟨10, 2, 4, 18446744073709551615, 600, 10, 60, 2⟩
  bootstrap := ⟨[], 60, 0, 18446744073709551615, 18446744073709551615⟩
  target := ⟨50, 50⟩
  routingSnapshotSize := 8

def CrawlActor.endlessEvents : List (Instant × Event) :=
  [(secs 1, .discovered (sampleNode 1)), (secs 1, .scheduleTick ⟨0, fun _ _ _ => true, fun _ => (0, 0)⟩)]

/-- One second after the start every component adds a duration that leads beyond the clock: the pool when it
records a probe, the reservoir when it records an answer, the actor when it sends a request, the bootstrap
sources when one of them times out, and the cache when a peer fails. -/
theorem clock_overflows :
    (∃ pool, NodePool.Reached (.fromOptions endlessOptions) (secs 1) pool ∧ ¬pool.Fits) ∧
    (∃ r, ResponsiveReservoir.Prompted (ResolvedCrawlConfig.fromOptions endlessOptions).responsiveCapacity
        (ResolvedCrawlConfig.fromOptions endlessOptions).responsiveTtl
        (ResolvedCrawlConfig.fromOptions endlessOptions).revisitInterval (secs 1) r ∧ ¬r.Fits) ∧
    (∃ σ, CrawlActor.Reachable endlessOptions σ ∧ σ.clock = secs 1 ∧ ¬σ.Fits) ∧
    (∃ pool, BootstrapSourcePool.after [] (secs 18446744073709551615) (secs 18446744073709551615)
        [.timeout (exampleAddr 1) (secs 1)] = .ok pool ∧ ¬pool.Fits) ∧
    ∃ cache log, PeerFailureCache.Reached 64 (secs (18446744073709551615 : UInt64).toNat) (secs 1) cache log ∧
      ¬cache.Fits := by
  refine ⟨?_, ?_, ?_, ⟨_, rfl, fun hfits => ?_⟩, _, _,
    .insert (.endpoint (exampleAddr 1)) .timeout (.start 0) (Nat.zero_le (secs 1)), fun hfits => ?_⟩
  · obtain ⟨pool, hrun, hdeadline⟩ := NodePool.recordProbe_new
      (fromOptions endlessOptions).poolCapacity
      (fromOptions endlessOptions).maxReplacementsPerMinute
      (fromOptions endlessOptions).recentProbeTtl
      (fromOptions endlessOptions).recentProbeCapacity 0 (secs 1) (exampleAddr 1)
    refine ⟨pool, .step (.recordProbe (exampleAddr 1)) (.start 0) (Nat.zero_le _) hrun, fun hfits => ?_⟩
    exact absurd (hfits _ _ hdeadline) (by decide)
  · obtain ⟨r, i, e, hrun, he, hexpires, -⟩ := ResponsiveReservoir.record_new
      (fromOptions endlessOptions).responsiveCapacity
      (fromOptions endlessOptions).responsiveTtl
      (fromOptions endlessOptions).revisitInterval (secs 1) (sampleNode 1)
    refine ⟨r, .step (.record _ (secs 1)) (.start 0) (Nat.zero_le _) (le_refl (secs 1)) trivial hrun,
      fun hfits => ?_⟩
    have hfit := (hfits i e he).expires
    rw [hexpires] at hfit
    exact absurd hfit (by decide)
  · have htest : ((CrawlActor.new (.fromOptions endlessOptions) .dualStack (.replicate 20 0) 10 0).runEvents
        endlessEvents).isOkAnd (fun σ =>
          decide (σ.clock = secs 1) && σ.pendingExpiry.any fun record => clockEnd ≤ record.1) = true := by
      decide +kernel
    obtain ⟨σ, hrun, htest⟩ := Except.isOkAnd_eq_true.mp htest
    obtain ⟨hclock, hsent⟩ := (Bool.and_eq_true _ _).mp htest
    obtain ⟨record, hrecord, hlate⟩ := List.any_eq_true.mp hsent
    refine ⟨σ, Reachable.runEvents (.start .dualStack (.replicate 20 0) 10 0) (by decide)
      (possible_of_isFree rfl) hrun, of_decide_eq_true hclock, fun hfits => ?_⟩
    exact absurd (hfits record hrecord) (of_decide_eq_true hlate).not_gt
  · exact absurd (hfits (exampleAddr 1) _ rfl) (by decide)
  · exact absurd (hfits (secs 1 + secs 18446744073709551615, .endpoint (exampleAddr 1)) (by decide)) (by decide)

end DhtCrawler
