import Mathlib.Algebra.BigOperators.Field
import DhtCrawler.BudgetModel
import DhtCrawler.LibSupply

/-! Runs of a token bucket with rate changes and refunds. -/

namespace DhtCrawler

open Supply Nat RateBucket

inductive BucketCall where
  | tryTake (limit : ℕ)
  | tryTakeExact (count : ℕ)
  | setPerSecondRate (ratePerSec : ℕ)
  | refund (count : ℕ)

structure BucketRun where
  bucket : RateBucket
  log : List (ℤ × ℤ)
  rates : List (Instant × ℕ)

def rateAt (initial : ℚ) : List (Instant × ℕ) → ℤ → ℚ
  | [], _ => initial
  | (now, ratePerSec) :: rates, τ => if (now : ℤ) ≤ τ then ratePerSec else rateAt initial rates τ

namespace BucketRun

def call (run : BucketRun) : Instant × BucketCall → BucketRun
  | (now, .tryTake limit) =>
    let (bucket, taken) := run.bucket.tryTake limit now
    { run with bucket, log := (now, taken) :: run.log }
  | (now, .tryTakeExact count) =>
    let (bucket, taken) := run.bucket.tryTakeExact count now
    { run with bucket, log := (now, if taken then count else 0) :: run.log }
  | (now, .setPerSecondRate ratePerSec) =>
    { run with bucket := run.bucket.setPerSecondRate ratePerSec now, rates := (now, ratePerSec) :: run.rates }
  | (now, .refund count) => { run with bucket := run.bucket.refund count, log := (now, -count) :: run.log }

def callAll (run : BucketRun) (calls : List (Instant × BucketCall)) : BucketRun := calls.foldl call run

def out (run : BucketRun) (now : Instant) : ℤ := net run.log (now - 1) now

def Allowed (run : BucketRun) (last : Instant) : List (Instant × BucketCall) → Prop
  | [] => True
  | c :: calls => last ≤ c.1 ∧ (∀ count, c.2 = .refund count → count ≤ run.out c.1) ∧ (run.call c).Allowed c.1 calls

/-- The bucket is an account with the capacity and the rates it was given, and has room for what is out. -/
structure Funded (cap initial : ℚ) (run : BucketRun) (now : Instant) : Prop where
  capacity_eq : run.bucket.capacity = cap
  account : Account cap (fun τ => rateAt initial run.rates τ / 1000000000) run.log (min run.bucket.lastRefill now : ℕ)
    run.bucket.tokens
  rate_eq : ∀ τ : ℤ, (min run.bucket.lastRefill now : ℕ) ≤ τ → rateAt initial run.rates τ = run.bucket.ratePerSec
  out_nonneg : 0 ≤ run.out now
  out_le : run.bucket.tokens + run.out now ≤ cap

variable {cap initial : ℚ} {run : BucketRun} {b : RateBucket} {now : Instant}

lemma cast_le_pred {earlier : Instant} (hlt : earlier < now) : (earlier : ℤ) ≤ now - 1 :=
  Int.le_sub_one_of_lt (cast_lt.mpr hlt)

lemma Funded.later (h : Funded cap initial run now) {later : Instant} (hle : now ≤ later) :
    Funded cap initial run later := by
  have hmin : ((min run.bucket.lastRefill now : ℕ) : ℤ) ≤ (min run.bucket.lastRefill later : ℕ) :=
    cast_le.mpr (min_le_min_left _ hle)
  have hgain := supply_nonneg h.account.rate_nonneg (min run.bucket.lastRefill now : ℕ)
    (min run.bucket.lastRefill later : ℕ)
  have hout : run.out later = 0 ∨ run.out later = run.out now := by
    rcases eq_or_lt_of_le hle with rfl | hlt
    · exact .inr rfl
    · exact .inl (net_after h.account.past (cast_le_pred (lt_of_le_of_lt (min_le_right _ _) hlt)))
  refine ⟨h.capacity_eq, h.account.advance hmin h.account.level_nonneg h.account.level_le (by linarith),
    fun τ hτ => h.rate_eq τ (hmin.trans hτ), ?_, ?_⟩
  · rcases hout with hout | hout
    · exact hout.ge
    · exact hout ▸ h.out_nonneg
  · rcases hout with hout | hout
    · rw [hout, Int.cast_zero, add_zero]
      exact h.account.level_le
    · exact hout ▸ h.out_le

lemma elapsedSecs_pos_iff {earlier now : Instant} : 0 < elapsedSecs earlier now ↔ earlier < now := by
  rw [elapsedSecs, div_pos_iff_of_pos_right (by norm_num), cast_pos, Nat.sub_pos_iff_lt]

lemma refill_stale (hle : now ≤ b.lastRefill) : b.refill now = b :=
  if_neg (mt elapsedSecs_pos_iff.mp (not_lt.mpr hle))

lemma le_lastRefill_refill (b : RateBucket) (now : Instant) : now ≤ (b.refill now).lastRefill := by
  rcases le_or_gt now b.lastRefill with hle | hlt
  · rwa [refill_stale hle]
  · rw [refill, if_pos (elapsedSecs_pos_iff.mpr hlt)]

section

variable (h : Funded cap initial run now)
include h

lemma Funded.refill : Funded cap initial { run with bucket := run.bucket.refill now } now := by
  rcases le_or_gt now run.bucket.lastRefill with hle | hlt
  · rwa [refill_stale hle]
  have hmin : min run.bucket.lastRefill now = run.bucket.lastRefill := min_eq_left hlt.le
  obtain ⟨hcapacity, haccount, hrate, -, -⟩ := h
  rw [hmin] at haccount hrate
  have hout : run.out now = 0 := net_after haccount.past (cast_le_pred hlt)
  have hnonneg : 0 ≤ run.bucket.ratePerSec := by
    have := haccount.rate_nonneg run.bucket.lastRefill
    rw [hrate _ le_rfl] at this
    linarith
  have hgain : supply (fun τ => rateAt initial run.rates τ / 1000000000) run.bucket.lastRefill now =
      elapsedSecs run.bucket.lastRefill now * run.bucket.ratePerSec := by
    rw [supply_const (fun τ hτ => by rw [hrate τ hτ]) (by exact_mod_cast hlt.le), elapsedSecs, cast_sub hlt.le]
    push_cast
    ring
  have hpos : 0 ≤ elapsedSecs run.bucket.lastRefill now * run.bucket.ratePerSec :=
    mul_nonneg (elapsedSecs_pos_iff.mpr hlt).le hnonneg
  have hrefill : run.bucket.refill now = { run.bucket with
      tokens := min (run.bucket.tokens + elapsedSecs run.bucket.lastRefill now * run.bucket.ratePerSec)
        run.bucket.capacity
      lastRefill := now } := if_pos (elapsedSecs_pos_iff.mpr hlt)
  have hle : run.bucket.tokens ≤ run.bucket.capacity := hcapacity ▸ haccount.level_le
  rw [hrefill]
  refine ⟨hcapacity, ?_, fun τ hτ => hrate τ ?_, hout.ge, ?_⟩
  · rw [min_self]
    refine haccount.advance (by exact_mod_cast hlt.le) ?_ (hcapacity ▸ min_le_right _ _) ?_
    · exact le_min (add_nonneg haccount.level_nonneg hpos) (haccount.level_nonneg.trans hle)
    · rw [hgain]
      exact min_le_left _ _
  · rw [min_self] at hτ
    exact (by exact_mod_cast hlt.le : (run.bucket.lastRefill : ℤ) ≤ now).trans hτ
  · change _ + ((run.out now : ℤ) : ℚ) ≤ cap
    rw [hout, Int.cast_zero, add_zero]
    exact hcapacity ▸ min_le_right _ _

lemma Funded.idle : Funded cap initial { run with log := (now, 0) :: run.log } now := by
  have hout : net ((now, 0) :: run.log) (now - 1) now = run.out now := by
    rw [net_cons, ite_self, zero_add, out]
  exact ⟨h.capacity_eq, h.account.idle now, h.rate_eq, h.out_nonneg.trans_eq hout.symm, by
    change _ + ((net ((now, 0) :: run.log) (now - 1) now : ℤ) : ℚ) ≤ cap
    rw [hout]
    exact h.out_le⟩

lemma Funded.enter (hlast : now ≤ run.bucket.lastRefill) {n : ℤ} (hnonneg : 0 ≤ run.bucket.tokens - n)
    (hcap : run.bucket.tokens - n ≤ cap) (hout : 0 ≤ n + run.out now) :
    Funded cap initial
      { run with bucket := { run.bucket with tokens := run.bucket.tokens - n }, log := (now, n) :: run.log } now := by
  have hnet : net ((now, n) :: run.log) (now - 1) now = n + run.out now := by
    rw [net_cons, if_pos ⟨by omega, le_rfl⟩, out]
  have haccount := h.account
  rw [min_eq_right hlast] at haccount
  refine ⟨h.capacity_eq, ?_, h.rate_eq, hout.trans_eq hnet.symm, ?_⟩
  · rw [min_eq_right hlast]
    exact haccount.enter hnonneg hcap
  · have := h.out_le
    change run.bucket.tokens - n + ((net ((now, n) :: run.log) (now - 1) now : ℤ) : ℚ) ≤ cap
    rw [hnet]
    push_cast
    linarith

lemma Funded.take {n : ℕ} (hn : n ≤ (run.bucket.refill now).tokens) :
    Funded cap initial { run with
      bucket := { run.bucket.refill now with tokens := (run.bucket.refill now).tokens - n }
      log := (now, n) :: run.log } now := by
  have hrefill := h.refill
  have hcap := hrefill.account.level_le
  have hout := hrefill.out_nonneg
  have hpos : (0 : ℚ) ≤ n := cast_nonneg n
  have htake := hrefill.enter (n := n) (le_lastRefill_refill run.bucket now) ?_ ?_ ?_
  · simpa using htake
  · simpa using hn
  · push_cast
    linarith
  · omega

lemma Funded.refund {count : ℕ} (hcount : count ≤ run.out now) :
    run.bucket.refund count = { run.bucket with tokens := run.bucket.tokens + count } ∧
      Funded cap initial (run.call (now, .refund count)) now := by
  have hle : run.bucket.tokens + count ≤ cap := by
    have hcast : (count : ℚ) ≤ run.out now := by exact_mod_cast hcount
    linarith [h.out_le]
  have hrefund : run.bucket.refund count = { run.bucket with tokens := run.bucket.tokens + count } := by
    rw [RateBucket.refund, min_eq_left (h.capacity_eq ▸ hle)]
  refine ⟨hrefund, ?_⟩
  rw [call, hrefund]
  rcases le_or_gt now run.bucket.lastRefill with hlast | hlast
  · have hpos : (0 : ℚ) ≤ count := cast_nonneg count
    have hnonneg := h.account.level_nonneg
    have henter := h.enter (n := -count) hlast ?_ ?_ ?_
    · simpa using henter
    · push_cast
      linarith
    · push_cast
      linarith
    · omega
  · -- nothing was taken at this instant
    have hout : run.out now = 0 := net_after h.account.past (cast_le_pred (lt_of_le_of_lt (min_le_left _ _) hlast))
    obtain rfl : count = 0 := by omega
    simpa using h.idle

lemma Funded.setPerSecondRate (ratePerSec : ℕ) :
    Funded cap initial (run.call (now, .setPerSecondRate ratePerSec)) now := by
  obtain ⟨hcapacity, haccount, -, hnonneg, hout⟩ := h.refill
  have hlast := le_lastRefill_refill run.bucket now
  dsimp only at hcapacity haccount hout
  rw [min_eq_right hlast] at haccount
  have hsame : ∀ τ < (now : ℤ), rateAt initial ((now, ratePerSec) :: run.rates) τ = rateAt initial run.rates τ :=
    fun τ hτ => if_neg (not_le.mpr hτ)
  have hrate : ∀ τ, 0 ≤ rateAt initial ((now, ratePerSec) :: run.rates) τ / 1000000000 := by
    intro τ
    rw [rateAt]
    split_ifs
    · positivity
    · exact haccount.rate_nonneg τ
  -- the level can only fall, and what follows is filled at the new rate
  have hset (tokens : ℚ) (hpos : 0 ≤ tokens) (hle : tokens ≤ (run.bucket.refill now).tokens) :
      Funded cap initial { run with
        bucket := { run.bucket.refill now with ratePerSec := (ratePerSec : ℚ), tokens := tokens }
        rates := (now, ratePerSec) :: run.rates } now := by
    refine ⟨hcapacity, ?_, fun τ hτ => ?_, hnonneg, ?_⟩
    · rw [min_eq_right hlast]
      refine (haccount.advance le_rfl hpos (hle.trans haccount.level_le) ?_).switch hrate fun τ hτ => by rw [hsame τ hτ]
      linarith [supply_nonneg haccount.rate_nonneg now now]
    · rw [min_eq_right hlast] at hτ
      exact if_pos hτ
    · change tokens + ((run.out now : ℤ) : ℚ) ≤ cap
      change (run.bucket.refill now).tokens + ((run.out now : ℤ) : ℚ) ≤ cap at hout
      linarith
  unfold call RateBucket.setPerSecondRate
  dsimp only
  split_ifs
  · exact hset 0 le_rfl haccount.level_nonneg
  · exact hset _ (le_min haccount.level_nonneg (haccount.level_nonneg.trans (hcapacity ▸ haccount.level_le)))
      (min_le_left _ _)

lemma Funded.call (op : BucketCall) (hrefund : ∀ count, op = .refund count → count ≤ run.out now) :
    Funded cap initial (run.call (now, op)) now := by
  cases op with
  | tryTake limit =>
    unfold BucketRun.call tryTake
    dsimp only
    split_ifs
    · exact_mod_cast h.idle
    · refine h.take ((cast_le.mpr (min_le_left _ _)).trans (floor_le ?_))
      exact h.refill.account.level_nonneg
  | tryTakeExact count =>
    unfold BucketRun.call tryTakeExact
    by_cases hzero : count = 0
    · simpa [hzero] using h.idle
    by_cases hoff : run.bucket.ratePerSec ≤ 0 ∨ run.bucket.capacity ≤ 0
    · simpa [hzero, hoff] using h.idle
    by_cases hshort : (run.bucket.refill now).tokens < count
    · simpa [hzero, hoff, hshort] using h.refill.idle
    · simpa [hzero, hoff, hshort] using h.take (not_lt.mp hshort)
  | setPerSecondRate ratePerSec => exact h.setPerSecondRate ratePerSec
  | refund count => exact (h.refund (hrefund count rfl)).2

lemma Funded.callAll {calls more : List (Instant × BucketCall)} (hallowed : run.Allowed now (calls ++ more)) :
    ∃ last, Funded cap initial (run.callAll calls) last ∧ (run.callAll calls).Allowed last more := by
  induction calls generalizing run now with
  | nil => exact ⟨now, h, hallowed⟩
  | cons c calls ih =>
    obtain ⟨hle, hrefund, hrest⟩ := hallowed
    exact ih ((h.later hle).call c.2 hrefund) hrest

end

lemma stale_calls (hlt : now < b.lastRefill) (hle : b.tokens ≤ b.capacity) :
    (∀ limit, (b.tryTake limit now).1 = { b with tokens := b.tokens - (b.tryTake limit now).2 }) ∧
    (∀ count, (b.tryTakeExact count now).1 =
      { b with tokens := b.tokens - if (b.tryTakeExact count now).2 then (count : ℚ) else 0 }) ∧
    ∀ ratePerSec : ℕ, b.setPerSecondRate ratePerSec now =
      { b with ratePerSec := ratePerSec, tokens := if ratePerSec = 0 then 0 else b.tokens } := by
  have hrefill : b.refill now = b := refill_stale hlt.le
  refine ⟨fun limit => ?_, fun count => ?_, fun ratePerSec => ?_⟩
  · unfold tryTake
    split_ifs
    · simp
    · simp [hrefill]
  · unfold tryTakeExact
    by_cases hzero : count = 0
    · simp [hzero]
    by_cases hoff : b.ratePerSec ≤ 0 ∨ b.capacity ≤ 0
    · simp [hzero, hoff]
    by_cases hshort : b.tokens < count
    · simp [hzero, hoff, hrefill, hshort]
    · simp [hzero, hoff, hrefill, hshort]
  · unfold setPerSecondRate
    by_cases hzero : ratePerSec = 0
    · simp [hrefill, hzero]
    · have hpos : ¬ (ratePerSec : ℚ) ≤ 0 := by simpa using hzero
      simp [hrefill, hzero, hle]

/-- The level stays between zero and the capacity, a refund gives back all that it returns, and in any window
the tokens that are taken and kept are at most the capacity and the integral of the rate, which is the sum over
the nanoseconds of the window as the rate changes at whole nanoseconds only. -/
theorem run_conforms (b₀ : RateBucket) (hrate : 0 ≤ b₀.ratePerSec) (hnonneg : 0 ≤ b₀.tokens)
    (hle : b₀.tokens ≤ b₀.capacity) {startedAt : Instant} {calls : List (Instant × BucketCall)}
    (hallowed : Allowed ⟨b₀, [], []⟩ startedAt calls) : let run := callAll ⟨b₀, [], []⟩ calls
    (run.bucket.capacity = b₀.capacity ∧ 0 ≤ run.bucket.tokens ∧ run.bucket.tokens ≤ run.bucket.capacity) ∧
    (∀ now count, Allowed ⟨b₀, [], []⟩ startedAt (calls ++ [(now, .refund count)]) →
      run.bucket.refund count = { run.bucket with tokens := run.bucket.tokens + count }) ∧
    (∀ s e : ℤ, (net run.log s e : ℚ) ≤
      b₀.capacity + (∑ τ ∈ Finset.Ico s e, rateAt b₀.ratePerSec run.rates τ) / 1000000000) ∧
    ∀ now < run.bucket.lastRefill, (∀ limit, (run.bucket.tryTake limit now).1 =
        { run.bucket with tokens := run.bucket.tokens - (run.bucket.tryTake limit now).2 }) ∧
      (∀ count, (run.bucket.tryTakeExact count now).1 = { run.bucket with
          tokens := run.bucket.tokens - if (run.bucket.tryTakeExact count now).2 then (count : ℚ) else 0 }) ∧
      ∀ ratePerSec : ℕ, run.bucket.setPerSecondRate ratePerSec now =
        { run.bucket with ratePerSec := ratePerSec, tokens := if ratePerSec = 0 then 0 else run.bucket.tokens } := by
  intro run
  have hstart : Funded b₀.capacity b₀.ratePerSec ⟨b₀, [], []⟩ startedAt := by
    refine ⟨rfl, .nil (fun τ => ?_) hnonneg hle _, fun τ _ => rfl, le_rfl, ?_⟩
    · exact div_nonneg hrate (by norm_num)
    · simpa [out, net] using hle
  rw [← List.append_nil calls] at hallowed
  obtain ⟨last, hfunded, -⟩ := hstart.callAll hallowed
  have hcap : run.bucket.tokens ≤ run.bucket.capacity := hfunded.capacity_eq ▸ hfunded.account.level_le
  refine ⟨⟨hfunded.capacity_eq, hfunded.account.level_nonneg, hcap⟩, fun now count hmore => ?_, fun s e => ?_,
    fun now hlt => stale_calls hlt hcap⟩
  · obtain ⟨last, hfunded, hle, hrefund, -⟩ := hstart.callAll hmore
    exact ((hfunded.later hle).refund (hrefund count rfl)).1
  · rw [Finset.sum_div]
    exact hfunded.account.net_le s e

theorem run_conforms_refunded :
    let run := callAll ⟨.perSecond 3 2 true 0, [], []⟩ [(0, .tryTakeExact 2), (0, .refund 1), (5, .setPerSecondRate 0)]
    net run.log (-1) 7 = 1 ∧ run.bucket.tokens = 0 ∧ (1 : ℚ) ≤ 2 + (3 * 6) / 1000000000 := by
  intro run
  have hallowed : Allowed ⟨.perSecond 3 2 true 0, [], []⟩ 0
      [(0, .tryTakeExact 2), (0, .refund 1), (5, .setPerSecondRate 0)] := by
    refine ⟨by decide, nofun, by decide, fun count hcount => ?_, by decide, nofun, trivial⟩
    cases hcount
    decide +kernel
  have h := run_conforms (.perSecond 3 2 true 0) (by decide +kernel) (by decide +kernel) (by decide +kernel) hallowed
  have hnet : net run.log (-1) 7 = 1 := by decide +kernel
  have hcap : (perSecond 3 2 true 0).capacity = 2 := by decide +kernel
  have hsum : ∑ τ ∈ Finset.Ico (-1 : ℤ) 7, rateAt (perSecond 3 2 true 0).ratePerSec run.rates τ = 3 * 6 := by
    decide +kernel
  refine ⟨hnet, by decide +kernel, ?_⟩
  have hwindow := h.2.2.1 (-1) 7
  rw [hnet, hcap, hsum] at hwindow
  exact_mod_cast hwindow

end BucketRun

end DhtCrawler
