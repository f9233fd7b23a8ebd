import DhtCrawler.BudgetModel
import DhtCrawler.LibMeter

/-! A token bucket that pays for events. Some of its tokens may be out: taken and neither spent nor given back.
-/

namespace DhtCrawler.RateBucket

open Meter Nat

variable {b b' : RateBucket} {burst rate : ℚ} {log : List Instant} {out : ℕ} {now now' : Instant}

variable {taken : Bool}

/-- The events of the log were paid for by `b`, which has held at most `burst` tokens and was refilled at most
at `rate`; `out` further tokens are out. -/
structure Conforms (b : RateBucket) (burst rate : ℚ) (log : List Instant) (out : ℕ) (now : Instant) :
    Prop where
  capacity : b.capacity = burst
  rate_nonneg : 0 ≤ b.ratePerSec
  rate_le : b.ratePerSec ≤ rate
  tokens_nonneg : 0 ≤ b.tokens
  last_le : b.lastRefill ≤ now
  current : 0 < out → b.lastRefill = now
  metered : Metered burst (rate / 1000000000) log b.lastRefill (b.tokens + out)

lemma conforms_new (hrate : 0 ≤ rate) (capacity : ℚ) (hcapacity : 0 ≤ capacity) (initiallyFull : Bool)
    (now : Instant) :
    (new rate capacity initiallyFull now).Conforms (if rate ≤ 0 then 0 else max capacity 1) rate [] 0
      now := by
  have hburst : (0 : ℚ) ≤ if rate ≤ 0 then 0 else max capacity 1 := by
    split_ifs
    · exact le_refl _
    · exact le_max_of_le_left hcapacity
  have htokens : 0 ≤ (new rate capacity initiallyFull now).tokens ∧
      (new rate capacity initiallyFull now).tokens ≤ if rate ≤ 0 then 0 else max capacity 1 := by
    cases initiallyFull with
    | false => exact ⟨le_refl _, hburst⟩
    | true => exact ⟨hburst, le_refl _⟩
  refine ⟨rfl, hrate, le_refl _, htokens.1, le_refl _, nofun, .nil (by positivity) hburst ?_ _⟩
  rw [cast_zero, add_zero]
  exact htokens.2

lemma refill_tokens (b : RateBucket) (hcap : b.tokens ≤ b.capacity) (now : Instant) :
    (b.refill now).tokens = min (b.tokens + elapsedSecs b.lastRefill now * b.ratePerSec) b.capacity := by
  unfold refill
  dsimp only
  split_ifs with helapsed
  · rfl
  · have hzero : elapsedSecs b.lastRefill now = 0 :=
      le_antisymm (not_lt.mp helapsed) (by unfold elapsedSecs; positivity)
    rw [hzero, zero_mul, add_zero, min_eq_left hcap]

lemma refill_same (b : RateBucket) (now : Instant) :
    (b.refill now).capacity = b.capacity ∧ (b.refill now).ratePerSec = b.ratePerSec := by
  unfold refill
  dsimp only
  split_ifs
  · exact ⟨rfl, rfl⟩
  · exact ⟨rfl, rfl⟩

lemma refill_le (b : RateBucket) (hcap : b.tokens ≤ b.capacity) (now : Instant) :
    (b.refill now).tokens ≤ (b.refill now).capacity := by
  rw [refill_tokens b hcap, (refill_same b now).1]
  exact min_le_right _ _

lemma refill_last (hle : b.lastRefill ≤ now) : (b.refill now).lastRefill = now := by
  unfold refill
  dsimp only
  split_ifs with helapsed
  · rfl
  · unfold elapsedSecs at helapsed
    by_contra hne
    have hlt : b.lastRefill < now := lt_of_le_of_ne hle hne
    have hpos : (0 : ℚ) < ((now - b.lastRefill : ℕ) : ℚ) := cast_pos.mpr (Nat.sub_pos_of_lt hlt)
    exact helapsed (by positivity)

lemma refill_idle (h : b.lastRefill = now) : b.refill now = b := by
  unfold refill elapsedSecs
  rw [h, Nat.sub_self]
  simp

lemma refill_refill (hrate : 0 ≤ b.ratePerSec) (hcap : b.tokens ≤ b.capacity) (hlast : b.lastRefill ≤ now)
    (hnow : now ≤ now') : (b.refill now).refill now' = b.refill now' := by
  have hcap' : (b.refill now).tokens ≤ (b.refill now).capacity := by
    rw [b.refill_tokens hcap, (b.refill_same now).1]
    exact min_le_right _ _
  have htokens : ((b.refill now).refill now').tokens = (b.refill now').tokens := by
    have hsplit : elapsedSecs b.lastRefill now' = elapsedSecs b.lastRefill now + elapsedSecs now now' := by
      unfold elapsedSecs
      rw [← add_div, ← cast_add, add_comm (now - b.lastRefill), Nat.sub_add_sub_cancel hnow hlast]
    have hgain : 0 ≤ elapsedSecs now now' * b.ratePerSec := by
      unfold elapsedSecs
      positivity
    rw [refill_tokens _ hcap', b.refill_tokens hcap, refill_last hlast, (b.refill_same now).1,
      (b.refill_same now).2, b.refill_tokens hcap, hsplit, min_add, add_mul, add_assoc, min_assoc,
      min_eq_right (le_add_of_nonneg_right hgain)]
  have hsame := (b.refill now).refill_same now'
  have hsame' := b.refill_same now
  have hlater := b.refill_same now'
  refine RateBucket.ext ?_ ?_ htokens ?_
  · rw [hsame.2, hsame'.2, hlater.2]
  · rw [hsame.1, hsame'.1, hlater.1]
  · rw [refill_last ((refill_last hlast).trans_le hnow), refill_last (hlast.trans hnow)]

lemma refill_again (b : RateBucket) (now : Instant) : (b.refill now).refill now = b.refill now := by
  rcases le_or_gt b.lastRefill now with hlast | hlast
  · exact refill_idle (refill_last hlast)
  · have hidle : b.refill now = b := by
      unfold refill elapsedSecs
      rw [Nat.sub_eq_zero_of_le hlast.le]
      simp
    rw [hidle, hidle]

lemma tryTakeOne_taken (htake : b.tryTakeOne now = (b', true)) :
    1 ≤ (b.refill now).tokens ∧ b' = { b.refill now with tokens := (b.refill now).tokens - 1 } := by
  unfold RateBucket.tryTakeOne tryTakeExact at htake
  rw [if_neg Nat.one_ne_zero] at htake
  rw [cast_one] at htake
  by_cases hoff : b.ratePerSec ≤ 0 ∨ b.capacity ≤ 0
  · rw [if_pos hoff] at htake
    cases htake
  rw [if_neg hoff] at htake
  by_cases hshort : (b.refill now).tokens < 1
  · rw [if_pos hshort] at htake
    cases htake
  · rw [if_neg hshort] at htake
    cases htake
    exact ⟨not_lt.mp hshort, rfl⟩

lemma refundOne_of_taken (hcap : b.tokens ≤ b.capacity) (htake : b.tryTakeOne now = (b', true)) :
    b'.refundOne = b.refill now := by
  obtain ⟨_, rfl⟩ := tryTakeOne_taken htake
  unfold refundOne refund
  rw [cast_one, sub_add_cancel, min_eq_left (refill_le b hcap now)]

lemma tryTakeOne_again (htake : b.tryTakeOne now = (b', true)) :
    (b.refill now).tryTakeOne now = (b', true) := by
  unfold RateBucket.tryTakeOne tryTakeExact at htake ⊢
  rw [if_neg Nat.one_ne_zero] at htake ⊢
  rw [(refill_same b now).1, (refill_same b now).2, refill_again]
  by_cases hoff : b.ratePerSec ≤ 0 ∨ b.capacity ≤ 0
  · rw [if_pos hoff] at htake
    cases htake
  · rw [if_neg hoff] at htake ⊢
    exact htake

namespace Conforms

lemma tokens_le (h : b.Conforms burst rate log out now) : b.tokens + out ≤ b.capacity := by
  rw [h.capacity]
  exact h.metered.level_le

section

variable (h : b.Conforms burst rate log 0 now)
include h

lemma later (hnow : now ≤ now') : b.Conforms burst rate log 0 now' :=
  { h with
    last_le := h.last_le.trans hnow
    current := nofun }

lemma refill : (b.refill now).Conforms burst rate log 0 now := by
  obtain ⟨hcapacity, hrate⟩ := b.refill_same now
  have hle := h.tokens_le
  rw [cast_zero, add_zero] at hle
  have htokens := b.refill_tokens hle now
  have hlast := refill_last h.last_le
  have helapsed : 0 ≤ elapsedSecs b.lastRefill now := by
    unfold elapsedSecs
    positivity
  have hgain := mul_nonneg helapsed h.rate_nonneg
  refine ⟨hcapacity.trans h.capacity, hrate ▸ h.rate_nonneg, hrate ▸ h.rate_le, ?_, hlast.le, nofun, ?_⟩
  · rw [htokens, h.capacity]
    have hburst := h.metered.level_le
    have htok := h.tokens_nonneg
    rw [cast_zero, add_zero] at hburst
    exact le_min (by linarith) (by linarith)
  · rw [hlast, htokens, h.capacity, cast_zero, add_zero]
    refine h.metered.advance h.last_le (min_le_right _ _) ((min_le_left _ _).trans ?_)
    rw [cast_zero, add_zero]
    have hspan : ((now - b.lastRefill : ℕ) : ℚ) = (now : ℚ) - b.lastRefill := cast_sub h.last_le
    have hmul := mul_le_mul_of_nonneg_left h.rate_le helapsed
    unfold elapsedSecs at hmul ⊢
    rw [hspan] at hmul ⊢
    have heq : rate / 1000000000 * ((now : ℚ) - b.lastRefill) =
        ((now : ℚ) - b.lastRefill) / 1000000000 * rate := by ring
    linarith

lemma lowered (hcapacity : b'.capacity = b.capacity) (hlast : b'.lastRefill = b.lastRefill)
    (hrate : 0 ≤ b'.ratePerSec) (hrate_le : b'.ratePerSec ≤ rate) (hnonneg : 0 ≤ b'.tokens)
    (htokens : b'.tokens + out ≤ b.tokens) (hcurrent : b.lastRefill = now) :
    b'.Conforms burst rate log out now := by
  refine ⟨hcapacity.trans h.capacity, hrate, hrate_le, hnonneg, hlast ▸ h.last_le,
    fun _ => hlast.trans hcurrent, ?_⟩
  rw [hlast]
  refine h.metered.lower ?_
  rw [cast_zero, add_zero]
  exact htokens

lemma setPerSecondRate {ratePerSec : ℕ} (hrate : (ratePerSec : ℚ) ≤ rate) :
    (b.setPerSecondRate ratePerSec now).Conforms burst rate log 0 now ∧
      (b.setPerSecondRate ratePerSec now).lastRefill = now := by
  have h₁ := h.refill
  have hlast := refill_last h.last_le
  have hnonneg : (0 : ℚ) ≤ ratePerSec := cast_nonneg _
  have htok := h₁.tokens_nonneg
  have hcap := h₁.tokens_le
  rw [cast_zero, add_zero] at hcap
  unfold RateBucket.setPerSecondRate
  dsimp only
  split_ifs
  · refine ⟨h₁.lowered rfl rfl hnonneg hrate (le_refl _) ?_ hlast, hlast⟩
    rw [cast_zero, add_zero]
    exact htok
  · refine ⟨h₁.lowered rfl rfl hnonneg hrate ?_ ?_ hlast, hlast⟩
    · exact le_min htok (htok.trans hcap)
    · rw [cast_zero, add_zero]
      exact min_le_left _ _

lemma tryTake (hlast : b.lastRefill = now) {limit n : ℕ} (htake : b.tryTake limit now = (b', n)) :
    b'.Conforms burst rate log n now ∧ b'.tokens + n = b.tokens := by
  unfold RateBucket.tryTake at htake
  split_ifs at htake with hoff
  · cases htake
    exact ⟨h, by rw [cast_zero, add_zero]⟩
  · rw [refill_idle hlast] at htake
    cases htake
    have hfloor : ((min ⌊b.tokens⌋₊ limit : ℕ) : ℚ) ≤ b.tokens :=
      (cast_le.mpr (min_le_left _ _)).trans (floor_le h.tokens_nonneg)
    have hsum : b.tokens - (min ⌊b.tokens⌋₊ limit : ℕ) + (min ⌊b.tokens⌋₊ limit : ℕ) = b.tokens :=
      sub_add_cancel _ _
    exact ⟨h.lowered rfl rfl h.rate_nonneg h.rate_le (sub_nonneg.mpr hfloor) hsum.le hlast, hsum⟩

lemma tryTakeExact {count : ℕ} (htake : b.tryTakeExact count now = (b', taken)) :
    b'.Conforms burst rate log (if taken then count else 0) now ∧
      (b'.refill now).tokens + (if taken then count else 0 : ℕ) = (b.refill now).tokens := by
  unfold RateBucket.tryTakeExact at htake
  split_ifs at htake with hcount hoff
  · cases htake
    subst hcount
    exact ⟨h, by simp⟩
  · cases htake
    exact ⟨h, by simp⟩
  · have h₁ := h.refill
    have hlast := refill_last h.last_le
    dsimp only at htake
    split_ifs at htake with hpoor
    · cases htake
      rw [refill_idle hlast]
      exact ⟨h₁, by simp⟩
    · cases htake
      rw [not_lt] at hpoor
      refine ⟨h₁.lowered rfl rfl h₁.rate_nonneg h₁.rate_le ?_ ?_ hlast, ?_⟩
      · exact sub_nonneg.mpr hpoor
      · simp
      · rw [refill_idle (b := { b.refill now with tokens := (b.refill now).tokens - (count : ℕ) }) hlast]
        simp

lemma tryTakeOne (htake : b.tryTakeOne now = (b', taken)) :
    b'.Conforms burst rate log taken.toNat now ∧
      (b'.refill now).tokens + taken.toNat = (b.refill now).tokens := by
  have hexact := h.tryTakeExact htake
  cases taken with
  | false => exact hexact
  | true => exact hexact

end

lemma refund (h : b.Conforms burst rate log out now) :
    (b.refund out).Conforms burst rate log 0 now ∧ (b.refund out).tokens = b.tokens + out := by
  have htokens : (b.refund out).tokens = b.tokens + out := min_eq_left h.tokens_le
  refine ⟨⟨h.capacity, h.rate_nonneg, h.rate_le, ?_, h.last_le, nofun, ?_⟩, htokens⟩
  · rw [htokens]
    exact add_nonneg h.tokens_nonneg (cast_nonneg _)
  · rw [htokens, cast_zero, add_zero]
    exact h.metered

lemma spend (h : b.Conforms burst rate log (out + 1) now) : b.Conforms burst rate (now :: log) out now := by
  have hlast := h.current (succ_pos out)
  have hlevel : b.tokens + ((out + 1 : ℕ) : ℚ) - 1 = b.tokens + out := by
    push_cast
    ring
  have hone : 1 ≤ b.tokens + ((out + 1 : ℕ) : ℚ) := by
    have htok := h.tokens_nonneg
    push_cast
    linarith [(cast_nonneg out : (0 : ℚ) ≤ out)]
  refine { h with
    current := fun _ => hlast
    metered := ?_ }
  have hspent := h.metered.spend hone
  rw [hlevel] at hspent
  exact hlast ▸ hspent

lemma spendAll (h : b.Conforms burst rate log out now) :
    b.Conforms burst rate (List.replicate out now ++ log) 0 now := by
  induction out generalizing log with
  | zero => exact h
  | succ out ih =>
    rw [List.replicate_succ', List.append_assoc]
    exact ih h.spend

lemma restart (h : b.Conforms burst rate log 0 now) : b.Conforms burst rate [] 0 now := by
  have hlevel : 0 ≤ b.tokens + ((0 : ℕ) : ℚ) := add_nonneg h.tokens_nonneg (cast_nonneg _)
  exact { h with
    metered := .nil h.metered.rate_nonneg (hlevel.trans h.metered.level_le) h.metered.level_le _ }

lemma after_add_le (h : b.Conforms burst rate log out now) (span : Duration) :
    (after log (now - span : ℤ) : ℚ) + out ≤ burst + rate * ((span : ℚ) / 1000000000) := by
  have hs : (now - span : ℤ) ≤ now := by omega
  have htok := h.tokens_nonneg
  have hspan : rate / 1000000000 * ((now : ℚ) - ((now - span : ℤ) : ℚ)) = rate * ((span : ℚ) / 1000000000) := by
    push_cast
    ring
  rcases Nat.eq_zero_or_pos out with rfl | hout
  · have hlevel : 0 ≤ b.tokens + ((0 : ℕ) : ℚ) := add_nonneg htok (cast_nonneg _)
    have hbound := h.metered.after_le hlevel h.last_le hs
    rw [hspan] at hbound
    rw [cast_zero, add_zero]
    exact hbound
  · have hlast := h.current hout
    have hbound := h.metered.bound (now - span) (hlast ▸ hs)
    rw [hlast, hspan] at hbound
    linarith

end Conforms

end DhtCrawler.RateBucket
