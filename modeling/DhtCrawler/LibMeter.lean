import Mathlib.Tactic.Linarith
import Mathlib.Tactic.Positivity

/-! Metered logs. Events are paid for from a level that never exceeds `cap` and grows by at most `rate` per unit
of time; the log holds their times. -/

namespace Meter

open List

def after (log : List ℕ) (s : ℤ) : ℕ := log.countP fun t : ℕ => s < (t : ℤ)

def within (log : List ℕ) (s e : ℤ) : ℕ := log.countP fun t : ℕ => s < (t : ℤ) ∧ (t : ℤ) ≤ e

structure Metered (cap rate : ℚ) (log : List ℕ) (last : ℕ) (level : ℚ) : Prop where
  rate_nonneg : 0 ≤ rate
  past : ∀ t ∈ log, t ≤ last
  level_le : level ≤ cap
  bound : ∀ s : ℤ, s ≤ last → (after log s : ℚ) + level ≤ cap + rate * (last - s)
  window : ∀ s e : ℤ, s ≤ e → (within log s e : ℚ) ≤ cap + rate * (e - s)

namespace Metered

variable {cap rate level level' : ℚ} {log : List ℕ} {last last' : ℕ}

lemma nil (hrate : 0 ≤ rate) (hcap : 0 ≤ cap) (hlevel : level ≤ cap) (last : ℕ) :
    Metered cap rate [] last level := by
  refine ⟨hrate, nofun, hlevel, fun s hs => ?_, fun s e hse => ?_⟩
  · have hspan : (0 : ℚ) ≤ last - s := sub_nonneg.mpr (by exact_mod_cast hs)
    have hgrowth := mul_nonneg hrate hspan
    simp only [after, countP_nil, Nat.cast_zero]
    linarith
  · have hspan : (0 : ℚ) ≤ e - s := sub_nonneg.mpr (by exact_mod_cast hse)
    have hgrowth := mul_nonneg hrate hspan
    simp only [within, countP_nil, Nat.cast_zero]
    linarith

section

variable (h : Metered cap rate log last level)
include h

lemma after_eq_zero {s : ℤ} (hs : last ≤ s) : after log s = 0 := by
  refine countP_eq_zero.mpr fun t ht => ?_
  have hle := h.past t ht
  simp only [decide_eq_true_eq]
  omega

lemma after_le (hlevel : 0 ≤ level) {now : ℕ} (hnow : last ≤ now) {s : ℤ} (hs : s ≤ now) :
    (after log s : ℚ) ≤ cap + rate * (now - s) := by
  by_cases hs' : s ≤ last
  · have hbound := h.bound s hs'
    have hspan : (last : ℚ) - s ≤ now - s := sub_le_sub_right (by exact_mod_cast hnow) _
    have hmul := mul_le_mul_of_nonneg_left hspan h.rate_nonneg
    linarith
  · have hspan : (0 : ℚ) ≤ now - s := sub_nonneg.mpr (by exact_mod_cast hs)
    have hmul := mul_nonneg h.rate_nonneg hspan
    have hcap := h.level_le
    rw [h.after_eq_zero (by omega), Nat.cast_zero]
    linarith

lemma advance (hlast : last ≤ last') (hlevel : level' ≤ cap)
    (hgrowth : level' ≤ level + rate * (last' - last)) : Metered cap rate log last' level' := by
  refine ⟨h.rate_nonneg, fun t ht => (h.past t ht).trans hlast, hlevel, fun s hs => ?_, h.window⟩
  by_cases hs' : s ≤ last
  · have hbound := h.bound s hs'
    linarith
  · have hspan : (0 : ℚ) ≤ last' - s := sub_nonneg.mpr (by exact_mod_cast hs)
    have hmul := mul_nonneg h.rate_nonneg hspan
    rw [h.after_eq_zero (by omega), Nat.cast_zero]
    linarith

lemma lower (hle : level' ≤ level) : Metered cap rate log last level' :=
  h.advance (le_refl _) (hle.trans h.level_le) (by linarith)

end

lemma after_cons (t : ℕ) (s : ℤ) : after (t :: log) s = after log s + if s < t then 1 else 0 := by
  unfold after
  rw [countP_cons]
  simp

lemma within_le_after (s e : ℤ) : within log s e ≤ after log s :=
  countP_mono_left fun t _ ht => by simpa using (of_decide_eq_true ht).1

lemma spend (h : Metered cap rate log last level) (hlevel : 1 ≤ level) :
    Metered cap rate (last :: log) last (level - 1) := by
  have hle := h.level_le
  have hbound : ∀ s : ℤ, s ≤ last → (after (last :: log) s : ℚ) + (level - 1) ≤ cap + rate * (last - s) := by
    intro s hs
    have hb := h.bound s hs
    rw [after_cons]
    split_ifs
    · push_cast
      linarith
    · push_cast
      linarith
  refine ⟨h.rate_nonneg, ?_, by linarith, hbound, fun s e hse => ?_⟩
  · intro t ht
    rcases mem_cons.mp ht with rfl | ht
    · exact le_refl _
    · exact h.past t ht
  · by_cases hin : s < last ∧ (last : ℤ) ≤ e
    · -- the window ends after the last event, so it is covered by the bound
      have hb := hbound s hin.1.le
      have hcount : (within (last :: log) s e : ℚ) ≤ after (last :: log) s :=
        Nat.cast_le.mpr (within_le_after s e)
      have hspan : (last : ℚ) - s ≤ e - s := sub_le_sub_right (by exact_mod_cast hin.2) _
      have hmul := mul_le_mul_of_nonneg_left hspan h.rate_nonneg
      linarith
    · have hsame : within (last :: log) s e = within log s e := by
        unfold within
        rw [countP_cons, if_neg (by simpa using hin), Nat.add_zero]
      rw [hsame]
      exact h.window s e hse

end Metered

end Meter
