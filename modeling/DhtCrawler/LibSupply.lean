import Mathlib.Algebra.BigOperators.Intervals
import Mathlib.Algebra.Order.BigOperators.Group.Finset
import Mathlib.Data.Int.ConditionallyCompleteOrder
import Mathlib.Data.Int.Interval
import Mathlib.Tactic.Linarith

/-! Accounts that are filled at a changing rate. -/

namespace Supply

open List Finset

variable {cap level level' : ℚ} {rate rate' : ℤ → ℚ} {log : List (ℤ × ℤ)} {last last' s e t : ℤ}

noncomputable def supply (rate : ℤ → ℚ) (s e : ℤ) : ℚ := ∑ τ ∈ Finset.Ico s e, rate τ

def net (log : List (ℤ × ℤ)) (s e : ℤ) : ℤ := ((log.filter fun x => s < x.1 ∧ x.1 ≤ e).map Prod.snd).sum

lemma supply_nonneg (hrate : ∀ τ, 0 ≤ rate τ) (s e : ℤ) : 0 ≤ supply rate s e :=
  Finset.sum_nonneg fun τ _ => hrate τ

lemma supply_add (hst : s ≤ t) (hte : t ≤ e) : supply rate s t + supply rate t e = supply rate s e := by
  rw [supply, supply, ← sum_union (Ico_disjoint_Ico_consecutive s t e), Ico_union_Ico_eq_Ico hst hte, supply]

lemma supply_mono (hrate : ∀ τ, 0 ≤ rate τ) (s : ℤ) (hte : t ≤ e) : supply rate s t ≤ supply rate s e :=
  sum_le_sum_of_subset_of_nonneg (Ico_subset_Ico_right hte) fun τ _ _ => hrate τ

lemma supply_const {r : ℚ} (hconst : ∀ τ, s ≤ τ → rate τ = r) (hse : s ≤ e) : supply rate s e = (e - s) * r := by
  have hsum : supply rate s e = ∑ _τ ∈ Finset.Ico s e, r :=
    sum_congr rfl fun τ hτ => hconst τ (mem_Ico.mp hτ).1
  have hcard : (((e - s).toNat : ℕ) : ℚ) = e - s := by
    rw [← Int.cast_natCast, Int.toNat_of_nonneg (sub_nonneg.mpr hse), Int.cast_sub]
  rw [hsum, sum_const, Int.card_Ico, nsmul_eq_mul, hcard]

lemma supply_congr (hsame : ∀ τ < e, rate' τ = rate τ) (s : ℤ) : supply rate' s e = supply rate s e :=
  sum_congr rfl fun τ hτ => hsame τ (mem_Ico.mp hτ).2

lemma net_cons (t n : ℤ) (log : List (ℤ × ℤ)) (s e : ℤ) :
    net ((t, n) :: log) s e = (if s < t ∧ t ≤ e then n else 0) + net log s e := by
  unfold net
  rw [List.filter_cons]
  split_ifs with h₁ h₂ h₂
  · simp
  · exact absurd (of_decide_eq_true h₁) h₂
  · exact absurd (decide_eq_true h₂) h₁
  · simp

/-- The amounts of the log have been taken from a level filled at `rate`, the last of them at `last` or before.
-/
structure Account (cap : ℚ) (rate : ℤ → ℚ) (log : List (ℤ × ℤ)) (last : ℤ) (level : ℚ) : Prop where
  rate_nonneg : ∀ τ, 0 ≤ rate τ
  past : ∀ x ∈ log, x.2 ≠ 0 → x.1 ≤ last
  level_nonneg : 0 ≤ level
  level_le : level ≤ cap
  bound : ∀ s ≤ last, (net log s last : ℚ) + level ≤ cap + supply rate s last
  window : ∀ s e, e ≤ last → (net log s e : ℚ) ≤ cap + supply rate s e

lemma net_eq_net (hpast : ∀ x ∈ log, x.2 ≠ 0 → x.1 ≤ last) (hle : last ≤ e) : net log s e = net log s last := by
  induction log with
  | nil => rfl
  | cons x log ih =>
    obtain ⟨t, n⟩ := x
    obtain ⟨hfirst, hrest⟩ := List.forall_mem_cons.mp hpast
    rw [net_cons, net_cons, ih hrest]
    by_cases hn : n = 0
    · simp [hn]
    · have ht : t ≤ last := hfirst hn
      simp [ht, ht.trans hle]

lemma net_self (log : List (ℤ × ℤ)) (hle : e ≤ s) : net log s e = 0 := by
  have hnone : log.filter (fun x => s < x.1 ∧ x.1 ≤ e) = [] := by
    refine filter_eq_nil_iff.mpr fun x _ => ?_
    simp
    omega
  rw [net, hnone]
  rfl

lemma net_after (hpast : ∀ x ∈ log, x.2 ≠ 0 → x.1 ≤ last) (hle : last ≤ s) : net log s e = 0 := by
  rcases le_total e s with hes | hes
  · exact net_self log hes
  · rw [net_eq_net hpast (hle.trans hes), net_self log hle]

namespace Account

lemma nil (hrate : ∀ τ, 0 ≤ rate τ) (hlevel : 0 ≤ level) (hcap : level ≤ cap) (last : ℤ) :
    Account cap rate [] last level := by
  refine ⟨hrate, nofun, hlevel, hcap, fun s _ => ?_, fun s e _ => ?_⟩
  · have := supply_nonneg hrate s last
    simp only [net, filter_nil, map_nil, sum_nil, Int.cast_zero]
    linarith
  · have := supply_nonneg hrate s e
    simp only [net, filter_nil, map_nil, sum_nil, Int.cast_zero]
    linarith

section

variable (h : Account cap rate log last level)
include h

lemma net_le (s e : ℤ) : (net log s e : ℚ) ≤ cap + supply rate s e := by
  rcases le_total e last with hle | hle
  · exact h.window s e hle
  · have hcap := h.level_nonneg.trans h.level_le
    have hsupply := supply_nonneg h.rate_nonneg s e
    rcases le_total s last with hs | hs
    · have := h.bound s hs
      have := supply_mono h.rate_nonneg s hle
      have := h.level_nonneg
      rw [net_eq_net h.past hle]
      linarith
    · rw [net_after h.past hs, Int.cast_zero]
      linarith

lemma advance (hlast : last ≤ last') (hnonneg : 0 ≤ level') (hcap : level' ≤ cap)
    (hgain : level' ≤ level + supply rate last last') : Account cap rate log last' level' := by
  refine ⟨h.rate_nonneg, fun x hx hne => (h.past x hx hne).trans hlast, hnonneg, hcap, fun s hs => ?_,
    fun s e _ => h.net_le s e⟩
  rcases le_total s last with hle | hle
  · have := h.bound s hle
    rw [net_eq_net h.past hlast, ← supply_add hle hlast]
    linarith
  · have := supply_nonneg h.rate_nonneg s last'
    rw [net_after h.past hle, Int.cast_zero]
    linarith

lemma enter {n : ℤ} (hnonneg : 0 ≤ level - n) (hcap : level - n ≤ cap) :
    Account cap rate ((last, n) :: log) last (level - n) := by
  have hbound : ∀ s ≤ last, (net ((last, n) :: log) s last : ℚ) + (level - n) ≤ cap + supply rate s last := by
    intro s hs
    have := h.bound s hs
    rw [net_cons]
    split_ifs with hin
    · push_cast
      linarith
    · obtain rfl : s = last := by omega
      have := supply_nonneg h.rate_nonneg s s
      rw [net_self log le_rfl]
      push_cast
      linarith
  refine ⟨h.rate_nonneg, List.forall_mem_cons.mpr ⟨fun _ => le_rfl, h.past⟩, hnonneg, hcap, hbound,
    fun s e he => ?_⟩
  rcases eq_or_lt_of_le he with rfl | hlt
  · rcases le_total s e with hs | hs
    · have := hbound s hs
      linarith
    · have := supply_nonneg h.rate_nonneg s e
      rw [net_self _ hs, Int.cast_zero]
      linarith
  · rw [net_cons, if_neg (by omega), zero_add]
    exact h.window s e he

lemma idle (t : ℤ) : Account cap rate ((t, 0) :: log) last level := by
  have hnet : ∀ s e, net ((t, 0) :: log) s e = net log s e := by
    intro s e
    rw [net_cons, ite_self, zero_add]
  refine ⟨h.rate_nonneg, List.forall_mem_cons.mpr ⟨fun hne => absurd rfl hne, h.past⟩, h.level_nonneg, h.level_le,
    fun s hs => ?_, fun s e he => ?_⟩
  · rw [hnet]
    exact h.bound s hs
  · rw [hnet]
    exact h.window s e he

lemma switch (hrate : ∀ τ, 0 ≤ rate' τ) (hsame : ∀ τ < last, rate' τ = rate τ) :
    Account cap rate' log last level := by
  refine ⟨hrate, h.past, h.level_nonneg, h.level_le, fun s hs => ?_, fun s e he => ?_⟩
  · rw [supply_congr hsame]
    exact h.bound s hs
  · rw [supply_congr fun τ hτ => hsame τ (hτ.trans_le he)]
    exact h.window s e he

end

end Account

end Supply
