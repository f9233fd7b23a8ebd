import Mathlib.Algebra.Order.Group.Nat
import Mathlib.Data.List.Basic

/-! Events counted in windows of a fixed length that are opened lazily: an event that comes when the last window
is over opens another one. -/

namespace Window

open List

variable {span limit t a b : ℕ} {times : List ℕ}

def starts (span : ℕ) : List ℕ → List ℕ
  | [] => []
  | t :: times =>
    match starts span times with
    | [] => [t]
    | s :: past => if t < s + span then s :: past else t :: s :: past

lemma mem_of_mem_starts {s : ℕ} (hs : s ∈ starts span times) : s ∈ times := by
  induction times with
  | nil => simp [starts] at hs
  | cons t times ih =>
    cases hpast : starts span times with
    | nil => simp_all [starts]
    | cons first past =>
      rw [starts, hpast] at hs
      dsimp only at hs
      split_ifs at hs
      · exact mem_cons_of_mem t (ih (hpast ▸ hs))
      · rcases mem_cons.mp hs with rfl | hs
        · exact mem_cons_self
        · exact mem_cons_of_mem t (ih (hpast ▸ hs))

def count (times : List ℕ) (a b : ℕ) : ℕ := times.countP fun t => a ≤ t ∧ t < b

lemma count_cons_of_mem (ha : a ≤ t) (hb : t < b) : count (t :: times) a b = count times a b + 1 :=
  countP_cons_of_pos (by simp [ha, hb])

lemma count_cons_of_not_mem (h : ¬ (a ≤ t ∧ t < b)) : count (t :: times) a b = count times a b :=
  countP_cons_of_neg (by simpa using h)

lemma count_eq_zero (h : ∀ t ∈ times, t < a) : count times a b = 0 := by
  refine countP_eq_zero.mpr fun t ht => ?_
  have := h t ht
  simp
  omega

lemma count_le_add {a₁ b₁ a₂ b₂ : ℕ} (h : ∀ t ∈ times, a ≤ t → t < b → a₁ ≤ t ∧ t < b₁ ∨ a₂ ≤ t ∧ t < b₂) :
    count times a b ≤ count times a₁ b₁ + count times a₂ b₂ := by
  induction times with
  | nil => simp [count]
  | cons t times ih =>
    have ih := ih fun other hmem => h other (mem_cons_of_mem t hmem)
    have hhead := h t mem_cons_self
    simp only [count, countP_cons, decide_eq_true_eq] at ih ⊢
    split_ifs <;> omega

lemma count_mono {a₁ b₁ : ℕ} (h : ∀ t ∈ times, a ≤ t → t < b → a₁ ≤ t ∧ t < b₁) :
    count times a b ≤ count times a₁ b₁ :=
  countP_mono_left fun t ht hin => by
    simp only [decide_eq_true_eq] at hin ⊢
    exact h t ht hin.1 hin.2

/-- The last window was opened at `start` and holds `n` events; no window holds more than the limit. -/
structure Running (span limit : ℕ) (times : List ℕ) (start n : ℕ) : Prop where
  head : ∃ past, starts span times = start :: past ∧ ∀ s ∈ past, s + span ≤ start
  held : count times start (start + span) = n
  latest : ∀ t ∈ times, t < start + span
  before : count times (start + 1 - span) start ≤ limit
  windows : ∀ s ∈ starts span times, count times s (s + span) ≤ limit
  spread : ∀ a, count times a (a + span) ≤ 2 * limit

variable {start n : ℕ}

lemma Running.start_mem (h : Running span limit times start n) : start ∈ starts span times := by
  obtain ⟨past, hhead, -⟩ := h.head
  simp [hhead]

lemma spread_cons (hspread : ∀ a, count times a (a + span) ≤ 2 * limit) (hle : start ≤ t)
    (hlatest : ∀ x ∈ t :: times, x < start + span) (hheld : count (t :: times) start (start + span) ≤ limit)
    (hbefore : count (t :: times) (start + 1 - span) start ≤ limit) (a : ℕ) :
    count (t :: times) a (a + span) ≤ 2 * limit := by
  by_cases hin : a ≤ t ∧ t < a + span
  · have hcover : count (t :: times) a (a + span) ≤
        count (t :: times) (start + 1 - span) start + count (t :: times) start (start + span) := by
      refine count_le_add fun x hx ha hb => ?_
      have := hlatest x hx
      omega
    omega
  · rw [count_cons_of_not_mem hin]
    exact hspread a

lemma Running.extend (h : Running span limit times start n) (hn : n < limit) (hle : start ≤ t)
    (hlt : t < start + span) : Running span limit (t :: times) start (n + 1) := by
  obtain ⟨past, hhead, hpast⟩ := h.head
  have hstarts : starts span (t :: times) = start :: past := by simp [starts, hhead, hlt]
  have hheld : count (t :: times) start (start + span) = n + 1 := by rw [count_cons_of_mem hle hlt, h.held]
  have hlatest : ∀ x ∈ t :: times, x < start + span := by simpa [hlt] using h.latest
  have hbefore : count (t :: times) (start + 1 - span) start ≤ limit := by
    rw [count_cons_of_not_mem (by omega)]
    exact h.before
  refine ⟨⟨past, hstarts, hpast⟩, hheld, hlatest, hbefore, fun s hs => ?_,
    spread_cons h.spread hle hlatest (by omega) hbefore⟩
  rw [hstarts] at hs
  rcases mem_cons.mp hs with rfl | hs
  · omega
  · have hearlier := hpast s hs
    rw [count_cons_of_not_mem (by omega)]
    exact h.windows s (by simp [hhead, hs])

lemma Running.reopen (h : Running span limit times start n) (hspan : 0 < span) (hlimit : 1 ≤ limit)
    (hover : start + span ≤ t) : Running span limit (t :: times) t 1 := by
  obtain ⟨past, hhead, hpast⟩ := h.head
  have hstarts : starts span (t :: times) = t :: start :: past := by
    simp [starts, hhead, Nat.not_lt.mpr hover]
  have hearlier : ∀ x ∈ times, x < t := fun x hx => (h.latest x hx).trans_le hover
  have hheld : count (t :: times) t (t + span) = 1 := by
    rw [count_cons_of_mem le_rfl (by omega), count_eq_zero hearlier]
  have hlatest : ∀ x ∈ t :: times, x < t + span := by
    intro x hx
    rcases mem_cons.mp hx with rfl | hx
    · omega
    · have := hearlier x hx
      omega
  have hbefore : count (t :: times) (t + 1 - span) t ≤ limit := by
    rw [count_cons_of_not_mem (by omega)]
    refine (count_mono fun x hx ha _ => ?_).trans (h.windows start h.start_mem)
    have := h.latest x hx
    omega
  refine ⟨⟨start :: past, hstarts, ?_⟩, hheld, hlatest, hbefore, fun s hs => ?_,
    spread_cons h.spread le_rfl hlatest (by omega) hbefore⟩
  · intro s hs
    rcases mem_cons.mp hs with rfl | hs
    · exact hover
    · have := hpast s hs
      omega
  · rw [hstarts] at hs
    rcases mem_cons.mp hs with rfl | hs
    · omega
    · have hold : s + span ≤ t := by
        rcases mem_cons.mp hs with rfl | hs
        · exact hover
        · have := hpast s hs
          omega
      rw [count_cons_of_not_mem (by omega)]
      exact h.windows s (by simpa [hhead] using hs)

lemma running_single (hspan : 0 < span) (hlimit : 1 ≤ limit) (t : ℕ) : Running span limit [t] t 1 := by
  have hone (a b : ℕ) : count [t] a b ≤ 1 := countP_le_length
  refine ⟨⟨[], rfl, by simp⟩, ?_, by simpa using hspan, (hone _ _).trans hlimit, fun s _ => (hone _ _).trans hlimit,
    fun a => (hone _ _).trans (by omega)⟩
  rw [count_cons_of_mem le_rfl (by omega)]
  rfl

end Window
