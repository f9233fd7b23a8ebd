import Mathlib.Logic.Equiv.Basic
import Mathlib.Order.WithBot
import Mathlib.Tactic.Common

/-! The order of a binary heap, on functions from positions to values. -/

namespace BinaryHeap

open Function

def parent (i : ℕ) : ℕ := (i - 1) / 2

lemma parent_lt {i : ℕ} (h : 0 < i) : parent i < i := by
  unfold parent
  omega

lemma parent_eq_iff {i j : ℕ} (h : 0 < j) : parent j = i ↔ j = 2 * i + 1 ∨ j = 2 * i + 2 := by
  unfold parent
  omega

variable {β : Type} [LinearOrder β] {f : ℕ → β} {i : ℕ}

def Ordered (f : ℕ → β) : Prop := ∀ j, 0 < j → f (parent j) ≤ f j

def DownOrdered (f : ℕ → β) (i : ℕ) : Prop :=
  (∀ j, 0 < j → parent j ≠ i → f (parent j) ≤ f j) ∧ ∀ j, 0 < i → 0 < j → parent j = i → f (parent i) ≤ f j

def UpOrdered (f : ℕ → β) (i : ℕ) : Prop :=
  (∀ j, 0 < j → j ≠ i → f (parent j) ≤ f j) ∧ ∀ j, 0 < i → 0 < j → parent j = i → f (parent i) ≤ f j

lemma Ordered.root_le (h : Ordered f) (j : ℕ) : f 0 ≤ f j := by
  induction j using Nat.strong_induction_on with
  | _ j ih =>
    rcases Nat.eq_zero_or_pos j with hj | hj
    · rw [hj]
    · exact (ih _ (parent_lt hj)).trans (h j hj)

/-! ### Sifting up -/

lemma UpOrdered.stop (h : UpOrdered f i) (hi : 0 < i → f (parent i) ≤ f i) : Ordered f := by
  intro j hj
  by_cases hji : j = i
  · rw [hji]
    exact hi (hji ▸ hj)
  · exact h.1 j hj hji

lemma UpOrdered.step (h : UpOrdered f i) (hi : 0 < i) (hlt : f i ≤ f (parent i)) :
    UpOrdered (f ∘ Equiv.swap (parent i) i) (parent i) := by
  have hp := parent_lt hi
  refine ⟨?_, ?_⟩
  · intro j hj hjp
    simp only [comp_apply]
    by_cases hji : j = i
    · rw [hji, Equiv.swap_apply_left, Equiv.swap_apply_right]
      exact hlt
    rw [Equiv.swap_apply_of_ne_of_ne hjp hji]
    by_cases hpi : parent j = i
    · rw [hpi, Equiv.swap_apply_right]
      exact h.2 j hi hj hpi
    by_cases hpp : parent j = parent i
    · rw [hpp, Equiv.swap_apply_left]
      exact hlt.trans (hpp ▸ h.1 j hj hji)
    · rw [Equiv.swap_apply_of_ne_of_ne hpp hpi]
      exact h.1 j hj hji
  · intro j hpos hj hjp
    have hpp := parent_lt hpos
    have hup : f (parent (parent i)) ≤ f (parent i) := h.1 _ hpos (by omega)
    simp only [comp_apply]
    rw [Equiv.swap_apply_of_ne_of_ne (by omega) (by omega)]
    by_cases hji : j = i
    · rw [hji, Equiv.swap_apply_right]
      exact hup
    · have hjlt := parent_lt hj
      rw [Equiv.swap_apply_of_ne_of_ne (by omega) hji]
      exact hup.trans (hjp ▸ h.1 j hj hji)

/-! ### Sifting down -/

lemma DownOrdered.stop (h : DownOrdered f i) (hl : f i ≤ f (2 * i + 1)) (hr : f i ≤ f (2 * i + 2)) :
    Ordered f := by
  intro j hj
  by_cases hp : parent j = i
  · rw [hp]
    rcases (parent_eq_iff hj).mp hp with hj' | hj'
    · rw [hj']
      exact hl
    · rw [hj']
      exact hr
  · exact h.1 j hj hp

lemma DownOrdered.step (h : DownOrdered f i) {c : ℕ} (hc : 0 < c) (hpc : parent c = i)
    (hl : f c ≤ f (2 * i + 1)) (hr : f c ≤ f (2 * i + 2)) (hlt : f c ≤ f i) :
    DownOrdered (f ∘ Equiv.swap i c) c := by
  have hic := hpc ▸ parent_lt hc
  have hbelow : ∀ j, 0 < j → parent j = i → f c ≤ f j := by
    intro j hj hp
    rcases (parent_eq_iff hj).mp hp with hj' | hj'
    · rw [hj']
      exact hl
    · rw [hj']
      exact hr
  refine ⟨?_, ?_⟩
  · intro j hj hpj
    simp only [comp_apply]
    by_cases hjc : j = c
    · rw [hjc, hpc, Equiv.swap_apply_left, Equiv.swap_apply_right]
      exact hlt
    by_cases hji : j = i
    · have hi : 0 < i := hji ▸ hj
      have hlt' := parent_lt hi
      rw [hji, Equiv.swap_apply_left, Equiv.swap_apply_of_ne_of_ne (by omega) (by omega)]
      exact h.2 c hi hc hpc
    rw [Equiv.swap_apply_of_ne_of_ne hji hjc]
    by_cases hp : parent j = i
    · rw [hp, Equiv.swap_apply_left]
      exact hbelow j hj hp
    · rw [Equiv.swap_apply_of_ne_of_ne hp hpj]
      exact h.1 j hj hp
  · intro j _ hj hpj
    have hjc := hpj ▸ parent_lt hj
    simp only [comp_apply]
    rw [hpc, Equiv.swap_apply_left, Equiv.swap_apply_of_ne_of_ne (by omega) (by omega)]
    have := h.1 j hj (by omega)
    rw [hpj] at this
    exact this

/-! ### Replacing a value -/

lemma Ordered.update_up (h : Ordered f) {x : β} (hx : ∀ j, 0 < j → parent j = i → x ≤ f j) :
    UpOrdered (Function.update f i x) i := by
  refine ⟨?_, ?_⟩
  · intro j hj hji
    rw [update_of_ne hji]
    by_cases hp : parent j = i
    · rw [hp, update_self]
      exact hx j hj hp
    · rw [update_of_ne hp]
      exact h j hj
  · intro j hi hj hp
    have hji := hp ▸ parent_lt hj
    rw [update_of_ne (parent_lt hi).ne, update_of_ne (by omega)]
    exact (h i hi).trans (hp ▸ h j hj)

lemma Ordered.update_down (h : Ordered f) {x : β} (hx : 0 < i → f (parent i) ≤ x) :
    DownOrdered (Function.update f i x) i := by
  refine ⟨?_, ?_⟩
  · intro j hj hp
    rw [update_of_ne hp]
    by_cases hji : j = i
    · rw [hji, update_self]
      exact hx (hji ▸ hj)
    · rw [update_of_ne hji]
      exact h j hj
  · intro j hi hj hp
    have hji := hp ▸ parent_lt hj
    rw [update_of_ne (parent_lt hi).ne, update_of_ne (by omega)]
    exact (h i hi).trans (hp ▸ h j hj)

/-! ### Lists of values -/

section Values

variable {α : Type} [LinearOrder α]

def value (l : List α) (i : ℕ) : WithTop α :=
  match l[i]? with
  | some x => x
  | none => ⊤

omit [LinearOrder α] in
lemma value_of_getElem? {l : List α} {i : ℕ} {x : α} (h : l[i]? = some x) : value l i = x := by
  unfold value
  rw [h]

omit [LinearOrder α] in
lemma value_of_le {l : List α} {i : ℕ} (h : l.length ≤ i) : value l i = ⊤ := by
  unfold value
  rw [List.getElem?_eq_none h]

omit [LinearOrder α] in
lemma value_set {l : List α} {i : ℕ} (h : i < l.length) (x : α) :
    value (l.set i x) = Function.update (value l) i (x : WithTop α) := by
  funext j
  by_cases hj : j = i
  · rw [hj, Function.update_self]
    exact value_of_getElem? (List.getElem?_set_self h)
  · rw [Function.update_of_ne hj]
    unfold value
    rw [List.getElem?_set_ne (Ne.symm hj)]

omit [LinearOrder α] in
lemma value_append (l : List α) (x : α) :
    value (l ++ [x]) = Function.update (value l) l.length (x : WithTop α) := by
  funext j
  by_cases hj : j = l.length
  · rw [hj, Function.update_self]
    exact value_of_getElem? (by simp)
  · rw [Function.update_of_ne hj]
    rcases Nat.lt_or_ge j l.length with hlt | hge
    · unfold value
      rw [List.getElem?_append_left hlt]
    · rw [value_of_le hge, value_of_le]
      rw [List.length_append, List.length_singleton]
      omega

omit [LinearOrder α] in
lemma value_dropLast (l : List α) : value l.dropLast = Function.update (value l) (l.length - 1) ⊤ := by
  funext j
  by_cases hj : j = l.length - 1
  · rw [hj, Function.update_self]
    exact value_of_le (by rw [List.length_dropLast])
  · rw [Function.update_of_ne hj]
    unfold value
    rw [List.getElem?_dropLast]
    split_ifs with hlt
    · rfl
    · rw [List.getElem?_eq_none (by omega)]

def exchange (l : List α) (i j : ℕ) (x y : α) : List α := (l.set i y).set j x

omit [LinearOrder α] in
lemma value_exchange {l : List α} {i j : ℕ} {x y : α} (hi : l[i]? = some x) (hj : l[j]? = some y) :
    value (exchange l i j x y) = value l ∘ Equiv.swap i j := by
  have hil := (List.getElem?_eq_some_iff.mp hi).1
  have hjl := (List.getElem?_eq_some_iff.mp hj).1
  unfold exchange
  rw [value_set (by rw [List.length_set]; exact hjl), value_set hil]
  funext k
  rw [Function.comp_apply]
  by_cases hkj : k = j
  · rw [hkj, Function.update_self, Equiv.swap_apply_right, value_of_getElem? hi]
  rw [Function.update_of_ne hkj]
  by_cases hki : k = i
  · rw [hki, Function.update_self, Equiv.swap_apply_left, value_of_getElem? hj]
  · rw [Function.update_of_ne hki, Equiv.swap_apply_of_ne_of_ne hki hkj]

lemma Ordered.dropLast {l : List α} (h : Ordered (value l)) : Ordered (value l.dropLast) := by
  rw [value_dropLast]
  intro j hj
  by_cases hlast : j = l.length - 1
  · rw [hlast, update_self]
    exact le_top
  rw [update_of_ne hlast]
  by_cases hp : parent j = l.length - 1
  · have hlt := parent_lt hj
    rw [value_of_le (by omega)]
    exact le_top
  · rw [update_of_ne hp]
    exact h j hj

lemma Ordered.append {l : List α} (h : Ordered (value l)) (x : α) : UpOrdered (value (l ++ [x])) l.length := by
  rw [value_append]
  refine h.update_up ?_
  intro j hj hp
  have hlt := parent_lt hj
  rw [value_of_le (by omega)]
  exact le_top

end Values

end BinaryHeap
