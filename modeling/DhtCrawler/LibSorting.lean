import Mathlib.Data.List.Sort

/-! Sorting by a key that tells all elements apart, so that the result does not depend on how it is computed. -/

namespace Sorting

open List Function

variable {α κ : Type} [LinearOrder κ] {key : α → κ} {l l' l₁ l₂ : List α}

def byKey (key : α → κ) (l : List α) : List α := l.mergeSort fun a b => decide (key a ≤ key b)

lemma byKey_perm (key : α → κ) (l : List α) : (byKey key l).Perm l := mergeSort_perm _ _

lemma le_trans_key (key : α → κ) (a b c : α) (hab : decide (key a ≤ key b) = true)
    (hbc : decide (key b ≤ key c) = true) : decide (key a ≤ key c) = true :=
  decide_eq_true ((of_decide_eq_true hab).trans (of_decide_eq_true hbc))

lemma le_total_key (key : α → κ) (a b : α) : (decide (key a ≤ key b) || decide (key b ≤ key a)) = true := by
  rw [Bool.or_eq_true, decide_eq_true_eq, decide_eq_true_eq]
  exact le_total _ _

lemma byKey_pairwise (key : α → κ) (l : List α) : (byKey key l).Pairwise fun a b => key a ≤ key b :=
  (pairwise_mergeSort (le_trans_key key) (le_total_key key) l).imp of_decide_eq_true

lemma eq_byKey (hkey : Injective key) (hperm : l'.Perm l)
    (hsorted : l'.Pairwise fun a b => key a ≤ key b) : l' = byKey key l :=
  Perm.eq_of_pairwise (fun _ _ _ _ hab hba => hkey (le_antisymm hab hba)) hsorted
    (byKey_pairwise key l) (hperm.trans (byKey_perm key l).symm)

lemma byKey_congr (hkey : Injective key) (hperm : l'.Perm l) : byKey key l' = byKey key l :=
  eq_byKey hkey ((byKey_perm key l').trans hperm) (byKey_pairwise key l')

lemma byKey_append (hkey : Injective key) (hlt : ∀ a ∈ l₁, ∀ b ∈ l₂, key a ≤ key b) :
    byKey key (l₁ ++ l₂) = byKey key l₁ ++ byKey key l₂ := by
  refine (eq_byKey hkey ((byKey_perm key l₁).append (byKey_perm key l₂)) ?_).symm
  refine pairwise_append.mpr ⟨byKey_pairwise key l₁, byKey_pairwise key l₂, fun a ha b hb => ?_⟩
  exact hlt a ((byKey_perm key l₁).mem_iff.mp ha) b ((byKey_perm key l₂).mem_iff.mp hb)

lemma takeWhile_of_pairwise {R : α → α → Prop} {test : α → Bool} (hl : l.Pairwise R)
    (htest : ∀ a ∈ l, ∀ b ∈ l, R a b → test b = true → test a = true) :
    (∀ a ∈ l.take (l.takeWhile test).length, test a = true) ∧
      ∀ b ∈ l.drop (l.takeWhile test).length, test b = false := by
  induction l with
  | nil => exact ⟨nofun, nofun⟩
  | cons a l ih =>
    obtain ⟨ha, hl⟩ := pairwise_cons.mp hl
    cases hpass : test a with
    | true =>
      obtain ⟨htake, hdrop⟩ := ih hl fun x hx y hy =>
        htest x (mem_cons_of_mem _ hx) y (mem_cons_of_mem _ hy)
      rw [takeWhile_cons_of_pos hpass, length_cons, take_succ_cons, drop_succ_cons]
      refine ⟨fun x hx => ?_, hdrop⟩
      rcases mem_cons.mp hx with rfl | hx
      · exact hpass
      · exact htake x hx
    | false =>
      rw [takeWhile_cons_of_neg (Bool.eq_false_iff.mp hpass), length_nil, take_zero, drop_zero]
      refine ⟨nofun, fun b hb => ?_⟩
      rcases mem_cons.mp hb with rfl | hb
      · exact hpass
      · refine Bool.eq_false_iff.mpr fun hbpass => ?_
        have hapass := htest a mem_cons_self b (mem_cons_of_mem _ hb) (ha b hb) hbpass
        rw [hpass] at hapass
        cases hapass

/-! ### The first elements -/

lemma take_cons_take (n : ℕ) (a : α) (l : List α) : (a :: l.take n).take n = (a :: l).take n := by
  cases n with
  | zero => rfl
  | succ n => rw [take_succ_cons, take_succ_cons, take_take, Nat.min_eq_left n.le_succ]

lemma take_merge (le : α → α → Bool) (n : ℕ) (l₁ l₂ : List α) :
    (List.merge (l₁.take n) (l₂.take n) le).take n = (List.merge l₁ l₂ le).take n := by
  induction n generalizing l₁ l₂ with
  | zero => rfl
  | succ n ih =>
    cases l₁ with
    | nil => rw [take_nil, nil_merge, nil_merge, take_take, Nat.min_self]
    | cons a l₁ =>
      cases l₂ with
      | nil => rw [take_nil, merge_right, merge_right, take_take, Nat.min_self]
      | cons b l₂ =>
        rw [take_succ_cons, take_succ_cons, cons_merge_cons, cons_merge_cons]
        split_ifs
        · rw [take_succ_cons, take_succ_cons, ← ih l₁ (b :: l₂), ← ih (l₁.take n),
            take_cons_take, take_take, Nat.min_self]
        · rw [take_succ_cons, take_succ_cons, ← ih (a :: l₁) l₂, ← ih (a :: l₁.take n),
            take_cons_take, take_take, Nat.min_self]

lemma byKey_append_eq_merge (hkey : Injective key)
    (h₁ : l₁.Pairwise fun a b => key a ≤ key b) (h₂ : l₂.Pairwise fun a b => key a ≤ key b) :
    byKey key (l₁ ++ l₂) = List.merge l₁ l₂ fun a b => decide (key a ≤ key b) := by
  refine (eq_byKey hkey (merge_perm_append _) ?_).symm
  have hmerge := pairwise_merge (le_trans_key key) (le_total_key key) l₁ l₂
    (h₁.imp decide_eq_true) (h₂.imp decide_eq_true)
  exact hmerge.imp of_decide_eq_true

lemma take_byKey_append (hkey : Injective key) (n : ℕ) (l₁ l₂ : List α) :
    (byKey key ((byKey key l₁).take n ++ (byKey key l₂).take n)).take n = (byKey key (l₁ ++ l₂)).take n := by
  have hall : byKey key (l₁ ++ l₂) = byKey key (byKey key l₁ ++ byKey key l₂) :=
    byKey_congr hkey ((byKey_perm key l₁).append (byKey_perm key l₂)).symm
  rw [hall, byKey_append_eq_merge hkey (byKey_pairwise key l₁) (byKey_pairwise key l₂),
    byKey_append_eq_merge hkey ((byKey_pairwise key l₁).take) ((byKey_pairwise key l₂).take), take_merge]

end Sorting
