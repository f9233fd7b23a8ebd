import Mathlib.Data.Nat.Bitwise
import Mathlib.Data.List.Basic
import Mathlib.Order.Compare

/-! Byte strings as big-endian numbers: on strings of one length the lexicographic order, the bytewise exclusive or
and the bits are those of the numbers. -/

namespace BigEndian

open List Nat

variable {a b t : List UInt8}

variable {j : ℕ} {x y : UInt8}

def value : List UInt8 → ℕ
  | [] => 0
  | x :: xs => 2 ^ (8 * xs.length) * x.toNat + value xs

def cmp : List UInt8 → List UInt8 → Ordering
  | [], [] => .eq
  | [], _ :: _ => .lt
  | _ :: _, [] => .gt
  | x :: xs, y :: ys => (compare x y).then (cmp xs ys)

lemma value_lt (xs : List UInt8) : value xs < 2 ^ (8 * xs.length) := by
  induction xs with
  | nil => exact Nat.one_pos
  | cons x xs ih =>
    have hx : x.toNat + 1 ≤ 2 ^ 8 := x.toNat_lt
    calc value (x :: xs) < 2 ^ (8 * xs.length) * x.toNat + 2 ^ (8 * xs.length) :=
          Nat.add_lt_add_left ih _
      _ = 2 ^ (8 * xs.length) * (x.toNat + 1) := by rw [Nat.mul_add_one]
      _ ≤ 2 ^ (8 * xs.length) * 2 ^ 8 := Nat.mul_le_mul_left _ hx
      _ = 2 ^ (8 * (x :: xs).length) := by
          rw [← Nat.pow_add, length_cons, Nat.mul_add_one]

lemma testBit_cons (x : UInt8) (xs : List UInt8) (k : ℕ) :
    (value (x :: xs)).testBit k =
      if k < 8 * xs.length then (value xs).testBit k else x.toNat.testBit (k - 8 * xs.length) :=
  testBit_two_pow_mul_add _ (value_lt xs) k

lemma testBit_value {i : ℕ} (hi : i < a.length) (hj : j < 8) :
    (value a).testBit (8 * (a.length - 1 - i) + j) = (a.getD i 0).toNat.testBit j := by
  induction a generalizing i with
  | nil => exact absurd hi (Nat.not_lt_zero _)
  | cons x xs ih =>
    rw [testBit_cons]
    cases i with
    | zero =>
      rw [length_cons, Nat.add_sub_cancel, Nat.sub_zero, if_neg (by omega), getD_cons_zero]
      congr 1
      omega
    | succ i =>
      have hi' : i < xs.length := lt_of_succ_lt_succ hi
      rw [length_cons, if_pos (by omega), getD_cons_succ, ← ih hi']
      congr 1
      omega

lemma value_zipXor (h : a.length = b.length) : value (zipWith (· ^^^ ·) a b) = value a ^^^ value b := by
  induction a generalizing b with
  | nil =>
    rw [length_eq_zero_iff.mp h.symm]
    rfl
  | cons x xs ih =>
    cases b with
    | nil => cases h
    | cons y ys =>
      have hlen : xs.length = ys.length := succ_inj.mp h
      refine eq_of_testBit_eq fun k => ?_
      rw [zipWith_cons_cons, testBit_cons, ih hlen, testBit_xor, testBit_xor, testBit_cons,
        testBit_cons, UInt8.toNat_xor, testBit_xor, length_zipWith, hlen, Nat.min_self]
      split_ifs
      · rfl
      · rfl

lemma compare_byte (x y : UInt8) : compare x y = compare x.toNat y.toNat := by
  simp only [compare, compareOfLessAndEq, UInt8.lt_iff_toNat_lt, ← UInt8.toNat_inj]

lemma value_cons_lt {xs ys : List UInt8} (hlen : xs.length = ys.length)
    (hxy : x.toNat < y.toNat) : value (x :: xs) < value (y :: ys) :=
  calc value (x :: xs) < 2 ^ (8 * xs.length) * x.toNat + 2 ^ (8 * xs.length) :=
        Nat.add_lt_add_left (value_lt xs) _
    _ = 2 ^ (8 * xs.length) * (x.toNat + 1) := by rw [Nat.mul_add_one]
    _ ≤ 2 ^ (8 * xs.length) * y.toNat := Nat.mul_le_mul_left _ hxy
    _ ≤ value (y :: ys) := by
        rw [hlen]
        exact Nat.le_add_right _ _

lemma cmp_eq_compare (h : a.length = b.length) : cmp a b = compare (value a) (value b) := by
  induction a generalizing b with
  | nil =>
    rw [length_eq_zero_iff.mp h.symm]
    rfl
  | cons x xs ih =>
    cases b with
    | nil => cases h
    | cons y ys =>
      have hlen : xs.length = ys.length := succ_inj.mp h
      rw [cmp, compare_byte, ih hlen]
      rcases Nat.lt_trichotomy x.toNat y.toNat with hxy | hxy | hxy
      · rw [compare_lt_iff_lt.mpr hxy, compare_lt_iff_lt.mpr (value_cons_lt hlen hxy)]
        rfl
      · rw [compare_eq_iff_eq.mpr hxy, value, value, hxy, hlen]
        rcases Nat.lt_trichotomy (value xs) (value ys) with hv | hv | hv
        · rw [compare_lt_iff_lt.mpr hv, compare_lt_iff_lt.mpr (Nat.add_lt_add_left hv _)]
          rfl
        · rw [compare_eq_iff_eq.mpr hv, hv, compare_eq_iff_eq.mpr rfl]
          rfl
        · rw [compare_gt_iff_gt.mpr hv, compare_gt_iff_gt.mpr (Nat.add_lt_add_left hv _)]
          rfl
      · rw [compare_gt_iff_gt.mpr hxy, compare_gt_iff_gt.mpr (value_cons_lt hlen.symm hxy)]
        rfl

lemma value_inj (h : a.length = b.length) (hv : value a = value b) : a = b := by
  induction a generalizing b with
  | nil => exact (length_eq_zero_iff.mp h.symm).symm
  | cons x xs ih =>
    cases b with
    | nil => cases h
    | cons y ys =>
      have hlen : xs.length = ys.length := succ_inj.mp h
      rcases Nat.lt_trichotomy x.toNat y.toNat with hxy | hxy | hxy
      · exact absurd hv (value_cons_lt hlen hxy).ne
      · rw [value, value, hxy, hlen, Nat.add_left_cancel_iff] at hv
        rw [UInt8.toNat_inj.mp hxy, ih hlen hv]
      · exact absurd hv (value_cons_lt hlen.symm hxy).ne'

/-! ### Where two strings part -/

structure PartAt (w x y : ℕ) : Prop where
  zero : x.testBit w = false
  one : y.testBit w = true
  above : ∀ j, w < j → x.testBit j = y.testBit j

lemma PartAt.between {w x y z : ℕ} (h : PartAt w x y) (hxz : x ≤ z) (hzy : z ≤ y)
    (hj : w < j) : z.testBit j = x.testBit j := by
  have hsame : x >>> (w + 1) = y >>> (w + 1) := by
    refine eq_of_testBit_eq fun i => ?_
    rw [testBit_shiftRight, testBit_shiftRight]
    exact h.above _ (by omega)
  have hmid : z >>> (w + 1) = x >>> (w + 1) := by
    refine le_antisymm ?_ ?_
    · rw [hsame, shiftRight_eq_div_pow, shiftRight_eq_div_pow]
      exact Nat.div_le_div_right hzy
    · rw [shiftRight_eq_div_pow, shiftRight_eq_div_pow]
      exact Nat.div_le_div_right hxz
  have hbit := congrArg (fun v => v.testBit (j - (w + 1))) hmid
  simp only [testBit_shiftRight] at hbit
  rwa [Nat.add_sub_cancel' hj] at hbit

lemma PartAt.xor {w x y : ℕ} (h : PartAt w x y) (z : ℕ) :
    (z.testBit w = false → x ^^^ z < y ^^^ z) ∧ (z.testBit w = true → y ^^^ z < x ^^^ z) := by
  have habove : ∀ j, w < j → (x ^^^ z).testBit j = (y ^^^ z).testBit j := by
    intro j hj
    rw [testBit_xor, testBit_xor, h.above j hj]
  refine ⟨fun hz => lt_of_testBit w ?_ ?_ habove,
    fun hz => lt_of_testBit w ?_ ?_ fun j hj => (habove j hj).symm⟩
  · rw [testBit_xor, h.zero, hz]
    rfl
  · rw [testBit_xor, h.one, hz]
    rfl
  · rw [testBit_xor, h.one, hz]
    rfl
  · rw [testBit_xor, h.zero, hz]
    rfl

lemma testBit_eq_of_log2_lt (hj : (x ^^^ y).toNat.log2 < j) :
    x.toNat.testBit j = y.toNat.testBit j := by
  have hfalse : ((x ^^^ y).toNat).testBit j = false := by
    by_cases hzero : (x ^^^ y).toNat = 0
    · rw [hzero, zero_testBit]
    · exact testBit_lt_two_pow ((log2_lt hzero).mp hj)
  rw [UInt8.toNat_xor, testBit_xor] at hfalse
  simpa using hfalse

lemma partAt_of_first {i : ℕ} (hlen : a.length = b.length) (hi : i < a.length)
    (hbefore : ∀ k < i, a.getD k 0 = b.getD k 0) (hdiff : a.getD i 0 ≠ b.getD i 0) (hle : value a ≤ value b) :
    PartAt (8 * (a.length - 1 - i) + (a.getD i 0 ^^^ b.getD i 0).toNat.log2) (value a) (value b) := by
  generalize hx : (a.getD i 0 ^^^ b.getD i 0).toNat.log2 = l
  have hne : (a.getD i 0 ^^^ b.getD i 0).toNat ≠ 0 := by
    rw [UInt8.toNat_xor, Ne, Nat.xor_eq_zero_iff, UInt8.toNat_inj]
    exact hdiff
  have hl : l < 8 := by
    rw [← hx, log2_lt hne]
    exact UInt8.toNat_lt _
  have habove : ∀ j, 8 * (a.length - 1 - i) + l < j → (value a).testBit j = (value b).testBit j := by
    intro j hj
    by_cases hbig : 8 * a.length ≤ j
    · rw [testBit_lt_two_pow ((value_lt a).trans_le (Nat.pow_le_pow_right Nat.two_pos hbig)), testBit_lt_two_pow
          ((value_lt b).trans_le (Nat.pow_le_pow_right Nat.two_pos (hlen ▸ hbig)))]
    · have hsplit : j = 8 * (a.length - 1 - (a.length - 1 - j / 8)) + j % 8 := by omega
      have hk : a.length - 1 - j / 8 < a.length := by omega
      have hj8 : j % 8 < 8 := mod_lt _ (by decide)
      rw [hsplit, testBit_value hk hj8, hlen, testBit_value (hlen ▸ hk) hj8]
      by_cases hki : b.length - 1 - j / 8 < i
      · rw [hbefore _ hki]
      · have heq : b.length - 1 - j / 8 = i := by omega
        rw [heq]
        exact testBit_eq_of_log2_lt (by omega)
  have hparted : (value a).testBit (8 * (a.length - 1 - i) + l) ≠
      (value b).testBit (8 * (a.length - 1 - i) + l) := by
    rw [testBit_value hi hl, hlen, testBit_value (hlen ▸ hi) hl]
    have hbit := testBit_log2 hne
    rw [hx, UInt8.toNat_xor, testBit_xor] at hbit
    exact Bool.xor_iff_ne.mp hbit
  -- the other way round the second string would be the smaller one
  cases hzero : (value a).testBit (8 * (a.length - 1 - i) + l) with
  | false =>
    refine ⟨hzero, ?_, habove⟩
    rw [hzero] at hparted
    exact (Bool.not_eq_false _).mp hparted.symm
  | true =>
    rw [hzero] at hparted
    have hlt := lt_of_testBit _ ((Bool.not_eq_true _).mp hparted.symm) hzero
      fun j hj => (habove j hj).symm
    exact absurd hle (not_le.mpr hlt)

end BigEndian
