import Mathlib.Data.Finmap
import Mathlib.Data.Finset.Sort

/-! Finite maps with a simple key type, over `Finmap`. -/

structure Iteration (K : Type) where
  order : Finset K → List K
  perm : ∀ s, (order s : Multiset K) = s.val

structure FiniteMap (K V : Type) where
  toFinmap : Finmap fun _ : K => V

namespace Iteration

variable {K : Type}

lemma mem_order (i : Iteration K) {s : Finset K} {k : K} : k ∈ i.order s ↔ k ∈ s := by
  rw [← Multiset.mem_coe, i.perm, Finset.mem_val]

lemma nodup_order (i : Iteration K) (s : Finset K) : (i.order s).Nodup := by
  rw [← Multiset.coe_nodup, i.perm]
  exact s.nodup

def ascending [LinearOrder K] : Iteration K where
  order s := Quot.liftOn s.val (List.insertionSort (· ≤ ·)) fun l l' hperm =>
    List.Perm.eq_of_pairwise' (List.pairwise_insertionSort (· ≤ ·) l) (List.pairwise_insertionSort (· ≤ ·) l')
      ((List.perm_insertionSort _ l).trans (hperm.trans (List.perm_insertionSort _ l').symm))
  perm s := by
    obtain ⟨l, hl⟩ := Quot.exists_rep s.val
    rw [← hl]
    exact Quot.sound (List.perm_insertionSort (· ≤ ·) l)

end Iteration

namespace FiniteMap

section Basic

variable {K V : Type}

def empty : FiniteMap K V := ⟨∅⟩

def keys (m : FiniteMap K V) : Finset K := m.toFinmap.keys

def len (m : FiniteMap K V) : ℕ := m.keys.card

def retain (m : FiniteMap K V) (p : K → V → Bool) : FiniteMap K V :=
  ⟨⟨m.toFinmap.entries.filter fun e => p e.1 e.2, Multiset.nodup_keys.mp (Multiset.nodup_of_le
      (Multiset.map_le_map (Multiset.filter_le _ _)) (Multiset.nodup_keys.mpr m.toFinmap.nodupKeys))⟩⟩

@[simp]
lemma keys_empty : (empty : FiniteMap K V).keys = ∅ := Finmap.keys_empty

@[simp]
lemma len_empty : (empty : FiniteMap K V).len = 0 := by simp [len]

end Basic

variable {K V : Type} [DecidableEq K]

def get (m : FiniteMap K V) (k : K) : Option V := m.toFinmap.lookup k

def insert (m : FiniteMap K V) (k : K) (v : V) : FiniteMap K V := ⟨m.toFinmap.insert k v⟩

def erase (m : FiniteMap K V) (k : K) : FiniteMap K V := ⟨m.toFinmap.erase k⟩

def contains (m : FiniteMap K V) (k : K) : Bool := (m.get k).isSome

def count (m : FiniteMap K V) (p : V → Bool) : ℕ := (m.keys.filter fun k => (m.get k).any p).card

variable {m : FiniteMap K V} {j k : K} {v : V} {p : V → Bool}

@[ext]
lemma ext {n : FiniteMap K V} (h : ∀ k, m.get k = n.get k) : m = n := by
  cases m
  cases n
  exact congrArg mk (Finmap.ext_lookup h)

@[simp]
lemma get_empty (k : K) : (empty : FiniteMap K V).get k = none := Finmap.lookup_empty k

@[simp, grind =]
lemma get_insert (m : FiniteMap K V) (k j : K) (v : V) :
    (m.insert k v).get j = if j = k then some v else m.get j := by
  split_ifs with h
  · subst h
    exact Finmap.lookup_insert m.toFinmap
  · exact Finmap.lookup_insert_of_ne m.toFinmap h

lemma forall_insert {P : K → V → Prop} (hnew : P k v) (hold : ∀ j w, j ≠ k → m.get j = some w → P j w)
    (j : K) (w : V) (h : (m.insert k v).get j = some w) : P j w := by
  rw [get_insert] at h
  split_ifs at h with hj
  · cases h
    exact hj ▸ hnew
  · exact hold j w hj h

lemma get_insert_self (m : FiniteMap K V) (k : K) (v : V) : (m.insert k v).get k = some v := by
  rw [get_insert, if_pos rfl]

lemma get_insert_ne (m : FiniteMap K V) (h : j ≠ k) (v : V) : (m.insert k v).get j = m.get j := by
  rw [get_insert, if_neg h]

lemma get_insert_eq_update (m : FiniteMap K V) (k : K) (v : V) :
    (m.insert k v).get = Function.update m.get k (some v) := by
  funext j
  rw [get_insert, Function.update_apply]

@[simp, grind =]
lemma get_erase (m : FiniteMap K V) (k j : K) : (m.erase k).get j = if j = k then none else m.get j := by
  split_ifs with h
  · subst h
    exact Finmap.lookup_erase j m.toFinmap
  · exact Finmap.lookup_erase_ne h

lemma get_erase_self (m : FiniteMap K V) (k : K) : (m.erase k).get k = none := by
  rw [get_erase, if_pos rfl]

lemma get_erase_ne (m : FiniteMap K V) (h : j ≠ k) : (m.erase k).get j = m.get j := by
  rw [get_erase, if_neg h]

lemma get_of_get_erase (h : (m.erase k).get j = some v) : j ≠ k ∧ m.get j = some v := by
  rw [get_erase] at h
  split_ifs at h with hj
  exact ⟨hj, h⟩

@[simp]
lemma insert_insert (m : FiniteMap K V) (k : K) (v w : V) : (m.insert k v).insert k w = m.insert k w := by
  ext j : 1
  rw [get_insert, get_insert, get_insert]
  split_ifs <;> rfl

@[simp]
lemma erase_insert_self (m : FiniteMap K V) (k : K) (v : V) : (m.insert k v).erase k = m.erase k := by
  ext j : 1
  rw [get_erase, get_erase, get_insert]
  split_ifs <;> rfl

lemma insert_erase_self (m : FiniteMap K V) (k : K) (v : V) : (m.erase k).insert k v = m.insert k v := by
  refine ext fun j => ?_
  rw [get_insert, get_insert, get_erase]
  split_ifs <;> rfl

lemma insert_get_self (h : m.get k = some v) : m.insert k v = m := by
  refine ext fun j => ?_
  rw [get_insert]
  split_ifs with hj
  · rw [hj, h]
  · rfl

lemma mem_keys : k ∈ m.keys ↔ ∃ v, m.get k = some v :=
  Finmap.mem_keys.trans Finmap.mem_iff

lemma mem_keys_of_get (h : m.get k = some v) : k ∈ m.keys :=
  mem_keys.mpr ⟨v, h⟩

lemma notMem_keys : k ∉ m.keys ↔ m.get k = none := by
  rw [mem_keys, Option.eq_none_iff_forall_ne_some]
  exact not_exists

@[simp]
lemma keys_insert (m : FiniteMap K V) (k : K) (v : V) : (m.insert k v).keys = Insert.insert k m.keys := by
  ext j
  rw [Finset.mem_insert, mem_keys, mem_keys, get_insert]
  by_cases h : j = k <;> simp [h]

@[simp]
lemma keys_erase (m : FiniteMap K V) (k : K) : (m.erase k).keys = m.keys.erase k :=
  Finmap.keys_erase k m.toFinmap

lemma len_eq_zero : m.len = 0 ↔ ∀ k, m.get k = none := by
  rw [len, Finset.card_eq_zero, Finset.eq_empty_iff_forall_notMem]
  exact forall_congr' fun _ => notMem_keys

lemma len_insert_new (h : m.get k = none) (v : V) : (m.insert k v).len = m.len + 1 := by
  rw [len, keys_insert, Finset.card_insert_of_notMem (notMem_keys.mpr h), len]

lemma len_insert_old {w : V} (h : m.get k = some w) (v : V) : (m.insert k v).len = m.len := by
  rw [len, keys_insert, Finset.insert_eq_of_mem (mem_keys_of_get h), len]

lemma len_insert_le (m : FiniteMap K V) (k : K) (v : V) : (m.insert k v).len ≤ m.len + 1 := by
  rw [len, keys_insert]
  exact Finset.card_insert_le _ _

lemma len_erase_old (h : m.get k = some v) : (m.erase k).len + 1 = m.len := by
  rw [len, keys_erase, Finset.card_erase_add_one (mem_keys_of_get h), len]

lemma len_erase_le (m : FiniteMap K V) (k : K) : (m.erase k).len ≤ m.len := by
  rw [len, keys_erase]
  exact Finset.card_erase_le

lemma erase_of_get_none (h : m.get k = none) : m.erase k = m := by
  ext j : 1
  rw [get_erase]
  split_ifs with hj
  · rw [hj, h]
  · rfl

lemma contains_iff : m.contains k = true ↔ ∃ v, m.get k = some v :=
  Option.isSome_iff_exists

lemma contains_eq_false : m.contains k = false ↔ m.get k = none := by
  rw [contains, ← Bool.not_eq_true, Option.not_isSome_iff_eq_none]

@[simp]
lemma get_retain (m : FiniteMap K V) (p : K → V → Bool) (k : K) :
    (m.retain p).get k = (m.get k).filter (p k) := by
  have key : ∀ v, (m.retain p).get k = some v ↔ m.get k = some v ∧ p k v = true := by
    intro v
    rw [get, Finmap.lookup_eq_some_iff, get, Finmap.lookup_eq_some_iff, retain, Multiset.mem_filter]
  cases hk : m.get k with
  | none =>
    rw [Option.filter_none, Option.eq_none_iff_forall_ne_some]
    intro v hv
    rw [key, hk] at hv
    cases hv.1
  | some v =>
    cases hp : p k v with
    | true =>
      rw [Option.filter_some, if_pos hp, key]
      exact ⟨hk, hp⟩
    | false =>
      rw [Option.filter_some, if_neg (by simp [hp]), Option.eq_none_iff_forall_ne_some]
      intro w hw
      rw [key, hk] at hw
      obtain ⟨heq, hpw⟩ := hw
      cases heq
      rw [hp] at hpw
      cases hpw

lemma mem_filter_keys :
    (k ∈ m.keys.filter fun k => (m.get k).any p) ↔ ∃ v, m.get k = some v ∧ p v = true := by
  rw [Finset.mem_filter, mem_keys]
  constructor
  · rintro ⟨⟨v, hv⟩, hp⟩
    rw [hv] at hp
    exact ⟨v, hv, hp⟩
  · rintro ⟨v, hv, hp⟩
    exact ⟨⟨v, hv⟩, by rw [hv]; exact hp⟩

@[simp]
lemma count_empty (p : V → Bool) : (empty : FiniteMap K V).count p = 0 := by simp [count]

lemma count_insert_new (h : m.get k = none) (v : V) (p : V → Bool) :
    (m.insert k v).count p = m.count p + if p v then 1 else 0 := by
  have hset : ((m.insert k v).keys.filter fun j => ((m.insert k v).get j).any p) =
      if p v then Insert.insert k (m.keys.filter fun j => (m.get j).any p)
      else m.keys.filter fun j => (m.get j).any p := by
    ext j
    split_ifs with hp <;> rw [mem_filter_keys, get_insert] <;>
      simp only [Finset.mem_insert, mem_filter_keys] <;> grind
  rw [count, hset]
  split_ifs with hp
  · rw [Finset.card_insert_of_notMem, count]
    rw [mem_filter_keys, h]
    simp
  · rfl

lemma count_erase (h : m.get k = some v) (p : V → Bool) :
    (m.erase k).count p + (if p v then 1 else 0) = m.count p := by
  have hback : m = (m.erase k).insert k v := by
    ext j : 1
    simp only [get_insert, get_erase]
    grind
  have hnone : (m.erase k).get k = none := by simp
  conv_rhs => rw [hback, count_insert_new hnone]

lemma count_insert_old {w : V} (h : m.get k = some w) (v : V) (p : V → Bool) :
    (m.insert k v).count p + (if p w then 1 else 0) = m.count p + if p v then 1 else 0 := by
  have hsame : m.insert k v = (m.erase k).insert k v := by
    ext j : 1
    simp only [get_insert, get_erase]
    grind
  rw [hsame, count_insert_new (by simp), ← count_erase h p]
  omega

lemma count_eq_zero : m.count p = 0 ↔ ∀ k v, m.get k = some v → p v = false := by
  rw [count, Finset.card_eq_zero, Finset.eq_empty_iff_forall_notMem]
  constructor
  · intro h k v hv
    by_contra hp
    exact h k (mem_filter_keys.mpr ⟨v, hv, by simpa using hp⟩)
  · intro h k hk
    obtain ⟨v, hv, hp⟩ := mem_filter_keys.mp hk
    rw [h k v hv] at hp
    cases hp

lemma count_le_len (m : FiniteMap K V) (p : V → Bool) : m.count p ≤ m.len :=
  Finset.card_le_card (Finset.filter_subset _ _)

lemma count_congr {n : FiniteMap K V} {q : V → Bool} (h : ∀ k, (m.get k).any p = (n.get k).any q) :
    m.count p = n.count q := by
  have hset : (m.keys.filter fun k => (m.get k).any p) = n.keys.filter fun k => (n.get k).any q := by
    ext k
    have hk := h k
    rw [mem_filter_keys, mem_filter_keys]
    cases hm : m.get k <;> cases hn : n.get k <;> simp_all
  rw [count, count, hset]

lemma count_true (m : FiniteMap K V) : m.count (fun _ => true) = m.len := by
  have hset : (m.keys.filter fun k => (m.get k).any fun _ => true) = m.keys := by
    ext k
    rw [mem_filter_keys, mem_keys]
    simp
  rw [count, hset, len]

lemma count_or_add_count_and (m : FiniteMap K V) (p q : V → Bool) :
    m.count (fun v => p v || q v) + m.count (fun v => p v && q v) = m.count p + m.count q := by
  have hor : (m.keys.filter fun k => (m.get k).any fun v => p v || q v) =
      (m.keys.filter fun k => (m.get k).any p) ∪ m.keys.filter fun k => (m.get k).any q := by
    ext k
    simp only [Finset.mem_union, mem_filter_keys]
    cases m.get k <;> simp
  have hand : (m.keys.filter fun k => (m.get k).any fun v => p v && q v) =
      (m.keys.filter fun k => (m.get k).any p) ∩ m.keys.filter fun k => (m.get k).any q := by
    ext k
    simp only [Finset.mem_inter, mem_filter_keys]
    cases m.get k <;> simp
  rw [count, count, hor, hand]
  exact Finset.card_union_add_card_inter _ _

end FiniteMap

namespace Finset

variable {K : Type} [LinearOrder K]

def least (s : Finset K) : Option K := if h : s.Nonempty then some (s.min' h) else none

def greatest (s : Finset K) : Option K := if h : s.Nonempty then some (s.max' h) else none

variable {s : Finset K}

lemma least_eq_some_iff {k : K} : s.least = some k ↔ k ∈ s ∧ ∀ j ∈ s, k ≤ j := by
  unfold least
  split_ifs with h
  · rw [Option.some_inj]
    constructor
    · rintro rfl
      exact ⟨s.min'_mem h, fun j hj => s.min'_le j hj⟩
    · rintro ⟨hk, hle⟩
      exact le_antisymm (s.min'_le k hk) (hle _ (s.min'_mem h))
  · simp only [false_iff, not_and]
    intro hk
    exact absurd ⟨k, hk⟩ h

lemma least_eq_none_iff : s.least = none ↔ s = ∅ := by
  unfold least
  split_ifs with h
  · simp [h.ne_empty]
  · simpa using Finset.not_nonempty_iff_eq_empty.mp h

lemma greatest_eq_some_iff {k : K} : s.greatest = some k ↔ k ∈ s ∧ ∀ j ∈ s, j ≤ k := by
  unfold greatest
  split_ifs with h
  · rw [Option.some_inj]
    constructor
    · rintro rfl
      exact ⟨s.max'_mem h, fun j hj => s.le_max' j hj⟩
    · rintro ⟨hk, hle⟩
      exact le_antisymm (hle _ (s.max'_mem h)) (s.le_max' k hk)
  · simp only [false_iff, not_and]
    intro hk
    exact absurd ⟨k, hk⟩ h

lemma greatest_eq_none_iff : s.greatest = none ↔ s = ∅ := by
  unfold greatest
  split_ifs with h
  · simp [h.ne_empty]
  · simpa using Finset.not_nonempty_iff_eq_empty.mp h

end Finset

namespace FiniteMap

variable {K V : Type} [DecidableEq K] [LinearOrder K]

def first (m : FiniteMap K V) : Option (K × V) :=
  m.keys.least.bind fun k => (m.get k).map fun v => (k, v)

def last (m : FiniteMap K V) : Option (K × V) :=
  m.keys.greatest.bind fun k => (m.get k).map fun v => (k, v)

variable {m : FiniteMap K V}

lemma first_eq_some_iff {k : K} {v : V} : m.first = some (k, v) ↔ m.get k = some v ∧ ∀ j ∈ m.keys, k ≤ j := by
  simp only [first, Option.bind_eq_some_iff, Option.map_eq_some_iff, Prod.mk.injEq, Finset.least_eq_some_iff]
  refine ⟨?_, fun h => ⟨k, ⟨mem_keys_of_get h.1, h.2⟩, v, h.1, rfl, rfl⟩⟩
  intro h
  obtain ⟨j, ⟨_, hle⟩, w, hw, rfl, rfl⟩ := h
  exact ⟨hw, hle⟩

lemma first_eq_none_iff : m.first = none ↔ m.keys = ∅ := by
  rw [← Finset.least_eq_none_iff]
  cases hleast : m.keys.least with
  | none => simp [first, hleast]
  | some k =>
    obtain ⟨v, hv⟩ := mem_keys.mp (Finset.least_eq_some_iff.mp hleast).1
    simp [first, hleast, hv]

lemma last_eq_some_iff {k : K} {v : V} : m.last = some (k, v) ↔ m.get k = some v ∧ ∀ j ∈ m.keys, j ≤ k := by
  simp only [last, Option.bind_eq_some_iff, Option.map_eq_some_iff, Prod.mk.injEq, Finset.greatest_eq_some_iff]
  refine ⟨?_, fun h => ⟨k, ⟨mem_keys_of_get h.1, h.2⟩, v, h.1, rfl, rfl⟩⟩
  intro h
  obtain ⟨j, ⟨_, hle⟩, w, hw, rfl, rfl⟩ := h
  exact ⟨hw, hle⟩

lemma last_eq_none_iff : m.last = none ↔ m.keys = ∅ := by
  rw [← Finset.greatest_eq_none_iff]
  cases hgreatest : m.keys.greatest with
  | none => simp [last, hgreatest]
  | some k =>
    obtain ⟨v, hv⟩ := mem_keys.mp (Finset.greatest_eq_some_iff.mp hgreatest).1
    simp [last, hgreatest, hv]

end FiniteMap
