import DhtCrawler.LibFiniteMap

/-! Secondary indexes of a finite map. An index of `m` lists, under a key computed from the entry, the names of
exactly the entries that pass a test. -/

namespace FiniteMap

open Option

variable {H K V : Type} [DecidableEq H] [DecidableEq K]

def IsIndex (index : FiniteMap K H) (m : FiniteMap H V) (p : V → Bool) (key : V → K) : Prop :=
  ∀ k h, index.get k = some h ↔ ∃ v, m.get h = some v ∧ p v = true ∧ key v = k

def KeyUnique (m : FiniteMap H V) (key : V → K) (h : H) (v : V) : Prop :=
  ∀ h' v', m.get h' = some v' → key v' = key v → h' = h

def Distinct (m : FiniteMap H V) (key : V → K) : Prop :=
  ∀ h v, m.get h = some v → KeyUnique m key h v

namespace Distinct

variable {m : FiniteMap H V} {key : V → K}

omit [DecidableEq K] in
lemma empty : Distinct (FiniteMap.empty : FiniteMap H V) key := by
  intro h v hv
  cases hv

omit [DecidableEq K] in
lemma insert (hm : m.Distinct key) {h : H} {v : V}
    (hnew : ∀ h' v', m.get h' = some v' → key v' = key v → h' = h) : (m.insert h v).Distinct key := by
  intro a va hva b vb hvb hk
  rw [get_insert] at hva hvb
  split_ifs at hva hvb with ha hb hb
  · rw [ha, hb]
  · cases hva
    rw [ha]
    exact hnew b vb hvb hk
  · cases hvb
    rw [hb]
    exact (hnew a va hva hk.symm).symm
  · exact hm a va hva b vb hvb hk

omit [DecidableEq K] in
lemma erase (hm : m.Distinct key) (h : H) : (m.erase h).Distinct key := by
  intro a va hva b vb hvb hk
  exact hm a va (get_of_get_erase hva).2 b vb (get_of_get_erase hvb).2 hk

end Distinct

namespace IsIndex

variable {index : FiniteMap K H} {m : FiniteMap H V} {p : V → Bool} {key : V → K}

lemma empty : IsIndex (FiniteMap.empty : FiniteMap K H) (FiniteMap.empty : FiniteMap H V) p key := by
  intro k h
  simp

variable {h : H} {v : V}

section

variable (hi : IsIndex index m p key)
include hi

lemma get_key (hv : m.get h = some v) (hp : p v = true) : index.get (key v) = some h :=
  (hi (key v) h).mpr ⟨v, hv, hp, rfl⟩

lemma key_eq (hv : m.get h = some v) {k : K} (hk : index.get k = some h) : k = key v := by
  obtain ⟨w, hw, _, rfl⟩ := (hi k h).mp hk
  rw [hv] at hw
  cases hw
  rfl

lemma get_iff (hv : m.get h = some v) (k : K) : index.get k = some h ↔ p v = true ∧ k = key v := by
  rw [hi k h]
  refine ⟨?_, fun hk => ⟨v, hv, hk.1, hk.2.symm⟩⟩
  intro hk
  obtain ⟨w, hw, hp, rfl⟩ := hk
  rw [hv] at hw
  cases hw
  exact ⟨hp, rfl⟩

lemma get_entry {k : K} (hk : index.get k = some h) : ∃ v, m.get h = some v := by
  obtain ⟨v, hv, _⟩ := (hi k h).mp hk
  exact ⟨v, hv⟩

/-- One name and one key change; the name was listed under no other key, and no other name has the key. -/
lemma change {index' : FiniteMap K H} {m' : FiniteMap H V} {k₀ : K} (hlost : ∀ k, index.get k = some h → k = k₀)
    (hunique : ∀ j w, m.get j = some w → key w = k₀ → j = h)
    (hindex : ∀ k, k ≠ k₀ → index'.get k = index.get k) (hm : ∀ j, j ≠ h → m'.get j = m.get j)
    (hkey : ∀ w, m'.get h = some w → p w = true → key w = k₀)
    (hat : ∀ j, index'.get k₀ = some j ↔ j = h ∧ (m'.get h).any p = true) : IsIndex index' m' p key := by
  intro k j
  by_cases hk : k = k₀ <;> by_cases hj : j = h
  · rw [hk, hat, hj, any_eq_true]
    refine ⟨fun ⟨_, w, hw, hp⟩ => ⟨w, hw, hp, hkey w hw hp⟩, fun ⟨w, hw, hp, _⟩ => ⟨rfl, w, hw, hp⟩⟩
  · rw [hk, hat, hm j hj]
    exact ⟨fun h => absurd h.1 hj, fun ⟨w, hw, _, hkw⟩ => absurd (hunique j w hw hkw) hj⟩
  · rw [hindex k hk, hj]
    exact ⟨fun h => absurd (hlost k h) hk, fun ⟨w, hw, hp, hkw⟩ => absurd (hkw.symm.trans (hkey w hw hp)) hk⟩
  · rw [hindex k hk, hm j hj]
    exact hi k j

lemma insert_listed (hnew : m.get h = none) (hp : p v = true) (hkey : KeyUnique m key h v) :
    IsIndex (index.insert (key v) h) (m.insert h v) p key := by
  refine hi.change (fun k hk => ?_) hkey (fun _ hk => get_insert_ne _ hk _) (fun _ hj => get_insert_ne _ hj _) ?_ ?_
  · obtain ⟨w, hw⟩ := hi.get_entry hk
    exact absurd (hnew.symm.trans hw) (some_ne_none w).symm
  · simp
  · simp [hp, eq_comm]

lemma insert_same {w : V} (hsame : ∀ k, (p w = true ∧ key w = k) ↔ ∃ v, m.get h = some v ∧ p v = true ∧ key v = k) :
    IsIndex index (m.insert h w) p key := by
  intro k j
  rw [hi k j]
  by_cases hj : j = h
  · subst hj
    simp [← hsame]
  · rw [get_insert_ne _ hj]

lemma insert_unlisted (hnew : m.get h = none) (hp : p v = false) : IsIndex index (m.insert h v) p key :=
  hi.insert_same fun k => by simp [hnew, hp]

lemma erase (hv : m.get h = some v) (hkey : KeyUnique m key h v) :
    IsIndex (index.erase (key v)) (m.erase h) p key := by
  refine hi.change (fun k hk => hi.key_eq hv hk) hkey (fun _ hk => get_erase_ne _ hk) (fun _ hj => get_erase_ne _ hj)
    ?_ ?_ <;> simp

lemma update {w : V} (hv : m.get h = some v) (hp : p w = p v) (hk : key w = key v) :
    IsIndex index (m.insert h w) p key :=
  hi.insert_same fun k => by simp [hv, hp, hk]

lemma get_key_none (hv : m.get h = some v) (hp : p v = false) (hkey : KeyUnique m key h v) :
    index.get (key v) = none := by
  rw [eq_none_iff_forall_ne_some]
  intro j hj
  obtain ⟨w, hw, hpw, hkw⟩ := (hi (key v) j).mp hj
  rw [hkey j w hw hkw, hv] at hw
  cases hw
  rw [hp] at hpw
  cases hpw

lemma replace {w : V} (hv : m.get h = some v) (hkey : KeyUnique m key h v) (hk : key w = key v) :
    IsIndex (if p w then index.insert (key v) h else index.erase (key v)) (m.insert h w) p key := by
  refine hi.change (fun k hk => hi.key_eq hv hk) hkey (fun k hk => ?_) (fun _ hj => get_insert_ne _ hj _) ?_ ?_
  · split_ifs
    · exact get_insert_ne _ hk _
    · exact get_erase_ne _ hk
  · simp [hk]
  · split_ifs with hp <;> simp [hp, eq_comm]

lemma len_eq_count : index.len = m.count p := by
  refine Finset.card_bij (fun k hk => (index.get k).get (by
    obtain ⟨h, hh⟩ := mem_keys.mp hk
    rw [hh]
    rfl)) ?_ ?_ ?_
  · intro k hk
    obtain ⟨h, hh⟩ := mem_keys.mp hk
    obtain ⟨v, hv, hp, _⟩ := (hi k h).mp hh
    simp only [hh, get_some]
    exact mem_filter_keys.mpr ⟨v, hv, hp⟩
  · intro k hk k' hk' heq
    obtain ⟨h, hh⟩ := mem_keys.mp hk
    obtain ⟨h', hh'⟩ := mem_keys.mp hk'
    simp only [hh, hh', get_some] at heq
    subst heq
    obtain ⟨v, hv, _, rfl⟩ := (hi k h).mp hh
    exact (hi.key_eq hv hh').symm
  · intro h hmem
    obtain ⟨v, hv, hp⟩ := mem_filter_keys.mp hmem
    have hget := hi.get_key hv hp
    exact ⟨key v, mem_keys_of_get hget, by simp only [hget, get_some]⟩

end

end IsIndex

end FiniteMap
