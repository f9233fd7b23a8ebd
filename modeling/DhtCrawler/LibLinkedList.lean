import Mathlib.Data.List.Nodup

/-! Doubly linked lists threaded through the elements. -/

namespace LinkedList

open List

variable {α : Type} {prev next prev' next' : α → Option α} {l a b : List α} {x : α}

def Linked (prev next : α → Option α) (l : List α) : Prop :=
  ∀ a x b, l = a ++ x :: b → prev x = a.getLast? ∧ next x = b.head?

lemma linked_nil : Linked prev next ([] : List α) := by
  intro a x b h
  exact absurd h.symm (by simp)

lemma Linked.congr (hl : Linked prev next l) (hp : ∀ y ∈ l, prev' y = prev y)
    (hn : ∀ y ∈ l, next' y = next y) : Linked prev' next' l := by
  intro a x b h
  have hx : x ∈ l := by simp [h]
  rw [hp x hx, hn x hx]
  exact hl a x b h

lemma getLast?_ne_of_notMem {y : α} (hy : y ∉ b) (hb : b ≠ []) : (a ++ y :: b).getLast? ≠ some y := by
  intro h
  rw [getLast?_append, getLast?_cons] at h
  obtain ⟨z, hz⟩ := Option.ne_none_iff_exists'.mp (mt getLast?_eq_none_iff.mp hb)
  simp only [hz, Option.getD_some, Option.some_or, Option.some_inj] at h
  exact hy (h ▸ mem_of_getLast? hz)

lemma Linked.append (hl : Linked prev next l) (hnd : l.Nodup) (hp : ∀ y ∈ l, prev' y = prev y)
    (hlast : ∀ y, l.getLast? = some y → next' y = some x) (hn : ∀ y ∈ l, l.getLast? ≠ some y → next' y = next y)
    (hpx : prev' x = l.getLast?) (hnx : next' x = none) : Linked prev' next' (l ++ [x]) := by
  intro a y b h
  rcases eq_nil_or_concat b with rfl | ⟨b', z, rfl⟩
  · obtain ⟨rfl, hxy⟩ := append_inj' h rfl
    cases hxy
    exact ⟨hpx, hnx⟩
  · rw [concat_eq_append, ← cons_append, ← append_assoc] at h
    obtain ⟨rfl, hxz⟩ := append_inj' h rfl
    cases hxz
    have hy : y ∈ a ++ y :: b' := by simp
    obtain ⟨hprev, hnext⟩ := hl a y b' rfl
    refine ⟨(hp y hy).trans hprev, ?_⟩
    rw [concat_eq_append]
    rcases b' with _ | ⟨w, b''⟩
    · exact hlast y (by simp)
    · have hyb : y ∉ w :: b'' := (nodup_cons.mp (nodup_append.mp hnd).2.1).1
      exact (hn y hy (getLast?_ne_of_notMem hyb (cons_ne_nil w b''))).trans hnext

lemma Linked.remove (hl : Linked prev next (a ++ x :: b)) (hnd : (a ++ x :: b).Nodup)
    (hlast : ∀ y, a.getLast? = some y → next' y = b.head?)
    (hn : ∀ y ∈ a ++ b, a.getLast? ≠ some y → next' y = next y)
    (hhead : ∀ y, b.head? = some y → prev' y = a.getLast?)
    (hp : ∀ y ∈ a ++ b, b.head? ≠ some y → prev' y = prev y) : Linked prev' next' (a ++ b) := by
  have hdisj : ∀ y ∈ a, y ∉ b := by
    intro y hya hyb
    exact (nodup_append.mp hnd).2.2 y hya y (mem_cons_of_mem x hyb) rfl
  intro c y d h
  have hmem : y ∈ a ++ b := by simp [h]
  rcases append_eq_append_iff.mp h with ⟨b', rfl, hb⟩ | ⟨a', rfl, hd⟩
  · -- the element lies in `b`
    obtain ⟨hprev, hnext⟩ := hl (a ++ x :: b') y d (by simp [hb])
    have hya : a.getLast? ≠ some y := by
      intro hy
      exact hdisj y (mem_of_getLast? hy) (by simp [hb])
    refine ⟨?_, (hn y hmem hya).trans hnext⟩
    rcases b' with _ | ⟨w, b''⟩
    · rw [hhead y (by simp [hb]), append_nil]
    · have hne : b.head? ≠ some y := by
        intro hy
        rw [hb] at hy
        cases hy
        rw [hb] at hnd
        have hnd' := (nodup_cons.mp (nodup_append.mp hnd).2.1).2
        exact (nodup_cons.mp hnd').1 (by simp)
      rw [hp y hmem hne, hprev]
      simp [getLast?_append, getLast?_cons]
  · rcases a' with _ | ⟨w, a''⟩
    · -- the element is the first of `b`
      rw [nil_append] at hd
      obtain ⟨hprev, hnext⟩ := hl (c ++ [] ++ [x]) y d (by simp [← hd])
      have hya : (c ++ []).getLast? ≠ some y := by
        intro hy
        exact hdisj y (mem_of_getLast? hy) (by simp [← hd])
      refine ⟨?_, (hn y hmem hya).trans hnext⟩
      rw [hhead y (by simp [← hd]), append_nil]
    · -- the element lies in `a`
      rw [cons_append] at hd
      obtain ⟨rfl, rfl⟩ := cons.inj hd
      obtain ⟨hprev, hnext⟩ := hl c y (a'' ++ x :: b) (by simp)
      have hyb : b.head? ≠ some y := by
        intro hy
        exact hdisj y (by simp) (mem_of_head? hy)
      refine ⟨(hp y hmem hyb).trans hprev, ?_⟩
      rcases a'' with _ | ⟨z, a'''⟩
      · rw [hlast y (by simp), nil_append]
      · have hne : (c ++ y :: z :: a''').getLast? ≠ some y := by
          refine getLast?_ne_of_notMem ?_ (cons_ne_nil z a''')
          have hnd' := (nodup_append.mp hnd).1
          exact (nodup_cons.mp (nodup_append.mp hnd').2.1).1
        rw [hn y hmem hne, hnext]
        rfl

end LinkedList
