import Mathlib.Data.Finset.Basic

/-! Searches that ask every key once: the seeds in order, then elements of a frontier in any order; what is learned
goes to the frontier unless its key was seen before. -/

namespace Search

open List

variable {α κ : Type} {key : α → κ} {seeds asked sources frontier : List α} {seen : Finset κ} {x : α}

lemma unseen_cons [DecidableEq κ] {xs : List α} (hx : key x ∉ seen) (hnodup : (xs.map key).Nodup)
    (hxs : ∀ y ∈ xs, key y ∉ insert (key x) seen) :
    ((x :: xs).map key).Nodup ∧ ∀ y ∈ x :: xs, key y ∉ seen := by
  constructor
  · rw [map_cons]
    refine hnodup.cons fun hmem => ?_
    obtain ⟨y, hy, hkey⟩ := mem_map.mp hmem
    exact hxs y hy (hkey ▸ Finset.mem_insert_self _ _)
  · exact forall_mem_cons.mpr ⟨hx, fun y hy hmem => hxs y hy (Finset.mem_insert_of_mem hmem)⟩

structure Progress (key : α → κ) (seeds asked sources frontier : List α) (seen : Finset κ) : Prop where
  distinct : ((asked ++ (sources ++ frontier)).map key).Nodup
  seen : ∀ x ∈ asked ++ (sources ++ frontier), key x ∈ seen
  order : ∃ taken later, seeds = taken ++ sources ∧ asked = later ++ taken.reverse ∧ (later = [] ∨ sources = [])

namespace Progress

lemma start (hdistinct : ((sources ++ frontier).map key).Nodup)
    (hseen : ∀ x ∈ sources ++ frontier, key x ∈ seen) : Progress key sources [] sources frontier seen :=
  ⟨hdistinct, hseen, [], [], rfl, rfl, .inl rfl⟩

lemma ask_perm (h : Progress key seeds asked sources frontier seen) {sources' frontier' : List α}
    (hperm : (x :: (sources' ++ frontier')).Perm (sources ++ frontier)) :
    ((x :: asked ++ (sources' ++ frontier')).map key).Nodup ∧
      ∀ y ∈ x :: asked ++ (sources' ++ frontier'), key y ∈ seen := by
  have hall : (x :: asked ++ (sources' ++ frontier')).Perm (asked ++ (sources ++ frontier)) :=
    perm_middle.symm.trans (hperm.append_left asked)
  exact ⟨(hall.map key).nodup_iff.mpr h.distinct, fun y hy => h.seen y (hall.mem_iff.mp hy)⟩

lemma askSource (h : Progress key seeds asked (x :: sources) frontier seen) :
    Progress key seeds (x :: asked) sources frontier seen := by
  obtain ⟨hdistinct, hseen⟩ := h.ask_perm (x := x) (.refl (x :: (sources ++ frontier)))
  obtain ⟨taken, later, hseeds, hasked, hlater⟩ := h.order
  have hnone : later = [] := hlater.resolve_right (cons_ne_nil _ _)
  subst hnone
  refine ⟨hdistinct, hseen, taken ++ [x], [], ?_, ?_, .inl rfl⟩
  · rw [hseeds, append_assoc, singleton_append]
  · rw [hasked, reverse_append, reverse_singleton, singleton_append]
    rfl

lemma askFrontier (h : Progress key seeds asked [] frontier seen) {rest : List α}
    (hperm : (x :: rest).Perm frontier) : Progress key seeds (x :: asked) [] rest seen := by
  have hall : (x :: ([] ++ rest)).Perm ([] ++ frontier) := hperm
  obtain ⟨hdistinct, hseen⟩ := h.ask_perm hall
  obtain ⟨taken, later, hseeds, hasked, -⟩ := h.order
  refine ⟨hdistinct, hseen, taken, x :: later, hseeds, ?_, .inr rfl⟩
  rw [hasked, cons_append]

lemma learn [DecidableEq κ] (h : Progress key seeds asked sources frontier seen) {added : List α}
    (hdistinct : (added.map key).Nodup) (hnew : ∀ y ∈ added, key y ∉ seen) :
    Progress key seeds asked sources (frontier ++ added) (seen ∪ (added.map key).toFinset) := by
  have hassoc : asked ++ (sources ++ (frontier ++ added)) = asked ++ (sources ++ frontier) ++ added := by
    simp only [append_assoc]
  refine ⟨?_, fun y hy => ?_, h.order⟩
  · rw [hassoc, map_append]
    refine h.distinct.append hdistinct fun k hold hadded => ?_
    obtain ⟨y, hy, rfl⟩ := mem_map.mp hold
    obtain ⟨z, hz, hkey⟩ := mem_map.mp hadded
    exact hnew z hz (hkey ▸ h.seen y hy)
  · rw [hassoc] at hy
    rcases mem_append.mp hy with hold | hadded
    · exact Finset.mem_union_left _ (h.seen y hold)
    · exact Finset.mem_union_right _ (mem_toFinset.mpr (mem_map_of_mem hadded))

section

variable (h : Progress key seeds asked sources frontier seen)
include h

lemma asked_nodup : (asked.map key).Nodup := by
  have hdistinct := h.distinct
  rw [map_append] at hdistinct
  exact hdistinct.of_append_left

lemma take_seeds : asked.reverse.take seeds.length = seeds.take asked.length := by
  obtain ⟨taken, later, rfl, rfl, hlater⟩ := h.order
  rcases hlater with rfl | rfl
  · simp
  · simp

lemma sources_eq_nil (hlength : seeds.length ≤ asked.length) : sources = [] := by
  obtain ⟨taken, later, rfl, rfl, hlater⟩ := h.order
  rcases hlater with rfl | rfl
  · rw [length_append, nil_append, length_reverse] at hlength
    exact length_eq_zero_iff.mp (by omega)
  · rfl

end

end Progress

end Search
