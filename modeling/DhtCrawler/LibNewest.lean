import Mathlib.Data.List.Sort

/-! The newest subjects of a stream of announcements. -/

namespace Newest

open List

section

variable {C α τ : Type} [LinearOrder τ] {subject : C → α} {time : C → τ} {k : ℕ}
  {seen seen' kept kept' : List C}

/-- `kept` are the `k` newest subjects of the announcements `seen`, each with its last announcement. -/
structure IsNewest (subject : C → α) (time : C → τ) (k : ℕ) (seen kept : List C) : Prop where
  sorted : kept.Pairwise fun a b => time b < time a
  length_le : kept.length ≤ k
  mem : ∀ p ∈ kept, p ∈ seen
  last : ∀ p ∈ kept, ∀ q ∈ seen, subject q = subject p → time q ≤ time p
  left : ∀ q ∈ seen, (∃ p ∈ kept, subject p = subject q) ∨ kept.length = k ∧ ∀ p ∈ kept, time q < time p

def TellsApart (time : C → τ) (seen : List C) : Prop := ∀ p ∈ seen, ∀ q ∈ seen, time p = time q → p = q

lemma isNewest_nil (subject : C → α) (time : C → τ) (k : ℕ) : IsNewest subject time k [] [] :=
  ⟨.nil, Nat.zero_le k, nofun, nofun, nofun⟩

section

variable (h : IsNewest subject time k seen kept)
include h

lemma IsNewest.congr (hseen : ∀ q, q ∈ seen' ↔ q ∈ seen) : IsNewest subject time k seen' kept :=
  ⟨h.sorted, h.length_le, fun p hp => (hseen p).mpr (h.mem p hp),
    fun p hp q hq => h.last p hp q ((hseen q).mp hq), fun q hq => h.left q ((hseen q).mp hq)⟩

lemma IsNewest.nodup : kept.Nodup := by
  refine h.sorted.imp fun {a b} hlt heq => ?_
  rw [heq] at hlt
  exact lt_irrefl _ hlt

lemma IsNewest.eq_of_subject (h' : IsNewest subject time k seen kept') (htimes : TellsApart time seen)
    {p q : C} (hp : p ∈ kept) (hq : q ∈ kept') (hsubject : subject p = subject q) : p = q := by
  have hle := h.last p hp q (h'.mem q hq) hsubject.symm
  have hge := h'.last q hq p (h.mem p hp) hsubject
  exact htimes p (h.mem p hp) q (h'.mem q hq) (le_antisymm hge hle)

lemma IsNewest.subset (h' : IsNewest subject time k seen kept') (htimes : TellsApart time seen) :
    kept ⊆ kept' := by
  intro p hp
  rcases h'.left p (h.mem p hp) with ⟨q, hq, hsubject⟩ | ⟨hfull, hnewer⟩
  · rw [h.eq_of_subject h' htimes hp hq hsubject.symm]
    exact hq
  -- `kept'` is full of newer ones, which `kept` has no reason to leave out: it would be too long
  have hsub : p :: kept' ⊆ kept := by
    refine cons_subset.mpr ⟨hp, fun q hq => ?_⟩
    rcases h.left q (h'.mem q hq) with ⟨r, hr, hsubject⟩ | ⟨_, holder⟩
    · rw [← h.eq_of_subject h' htimes hr hq hsubject]
      exact hr
    · exact absurd (holder p hp) (lt_asymm (hnewer q hq))
  have hnew : p ∉ kept' := fun hmem => lt_irrefl _ (hnewer p hmem)
  have hlong := (subperm_of_subset (nodup_cons.mpr ⟨hnew, h'.nodup⟩) hsub).length_le
  rw [length_cons, hfull] at hlong
  exact absurd h.length_le (Nat.not_le_of_lt hlong)

lemma IsNewest.unique (h' : IsNewest subject time k seen kept') (htimes : TellsApart time seen) :
    kept = kept' := by
  have hperm : kept.Perm kept' := by
    refine (perm_ext_iff_of_nodup h.nodup h'.nodup).mpr fun p => ?_
    exact ⟨fun hp => h.subset h' htimes hp, fun hp => h'.subset h htimes hp⟩
  exact hperm.eq_of_pairwise (fun _ _ _ _ hab hba => absurd hab (lt_asymm hba)) h.sorted h'.sorted

end

end

/-! ### The next announcement -/

section

variable {C α τ : Type} [DecidableEq α] [LinearOrder τ] {subject : C → α} {time : C → τ} {k : ℕ}
  {seen kept full : List C} {next renewed : C}

structure Extended (subject : C → α) (time : C → τ) (kept : List C) (renewed : C) (full : List C) : Prop where
  sorted : full.Pairwise fun a b => time b < time a
  perm : full.Perm (kept.filter (fun p => subject p ≠ subject renewed) ++ [renewed])

namespace Extended

section

variable (h : Extended subject time kept renewed full)
include h

lemma mem_iff {p : C} : p ∈ full ↔ (p ∈ kept ∧ subject p ≠ subject renewed) ∨ p = renewed := by
  rw [h.perm.mem_iff, mem_append, mem_filter, mem_singleton, decide_eq_true_eq]

lemma lt_of_cut {p q : C} (hp : p ∈ full.take k) (hq : q ∈ full.drop k) : time q < time p := by
  have hsorted := h.sorted
  rw [← take_append_drop k full] at hsorted
  exact (pairwise_append.mp hsorted).2.2 p hp q hq

lemma stays_or_cut {p : C} (hp : p ∈ full) :
    p ∈ full.take k ∨ (full.take k).length = k ∧ ∀ q ∈ full.take k, time p < time q := by
  rw [← take_append_drop k full] at hp
  rcases mem_append.mp hp with htake | hdrop
  · exact .inl htake
  · have hpos := length_pos_of_mem hdrop
    rw [length_drop] at hpos
    refine .inr ⟨?_, fun q hq => h.lt_of_cut hq hdrop⟩
    rw [length_take]
    omega

lemma length_ge (hnodup : kept.Nodup) (hone : ∀ p ∈ kept, ∀ q ∈ kept, subject p = subject q → p = q) :
    kept.length ≤ full.length := by
  by_cases hold : ∃ r ∈ kept, subject r = subject renewed
  · obtain ⟨r, hr, hsubject⟩ := hold
    have hsub : kept ⊆ r :: kept.filter (fun p => subject p ≠ subject renewed) := by
      intro p hp
      by_cases hsame : subject p = subject renewed
      · rw [hone p hp r hr (hsame.trans hsubject.symm)]
        exact mem_cons_self
      · exact mem_cons_of_mem _ (mem_filter.mpr ⟨hp, decide_eq_true hsame⟩)
    have hle := (subperm_of_subset hnodup hsub).length_le
    rw [h.perm.length_eq, length_append]
    exact hle
  · have hsub : kept ⊆ full := fun p hp =>
      h.mem_iff.mpr (.inl ⟨hp, fun hsame => hold ⟨p, hp, hsame⟩⟩)
    exact (subperm_of_subset hnodup hsub).length_le

lemma exists_cut (hfull : kept.length = k) (hnew : ∀ p ∈ kept, subject p ≠ subject renewed)
    (hstays : renewed ∈ full.take k) : ∃ p ∈ kept, time p < time renewed := by
  have hall : kept.filter (fun p => decide (subject p ≠ subject renewed)) = kept :=
    filter_eq_self.mpr fun p hp => decide_eq_true (hnew p hp)
  have hlength : (full.drop k).length = 1 := by
    rw [length_drop, h.perm.length_eq, hall, length_append, length_singleton, hfull]
    omega
  obtain ⟨p, hp⟩ := length_pos_iff_exists_mem.mp (hlength ▸ Nat.one_pos)
  have hlt := h.lt_of_cut hstays hp
  rcases h.mem_iff.mp (mem_of_mem_drop hp) with ⟨hkept, _⟩ | rfl
  · exact ⟨p, hkept, hlt⟩
  · exact absurd hlt (lt_irrefl _)

end

end Extended

structure Renews (subject : C → α) (time : C → τ) (kept : List C) (next renewed : C) : Prop where
  subject_eq : subject renewed = subject next
  mem : renewed = next ∨ renewed ∈ kept
  next_le : time next ≤ time renewed
  kept_le : ∀ p ∈ kept, subject p = subject next → time p ≤ time renewed

lemma IsNewest.announce (h : IsNewest subject time k seen kept) (htimes : TellsApart time seen)
    (hrenews : Renews subject time kept next renewed) (hfull : Extended subject time kept renewed full) :
    IsNewest subject time k (next :: seen) (full.take k) := by
  have hkept : ∀ p ∈ full.take k, (p ∈ kept ∧ subject p ≠ subject renewed) ∨ p = renewed :=
    fun p hp => hfull.mem_iff.mp (mem_of_mem_take hp)
  -- something older than all that was kept is older than the renewed announcement, if that one stays
  have holder : renewed ∈ full.take k → kept.length = k → ∀ q : C, (∀ p ∈ kept, time q < time p) →
      time q < time renewed := by
    intro hstays hlength q hnewer
    by_cases hold : ∃ r ∈ kept, subject r = subject renewed
    · obtain ⟨r, hr, hsubject⟩ := hold
      exact (hnewer r hr).trans_le (hrenews.kept_le r hr (hsubject.trans hrenews.subject_eq))
    · obtain ⟨p, hp, hlt⟩ := hfull.exists_cut hlength (fun p hp hsame => hold ⟨p, hp, hsame⟩) hstays
      exact (hnewer p hp).trans hlt
  refine ⟨hfull.sorted.sublist (take_sublist _ _), length_take_le _ _, fun p hp => ?_,
    fun p hp q hq hsubject => ?_, fun q hq => ?_⟩
  · rcases hkept p hp with ⟨hold, _⟩ | rfl
    · exact mem_cons_of_mem _ (h.mem p hold)
    · rcases hrenews.mem with rfl | hold
      · exact mem_cons_self
      · exact mem_cons_of_mem _ (h.mem _ hold)
  · rcases hkept p hp with ⟨hold, hother⟩ | rfl
    · rcases mem_cons.mp hq with rfl | hq
      · exact absurd (hrenews.subject_eq.trans hsubject).symm hother
      · exact h.last p hold q hq hsubject
    · rcases mem_cons.mp hq with rfl | hq
      · exact hrenews.next_le
      rcases h.left q hq with ⟨r, hr, hsame⟩ | ⟨hlength, hnewer⟩
      · exact (h.last r hr q hq hsame.symm).trans
          (hrenews.kept_le r hr ((hsame.trans hsubject).trans hrenews.subject_eq))
      · exact (holder hp hlength q hnewer).le
  · have hvia : ∀ p ∈ full, subject p = subject q → time q ≤ time p →
        (∃ p ∈ full.take k, subject p = subject q) ∨
          (full.take k).length = k ∧ ∀ p ∈ full.take k, time q < time p := by
      intro p hp hsubject hle
      rcases hfull.stays_or_cut (k := k) hp with hstays | ⟨hlength, hnewer⟩
      · exact .inl ⟨p, hstays, hsubject⟩
      · exact .inr ⟨hlength, fun r hr => hle.trans_lt (hnewer r hr)⟩
    have hself : renewed ∈ full := hfull.mem_iff.mpr (.inr rfl)
    rcases mem_cons.mp hq with rfl | hq
    · exact hvia renewed hself hrenews.subject_eq hrenews.next_le
    rcases h.left q hq with ⟨r, hr, hsame⟩ | ⟨hlength, hnewer⟩
    · have hle := h.last r hr q hq hsame.symm
      by_cases hrenewed : subject r = subject renewed
      · exact hvia renewed hself (hrenewed.symm.trans hsame)
          (hle.trans (hrenews.kept_le r hr (hrenewed.trans hrenews.subject_eq)))
      · exact hvia r (hfull.mem_iff.mpr (.inl ⟨hr, hrenewed⟩)) hsame hle
    · refine .inr ⟨?_, fun p hp => ?_⟩
      · have hge := hfull.length_ge h.nodup fun p hp r hr => h.eq_of_subject h htimes hp hr
        rw [length_take]
        omega
      · rcases hkept p hp with ⟨hold, _⟩ | rfl
        · exact hnewer p hold
        · exact holder hp hlength q hnewer

end

/-! ### What is cut off -/

section

variable {C α : Type} [DecidableEq α] {subject : C → α} {k : ℕ} {kept kept' news : List C} {new : C}

def Displaced (subject : C → α) (k : ℕ) (kept : List C) (new : C) (kept' : List C) : Prop :=
  ∃ full : List C, full.Perm (kept.filter (fun p => subject p ≠ subject new) ++ [new]) ∧ kept' = full.take k

lemma Displaced.nodup (h : Displaced subject k kept new kept') (hnodup : (kept.map subject).Nodup) :
    (kept'.map subject).Nodup := by
  obtain ⟨full, hperm, rfl⟩ := h
  have hothers : ((kept.filter fun p => subject p ≠ subject new).map subject).Nodup :=
    hnodup.sublist (filter_sublist.map subject)
  have hfull : (full.map subject).Nodup := by
    refine (hperm.map subject).nodup_iff.mpr ?_
    rw [map_append, map_singleton]
    refine nodup_append.mpr ⟨hothers, nodup_singleton _, fun a ha b hb => ?_⟩
    obtain ⟨p, hp, rfl⟩ := mem_map.mp ha
    rw [mem_singleton.mp hb]
    exact of_decide_eq_true (mem_filter.mp hp).2
  rw [map_take]
  exact hfull.sublist (take_sublist _ _)

lemma Displaced.full (h : Displaced subject k kept new kept') (hnodup : (kept.map subject).Nodup)
    (hfull : kept.length = k) : kept'.length = k := by
  obtain ⟨full, hperm, rfl⟩ := h
  have hsub : kept.map subject ⊆ subject new :: (kept.filter fun p => subject p ≠ subject new).map subject := by
    intro a ha
    obtain ⟨p, hp, rfl⟩ := mem_map.mp ha
    by_cases hsame : subject p = subject new
    · rw [hsame]
      exact mem_cons_self
    · have hother : p ∈ kept.filter fun p => subject p ≠ subject new :=
        mem_filter.mpr ⟨hp, decide_eq_true hsame⟩
      exact mem_cons_of_mem _ (mem_map_of_mem hother)
  have hle := (subperm_of_subset hnodup hsub).length_le
  have hlength := hperm.length_eq
  rw [length_map, length_cons, length_map] at hle
  rw [length_append, length_singleton] at hlength
  rw [length_take]
  omega

lemma Displaced.holds (h : Displaced subject k kept new kept') {a : α}
    (ha : a = subject new ∨ a ∈ kept.map subject) : a ∈ kept'.map subject ∨ kept'.length = k := by
  obtain ⟨full, hperm, rfl⟩ := h
  have hmem : ∃ p ∈ full, subject p = a := by
    rcases ha with rfl | hold
    · exact ⟨new, hperm.mem_iff.mpr (mem_append_right _ (mem_singleton_self new)), rfl⟩
    · obtain ⟨p, hp, rfl⟩ := mem_map.mp hold
      by_cases hsame : subject p = subject new
      · exact ⟨new, hperm.mem_iff.mpr (mem_append_right _ (mem_singleton_self new)), hsame.symm⟩
      · have hother : p ∈ kept.filter fun p => subject p ≠ subject new :=
        mem_filter.mpr ⟨hp, decide_eq_true hsame⟩
        exact ⟨p, hperm.mem_iff.mpr (mem_append_left _ hother), rfl⟩
  obtain ⟨p, hp, rfl⟩ := hmem
  rw [← take_append_drop k full] at hp
  rcases mem_append.mp hp with htake | hdrop
  · exact .inl (mem_map_of_mem htake)
  · have hpos := length_pos_of_mem hdrop
    rw [length_drop] at hpos
    refine .inr ?_
    rw [length_take]
    omega

inductive Displaces (subject : C → α) (k : ℕ) : List C → List C → List C → Prop where
  | nil (kept : List C) : Displaces subject k kept [] kept
  | cons {kept kept' kept'' news new} (hnew : Displaced subject k kept new kept')
      (hnews : Displaces subject k kept' news kept'') : Displaces subject k kept (new :: news) kept''

lemma Displaces.nodup (h : Displaces subject k kept news kept') (hnodup : (kept.map subject).Nodup) :
    (kept'.map subject).Nodup := by
  induction h with
  | nil kept => exact hnodup
  | cons hnew _ ih => exact ih (hnew.nodup hnodup)

lemma Displaces.full (h : Displaces subject k kept news kept') (hnodup : (kept.map subject).Nodup)
    (hfull : kept.length = k) : kept'.length = k := by
  induction h with
  | nil kept => exact hfull
  | cons hnew _ ih => exact ih (hnew.nodup hnodup) (hnew.full hnodup hfull)

lemma Displaces.holds (h : Displaces subject k kept news kept') (hnodup : (kept.map subject).Nodup) {a : α}
    (ha : a ∈ kept.map subject ∨ a ∈ news.map subject) : a ∈ kept'.map subject ∨ kept'.length = k := by
  induction h with
  | nil kept => exact .inl (ha.resolve_right (not_mem_nil))
  | @cons kept kept' kept'' news new hnew hnews ih =>
    rw [map_cons, mem_cons] at ha
    have hnodup' := hnew.nodup hnodup
    by_cases hlater : a ∈ news.map subject
    · exact ih hnodup' (.inr hlater)
    have hone : a = subject new ∨ a ∈ kept.map subject := by
      rcases ha with hold | hfirst | hrest
      · exact .inr hold
      · exact .inl hfirst
      · exact absurd hrest hlater
    rcases hnew.holds hone with hkept | hfull
    · exact ih hnodup' (.inl hkept)
    · exact .inr (hnews.full hnodup' hfull)

end

end Newest
