import DhtCrawler.ProbesHeap

/-! Expiry of recent probes, and the refinement of a plain map from endpoints to deadlines. -/

namespace DhtCrawler.RecentProbes

open FiniteMap BinaryHeap
open Except (Safe Sure toOption)

variable {r r' : RecentProbes} {now clock : Instant}

/-! ### Expiry -/

structure Expired (now : Instant) (r r' : RecentProbes) : Prop where
  inv : Inv r'
  capacity : r'.capacity = r.capacity
  deadline : ∀ a, r'.deadline a = r.deadline a ∨ r'.deadline a = none ∧ ∃ d, r.deadline a = some d ∧ d ≤ now

variable {a : SocketAddr} {d : Instant}

lemma contains_iff_live : r.contains a now = true ↔ ∃ d, r.deadline a = some d ∧ now < d := by
  unfold contains deadline
  cases r.entries.get a with
  | none => simp
  | some entry => simp

lemma Expired.deadline_of_some (h : Expired now r r') (hd : r'.deadline a = some d) :
    r.deadline a = some d := by
  rcases h.deadline a with ha | ⟨ha, _⟩
  · exact ha ▸ hd
  · rw [ha] at hd
    cases hd

lemma Inv.expired_refl (hr : Inv r) (now : Instant) : Expired now r r :=
  ⟨hr, rfl, fun _ => Or.inl rfl⟩

lemma Expired.trans {r'' : RecentProbes} (h : Expired now r r') (h' : Expired now r' r'') :
    Expired now r r'' := by
  refine ⟨h'.inv, h'.capacity.trans h.capacity, fun a => ?_⟩
  rcases h'.deadline a with ha | ⟨ha, d, hd, hle⟩
  · rw [ha]
    exact h.deadline a
  · rcases h.deadline a with hb | ⟨hb, _⟩
    · exact Or.inr ⟨ha, d, hb ▸ hd, hle⟩
    · rw [hb] at hd
      cases hd

def isDue (now : Instant) (check : ProbeCheck) : Bool := check.checkAt ≤ now

def due (now : Instant) (r : RecentProbes) : ℕ := r.expiry.countP (isDue now)

lemma checkAt_mono {a b : ProbeCheck} (h : a ≤ b) : a.checkAt ≤ b.checkAt := Prod.Lex.monotone_fst a b h

lemma Inv.live_of_not_due (hr : Inv r) (hdue : r.hasDue now = false) (hd : r.deadline a = some d) :
    now < d := by
  obtain ⟨entry, he, hed⟩ := Option.map_eq_some_iff.mp hd
  obtain ⟨checkAt, hc⟩ := hr.mirror.element a entry he
  have hlt := (List.getElem?_eq_some_iff.mp hc).1
  obtain ⟨root, hroot⟩ := exists_getElem? (Nat.zero_lt_of_lt hlt)
  have hle := hr.ordered.root_le entry.heapIndex
  rw [value_of_getElem? hroot, value_of_getElem? hc, WithTop.coe_le_coe] at hle
  have hcheck : now < root.checkAt := by
    unfold hasDue at hdue
    rw [List.head?_eq_getElem?, hroot] at hdue
    simpa using hdue
  calc now < root.checkAt := hcheck
    _ ≤ checkAt := checkAt_mono hle
    _ ≤ d := hr.early _ (List.mem_of_getElem? hc) d hd

lemma Inv.advanceRoot (hr : Inv r) {root : ProbeCheck} {entry : RecentProbe}
    (hroot : r.expiry[0]? = some root) (he : r.entries.get root.addr = some entry) :
    Sure
      (RecentProbes.siftDown { r with expiry := r.expiry.set 0 (toLex (entry.expiresAt, root.addr)) } 0)
      fun r' => Inv r' ∧ r'.capacity = r.capacity ∧ (∀ a, r'.deadline a = r.deadline a) ∧
        r'.expiry.Perm (r.expiry.set 0 (toLex (entry.expiresAt, root.addr))) := by
  have hlt := (List.getElem?_eq_some_iff.mp hroot).1
  obtain ⟨x, hx⟩ : ∃ x : ProbeCheck, toLex (entry.expiresAt, root.addr) = x := ⟨_, rfl⟩
  rw [hx]
  have hxa : x.addr = root.addr := by rw [← hx]; rfl
  have hget : ∀ i, (r.expiry.set 0 x)[i]? = if i = 0 then some x else r.expiry[i]? := by
    intro i
    rw [List.getElem?_set, if_pos hlt]
    simp only [eq_comm]
  have hmir : Mirror { r with expiry := r.expiry.set 0 x } := by
    refine ⟨?_, ?_⟩
    · intro i check hi
      dsimp only at hi ⊢
      rw [hget] at hi
      split_ifs at hi with h0
      · cases hi
        rw [hxa, h0]
        exact hr.mirror.position 0 root hroot
      · exact hr.mirror.position i check hi
    · intro a e hae
      obtain ⟨checkAt, hc⟩ := hr.mirror.element a e hae
      rw [hget]
      split_ifs with h0
      · rw [h0, hroot] at hc
        cases hc
        exact ⟨entry.expiresAt, by rw [← hx]; rfl⟩
      · exact ⟨checkAt, hc⟩
  have hdown : DownOrdered (value (r.expiry.set 0 x)) 0 := by
    rw [value_set hlt]
    exact hr.ordered.update_down fun h => absurd h (lt_irrefl 0)
  have hsift := siftDown_settled hmir
    (show 0 < (r.expiry.set 0 x).length by rw [List.length_set]; exact hlt) hdown
  refine hsift.mono fun r' hs => ⟨hs.inv ?_ ?_ hr.capacity_pos, hs.2.1.capacity, hs.2.1.deadline, hs.2.1.perm⟩
  · intro check hc d hd
    rcases List.mem_or_eq_of_mem_set hc with hold | rfl
    · exact hr.early check hold d hd
    · have hd' : r.deadline root.addr = some d := hxa ▸ hd
      rw [RecentProbes.deadline, he] at hd'
      cases hd'
      rw [← hx]
      exact le_refl _
  · rw [List.length_set]
    exact hr.length_le

lemma Inv.expireStep (hr : Inv r) (n : ℕ) :
    Sure (expireStep now (r, n)) fun y =>
      Expired now r y.value.1 ∧ due now y.value.1 ≤ due now r ∧
        (r.hasDue now = true → due now y.value.1 < due now r) := by
  unfold RecentProbes.expireStep
  dsimp only
  have hhead : r.expiry.head? = r.expiry[0]? := List.head?_eq_getElem?
  cases hroot : r.expiry[0]? with
  | none =>
    rw [hhead, hroot]
    refine ⟨hr.expired_refl now, le_refl _, fun h => ?_⟩
    unfold hasDue at h
    rw [hhead, hroot] at h
    cases h
  | some root =>
    rw [hhead, hroot]
    dsimp only
    by_cases hlate : root.checkAt > now
    · rw [if_pos hlate]
      refine ⟨hr.expired_refl now, le_refl _, fun h => ?_⟩
      unfold hasDue at h
      rw [hhead, hroot] at h
      exact absurd (of_decide_eq_true h) (not_le.mpr hlate)
    rw [if_neg hlate]
    have hdueRoot : isDue now root = true := decide_eq_true (not_lt.mp hlate)
    obtain ⟨entry, he, _⟩ := hr.mirror.position 0 root hroot
    rw [he, unwrap_some, Except.ok_bind]
    by_cases hover : entry.expiresAt ≤ now
    · rw [if_pos hover]
      refine (hr.removeAt hroot).bind fun r' h => ?_
      have hcount := h.perm.countP_eq (isDue now)
      rw [List.countP_cons_of_pos hdueRoot] at hcount
      have hlt : due now r' < due now r := by
        unfold due
        omega
      have hexp : Expired now r r' := by
        refine ⟨h.inv, h.capacity, fun a => ?_⟩
        rw [h.deadline]
        split_ifs with ha
        · exact Or.inr ⟨rfl, entry.expiresAt, by rw [RecentProbes.deadline, ha, he]; rfl, hover⟩
        · exact Or.inl rfl
      exact ⟨hexp, hlt.le, fun _ => hlt⟩
    · rw [if_neg hover]
      refine (hr.advanceRoot hroot he).bind fun r' h => ?_
      obtain ⟨hinv, hcap, hdead, hperm⟩ := h
      have hcount := hperm.countP_eq (isDue now)
      have hlt : due now r' < due now r := by
        unfold due
        rw [hcount]
        cases hexp : r.expiry with
        | nil =>
          rw [hexp] at hroot
          cases hroot
        | cons x rest =>
          rw [hexp] at hroot
          cases hroot
          rw [List.set_cons_zero, List.countP_cons_of_pos hdueRoot, List.countP_cons_of_neg]
          · exact Nat.lt_succ_self _
          · exact fun h => hover (of_decide_eq_true h)
      exact ⟨⟨hinv, hcap, fun a => Or.inl (hdead a)⟩, hlt.le, fun _ => hlt⟩

lemma Inv.expire (hr : Inv r) (now : Instant) :
    Sure (r.expire now) fun y =>
      Expired now r y.1 ∧ (r.hasDue now = true → due now y.1 < due now r) := by
  have hfirst : Sure (RecentProbes.expireStep now (r, 0)) fun y =>
      Expired now r y.value.1 ∧ (r.hasDue now = true → due now y.value.1 < due now r) :=
    (hr.expireStep 0).mono fun y h => ⟨h.1, h.2.2⟩
  refine Loop.safe_run_succ (P := fun y : RecentProbes × ℕ =>
    Expired now r y.1 ∧ (r.hasDue now = true → due now y.1 < due now r)) hfirst ?_ 255
  intro y hy
  obtain ⟨r₁, n⟩ := y
  exact (hy.1.inv.expireStep n).mono fun z hz =>
    ⟨hy.1.trans hz.1, fun h => lt_of_le_of_lt hz.2.1 (hy.2 h)⟩

/-! ### Refinement -/

inductive ProbeOp where
  | record (addr : SocketAddr) (expiresAt : Instant)
  | remove (addr : SocketAddr)
  | expire (now : Instant)
  | contains (addr : SocketAddr) (now : Instant)

def call (r : RecentProbes) : ProbeOp → Except Panic RecentProbes
  | .record addr expiresAt => r.record addr expiresAt
  | .remove addr => r.remove addr
  | .expire now => do
      let (r, _) ← r.expire now
      .ok r
  | .contains _ _ => .ok r

def specCall (r : RecentProbes) (spec : FiniteMap SocketAddr Instant) :
    ProbeOp → FiniteMap SocketAddr Instant
  | .record addr expiresAt =>
    match r.evictee addr with
    | some old => (spec.erase old).insert addr expiresAt
    | none => spec.insert addr expiresAt
  | .remove addr => spec.erase addr
  | .expire _ | .contains _ _ => spec

def ProbeOp.Admissible (clock : Instant) (spec : FiniteMap SocketAddr Instant) : ProbeOp → Prop
  | .record addr expiresAt => ∀ d, spec.get addr = some d → d ≤ expiresAt
  | .remove _ => True
  | .expire now | .contains _ now => clock ≤ now

def ProbeOp.clockAfter (clock : Instant) : ProbeOp → Instant
  | .record _ _ | .remove _ => clock
  | .expire now | .contains _ now => now

inductive Reached (capacity : ℕ) : Instant → RecentProbes → FiniteMap SocketAddr Instant → Prop where
  | new : Reached capacity 0 (new capacity) .empty
  | call {clock r r' spec} (op : ProbeOp)
      (hr : Reached capacity clock r spec) (hop : op.Admissible clock spec)
      (hcall : r.call op = .ok r') : Reached capacity (op.clockAfter clock) r' (r.specCall spec op)

def Refines (clock : Instant) (r : RecentProbes) (spec : FiniteMap SocketAddr Instant) : Prop :=
  ∀ a, r.deadline a = spec.get a ∨ r.deadline a = none ∧ ∃ d, spec.get a = some d ∧ d ≤ clock

variable {spec : FiniteMap SocketAddr Instant} {capacity : ℕ}

lemma Refines.get (hs : Refines clock r spec) (hd : r.deadline a = some d) : spec.get a = some d := by
  rcases hs a with h | ⟨h, _⟩
  · rw [← h, hd]
  · rw [hd] at h
    cases h

lemma Refines.later (hs : Refines clock r spec) (hle : clock ≤ now) : Refines now r spec := by
  intro a
  rcases hs a with h | ⟨h, d, hd, hdc⟩
  · exact Or.inl h
  · exact Or.inr ⟨h, d, hd, hdc.trans hle⟩

lemma Refines.expired (hs : Refines now r spec) (he : Expired now r r') : Refines now r' spec := by
  intro a
  rcases he.deadline a with h | ⟨h, d, hd, hle⟩
  · rw [h]
    exact hs a
  · exact Or.inr ⟨h, d, hs.get hd, hle⟩

lemma specCall_record_get (r : RecentProbes) (spec : FiniteMap SocketAddr Instant)
    (addr : SocketAddr) (expiresAt : Instant) (a : SocketAddr) :
    (r.specCall spec (.record addr expiresAt)).get a = if a = addr then some expiresAt
      else if r.evictee addr = some a then none else spec.get a := by
  dsimp only [specCall]
  cases r.evictee addr with
  | none =>
    rw [get_insert, if_neg (Option.some_ne_none a).symm]
  | some old =>
    rw [get_insert, get_erase]
    simp only [Option.some_inj, eq_comm]

def TooLarge (capacity : ℕ) (e : Panic) : Prop := e = .capacityOverflow ∧ isizeMax < capacity

lemma Inv.call (hr : Inv r) (hs : Refines clock r spec) (op : ProbeOp) (hop : op.Admissible clock spec) :
    Safe (TooLarge r.capacity) (r.call op) fun r' => Inv r' ∧ r'.capacity = r.capacity ∧
      Refines (op.clockAfter clock) r' (r.specCall spec op) := by
  cases op with
  | record addr expiresAt =>
    refine (hr.record addr fun d hd => hop d (hs.get hd)).mono fun r' h => ⟨h.inv, h.capacity, ?_⟩
    intro a
    rw [h.deadline, specCall_record_get]
    split_ifs
    · exact Or.inl rfl
    · exact Or.inl rfl
    · exact hs a
  | remove addr =>
    refine ((hr.remove addr).weaken nofun).mono fun r' h => ⟨h.1, h.2.1, ?_⟩
    intro a
    dsimp only [specCall]
    rw [h.2.2, get_erase]
    split_ifs
    · exact Or.inl rfl
    · exact hs a
  | expire now =>
    refine ((hr.expire now).weaken nofun).bind fun y hy => ?_
    exact ⟨hy.1.inv, hy.1.capacity, (hs.later hop).expired hy.1⟩
  | contains addr now => exact ⟨hr, rfl, hs.later hop⟩

lemma Reached.inv (hr : Reached capacity clock r spec) :
    Inv r ∧ r.capacity = max capacity 1 ∧ Refines clock r spec := by
  induction hr with
  | new => exact ⟨inv_new capacity, rfl, fun _ => Or.inl rfl⟩
  | call op _ hop hcall ih =>
    obtain ⟨hinv, hcap, hspec⟩ := ih
    obtain ⟨hinv', hcap', hspec'⟩ := (hinv.call hspec op hop).of_ok hcall
    exact ⟨hinv', hcap'.trans hcap, hspec'⟩

lemma Refines.contains_iff (hs : Refines clock r spec) (hle : clock ≤ now) (a : SocketAddr) :
    r.contains a now = true ↔ ∃ d, spec.get a = some d ∧ now < d := by
  rw [contains_iff_live]
  rcases hs a with h | ⟨h, d, hd, hdc⟩
  · rw [h]
  · rw [h, hd]
    refine ⟨fun hx => ?_, fun hx => ?_⟩
    · obtain ⟨_, hx, _⟩ := hx
      cases hx
    · obtain ⟨d', hd', hlt⟩ := hx
      cases hd'
      exact absurd hlt (not_lt.mpr (hdc.trans hle))

lemma Inv.heap_le (hr : Inv r) {i : ℕ} (hi : 0 < i) {x y : ProbeCheck}
    (hx : r.expiry[(i - 1) / 2]? = some x) (hy : r.expiry[i]? = some y) : x ≤ y := by
  have h := hr.ordered i hi
  rw [show parent i = (i - 1) / 2 from rfl, value_of_getElem? hx, value_of_getElem? hy] at h
  exact WithTop.coe_le_coe.mp h

/-- **The recent probes refine a map of deadlines.** -/
theorem probes_refine_deadlines (hr : Reached capacity clock r spec) :
    (r.expiry.map ProbeCheck.addr).Nodup ∧
      (∀ a, a ∈ r.expiry.map ProbeCheck.addr ↔ r.entries.contains a = true) ∧
      (∀ a entry, r.entries.get a = some entry → r.expiry[entry.heapIndex]?.map ProbeCheck.addr = some a) ∧
      (∀ i x y, 0 < i → r.expiry[(i - 1) / 2]? = some x → r.expiry[i]? = some y → x ≤ y) ∧
      (∀ check ∈ r.expiry, ∀ entry, r.entries.get check.addr = some entry → check.checkAt ≤ entry.expiresAt) ∧
      r.entries.len ≤ max capacity 1 ∧
      (∀ now a, clock ≤ now → (r.contains a now = true ↔ ∃ d, spec.get a = some d ∧ now < d)) ∧
      (∀ now, ∃ r' n, r.expire now = .ok (r', n) ∧
        ∀ a d, r.deadline a = some d → now < d → r'.deadline a = some d) ∧
      (∀ now, r.hasDue now = false → ∀ a entry, r.entries.get a = some entry → now < entry.expiresAt) ∧
      ∀ op : ProbeOp, op.Admissible clock spec →
        Safe (TooLarge (max capacity 1)) (r.call op) fun _ => True := by
  obtain ⟨hinv, hcap, hspec⟩ := hr.inv
  have hdead : ∀ a entry, r.entries.get a = some entry → r.deadline a = some entry.expiresAt := by
    intro a entry he
    rw [RecentProbes.deadline, he]
    rfl
  refine ⟨hinv.mirror.addrs_nodup, ?_, ?_, fun i x y hi hx hy => hinv.heap_le hi hx hy, ?_, ?_,
    fun now a hle => hspec.contains_iff hle a, ?_, ?_, ?_⟩
  · intro a
    rw [hinv.mirror.mem_iff, contains_iff]
  · intro a entry he
    obtain ⟨checkAt, hc⟩ := hinv.mirror.element a entry he
    rw [hc]
    rfl
  · intro check hc entry he
    exact hinv.early check hc _ (hdead _ entry he)
  · rw [← hinv.mirror.length_eq, ← hcap]
    exact hinv.length_le.trans (min_le_left _ _)
  · intro now
    obtain ⟨⟨r', n⟩, hok, hexp, _⟩ := (hinv.expire now).exists
    refine ⟨r', n, hok, fun a d hd hlt => ?_⟩
    rcases hexp.deadline a with h | ⟨_, d', hd', hle⟩
    · rw [h, hd]
    · rw [hd] at hd'
      cases hd'
      exact absurd hlt (not_lt.mpr hle)
  · intro now hdue a entry he
    exact hinv.live_of_not_due hdue (hdead a entry he)
  · intro op hop
    rw [← hcap]
    exact (hinv.call hspec op hop).mono fun _ _ => trivial

theorem probes_refine_deadlines_full :
    ∃ r spec, Reached 1 0 r spec ∧ r.entries.len ≤ 1 ∧
      ¬∃ d, spec.get (.v4 #v[8, 8, 8, 8] 1) = some d ∧ 3 < d := by
  let first : ProbeOp := .record (.v4 #v[8, 8, 8, 8] 1) 5
  let second : ProbeOp := .record (.v4 #v[8, 8, 8, 8] 2) 6
  have hrun : ((new 1).call first).toOption.any (fun r => (r.call second).toOption.any fun r' =>
      !r'.contains (.v4 #v[8, 8, 8, 8] 1) 3) = true := by decide
  cases h₁ : (new 1).call first with
  | error e =>
    rw [h₁] at hrun
    cases hrun
  | ok r₁ =>
    rw [h₁] at hrun
    cases h₂ : r₁.call second with
    | error e =>
      dsimp only [toOption, Option.any] at hrun
      rw [h₂] at hrun
      cases hrun
    | ok r₂ =>
      dsimp only [toOption, Option.any] at hrun
      rw [h₂, Bool.not_eq_true'] at hrun
      have hr₁ := Reached.call first (.new) (fun d hd => nomatch hd) h₁
      have hr₂ := Reached.call second hr₁
        (fun d hd => by rw [specCall_record_get] at hd; simp at hd) h₂
      have h := probes_refine_deadlines hr₂
      refine ⟨r₂, _, hr₂, h.2.2.2.2.2.1, ?_⟩
      rw [← h.2.2.2.2.2.2.1 3 _ (Nat.zero_le 3), hrun]
      exact Bool.false_ne_true

end DhtCrawler.RecentProbes
