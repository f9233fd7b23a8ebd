import DhtCrawler.SnapshotResult

/-! Snapshots in a row. Between two of them the prefix cursor moves by one, and the member cursor of a prefix
moves by one if the prefix gave a node. -/

namespace DhtCrawler.ResponsiveReservoir

open List Nat Except

variable {r : ResponsiveReservoir} {limit : ℕ} {now : Instant} {p : Fin 256}

def snapshots (limit : ℕ) (now : Instant) :
    ℕ → ResponsiveReservoir → Except Panic (ResponsiveReservoir × List (List NodeTuple))
  | 0, r => .ok (r, [])
  | n + 1, r => do
      let (r, nodes) ← r.snapshot limit now
      let (r, published) ← snapshots limit now n r
      .ok (r, nodes :: published)

def largestGroup (r : ResponsiveReservoir) (now : Instant) : ℕ :=
  Finset.univ.sup fun p => ((r.eligibleNodes now).filter fun node => node.firstByte = p).length

lemma head_published {m : Candidate} (hselected : 0 < (r.sample limit now).selected p)
    (hm : (r.memberOrder now p).head? = some m) : m.node ∈ (r.sample limit now).output := by
  have h := r.selected_sample limit now
  obtain ⟨fresh, relaxed, houtput, -⟩ := h.output
  have hbytes := r.seeds_sample (min limit (idPrefixes.map (r.prefixCount now)).sum) now
  have hle := h.length
  rw [h.split.selected, length_pos_iff_exists_mem] at hselected
  obtain ⟨node, hnode⟩ := hselected
  obtain ⟨hnode, hbyte⟩ := mem_filter.mp hnode
  generalize min limit (idPrefixes.map (r.prefixCount now)).sum = room at *
  have hp : p ∈ (r.turnOrder now).take room := by
    by_cases hroom : (r.turnOrder now).length ≤ room
    · rw [take_of_length_le hroom, mem_turnOrder]
      exact ne_nil_of_mem (List.mem_of_head? hm)
    · -- The seeds take all the room, so the node is one of them.
      have hseeds := congrArg List.length hbytes
      rw [length_map, length_take_of_le (Nat.le_of_not_le hroom)] at hseeds
      have hnil : fresh ++ relaxed = [] := by
        rw [houtput, append_assoc, length_append, hseeds] at hle
        exact eq_nil_of_length_eq_zero (by omega)
      rw [houtput, append_assoc, hnil, append_nil] at hnode
      rw [← of_decide_eq_true hbyte, ← hbytes]
      exact mem_map_of_mem hnode
  rw [houtput, append_assoc]
  exact mem_append_left _ (mem_filterMap.mpr ⟨p, hp, by rw [hm]; rfl⟩)

lemma first_selected (hlimit : 1 ≤ limit)
    (hp : (r.represented now)[r.snapshotPrefixCursor % (r.represented now).length]? = some p) :
    0 < (r.sample limit now).selected p := by
  have h := r.selected_sample limit now
  obtain ⟨fresh, relaxed, houtput, -⟩ := h.output
  have hbytes := r.seeds_sample (min limit (idPrefixes.map (r.prefixCount now)).sum) now
  have hlt := (List.getElem?_eq_some_iff.mp hp).1
  have hhead : (r.turnOrder now).head? = some p := by
    unfold turnOrder
    rw [head?_rotate hlt, hp]
  have hroom : 1 ≤ min limit (idPrefixes.map (r.prefixCount now)).sum := by
    refine le_min hlimit ?_
    rw [sum_prefixCount]
    refine Nat.le_trans ?_ (r.prefixTotal_le now)
    rw [← length_represented]
    exact one_le_of_lt hlt
  generalize min limit (idPrefixes.map (r.prefixCount now)).sum = room at *
  have hmem : p ∈ (r.turnOrder now).take room := by
    obtain ⟨rest, hrest⟩ := head?_eq_some_iff.mp hhead
    obtain ⟨k, rfl⟩ := Nat.exists_eq_add_of_le' hroom
    rw [hrest, take_succ_cons]
    exact mem_cons_self
  rw [← hbytes] at hmem
  obtain ⟨node, hnode, hbyte⟩ := mem_map.mp hmem
  rw [h.split.selected]
  refine length_pos_of_mem (mem_filter.mpr ⟨?_, decide_eq_true hbyte⟩)
  rw [houtput, append_assoc]
  exact mem_append_left _ hnode

lemma snapshots_ok (limit : ℕ) (now : Instant) (n : ℕ) (r : ResponsiveReservoir) :
    ∃ r' published, snapshots limit now n r = .ok (r', published) := by
  induction n generalizing r with
  | zero => exact ⟨r, [], rfl⟩
  | succ n ih =>
    obtain ⟨links, hrun⟩ := r.snapshot_eq limit now
    obtain ⟨r', published, hrest⟩ := ih (r.snapped limit now links)
    refine ⟨r', (r.sample limit now).output :: published, ?_⟩
    rw [snapshots, hrun, ok_bind]
    dsimp only
    rw [hrest, ok_bind]

structure Waits (r : ResponsiveReservoir) (now : Instant) (p : Fin 256) (m : Candidate) (turns delay : ℕ) :
    Prop where
  member : (r.candidates now p)[(r.snapshotMemberCursors p + turns) % r.prefixCount now p]? = some m
  turn : (r.represented now)[(r.snapshotPrefixCursor + delay) % (r.represented now).length]? = some p
  delay : delay < (r.represented now).length

variable {m : Candidate} {turns delay : ℕ}

lemma Waits.published (h : r.Waits now p m 0 delay) (hselected : 0 < (r.sample limit now).selected p) :
    m.node ∈ (r.sample limit now).output := by
  have hmember := h.member
  rw [Nat.add_zero] at hmember
  refine head_published hselected ?_
  unfold memberOrder
  rw [head?_rotate (List.getElem?_eq_some_iff.mp hmember).1]
  exact hmember

lemma next_cursor (cursor delay : ℕ) {size : ℕ} (hsize : 0 < size) :
    ((cursor + 1) % size + (delay + (size - 1)) % size) % size = (cursor + delay) % size := by
  have hsum : cursor + 1 + (delay + (size - 1)) = cursor + delay + size := by omega
  rw [← add_mod, hsum, add_mod_right]

lemma Waits.nextTurn (h : r.Waits now p m turns delay) (limit : ℕ) (links : List ℕ) :
    ((r.snapped limit now links).represented now)[((r.snapped limit now links).snapshotPrefixCursor +
      (delay + ((r.represented now).length - 1)) % (r.represented now).length) %
        (r.represented now).length]? = some p := by
  have hsize : 0 < (r.represented now).length := zero_lt_of_lt h.delay
  have hcursor : (r.snapped limit now links).snapshotPrefixCursor =
      (r.snapshotPrefixCursor + 1) % (r.represented now).length := by
    unfold snapped
    rw [max_eq_left hsize]
  rw [hcursor, next_cursor _ _ hsize]
  exact h.turn

lemma Waits.selected (h : r.Waits now p m (turns + 1) delay)
    (hselected : 0 < (r.sample limit now).selected p) (links : List ℕ) :
    (r.snapped limit now links).Waits now p m turns
      ((delay + ((r.represented now).length - 1)) % (r.represented now).length) := by
  refine ⟨?_, h.nextTurn limit links, mod_lt _ (zero_lt_of_lt h.delay)⟩
  have hcursor : (r.snapped limit now links).snapshotMemberCursors p =
      (r.snapshotMemberCursors p + 1) % r.prefixCount now p := if_pos hselected
  have hsame : (r.snapped limit now links).prefixCount now p = r.prefixCount now p := rfl
  rw [hcursor, hsame, mod_add_mod, Nat.add_assoc, Nat.add_comm 1]
  exact h.member

lemma Waits.passed (h : r.Waits now p m turns (delay + 1)) (hselected : ¬0 < (r.sample limit now).selected p)
    (links : List ℕ) : (r.snapped limit now links).Waits now p m turns delay := by
  have hdelay := h.delay
  have hnext : (delay + 1 + ((r.represented now).length - 1)) % (r.represented now).length = delay := by
    rw [show delay + 1 + ((r.represented now).length - 1) = delay + (r.represented now).length by omega,
      add_mod_right, mod_eq_of_lt (by omega)]
  refine ⟨?_, ?_, (lt_succ_self delay).trans hdelay⟩
  · have hcursor : (r.snapped limit now links).snapshotMemberCursors p = r.snapshotMemberCursors p :=
      if_neg hselected
    rw [hcursor]
    exact h.member
  · have hturn := h.nextTurn limit links
    rw [hnext] at hturn
    exact hturn

lemma Waits.served (hlimit : 1 ≤ limit) (n : ℕ) (h : r.Waits now p m turns delay)
    (hn : turns * (r.represented now).length + delay < n) :
    ∃ r' published, snapshots limit now n r = .ok (r', published) ∧ ∃ nodes ∈ published, m.node ∈ nodes := by
  induction n generalizing r turns delay with
  | zero => exact absurd hn (Nat.not_lt_zero _)
  | succ n ih =>
    obtain ⟨links, hrun⟩ := r.snapshot_eq limit now
    have hlater : ∀ {turns' delay' : ℕ}, (r.snapped limit now links).Waits now p m turns' delay' →
        turns' * (r.represented now).length + delay' < n →
        ∃ r' published, snapshots limit now (n + 1) r = .ok (r', published) ∧
          ∃ nodes ∈ published, m.node ∈ nodes := by
      intro turns' delay' hwaits hlt
      obtain ⟨r', published, hrest, nodes, hnodes, hmem⟩ := ih hwaits hlt
      refine ⟨r', (r.sample limit now).output :: published, ?_, nodes, mem_cons_of_mem _ hnodes, hmem⟩
      rw [snapshots, hrun, ok_bind]
      dsimp only
      rw [hrest, ok_bind]
    by_cases hselected : 0 < (r.sample limit now).selected p
    · cases turns with
      | zero =>
        obtain ⟨r', published, hrest⟩ := snapshots_ok limit now n (r.snapped limit now links)
        refine ⟨r', (r.sample limit now).output :: published, ?_, _, mem_cons_self, h.published hselected⟩
        rw [snapshots, hrun, ok_bind]
        dsimp only
        rw [hrest, ok_bind]
      | succ turns =>
        refine hlater (h.selected hselected links) ?_
        have hlt := mod_lt (delay + ((r.represented now).length - 1)) (zero_lt_of_lt h.delay)
        rw [succ_mul] at hn
        omega
    · cases delay with
      | zero => exact absurd (first_selected hlimit h.turn) hselected
      | succ delay => exact hlater (h.passed hselected links) (by omega)

lemma exists_ahead (cursor : ℕ) {i size : ℕ} (hi : i < size) : ∃ d < size, (cursor + d) % size = i := by
  refine ⟨(i + (size - cursor % size)) % size, mod_lt _ (zero_lt_of_lt hi), ?_⟩
  have hmod := mod_lt cursor (zero_lt_of_lt hi)
  rw [add_mod_mod, ← mod_add_mod,
    show cursor % size + (i + (size - cursor % size)) = i + size by omega, add_mod_right,
    mod_eq_of_lt hi]

lemma prefixCount_le_largestGroup (r : ResponsiveReservoir) (now : Instant) (p : Fin 256) :
    r.prefixCount now p ≤ r.largestGroup now := by
  rw [prefixCount_eq]
  exact Finset.le_sup (f := fun p => ((r.eligibleNodes now).filter fun node => node.firstByte = p).length)
    (Finset.mem_univ p)

/-- From every state of the cursors, as many snapshots in a row as there are prefixes, times the size of the
largest group, publish every eligible node. -/
theorem snapshots_cover (hlimit : 1 ≤ limit) {node : NodeTuple} (hnode : node ∈ r.eligibleNodes now) :
    ∃ r' published, snapshots limit now (r.prefixTotal now * r.largestGroup now) r = .ok (r', published) ∧
        ∃ nodes ∈ published, node ∈ nodes := by
  have hmem : node ∈ (r.candidates now node.firstByte).map Candidate.node := by
    rw [candidates_nodes]
    exact List.mem_filter.mpr ⟨hnode, decide_eq_true rfl⟩
  obtain ⟨m, hm, rfl⟩ := List.mem_map.mp hmem
  obtain ⟨i, hi, hget⟩ := List.mem_iff_getElem.mp hm
  have hp : m.node.firstByte ∈ r.represented now := mem_represented.mpr (Nat.zero_lt_of_lt hi)
  obtain ⟨k, hk, hprefix⟩ := List.mem_iff_getElem.mp hp
  obtain ⟨turns, hturns, hmember⟩ := exists_ahead (r.snapshotMemberCursors m.node.firstByte) hi
  obtain ⟨delay, hdelay, hturn⟩ := exists_ahead r.snapshotPrefixCursor hk
  have hwaits : r.Waits now m.node.firstByte m turns delay := by
    refine ⟨?_, ?_, hdelay⟩
    · show (r.candidates now m.node.firstByte)[_ % (r.candidates now m.node.firstByte).length]? = some m
      rw [hmember, List.getElem?_eq_getElem hi, hget]
    · rw [hturn, List.getElem?_eq_getElem hk, hprefix]
  refine hwaits.served hlimit _ ?_
  have hle : turns + 1 ≤ r.largestGroup now :=
    hturns.trans_le (r.prefixCount_le_largestGroup now m.node.firstByte)
  calc turns * (r.represented now).length + delay
      < turns * (r.represented now).length + (r.represented now).length := Nat.add_lt_add_left hdelay _
    _ = (turns + 1) * (r.represented now).length := (Nat.succ_mul _ _).symm
    _ ≤ r.largestGroup now * (r.represented now).length := Nat.mul_le_mul_right _ hle
    _ = r.prefixTotal now * r.largestGroup now := by rw [length_represented, Nat.mul_comm]

theorem snapshots_cover_three :
    ∃ r, recordAll threeNodes = .ok r ∧ r.prefixTotal 0 = 2 ∧ r.largestGroup 0 = 2 ∧
      ∀ node ∈ threeNodes, ∃ r' published, snapshots 1 0 4 r = .ok (r', published) ∧
        ∃ nodes ∈ published, node ∈ nodes := by
  have htest : (recordAll threeNodes).isOkAnd (fun r => decide (r.eligibleNodes 0 = threeNodes)) = true := by
    decide +kernel
  obtain ⟨r, hrun, htest⟩ := isOkAnd_eq_true.mp htest
  have hnodes : r.eligibleNodes 0 = threeNodes := of_decide_eq_true htest
  have hprefixes : r.prefixTotal 0 = 2 := by
    unfold prefixTotal
    rw [hnodes]
    decide
  have hlargest : r.largestGroup 0 = 2 := by
    unfold largestGroup
    rw [hnodes]
    decide +kernel
  refine ⟨r, hrun, hprefixes, hlargest, fun node hnode => ?_⟩
  rw [← hnodes] at hnode
  obtain ⟨r', published, hcover⟩ := snapshots_cover (le_refl 1) hnode
  rw [hprefixes, hlargest] at hcover
  exact ⟨r', published, hcover⟩

end DhtCrawler.ResponsiveReservoir
