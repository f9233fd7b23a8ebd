import Mathlib.Algebra.BigOperators.Fin
import DhtCrawler.SnapshotPasses

/-! The result of `snapshot`, a function of the slots and the cursors: the links that earlier calls left behind do
not matter. -/

namespace DhtCrawler

open Function SnapshotSlots List Option Finset Except ResponsiveReservoir SubnetKey

variable {x : List ℕ × (Fin 256 → SnapshotSlots)} {order : List (Fin 256)}

lemma foldl_update {ι β : Type} [DecidableEq ι] (f : ι → β → β) {indices : List ι} (hnd : indices.Nodup)
    (g : ι → β) :
    indices.foldl (fun g i => update g i (f i (g i))) g = fun i => if i ∈ indices then f i (g i) else g i := by
  induction indices generalizing g with
  | nil => simp
  | cons i indices ih =>
    obtain ⟨hi, hnd'⟩ := nodup_cons.mp hnd
    rw [foldl_cons, ih hnd']
    funext j
    by_cases hj : j = i
    · subst hj
      rw [if_neg hi, update_self, if_pos List.mem_cons_self]
    · simp only [update_of_ne hj, List.mem_cons, hj, false_or]

namespace ResponsiveReservoir

variable {r : ResponsiveReservoir}

def gather (now : Instant) (L : Fin 256 → List Candidate) (s : Option ResponsiveEntry × ℕ) :
    Fin 256 → List Candidate :=
  match s with
  | (none, _) => L
  | (some e, slot) =>
    if e.eligible now then
      update L e.node.firstByte (L e.node.firstByte ++ [⟨slot, e.node⟩])
    else L

def candidates (r : ResponsiveReservoir) (now : Instant) : Fin 256 → List Candidate :=
  r.slots.zipIdx.foldl (gather now) fun _ => []

variable {L : Fin 256 → List Candidate} {counts : Fin 256 → ℕ} {a : Sample} {c : Selection} {now : Instant}
  {p : Fin 256} {reserved : Set ℕ}

lemma collect_from (now : Instant) {rest : List (Option ResponsiveEntry × ℕ)}
    (hrest : ∀ s ∈ rest, r.slots[s.2]? = some s.1) (hnd : (rest.map Prod.snd).Nodup)
    (h : Sampled r (.start x.1 x.2) (.start L))
    (hnew : ∀ p, ∀ m ∈ L p, m.slot ∉ rest.map Prod.snd) :
    Sure (rest.foldlM (collectStep now) x) fun y =>
      Sampled r (.start y.1 y.2) (.start (rest.foldl (gather now) L)) := by
  induction rest generalizing x L with
  | nil => exact h
  | cons s rest ih =>
    obtain ⟨o, slot⟩ := s
    obtain ⟨hslot, hnd'⟩ := nodup_cons.mp hnd
    have hrest' := fun s hs => hrest s (mem_cons_of_mem _ hs)
    have hnew' : ∀ p, ∀ m ∈ L p, m.slot ∉ rest.map Prod.snd :=
      fun p m hm hs => hnew p m hm (mem_cons_of_mem _ hs)
    rw [foldlM_cons, foldl_cons]
    unfold collectStep gather
    cases o with
    | none => exact ih hrest' hnd' h hnew'
    | some e =>
      dsimp only
      split_ifs
      · have hentry : r.entry slot = some e := by
          unfold entry
          rw [hrest _ mem_cons_self]
          rfl
        have hown : (r.entry slot).map ResponsiveEntry.node = some e.node ∧
            e.node.firstByte = e.node.firstByte := by
          rw [hentry]
          exact ⟨rfl, rfl⟩
        obtain ⟨q, links, hq, hq'⟩ := h.pushGroup (m := ⟨slot, e.node⟩) hown (by
          intro hs
          obtain ⟨m, hm, hms⟩ := mem_map.mp hs
          rw [Sample.start, append_nil] at hm
          exact hnew _ m hm (by simp [hms]))
        rw [show (x.2 e.node.firstByte).pushBack slot x.1 = .ok (q, links) from hq, ok_bind]
        refine ih hrest' hnd' hq' fun p m hm => ?_
        by_cases hpp : p = e.node.firstByte
        · subst hpp
          rw [update_self] at hm
          rcases mem_append.mp hm with hm | hm
          · exact hnew' _ m hm
          · rw [List.mem_singleton.mp hm]
            exact hslot
        · rw [update_of_ne hpp] at hm
          exact hnew' p m hm
      · exact ih hrest' hnd' h hnew'

lemma collect_safe (r : ResponsiveReservoir) (now : Instant) :
    Sure (r.collect now) fun x =>
      Sampled r (.start x.1 x.2) (.start (r.candidates now)) := by
  refine collect_from now (fun s hs => ?_) ?_ ⟨?_, fun _ => holds_empty, fun _ => holds_empty,
    fun _ => nodup_nil, fun _ _ hm => (nomatch hm), rfl, rfl, rfl, rfl⟩ fun _ _ hm => (nomatch hm)
  · obtain ⟨i, hi, rfl⟩ := mem_iff_getElem.mp hs
    simp
  · rw [zipIdx_map_snd]
    exact nodup_range'
  · show (resize r.snapshotLinks r.slots.length usizeMax).length = _
    unfold resize
    rw [length_append, length_take, length_replicate]
    omega

def rotated (cursors counts : Fin 256 → ℕ) (L : Fin 256 → List Candidate) (p : Fin 256) :
    Fin 256 → List Candidate :=
  if 0 < counts p then update L p ((L p).rotate (cursors p % counts p)) else L

lemma rotate_safe (cursors : Fin 256 → ℕ)
    (h : Sampled r (.start x.1 x.2) (.start L)) (hcounts : ∀ p, (L p).length = counts p) :
    Sure (idPrefixes.foldlM (rotateStep cursors counts) x) fun y =>
      Sampled r (.start y.1 y.2) (.start (idPrefixes.foldl (rotated cursors counts) L)) ∧
        ∀ p, (idPrefixes.foldl (rotated cursors counts) L p).length = counts p := by
  refine safe_foldlM_simulates
    (R := fun (y : List ℕ × (Fin 256 → SnapshotSlots)) L =>
      Sampled r (.start y.1 y.2) (.start L) ∧ ∀ p, (L p).length = counts p)
    (fun y L p _ ⟨hy, hlen⟩ => ?_) ⟨h, hcounts⟩
  unfold rotateStep rotated
  dsimp only
  split_ifs with hpos
  · have hlt : cursors p % counts p < ((Sample.start L).groups p).length :=
      (Nat.mod_lt _ hpos).trans_eq (hlen p).symm
    obtain ⟨q, links, hq, hq'⟩ := hy.rotateGroup hlt
    rw [show (y.2 p).rotateLeft (cursors p % counts p) y.1 = .ok (q, links) from hq, ok_bind]
    refine ⟨hq', fun p' => ?_⟩
    by_cases hpp : p' = p
    · subst hpp
      rw [update_self, length_rotate, hlen]
    · rw [update_of_ne hpp, hlen]
  · exact ⟨hy, hlen⟩

lemma Sampled.queuedSlots_groups (h : Sampled r c a) : queuedSlots c.groups = Sample.size a.groups := by
  unfold queuedSlots Sample.size
  simp only [h.groups_len]

lemma Sampled.queuedSlots_deferred (h : Sampled r c a) : queuedSlots c.deferred = Sample.size a.deferred := by
  unfold queuedSlots Sample.size
  simp only [h.deferred_len]

lemma Sampled.relax (h : Sampled r c a) {limit : ℕ}
    (hexit : a.output.length < limit → a.active = [])
    (hturns : Sample.Turns (order.filter fun p => 0 < (a.deferred p).length) a.deferred) :
    Sure (r.relax limit order c) fun c' => Sampled r c' (a.relax limit order) := by
  unfold ResponsiveReservoir.relax Sample.relax
  by_cases hroom : a.output.length < limit
  · rw [if_pos (h.room.mpr hroom), if_pos hroom, h.active, hexit hroom, nil_append, h.queuedSlots_deferred]
    simp only [h.deferred_len]
    have hstep : ∀ c' a', Sampled r c' a' ∧ Sample.Turns a'.active a'.deferred →
        Sure (r.relaxStep limit c') fun x => Loop.Matching
          (fun c' a' => Sampled r c' a' ∧ Sample.Turns a'.active a'.deferred) x (a'.relaxStep limit) := by
      intro c' a' ⟨h', hturn⟩
      refine (h'.relaxStep limit fun p hp => (hturn.2 p).mp hp).mono fun x hx => ?_
      have hturn' := hturn.relaxStep limit
      cases hb : a'.relaxStep limit with
      | done b =>
        rw [hb] at hx hturn'
        cases x with
        | done y => exact ⟨hx, hturn'⟩
        | yield y => exact hx.elim
      | yield b =>
        rw [hb] at hx hturn'
        cases x with
        | done y => exact hx.elim
        | yield y => exact ⟨hx, hturn'⟩
    exact (Loop.safe_run_simulates hstep _ ⟨h.withActive _, hturns⟩).mono fun c' h' => h'.1
  · rw [if_neg (mt h.room.mp hroom), if_neg hroom]
    exact h

lemma select_safe {links : List ℕ} {groups : Fin 256 → SnapshotSlots}
    (h : Sampled r (.start links groups) (.start L)) (limit : ℕ) (hnd : order.Nodup)
    (horder : ∀ p, p ∈ order ↔ L p ≠ []) :
    Sure (r.select limit order links groups) fun c =>
      Sampled r c (Sample.select limit order L) := by
  have hseed : Sure (order.foldlM (r.seedStep limit) (.start links groups))
      fun c => Sampled r c (order.foldl (Sample.seedStep limit) (.start L)) :=
    safe_foldlM_simulates (fun _ _ p _ h' => h'.seedStep limit p) h
  have hfilled := Sample.filled_fill limit hnd horder fun p m hm =>
    (h.owned p m (mem_append_left _ hm)).2
  unfold select
  refine hseed.bind fun c hc => ?_
  rw [hc.queuedSlots_groups]
  refine (Loop.safe_run_simulates (fun _ _ h' => h'.fillStep limit) _ hc).bind fun c' hc' => ?_
  exact hc'.relax (fun hroom => (hfilled.exit hroom).1) (hfilled.turns hnd horder)

lemma nodup_idPrefixes : idPrefixes.Nodup := nodup_finRange 256

lemma cursors_safe {selected : Fin 256 → ℕ} (h : ∀ p, selected p ≤ counts p) (cursors : Fin 256 → ℕ) :
    Sure (idPrefixes.foldlM (cursorStep selected counts) cursors) fun cursors' =>
      cursors' = fun p => if 0 < selected p then (cursors p + 1) % counts p else cursors p := by
  have hfold : Sure (idPrefixes.foldlM (cursorStep selected counts) cursors)
      fun cursors' => cursors' = idPrefixes.foldl (fun current p => update current p
        (if 0 < selected p then (current p + 1) % counts p else current p)) cursors := by
    refine safe_foldlM_simulates (fun current _ p _ hsame => ?_) rfl
    subst hsame
    unfold cursorStep
    split_ifs with hsel hzero
    · have hle := h p
      omega
    · rfl
    · exact (update_eq_self p current).symm
  refine hfold.mono fun cursors' hcursors' => ?_
  rw [hcursors', foldl_update (fun p cursor => if 0 < selected p then (cursor + 1) % counts p else cursor)
    nodup_idPrefixes]
  simp only [mem_idPrefixes, if_true]

def prefixCount (r : ResponsiveReservoir) (now : Instant) (p : Fin 256) : ℕ := (r.candidates now p).length

def represented (r : ResponsiveReservoir) (now : Instant) : List (Fin 256) :=
  idPrefixes.filter fun p => 0 < r.prefixCount now p

def turnOrder (r : ResponsiveReservoir) (now : Instant) : List (Fin 256) :=
  (r.represented now).rotate (r.snapshotPrefixCursor % (r.represented now).length)

def memberOrder (r : ResponsiveReservoir) (now : Instant) (p : Fin 256) : List Candidate :=
  (r.candidates now p).rotate (r.snapshotMemberCursors p % r.prefixCount now p)

def sample (r : ResponsiveReservoir) (limit : ℕ) (now : Instant) : Sample :=
  .select (min limit (idPrefixes.map (r.prefixCount now)).sum) (r.turnOrder now) (r.memberOrder now)

lemma mem_represented : p ∈ r.represented now ↔ 0 < r.prefixCount now p := by
  unfold represented
  rw [mem_filter, decide_eq_true_iff]
  exact and_iff_right (mem_idPrefixes p)

lemma nodup_turnOrder (r : ResponsiveReservoir) (now : Instant) : (r.turnOrder now).Nodup :=
  nodup_rotate.mpr (nodup_idPrefixes.filter _)

lemma mem_turnOrder : p ∈ r.turnOrder now ↔ r.memberOrder now p ≠ [] := by
  unfold turnOrder memberOrder
  rw [mem_rotate, mem_represented, Ne, rotate_eq_nil_iff]
  exact length_pos_iff

lemma length_memberOrder (r : ResponsiveReservoir) (now : Instant) (p : Fin 256) :
    (r.memberOrder now p).length = r.prefixCount now p := length_rotate _ _

lemma mem_memberOrder {m : Candidate} : m ∈ r.memberOrder now p ↔ m ∈ r.candidates now p := mem_rotate

/-! ### The eligible nodes -/

def eligibleNodes (r : ResponsiveReservoir) (now : Instant) : List NodeTuple :=
  r.slots.filterMap fun slot => (slot.filter fun e => e.eligible now).map ResponsiveEntry.node

lemma candidates_nodes (r : ResponsiveReservoir) (now : Instant) (p : Fin 256) :
    (r.candidates now p).map Candidate.node = (r.eligibleNodes now).filter fun node => node.firstByte = p := by
  have hfold : ∀ (rest : List (Option ResponsiveEntry × ℕ)) (L : Fin 256 → List Candidate),
      (rest.foldl (gather now) L p).map Candidate.node = (L p).map Candidate.node ++
        ((rest.map Prod.fst).filterMap fun slot =>
          (slot.filter fun e => e.eligible now).map ResponsiveEntry.node).filter fun node =>
            node.firstByte = p := by
    intro rest
    induction rest with
    | nil => exact fun L => (append_nil _).symm
    | cons s rest ih =>
      intro L
      obtain ⟨o, slot⟩ := s
      rw [foldl_cons, ih, List.map_cons, filterMap_cons]
      unfold gather
      cases o with
      | none => rfl
      | some e =>
        dsimp only [filter_some]
        by_cases he : e.eligible now = true
        · rw [if_pos he, if_pos he]
          dsimp only [map_some]
          rw [List.filter_cons]
          by_cases hp : e.node.firstByte = p
          · subst hp
            rw [update_self, if_pos (decide_eq_true rfl), map_append, append_assoc]
            rfl
          · rw [update_of_ne (Ne.symm hp), if_neg (by simpa using hp)]
        · rw [if_neg he, if_neg he]
          rfl
  have h := hfold r.slots.zipIdx fun _ => []
  rw [zipIdx_map_fst] at h
  exact h

lemma prefixCount_eq (r : ResponsiveReservoir) (now : Instant) (p : Fin 256) :
    r.prefixCount now p = ((r.eligibleNodes now).filter fun node => node.firstByte = p).length := by
  rw [← r.candidates_nodes now p, length_map]
  rfl

lemma memberOrder_byte (r : ResponsiveReservoir) (now : Instant) (p : Fin 256) (m : Candidate)
    (hm : m ∈ r.memberOrder now p) : m.node.firstByte = p := by
  have hnode := mem_map_of_mem (f := Candidate.node) (mem_memberOrder.mp hm)
  rw [candidates_nodes] at hnode
  exact of_decide_eq_true (mem_filter.mp hnode).2

lemma memberOrder_perm (r : ResponsiveReservoir) (now : Instant) (p : Fin 256) :
    ((r.memberOrder now p).map Candidate.node).Perm
      ((r.eligibleNodes now).filter fun node => node.firstByte = p) := by
  rw [← r.candidates_nodes now p]
  exact (rotate_perm _ _).map _

lemma selected_sample (r : ResponsiveReservoir) (limit : ℕ) (now : Instant) :
    Sample.Selected (min limit (idPrefixes.map (r.prefixCount now)).sum) (r.turnOrder now)
      (r.memberOrder now) (r.sample limit now) :=
  Sample.selected_select _ (r.nodup_turnOrder now) (fun _ => mem_turnOrder) (r.memberOrder_byte now)

lemma selected_le (r : ResponsiveReservoir) (limit : ℕ) (now : Instant) (p : Fin 256) :
    (r.sample limit now).selected p ≤ r.prefixCount now p := by
  have hsplit := (r.selected_sample limit now).split
  have hlen := (hsplit.perm p).length_eq
  rw [length_append, length_map, length_map, length_memberOrder, ← hsplit.selected p] at hlen
  exact (Nat.le_add_right _ _).trans_eq hlen

def advancedCursors (r : ResponsiveReservoir) (limit : ℕ) (now : Instant) (p : Fin 256) : ℕ :=
  if 0 < (r.sample limit now).selected p then (r.snapshotMemberCursors p + 1) % r.prefixCount now p
  else r.snapshotMemberCursors p

@[irreducible]
def sparsest (counts : Fin 256 → ℕ) : List (Fin 256) := idPrefixes.filter fun p => ∀ q, counts p ≤ counts q

def snapped (r : ResponsiveReservoir) (limit : ℕ) (now : Instant) (links : List ℕ) : ResponsiveReservoir :=
  { r with
    snapshotLinks := links
    sparsePrefixes := sparsest (r.prefixCount now)
    snapshotMemberCursors := r.advancedCursors limit now
    snapshotPrefixCursor := (r.snapshotPrefixCursor + 1) % max (r.represented now).length 1 }

lemma foldl_rotated (cursors counts : Fin 256 → ℕ) (L : Fin 256 → List Candidate)
    (hcounts : ∀ p, (L p).length = counts p) :
    idPrefixes.foldl (rotated cursors counts) L = fun p => (L p).rotate (cursors p % counts p) := by
  have hstep : rotated cursors counts = fun L p =>
      update L p (if 0 < counts p then (L p).rotate (cursors p % counts p) else L p) := by
    funext L p
    unfold rotated
    split_ifs
    · rfl
    · exact (update_eq_self p L).symm
  rw [hstep, foldl_update (fun p l => if 0 < counts p then rotate l (cursors p % counts p) else l)
    nodup_idPrefixes]
  funext p
  rw [if_pos (mem_idPrefixes p)]
  split_ifs with hpos
  · rfl
  · have hnil : L p = [] := eq_nil_of_length_eq_zero (by rw [hcounts]; omega)
    rw [hnil, rotate_nil]

lemma sparse_eq {minimum : ℕ} (hmin : (idPrefixes.map counts).min? = some minimum) :
    (idPrefixes.filter fun p => counts p = minimum) = sparsest counts := by
  obtain ⟨hmem, hle⟩ := min?_eq_some_iff.mp hmin
  unfold sparsest
  refine filter_congr fun p _ => decide_eq_decide.mpr ⟨fun hp q => ?_, fun hp => ?_⟩
  · rw [hp]
    exact hle _ (mem_map_of_mem (mem_idPrefixes q))
  · obtain ⟨q, -, hq⟩ := mem_map.mp hmem
    exact ((hp q).trans_eq hq).antisymm (hle _ (mem_map_of_mem (mem_idPrefixes p)))

lemma snapshot_eq (r : ResponsiveReservoir) (limit : ℕ) (now : Instant) :
    ∃ links, r.snapshot limit now = .ok (r.snapped limit now links, (r.sample limit now).output) := by
  have hsafe : Sure (r.snapshot limit now) fun x =>
      x = (r.snapped limit now x.1.snapshotLinks, (r.sample limit now).output) := ?_
  · obtain ⟨x, hrun, hx⟩ := hsafe.exists
    exact ⟨x.1.snapshotLinks, by rw [hrun, ← hx]⟩
  unfold snapshot
  refine (r.collect_safe now).bind fun x hx => ?_
  have hcounts : ∀ p, (x.2 p).len = r.prefixCount now p := hx.groups_len
  have hlen : ∀ p, (r.candidates now p).length = r.prefixCount now p := fun p => rfl
  simp only [hcounts]
  obtain ⟨minimum, hmin⟩ : ∃ k, (idPrefixes.map (r.prefixCount now)).min? = some k := by
    refine ne_none_iff_exists'.mp fun hnone => ?_
    exact idPrefixes_ne_nil (map_eq_nil_iff.mp (min?_eq_none_iff.mp hnone))
  rw [hmin, unwrap_some, ok_bind]
  refine (rotate_safe r.snapshotMemberCursors hx hlen).bind fun y ⟨hy, _⟩ => ?_
  rw [foldl_rotated _ _ _ hlen] at hy
  refine (select_safe hy _ (r.nodup_turnOrder now) fun p => mem_turnOrder).bind fun c hc => ?_
  have hc : Sampled r c (r.sample limit now) := hc
  have hsel : ∀ p, c.selected p ≤ r.prefixCount now p := by
    intro p
    rw [hc.selected]
    exact r.selected_le limit now p
  refine (cursors_safe hsel r.snapshotMemberCursors).bind fun cursors hcursors => ?_
  have hcursors : cursors = r.advancedCursors limit now := by
    rw [hcursors, hc.selected]
    rfl
  rw [hcursors, sparse_eq hmin, length_rotate, hc.output]
  rfl

lemma mem_sparsest : p ∈ sparsest counts ↔ ∀ q, counts p ≤ counts q := by
  unfold sparsest
  rw [mem_filter, decide_eq_true_iff]
  exact and_iff_right (mem_idPrefixes p)

lemma sparsest_ne_nil (counts : Fin 256 → ℕ) : sparsest counts ≠ [] := by
  obtain ⟨p, -, hp⟩ := exists_min_image univ counts univ_nonempty
  exact ne_nil_of_mem (mem_sparsest.mpr fun q => hp q (mem_univ q))

lemma Inv.snapshot (h : Inv reserved r) (limit : ℕ) (now : Instant) :
    Sure (r.snapshot limit now) fun x =>
      Inv reserved x.1 ∧ Kept r x.1 ∧ ∀ i, x.1.entry i = r.entry i := by
  obtain ⟨links, hrun⟩ := r.snapshot_eq limit now
  have hsparse := sparsest_ne_nil (r.prefixCount now)
  rw [hrun]
  unfold snapped
  generalize sparsest (r.prefixCount now) = sparse at hsparse
  refine ⟨⟨h.cursor, hsparse, h.indexed, h.keyed, h.keySlot, ?_, h.scheduled, h.unscheduled⟩,
    ⟨⟨rfl, rfl, rfl, fun _ _ hi => hi⟩, fun _ => .inr rfl⟩, fun _ => rfl⟩
  obtain ⟨l, hl⟩ := h.list
  exact ⟨l, hl.nodup, hl.mem, hl.head, hl.tail, hl.len, hl.linked⟩

/-! ### Correctness -/

def prefixTotal (r : ResponsiveReservoir) (now : Instant) : ℕ :=
  ((r.eligibleNodes now).map NodeTuple.firstByte).toFinset.card

lemma length_represented (r : ResponsiveReservoir) (now : Instant) :
    (r.represented now).length = r.prefixTotal now := by
  have hnd : (r.represented now).Nodup := nodup_idPrefixes.filter _
  have hsame : (r.represented now).toFinset = ((r.eligibleNodes now).map NodeTuple.firstByte).toFinset := by
    ext p
    rw [List.mem_toFinset, List.mem_toFinset, List.mem_map, mem_represented, prefixCount_eq,
      length_filter_pos_iff]
    simp only [decide_eq_true_eq]
  rw [← toFinset_card_of_nodup hnd, hsame]
  rfl

lemma sum_filter_length (nodes : List NodeTuple) :
    (idPrefixes.map fun p => (nodes.filter fun node => node.firstByte = p).length).sum = nodes.length := by
  induction nodes with
  | nil => simp
  | cons node nodes ih =>
    have hcons : ∀ p, ((node :: nodes).filter fun n => n.firstByte = p).length =
        (nodes.filter fun n => n.firstByte = p).length + if node.firstByte = p then 1 else 0 := by
      intro p
      rw [List.filter_cons]
      split_ifs <;> simp_all
    have hone : (idPrefixes.map fun p => if node.firstByte = p then 1 else 0).sum = 1 := by
      unfold idPrefixes
      rw [← Fin.sum_univ_def, sum_ite_eq, if_pos (mem_univ _)]
    simp only [hcons]
    rw [sum_map_add, ih, hone, length_cons]

lemma sum_prefixCount (r : ResponsiveReservoir) (now : Instant) :
    (idPrefixes.map (r.prefixCount now)).sum = (r.eligibleNodes now).length := by
  rw [← sum_filter_length (r.eligibleNodes now)]
  exact congrArg sum (map_congr_left fun p _ => r.prefixCount_eq now p)

lemma prefixTotal_le (r : ResponsiveReservoir) (now : Instant) :
    r.prefixTotal now ≤ (r.eligibleNodes now).length :=
  (toFinset_card_le _).trans_eq (length_map _)

lemma Inv.nodup_addrs (h : Inv reserved r) (now : Instant) :
    ((r.eligibleNodes now).map NodeTuple.addr).Nodup := by
  unfold eligibleNodes
  rw [map_filterMap]
  have hentry : ∀ {i : ℕ} (hi : i < r.slots.length) {addr : SocketAddr},
      ((r.slots[i].filter fun e => e.eligible now).map ResponsiveEntry.node).map NodeTuple.addr = some addr →
      r.index.get addr = some i := by
    intro i hi addr haddr
    obtain ⟨node, hnode, rfl⟩ := map_eq_some_iff.mp haddr
    obtain ⟨e, he, rfl⟩ := map_eq_some_iff.mp hnode
    refine h.index_of_entry ?_
    unfold entry
    rw [getElem?_eq_getElem hi, (filter_eq_some_iff.mp he).1]
    rfl
  refine pairwise_filterMap.mpr (pairwise_iff_getElem.mpr fun i j hi hj hij a ha b hb hab => ?_)
  have hi' := hentry hi ha
  rw [hab, hentry hj hb] at hi'
  exact hij.ne' (Option.some.inj hi')

/-- What the published nodes have to be: as many eligible ones as there is room for; those of different prefixes
first; no subnet twice behind them unless every subnet is there. -/
structure Stratified (r : ResponsiveReservoir) (limit : ℕ) (now : Instant) (nodes : List NodeTuple) : Prop where
  length : nodes.length = min limit (r.eligibleNodes now).length
  eligible : nodes.Subperm (r.eligibleNodes now)
  distinct : (nodes.map NodeTuple.addr).Nodup
  prefixes : ((nodes.take (min limit (r.prefixTotal now))).map NodeTuple.firstByte).Nodup
  subnets : ∀ i j (hi : i < j) (hj : j < nodes.length), min limit (r.prefixTotal now) ≤ j →
    fromAddr nodes[i].addr = fromAddr nodes[j].addr →
    ∀ node ∈ r.eligibleNodes now, fromAddr node.addr ∈ nodes.map fun n => fromAddr n.addr

lemma sample_count (r : ResponsiveReservoir) (limit : ℕ) (now : Instant) (node : NodeTuple) :
    (r.sample limit now).output.count node +
        (((r.sample limit now).groups node.firstByte ++ (r.sample limit now).deferred node.firstByte).map
          Candidate.node).count node = (r.eligibleNodes now).count node := by
  have hfilter : ∀ nodes : List NodeTuple,
      (nodes.filter fun n => n.firstByte = node.firstByte).count node = nodes.count node :=
    fun nodes => count_filter (decide_eq_true rfl)
  have hsplit := (r.selected_sample limit now).split.perm node.firstByte
  have hcount := (hsplit.trans (r.memberOrder_perm now node.firstByte)).count_eq node
  unfold Sample.published at hcount
  rwa [count_append, hfilter, hfilter] at hcount

lemma sample_subperm (r : ResponsiveReservoir) (limit : ℕ) (now : Instant) :
    (r.sample limit now).output.Subperm (r.eligibleNodes now) :=
  subperm_iff_count.mpr fun node => (Nat.le_add_right _ _).trans_eq (r.sample_count limit now node)

lemma sample_length (r : ResponsiveReservoir) (limit : ℕ) (now : Instant) :
    (r.sample limit now).output.length = min limit (r.eligibleNodes now).length := by
  have hselected := r.selected_sample limit now
  have hle := hselected.length
  rw [sum_prefixCount] at hle
  refine hle.antisymm (Nat.le_of_not_lt fun hroom => ?_)
  have hrest := hselected.rest (by rwa [sum_prefixCount])
  have hall : (r.eligibleNodes now).Subperm (r.sample limit now).output := by
    refine subperm_iff_count.mpr fun node => ?_
    obtain ⟨hgroups, hdeferred⟩ := hrest node.firstByte
    have hcount := r.sample_count limit now node
    rw [hgroups, hdeferred, append_nil, map_nil, count_nil, Nat.add_zero] at hcount
    exact hcount.ge
  exact absurd (hroom.trans_le (Nat.min_le_right _ _)) (Nat.not_lt_of_le hall.length_le)

lemma length_turnOrder (r : ResponsiveReservoir) (now : Instant) :
    (r.turnOrder now).length = r.prefixTotal now := by
  rw [← length_represented]
  exact length_rotate _ _

lemma fresh_ne {nodes seeds fresh relaxed : List NodeTuple} (hnodes : nodes = seeds ++ fresh ++ relaxed)
    (hfresh : (fresh.map Sample.subnet).Nodup)
    (hnew : ∀ node ∈ fresh, Sample.subnet node ∉ seeds.map Sample.subnet) {i j : ℕ} (hij : i < j)
    (hj : j < nodes.length) (hlater : seeds.length ≤ j) (hlast : j < (seeds ++ fresh).length) :
    Sample.subnet nodes[i] ≠ Sample.subnet nodes[j] := by
  subst hnodes
  have hjf : j - seeds.length < fresh.length := by
    rw [length_append] at hlast
    omega
  rw [getElem_append_left hlast, getElem_append_left (hij.trans hlast), getElem_append_right hlater]
  by_cases hi : i < seeds.length
  · rw [getElem_append_left hi]
    intro hsame
    refine hnew _ (getElem_mem hjf) ?_
    rw [← hsame]
    exact mem_map_of_mem (getElem_mem hi)
  · rw [getElem_append_right (Nat.le_of_not_lt hi)]
    intro hsame
    have hif : i - seeds.length < fresh.length := by omega
    have hlen : (fresh.map Sample.subnet).length = fresh.length := length_map _
    have heq := @Nodup.getElem_inj_iff _ _ hfresh _ (hlen ▸ hif) _ (hlen ▸ hjf)
    rw [getElem_map, getElem_map] at heq
    have hindex := heq.mp hsame
    omega

lemma seeds_sample (r : ResponsiveReservoir) (limit : ℕ) (now : Instant) :
    (Sample.seeds (r.memberOrder now) ((r.turnOrder now).take limit)).map NodeTuple.firstByte =
      (r.turnOrder now).take limit :=
  Sample.seeds_firstByte (fun _ hp => mem_turnOrder.mp (mem_of_mem_take hp)) (r.memberOrder_byte now)

lemma Inv.stratified (h : Inv reserved r) (limit : ℕ) (now : Instant) :
    r.Stratified limit now (r.sample limit now).output := by
  have hsub := r.sample_subperm limit now
  obtain ⟨fresh, relaxed, houtput, hfresh, hnew, hcovered⟩ := (r.selected_sample limit now).output
  have hbytes := r.seeds_sample (min limit (idPrefixes.map (r.prefixCount now)).sum) now
  have hseeds := congrArg List.length hbytes
  rw [length_map, length_take, length_turnOrder, sum_prefixCount, min_assoc,
    min_eq_right (r.prefixTotal_le now)] at hseeds
  rw [sum_prefixCount] at houtput hnew hcovered hbytes
  generalize Sample.seeds (r.memberOrder now) _ = seeds at houtput hnew hcovered hbytes hseeds
  refine ⟨r.sample_length limit now, hsub, ?_, ?_, fun i j hij hj hlater hsame node hnode => ?_⟩
  · obtain ⟨nodes, hperm, hnodes⟩ := hsub
    exact (hperm.map NodeTuple.addr).nodup_iff.mp ((h.nodup_addrs now).sublist (hnodes.map _))
  · rw [houtput, append_assoc, ← hseeds, take_left, hbytes]
    exact (r.nodup_turnOrder now).sublist (take_sublist _ _)
  · have hrelaxed : relaxed ≠ [] := by
      rintro rfl
      refine fresh_ne houtput hfresh hnew hij hj (hseeds.trans_le hlater) ?_ hsame
      rw [houtput, append_nil] at hj
      exact hj
    have hmem : node ∈ (r.memberOrder now node.firstByte).map Candidate.node := by
      rw [(r.memberOrder_perm now node.firstByte).mem_iff]
      exact mem_filter.mpr ⟨hnode, decide_eq_true rfl⟩
    obtain ⟨m, hm, rfl⟩ := mem_map.mp hmem
    have hsubnet := hcovered hrelaxed _ m hm
    rw [houtput, map_append]
    exact mem_append_left _ hsubnet

/-- Taking a snapshot publishes a stratified selection of the eligible nodes and keeps the first bytes with the
fewest of them, whatever links earlier snapshots have left behind. -/
theorem snapshot_stratified {reserved : Set ℕ} (h : Inv reserved r) (limit : ℕ) (now : Instant) :
    ∃ r' nodes, r.snapshot limit now = .ok (r', nodes) ∧ r.Stratified limit now nodes ∧ r'.sparsePrefixes ≠ [] ∧
      (∀ p, p ∈ r'.sparsePrefixes ↔ ∀ q, ((r.eligibleNodes now).filter fun node => node.firstByte = p).length ≤
          ((r.eligibleNodes now).filter fun node => node.firstByte = q).length) ∧
      ∀ links, ∃ links', ({ r with snapshotLinks := links }).snapshot limit now =
        .ok ({ r' with snapshotLinks := links' }, nodes) := by
  obtain ⟨links, hrun⟩ := r.snapshot_eq limit now
  have hsparse : (r.snapped limit now links).sparsePrefixes = sparsest (r.prefixCount now) := rfl
  refine ⟨_, _, hrun, h.stratified limit now, ?_, fun p => ?_, fun links' => ?_⟩
  · rw [hsparse]
    exact sparsest_ne_nil (r.prefixCount now)
  · rw [hsparse, mem_sparsest]
    simp only [prefixCount_eq]
  · exact ({ r with snapshotLinks := links' }).snapshot_eq limit now

def threeNodes : List NodeTuple :=
  [⟨.replicate 20 1, .v4 #v[8, 8, 8, 1] 6881⟩, ⟨.replicate 20 1, .v4 #v[8, 8, 8, 2] 6881⟩,
    ⟨.replicate 20 2, .v4 #v[8, 8, 8, 3] 6881⟩]

def recordAll (nodes : List NodeTuple) : Except Panic ResponsiveReservoir :=
  nodes.foldlM (fun r node => r.record node 0 0) (new 4 (secs 90) 0)

lemma inv_recordAll (nodes : List NodeTuple) : Sure (recordAll nodes) (Inv ∅) :=
  safe_foldlM (fun _ node _ hr => (hr.record node 0 0).mono fun _ ⟨hinv, _⟩ => inv_of_subset_empty hinv)
    (inv_new 4 (secs 90) 0)

theorem snapshot_stratified_three :
    ∃ r r' nodes, recordAll threeNodes = .ok r ∧ r.eligibleNodes 0 = threeNodes ∧
      r.snapshot 2 0 = .ok (r', nodes) ∧ r.Stratified 2 0 nodes := by
  obtain ⟨r, hrun, hinv⟩ := (inv_recordAll threeNodes).exists
  have htest : (recordAll threeNodes).isOkAnd (fun r => r.eligibleNodes 0 = threeNodes) = true := by
    decide +kernel
  rw [hrun] at htest
  obtain ⟨r', nodes, hsnapshot, hstratified, -⟩ := snapshot_stratified hinv 2 0
  exact ⟨r, r', nodes, hrun, of_decide_eq_true htest, hsnapshot, hstratified⟩

end ResponsiveReservoir

end DhtCrawler
