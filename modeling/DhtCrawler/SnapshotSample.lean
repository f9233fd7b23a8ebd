import DhtCrawler.SnapshotQueues
import DhtCrawler.ReservoirReplies

/-! What `snapshot` computes, without the links. -/

namespace DhtCrawler

open Function SnapshotSlots List Except SubnetKey

structure Candidate where
  slot : ℕ
  node : NodeTuple

variable {ms : List Candidate}

structure Sample where
  groups : Fin 256 → List Candidate
  deferred : Fin 256 → List Candidate
  active : List (Fin 256)
  subnets : Finset SubnetKey
  output : List NodeTuple
  selected : Fin 256 → ℕ

namespace Sample

def start (groups : Fin 256 → List Candidate) : Sample where
  groups := groups
  deferred := fun _ => []
  active := []
  subnets := ∅
  output := []
  selected := fun _ => 0

def publish (a : Sample) (p : Fin 256) (node : NodeTuple) : Sample :=
  { a with
    output := a.output ++ [node]
    selected := update a.selected p (a.selected p + 1)
    subnets := insert (fromAddr node.addr) a.subnets }

def requeue (a : Sample) (p : Fin 256) : Sample :=
  if 0 < (a.groups p).length then { a with active := a.active ++ [p] } else a

def seed (limit : ℕ) (a : Sample) (p : Fin 256) : Sample :=
  if a.output.length < limit then
    match a.groups p with
    | [] => a
    | m :: ms => publish { a with groups := update a.groups p ms } p m.node
  else a

def seedStep (limit : ℕ) (a : Sample) (p : Fin 256) : Sample := requeue (seed limit a p) p

def scanStep (p : Fin 256) (a : Sample) : ForInStep Sample :=
  match a.groups p with
  | [] => .done a
  | m :: ms =>
    if fromAddr m.node.addr ∉ a.subnets then
      .done (publish { a with groups := update a.groups p ms } p m.node)
    else
      .yield { a with
        groups := update a.groups p ms
        deferred := update a.deferred p (a.deferred p ++ [m]) }

def fillStep (limit : ℕ) (a : Sample) : ForInStep Sample :=
  if a.output.length < limit then
    match a.active with
    | [] => .done a
    | p :: active =>
      .yield (requeue (Loop.iterate (scanStep p) ((a.groups p).length + 1) { a with active }) p)
  else .done a

def relaxStep (limit : ℕ) (a : Sample) : ForInStep Sample :=
  if a.output.length < limit then
    match a.active with
    | [] => .done a
    | p :: active =>
      match a.deferred p with
      | [] => .done a
      | m :: ms =>
        .yield { a with
          deferred := update a.deferred p ms
          active := if 0 < ms.length then active ++ [p] else active
          output := a.output ++ [m.node]
          selected := update a.selected p (a.selected p + 1) }
  else .done a

def size (queues : Fin 256 → List Candidate) : ℕ := (idPrefixes.map fun p => (queues p).length).sum

def relax (limit : ℕ) (order : List (Fin 256)) (a : Sample) : Sample :=
  if a.output.length < limit then
    Loop.iterate (relaxStep limit) (size a.deferred + 1)
      { a with active := a.active ++ order.filter fun p => 0 < (a.deferred p).length }
  else a

def fill (limit : ℕ) (order : List (Fin 256)) (groups : Fin 256 → List Candidate) : Sample :=
  let a := order.foldl (seedStep limit) (start groups)
  Loop.iterate (fillStep limit) (size a.groups + 1) a

def select (limit : ℕ) (order : List (Fin 256)) (groups : Fin 256 → List Candidate) : Sample :=
  (fill limit order groups).relax limit order

end Sample

namespace ResponsiveReservoir

variable {r : ResponsiveReservoir} {c : Selection} {a : Sample} {p : Fin 256}

/-- The selection is the sample with its lists threaded through the links. -/
structure Sampled (r : ResponsiveReservoir) (c : Selection) (a : Sample) : Prop where
  length : c.links.length = r.slots.length
  groups : ∀ p, Holds c.links (c.groups p) ((a.groups p).map Candidate.slot)
  deferred : ∀ p, Holds c.links (c.deferred p) ((a.deferred p).map Candidate.slot)
  nodup : ∀ p, ((a.groups p ++ a.deferred p).map Candidate.slot).Nodup
  owned : ∀ p, ∀ m ∈ a.groups p ++ a.deferred p,
    (r.entry m.slot).map ResponsiveEntry.node = some m.node ∧ m.node.firstByte = p
  active : c.active = a.active
  subnets : c.subnets = a.subnets
  output : c.output = a.output
  selected : c.selected = a.selected

variable {m : Candidate}

section

variable (h : Sampled r c a)
include h

lemma Sampled.slot_ne {p' : Fin 256} {m' : Candidate} (hm : m ∈ a.groups p ++ a.deferred p)
    (hm' : (r.entry m'.slot).map ResponsiveEntry.node = some m'.node ∧ m'.node.firstByte = p') (hp : p ≠ p') :
    m.slot ≠ m'.slot := by
  intro hs
  obtain ⟨hnode, hbyte⟩ := h.owned p m hm
  rw [hs, hm'.1] at hnode
  refine hp ?_
  rw [← hbyte, ← hm'.2, Option.some.inj hnode]

lemma Sampled.entry (hm : m ∈ a.groups p ++ a.deferred p) : ∃ e, r.entry m.slot = some e ∧ e.node = m.node :=
  Option.map_eq_some_iff.mp (h.owned p m hm).1

lemma Sampled.replaceGroup {q : SnapshotSlots} {links : List ℕ} {l : List Candidate}
    (hq : Holds links q (l.map Candidate.slot)) (hlen : links.length = c.links.length)
    (hsame : ∀ x, x ∉ (a.groups p).map Candidate.slot → x ∉ l.map Candidate.slot → links[x]? = c.links[x]?)
    (hnd : ((l ++ a.deferred p).map Candidate.slot).Nodup)
    (hown : ∀ m ∈ l, (r.entry m.slot).map ResponsiveEntry.node = some m.node ∧ m.node.firstByte = p) :
    Sampled r { c with groups := update c.groups p q, links := links }
      { a with groups := update a.groups p l } := by
  have hothers : ∀ l' : List Candidate, (∀ x ∈ l', x.slot ∉ (a.groups p).map Candidate.slot) →
      (∀ x ∈ l', x.slot ∉ l.map Candidate.slot) → ∀ q', Holds c.links q' (l'.map Candidate.slot) →
      Holds links q' (l'.map Candidate.slot) := by
    intro l' hold hnew q' hh
    refine hh.congr hlen fun x hx => ?_
    obtain ⟨y, hy, rfl⟩ := mem_map.mp hx
    exact hsame y.slot (hold y hy) (hnew y hy)
  have hapart : ∀ p', p' ≠ p → ∀ x ∈ a.groups p' ++ a.deferred p',
      x.slot ∉ (a.groups p).map Candidate.slot ∧ x.slot ∉ l.map Candidate.slot := by
    intro p' hpp x hx
    refine ⟨fun hs => ?_, fun hs => ?_⟩
    · obtain ⟨y, hy, hyx⟩ := mem_map.mp hs
      exact h.slot_ne hx (h.owned p y (mem_append_left _ hy)) hpp hyx.symm
    · obtain ⟨y, hy, hyx⟩ := mem_map.mp hs
      exact h.slot_ne hx (hown y hy) hpp hyx.symm
  have hdisj : ∀ l' : List Candidate, ((l' ++ a.deferred p).map Candidate.slot).Nodup →
      ∀ x ∈ a.deferred p, x.slot ∉ l'.map Candidate.slot := by
    intro l' hnd' x hx hs
    rw [map_append] at hnd'
    exact (nodup_append.mp hnd').2.2 _ hs _ (mem_map_of_mem hx) rfl
  refine ⟨hlen.trans h.length, fun p' => ?_, fun p' => ?_, fun p' => ?_, fun p' x hx => ?_,
    h.active, h.subnets, h.output, h.selected⟩
  · by_cases hpp : p' = p
    · subst hpp
      simpa using hq
    · simp only [update_of_ne hpp]
      exact hothers _ (fun x hx => (hapart p' hpp x (mem_append_left _ hx)).1)
        (fun x hx => (hapart p' hpp x (mem_append_left _ hx)).2) _ (h.groups p')
  · by_cases hpp : p' = p
    · subst hpp
      exact hothers _ (hdisj _ (h.nodup p')) (hdisj l hnd) _ (h.deferred p')
    · exact hothers _ (fun x hx => (hapart p' hpp x (mem_append_right _ hx)).1)
        (fun x hx => (hapart p' hpp x (mem_append_right _ hx)).2) _ (h.deferred p')
  · by_cases hpp : p' = p
    · subst hpp
      simpa using hnd
    · simpa [hpp] using h.nodup p'
  · by_cases hpp : p' = p
    · subst hpp
      simp only [update_self] at hx
      rcases mem_append.mp hx with hx | hx
      · exact hown x hx
      · exact h.owned p' x (mem_append_right _ hx)
    · simp only [update_of_ne hpp] at hx
      exact h.owned p' x hx

lemma Sampled.popGroup (hp : a.groups p = m :: ms) :
    ∃ q, (c.groups p).popFront c.links = .ok (q, some m.slot) ∧
      Sampled r { c with groups := update c.groups p q }
        { a with groups := update a.groups p ms } := by
  have hh := h.groups p
  have hnd := h.nodup p
  rw [hp] at hh hnd
  obtain ⟨q, hq, hq'⟩ := hh.popFront
  refine ⟨q, hq, h.replaceGroup hq' rfl (fun _ _ _ => rfl) (nodup_cons.mp hnd).2 fun x hx => ?_⟩
  refine h.owned p x (mem_append_left _ ?_)
  rw [hp]
  exact mem_cons_of_mem m hx

lemma Sampled.pushGroup (hown : (r.entry m.slot).map ResponsiveEntry.node = some m.node ∧ m.node.firstByte = p)
    (hnot : m.slot ∉ (a.groups p ++ a.deferred p).map Candidate.slot) :
    ∃ q links, (c.groups p).pushBack m.slot c.links = .ok (q, links) ∧
      Sampled r { c with groups := update c.groups p q, links := links }
        { a with groups := update a.groups p (a.groups p ++ [m]) } := by
  have hnd := h.nodup p
  rw [map_append] at hnd hnot
  obtain ⟨e, he, _⟩ := Option.map_eq_some_iff.mp hown.1
  have hlt : m.slot < c.links.length := h.length ▸ lt_of_entry he
  obtain ⟨q, links, hq, hq', hlen, hsame⟩ := (h.groups p).pushBack (nodup_append.mp hnd).1
    (fun hm => hnot (mem_append_left _ hm)) hlt
  refine ⟨q, links, hq, h.replaceGroup (by simpa using hq') hlen (fun x hold hnew => ?_) ?_ fun x hx => ?_⟩
  · refine hsame x hold fun hx => hnew ?_
    simp [hx]
  · simp only [append_assoc, singleton_append, map_append, map_cons]
    exact nodup_middle.mpr (nodup_cons.mpr ⟨hnot, hnd⟩)
  · rcases mem_append.mp hx with hx | hx
    · exact h.owned p x (mem_append_left _ hx)
    · rw [mem_singleton.mp hx]
      exact hown

lemma Sampled.rotateGroup {count : ℕ} (hcount : count < (a.groups p).length) :
    ∃ q links, (c.groups p).rotateLeft count c.links = .ok (q, links) ∧
      Sampled r { c with groups := update c.groups p q, links := links }
        { a with groups := update a.groups p ((a.groups p).rotate count) } := by
  have hnd := h.nodup p
  rw [map_append] at hnd
  obtain ⟨q, links, hq, hq', hlen, hsame⟩ := (h.groups p).rotateLeft (nodup_append.mp hnd).1
    (hcount.trans_eq (length_map _).symm)
  rw [← map_rotate] at hq'
  have hperm : ((a.groups p).rotate count).Perm (a.groups p) := rotate_perm _ _
  refine ⟨q, links, hq, h.replaceGroup hq' hlen (fun x hold _ => hsame x hold) ?_ fun x hx => ?_⟩
  · exact ((hperm.append_right _).map _).nodup_iff.mpr (h.nodup p)
  · exact h.owned p x (mem_append_left _ (hperm.mem_iff.mp hx))

lemma Sampled.swap :
    Sampled r { c with groups := c.deferred, deferred := c.groups }
      { a with groups := a.deferred, deferred := a.groups } := by
  refine ⟨h.length, h.deferred, h.groups, fun p => ?_, fun p m hm => ?_, h.active, h.subnets, h.output,
    h.selected⟩
  · exact (perm_append_comm.map _).nodup_iff.mp (h.nodup p)
  · exact h.owned p m (perm_append_comm.mem_iff.mp hm)

lemma Sampled.popDeferred (hp : a.deferred p = m :: ms) :
    ∃ q, (c.deferred p).popFront c.links = .ok (q, some m.slot) ∧
      Sampled r { c with deferred := update c.deferred p q }
        { a with deferred := update a.deferred p ms } := by
  obtain ⟨q, hq, hq'⟩ := h.swap.popGroup hp
  exact ⟨q, hq, hq'.swap⟩

lemma Sampled.pushDeferred
    (hown : (r.entry m.slot).map ResponsiveEntry.node = some m.node ∧ m.node.firstByte = p)
    (hnot : m.slot ∉ (a.groups p ++ a.deferred p).map Candidate.slot) :
    ∃ q links, (c.deferred p).pushBack m.slot c.links = .ok (q, links) ∧
      Sampled r { c with deferred := update c.deferred p q, links := links }
        { a with deferred := update a.deferred p (a.deferred p ++ [m]) } := by
  obtain ⟨q, links, hq, hq'⟩ := h.swap.pushGroup hown fun hm =>
    hnot ((perm_append_comm.map _).mem_iff.mp hm)
  exact ⟨q, links, hq, hq'.swap⟩

/-! ### The passes -/

lemma Sampled.groups_len (p : Fin 256) : (c.groups p).len = (a.groups p).length :=
  (h.groups p).len.trans (length_map _)

lemma Sampled.deferred_len (p : Fin 256) : (c.deferred p).len = (a.deferred p).length :=
  (h.deferred p).len.trans (length_map _)

lemma Sampled.publish (p : Fin 256) (node : NodeTuple) : Sampled r (publish c p node) (a.publish p node) := by
  refine ⟨h.length, h.groups, h.deferred, h.nodup, h.owned, h.active, ?_, ?_, ?_⟩
  · show insert _ c.subnets = insert _ a.subnets
    rw [h.subnets]
  · show c.output ++ _ = a.output ++ _
    rw [h.output]
  · show update c.selected p _ = update a.selected p _
    rw [h.selected]

lemma Sampled.withActive (active : List (Fin 256)) :
    Sampled r { c with active := active } { a with active := active } :=
  ⟨h.length, h.groups, h.deferred, h.nodup, h.owned, rfl, h.subnets, h.output, h.selected⟩

lemma Sampled.requeue (p : Fin 256) : Sampled r (requeue c p) (a.requeue p) := by
  unfold ResponsiveReservoir.requeue Sample.requeue
  rw [h.groups_len p, h.active]
  split_ifs
  · exact h.withActive _
  · exact h

lemma Sampled.room {limit : ℕ} : c.output.length < limit ↔ a.output.length < limit := by
  rw [h.output]

lemma Sampled.seed (limit : ℕ) (p : Fin 256) :
    Sure (r.seed limit c p) fun c' => Sampled r c' (a.seed limit p) := by
  unfold ResponsiveReservoir.seed Sample.seed
  by_cases hroom : a.output.length < limit
  · rw [if_pos (h.room.mpr hroom), if_pos hroom]
    cases hp : a.groups p with
    | nil =>
      have hh := h.groups p
      rw [hp] at hh
      rw [hh.popFront_nil, ok_bind]
      dsimp only
      rw [update_eq_self]
      exact h
    | cons m ms =>
      obtain ⟨q, hq, hq'⟩ := h.popGroup hp
      obtain ⟨e, he, hnode⟩ := h.entry (p := p) (m := m) (by simp [hp])
      rw [hq, ok_bind]
      dsimp only
      rw [he, unwrap_some, ok_bind, hnode]
      exact hq'.publish p m.node
  · rw [if_neg (mt h.room.mp hroom), if_neg hroom]
    exact h

lemma Sampled.seedStep (limit : ℕ) (p : Fin 256) :
    Sure (r.seedStep limit c p) fun c' => Sampled r c' (a.seedStep limit p) :=
  (h.seed limit p).bind fun _ h' => h'.requeue p

lemma Sampled.scanStep (p : Fin 256) :
    Sure (r.scanStep p c) fun x =>
      Loop.Matching (Sampled r) x (a.scanStep p) := by
  unfold ResponsiveReservoir.scanStep Sample.scanStep
  cases hp : a.groups p with
  | nil =>
    have hh := h.groups p
    rw [hp] at hh
    rw [hh.popFront_nil, ok_bind]
    dsimp only
    rw [update_eq_self]
    exact h
  | cons m ms =>
    obtain ⟨q, hq, hq'⟩ := h.popGroup hp
    obtain ⟨e, he, hnode⟩ := h.entry (p := p) (m := m) (by simp [hp])
    rw [hq, ok_bind]
    dsimp only
    rw [he, unwrap_some, ok_bind, hnode]
    by_cases hs : fromAddr m.node.addr ∈ a.subnets
    · have hs' : fromAddr m.node.addr ∈ c.subnets := h.subnets ▸ hs
      have hown := h.owned p m (by simp [hp])
      have hnd := h.nodup p
      rw [hp] at hnd
      have hnot : m.slot ∉ (update a.groups p ms p ++ a.deferred p).map Candidate.slot := by
        rw [update_self]
        exact (nodup_cons.mp hnd).1
      obtain ⟨d, links, hd, hd'⟩ := hq'.pushDeferred hown hnot
      rw [if_neg (not_not.mpr hs'), if_neg (not_not.mpr hs), hd, ok_bind]
      exact hd'
    · have hs' : fromAddr m.node.addr ∉ c.subnets := h.subnets ▸ hs
      rw [if_pos hs', if_pos hs]
      exact hq'.publish p m.node

lemma Sampled.fillStep (limit : ℕ) :
    Sure (r.fillStep limit c) fun x =>
      Loop.Matching (Sampled r) x (a.fillStep limit) := by
  unfold ResponsiveReservoir.fillStep Sample.fillStep
  by_cases hroom : a.output.length < limit
  · rw [if_pos (h.room.mpr hroom), if_pos hroom]
    cases hactive : a.active with
    | nil =>
      rw [h.active.trans hactive]
      exact h
    | cons p active =>
      rw [h.active.trans hactive]
      dsimp only
      rw [h.groups_len p]
      exact (Loop.safe_run_simulates (fun _ _ h' => h'.scanStep p) _ (h.withActive active)).bind
        fun _ h' => h'.requeue p
  · rw [if_neg (mt h.room.mp hroom), if_neg hroom]
    exact h

lemma Sampled.relaxStep (limit : ℕ) (hturn : ∀ p ∈ a.active, a.deferred p ≠ []) :
    Sure (r.relaxStep limit c) fun x =>
      Loop.Matching (Sampled r) x (a.relaxStep limit) := by
  unfold ResponsiveReservoir.relaxStep Sample.relaxStep
  by_cases hroom : a.output.length < limit
  · rw [if_pos (h.room.mpr hroom), if_pos hroom]
    cases hactive : a.active with
    | nil =>
      rw [h.active.trans hactive]
      exact h
    | cons p active =>
      rw [h.active.trans hactive]
      cases hp : a.deferred p with
      | nil => exact absurd hp (hturn p (by simp [hactive]))
      | cons m ms =>
        obtain ⟨q, hq, hq'⟩ := h.popDeferred hp
        obtain ⟨e, he, hnode⟩ := h.entry (p := p) (m := m) (by simp [hp])
        have hlen := hq'.deferred_len p
        simp only [update_self] at hlen
        dsimp only
        rw [hq, ok_bind]
        rw [unwrap_some, ok_bind, he, unwrap_some, ok_bind, hnode, hlen, h.selected, h.output, hp]
        exact ⟨hq'.length, hq'.groups, hq'.deferred, hq'.nodup, hq'.owned, rfl, h.subnets, rfl, rfl⟩
  · rw [if_neg (mt h.room.mp hroom), if_neg hroom]
    exact h

end

end ResponsiveReservoir

end DhtCrawler
