import DhtCrawler.LibLinkedList
import DhtCrawler.ReservoirModel

/-! The schedule of the responsive reservoir. -/

namespace DhtCrawler.ResponsiveReservoir

open FiniteMap LinkedList Option Except

variable {r r' : ResponsiveReservoir} {slot : ℕ} {e : ResponsiveEntry}

/-! ### Entries -/

lemma lt_of_entry (he : r.entry slot = some e) : slot < r.slots.length := by
  unfold entry at he
  cases hs : r.slots[slot]? with
  | none =>
    rw [hs] at he
    cases he
  | some x => exact (List.getElem?_eq_some_iff.mp hs).1

lemma entry_setEntry (hlt : slot < r.slots.length) (e : ResponsiveEntry) (i : ℕ) :
    (r.setEntry slot e).entry i = if i = slot then some e else r.entry i := by
  unfold entry setEntry
  rw [List.getElem?_set, if_pos hlt]
  by_cases h : slot = i
  · rw [if_pos h, if_pos h.symm]
    rfl
  · rw [if_neg h, if_neg (Ne.symm h)]

lemma modifyAt_eq (he : r.entry slot = some e) (f : ResponsiveEntry → ResponsiveEntry) :
    r.modifyAt slot f = .ok (r.setEntry slot (f e)) := by
  unfold modifyAt
  rw [he]
  rfl

def prevOf (r : ResponsiveReservoir) (i : ℕ) : Option ℕ := (r.entry i).bind ResponsiveEntry.previous

def nextOf (r : ResponsiveReservoir) (i : ℕ) : Option ℕ := (r.entry i).bind ResponsiveEntry.next

/-- The ready slots in the order of the list that runs through them. -/
structure ReadyList (r : ResponsiveReservoir) (l : List ℕ) : Prop where
  nodup : l.Nodup
  mem : ∀ i, i ∈ l ↔ ∃ e, r.entry i = some e ∧ e.ready = true
  head : r.readyHead = l.head?
  tail : r.readyTail = l.getLast?
  len : r.readyLen = l.length
  linked : Linked r.prevOf r.nextOf l

def core (e : ResponsiveEntry) : ResponsiveEntry :=
  { e with revisitKey := none, ready := false, previous := none, next := none }

/-- The schedule may differ, the nodes and their histories do not. -/
structure Rescheduled (r r' : ResponsiveReservoir) : Prop where
  length : r'.slots.length = r.slots.length
  core : ∀ i, (r'.entry i).map core = (r.entry i).map core
  index : r'.index = r.index
  writeCursor : r'.writeCursor = r.writeCursor
  ttl : r'.ttl = r.ttl
  revisitInterval : r'.revisitInterval = r.revisitInterval
  sparsePrefixes : r'.sparsePrefixes = r.sparsePrefixes

variable {r'' : ResponsiveReservoir} {i : ℕ} {l a b : List ℕ}

lemma Rescheduled.trans (h : Rescheduled r r') (h' : Rescheduled r' r'') : Rescheduled r r'' :=
  ⟨h'.length.trans h.length, fun i => (h'.core i).trans (h.core i), h'.index.trans h.index,
    h'.writeCursor.trans h.writeCursor, h'.ttl.trans h.ttl,
    h'.revisitInterval.trans h.revisitInterval, h'.sparsePrefixes.trans h.sparsePrefixes⟩

lemma Rescheduled.entry (h : Rescheduled r r') {e : ResponsiveEntry} (he : r.entry i = some e) :
    ∃ e', r'.entry i = some e' ∧ ResponsiveReservoir.core e' = ResponsiveReservoir.core e := by
  have hc := h.core i
  rw [he] at hc
  exact map_eq_some_iff.mp hc

/-! ### The ready list -/

structure Mapped (r : ResponsiveReservoir) (f : ℕ → ResponsiveEntry → ResponsiveEntry)
    (r' : ResponsiveReservoir) : Prop where
  frame : r' = { r with slots := r'.slots, readyHead := r'.readyHead, readyTail := r'.readyTail }
  length : r'.slots.length = r.slots.length
  entry : ∀ i, r'.entry i = (r.entry i).map (f i)

lemma mapped_setEntry (he : r.entry slot = some e) (f : ResponsiveEntry → ResponsiveEntry) :
    Mapped r (fun i x => if i = slot then f x else x) (r.setEntry slot (f e)) := by
  refine ⟨rfl, List.length_set, fun i => ?_⟩
  rw [entry_setEntry (lt_of_entry he)]
  by_cases h : i = slot
  · rw [if_pos h, h, he]
    simp
  · simp [h]

lemma setNext_spec {previous : Option ℕ} (hp : ∀ p, previous = some p → ∃ x, r.entry p = some x)
    (next : Option ℕ) :
    ∃ r', r.setNext previous next = .ok r' ∧
      Mapped r (fun i x => if previous = some i then { x with next } else x) r' ∧
      r'.readyHead = (if previous = none then next else r.readyHead) ∧ r'.readyTail = r.readyTail := by
  unfold setNext
  cases previous with
  | none =>
    refine ⟨_, rfl, ⟨rfl, rfl, fun i => ?_⟩, rfl, rfl⟩
    simp [entry]
  | some p =>
    obtain ⟨x, hx⟩ := hp p rfl
    refine ⟨_, modifyAt_eq hx _, ?_, rfl, rfl⟩
    have hm := mapped_setEntry hx fun x => { x with next }
    simpa only [some_inj, eq_comm] using hm

lemma setPrevious_spec {next : Option ℕ} (hn : ∀ n, next = some n → ∃ x, r.entry n = some x)
    (previous : Option ℕ) :
    ∃ r', r.setPrevious next previous = .ok r' ∧
      Mapped r (fun i x => if next = some i then { x with previous } else x) r' ∧
      r'.readyHead = r.readyHead ∧ r'.readyTail = if next = none then previous else r.readyTail := by
  unfold setPrevious
  cases next with
  | none =>
    refine ⟨_, rfl, ⟨rfl, rfl, fun i => ?_⟩, rfl, rfl⟩
    simp [entry]
  | some n =>
    obtain ⟨x, hx⟩ := hn n rfl
    refine ⟨_, modifyAt_eq hx _, ?_, rfl, rfl⟩
    have hm := mapped_setEntry hx fun x => { x with previous }
    simpa only [some_inj, eq_comm] using hm

lemma ReadyList.notMem (hl : ReadyList r l) (he : r.entry slot = some e) (hready : e.ready = false) :
    slot ∉ l := by
  intro hs
  obtain ⟨x, hx, hxr⟩ := (hl.mem slot).mp hs
  rw [he] at hx
  cases hx
  rw [hready] at hxr
  cases hxr

lemma ReadyList.neighbours (hl : ReadyList r (a ++ slot :: b)) (he : r.entry slot = some e) :
    e.previous = a.getLast? ∧ e.next = b.head? := by
  obtain ⟨hp, hn⟩ := hl.linked a slot b rfl
  unfold prevOf at hp
  unfold nextOf at hn
  rw [he] at hp hn
  exact ⟨hp, hn⟩

lemma Mapped.trans {f g : ℕ → ResponsiveEntry → ResponsiveEntry} (h : Mapped r f r') (h' : Mapped r' g r'') :
    Mapped r (fun i x => g i (f i x)) r'' := by
  refine ⟨?_, h'.length.trans h.length, fun i => ?_⟩
  · rw [h'.frame, h.frame]
  · rw [h'.entry, h.entry, map_map]
    rfl

lemma Mapped.occupied {f : ℕ → ResponsiveEntry → ResponsiveEntry} (h : Mapped r f r')
    (hi : ∃ x, r.entry i = some x) : ∃ x, r'.entry i = some x := by
  obtain ⟨x, hx⟩ := hi
  exact ⟨f i x, by rw [h.entry, hx]; rfl⟩

def relinked (a b : List ℕ) (i : ℕ) (e : ResponsiveEntry) : ResponsiveEntry :=
  { e with
    next := if a.getLast? = some i then b.head? else e.next
    previous := if b.head? = some i then a.getLast? else e.previous }

lemma ReadyList.unlink (hl : ReadyList r (a ++ slot :: b)) (he : r.entry slot = some e) :
    ∃ r', r.unlink e = .ok r' ∧
      r' = { r with
        slots := r'.slots
        readyHead := (a ++ b).head?
        readyTail := (a ++ b).getLast?
        readyLen := (a ++ b).length } ∧
      r'.slots.length = r.slots.length ∧ ∀ i, r'.entry i = (r.entry i).map (relinked a b i) := by
  obtain ⟨hprev, hnext⟩ := hl.neighbours he
  have hocc : ∀ i ∈ a ++ slot :: b, ∃ x, r.entry i = some x := by
    intro i hi
    obtain ⟨x, hx, _⟩ := (hl.mem i).mp hi
    exact ⟨x, hx⟩
  have hpocc : ∀ p, e.previous = some p → ∃ x, r.entry p = some x := by
    intro p hp
    rw [hprev] at hp
    exact hocc p (List.mem_append_left _ (List.mem_of_getLast? hp))
  obtain ⟨r₁, hr₁, hm₁, hhead₁, htail₁⟩ := setNext_spec hpocc e.next
  have hnocc : ∀ n, e.next = some n → ∃ x, r₁.entry n = some x := by
    intro n hn
    rw [hnext] at hn
    exact hm₁.occupied
      (hocc n (List.mem_append_right _ (List.mem_cons_of_mem _ (List.mem_of_head? hn))))
  obtain ⟨r₂, hr₂, hm₂, hhead₂, htail₂⟩ := setPrevious_spec hnocc e.previous
  have hm := hm₁.trans hm₂
  have hlen : r₂.readyLen = (a ++ b).length + 1 := by
    rw [hm.frame]
    rw [hl.len]
    simp [Nat.add_assoc]
  refine ⟨{ r₂ with readyLen := r₂.readyLen - 1 }, ?_, ?_, hm.length, ?_⟩
  · unfold ResponsiveReservoir.unlink
    rw [hr₁, ok_bind, hr₂, ok_bind, if_neg (by omega)]
  · have hhead : r₂.readyHead = (a ++ b).head? := by
      rw [hhead₂, hhead₁, hprev, hnext, hl.head]
      cases a with
      | nil => rfl
      | cons x a => simp
    have htail : r₂.readyTail = (a ++ b).getLast? := by
      rw [htail₂, htail₁, hprev, hnext, hl.tail]
      cases b with
      | nil => simp
      | cons x b => simp [List.getLast?_append, List.getLast?_cons]
    rw [← hhead, ← htail, hlen, Nat.add_sub_cancel]
    rw [hm.frame]
  · intro i
    rw [show ({ r₂ with readyLen := r₂.readyLen - 1 } : ResponsiveReservoir).entry i = r₂.entry i from rfl,
      hm.entry, hprev, hnext]
    congr 1
    funext x
    unfold relinked
    by_cases ha : a.getLast? = some i
    · by_cases hb : b.head? = some i
      · simp [ha, hb]
      · simp [ha, hb]
    · by_cases hb : b.head? = some i
      · simp [ha, hb]
      · simp [ha, hb]

lemma ReadyList.removed (hl : ReadyList r (a ++ slot :: b))
    (hothers : ∀ i, i ≠ slot → r'.entry i = (r.entry i).map (relinked a b i))
    (hself : ∀ e, r'.entry slot = some e → e.ready = false) (hhead : r'.readyHead = (a ++ b).head?)
    (htail : r'.readyTail = (a ++ b).getLast?) (hlen : r'.readyLen = (a ++ b).length) :
    ReadyList r' (a ++ b) := by
  have hmem : ∀ i, i ∈ a ++ slot :: b ↔ i = slot ∨ i ∈ a ++ b := by
    intro i
    simp only [List.mem_append, List.mem_cons]
    tauto
  have hnot : slot ∉ a ++ b := (List.nodup_middle.mp hl.nodup).notMem
  have hentry : ∀ i ∈ a ++ b, ∃ x, r.entry i = some x ∧ r'.entry i = some (relinked a b i x) := by
    intro i hi
    obtain ⟨x, hx, _⟩ := (hl.mem i).mp ((hmem i).mpr (.inr hi))
    refine ⟨x, hx, ?_⟩
    rw [hothers i fun h => hnot (h ▸ hi), hx]
    rfl
  refine ⟨(List.nodup_cons.mp (List.nodup_middle.mp hl.nodup)).2, fun i => ⟨fun hi => ?_, ?_⟩, hhead,
    htail, hlen, ?_⟩
  · obtain ⟨x, hx, hready⟩ := (hl.mem i).mp ((hmem i).mpr (.inr hi))
    obtain ⟨x', hx', hx''⟩ := hentry i hi
    rw [hx] at hx'
    cases hx'
    exact ⟨_, hx'', hready⟩
  · rintro ⟨x', hx', hready⟩
    have hne : i ≠ slot := by
      rintro rfl
      rw [hself x' hx'] at hready
      cases hready
    rw [hothers i hne] at hx'
    obtain ⟨x, hx, rfl⟩ := map_eq_some_iff.mp hx'
    exact ((hmem i).mp ((hl.mem i).mpr ⟨x, hx, hready⟩)).resolve_left hne
  · have hnext : ∀ y ∈ a ++ b, r'.nextOf y = if a.getLast? = some y then b.head? else r.nextOf y := by
      intro y hy
      obtain ⟨x, hx, hx'⟩ := hentry y hy
      unfold nextOf
      rw [hx, hx']
      rfl
    have hprev : ∀ y ∈ a ++ b,
        r'.prevOf y = if b.head? = some y then a.getLast? else r.prevOf y := by
      intro y hy
      obtain ⟨x, hx, hx'⟩ := hentry y hy
      unfold prevOf
      rw [hx, hx']
      rfl
    refine hl.linked.remove hl.nodup (fun y hy => ?_) (fun y hy hne => ?_) (fun y hy => ?_)
      fun y hy hne => ?_
    · rw [hnext y (List.mem_append_left _ (List.mem_of_getLast? hy)), if_pos hy]
    · rw [hnext y hy, if_neg hne]
    · rw [hprev y (List.mem_append_right _ (List.mem_of_head? hy)), if_pos hy]
    · rw [hprev y hy, if_neg hne]

lemma ReadyList.appended (hl : ReadyList r l) (hnot : slot ∉ l)
    (hothers : ∀ i, i ≠ slot → r'.entry i = (r.entry i).map fun x => if l.getLast? = some i then { x with next := some slot } else x)
    (hself : r'.entry slot = some e) (hready : e.ready = true) (hprevious : e.previous = l.getLast?)
    (hnext : e.next = none) (hhead : r'.readyHead = (l ++ [slot]).head?) (htail : r'.readyTail = some slot)
    (hlen : r'.readyLen = r.readyLen + 1) : ReadyList r' (l ++ [slot]) := by
  have hentry : ∀ i ∈ l, ∃ x, r.entry i = some x ∧ x.ready = true ∧
      r'.entry i = some (if l.getLast? = some i then { x with next := some slot } else x) := by
    intro i hi
    obtain ⟨x, hx, hxr⟩ := (hl.mem i).mp hi
    refine ⟨x, hx, hxr, ?_⟩
    rw [hothers i fun h => hnot (h ▸ hi), hx]
    rfl
  refine ⟨?_, fun i => ⟨fun hi => ?_, ?_⟩, hhead, ?_, ?_, ?_⟩
  · simpa [List.nodup_append] using ⟨hl.nodup, fun i hi h => hnot (h ▸ hi)⟩
  · rcases List.mem_append.mp hi with hi | hi
    · obtain ⟨x, hx, hxr, hx'⟩ := hentry i hi
      refine ⟨_, hx', ?_⟩
      split_ifs
      · exact hxr
      · exact hxr
    · rw [List.mem_singleton.mp hi]
      exact ⟨e, hself, hready⟩
  · rintro ⟨x', hx', hxr⟩
    by_cases hi : i = slot
    · simp [hi]
    · rw [hothers i hi] at hx'
      obtain ⟨x, hx, rfl⟩ := map_eq_some_iff.mp hx'
      refine List.mem_append_left _ ((hl.mem i).mpr ⟨x, hx, ?_⟩)
      split_ifs at hxr
      · exact hxr
      · exact hxr
  · rw [htail]
    simp
  · rw [hlen, hl.len]
    simp
  · refine hl.linked.append hl.nodup (fun y hy => ?_) (fun y hy => ?_) (fun y hy hne => ?_) ?_ ?_
    · obtain ⟨x, hx, _, hx'⟩ := hentry y hy
      unfold prevOf
      rw [hx, hx']
      split_ifs
      · rfl
      · rfl
    · obtain ⟨x, _, _, hx'⟩ := hentry y (List.mem_of_getLast? hy)
      unfold nextOf
      rw [hx', if_pos hy]
      rfl
    · obtain ⟨x, hx, _, hx'⟩ := hentry y hy
      unfold nextOf
      rw [hx, hx', if_neg hne]
    · unfold prevOf
      rw [hself]
      exact hprevious
    · unfold nextOf
      rw [hself]
      exact hnext

/-! ### The invariant -/

/-- The index, the ready list and the revisits describe the occupied slots; every occupied slot but the reserved
ones has exactly one place in the schedule. -/
structure Inv (reserved : Set ℕ) (r : ResponsiveReservoir) : Prop where
  cursor : r.writeCursor < r.slots.length
  sparse : r.sparsePrefixes ≠ []
  indexed : ∀ addr i, r.index.get addr = some i ↔ ∃ e, r.entry i = some e ∧ e.node.addr = addr
  keyed : ∀ key, key ∈ r.revisits ↔ ∃ e, r.entry key.slot = some e ∧ e.revisitKey = some key
  keySlot : ∀ i e key, r.entry i = some e → e.revisitKey = some key → key.slot = i
  list : ∃ l, ReadyList r l
  scheduled : ∀ i e, r.entry i = some e → i ∉ reserved → (e.ready = true ↔ e.revisitKey = none)
  unscheduled : ∀ i ∈ reserved, ∃ e, r.entry i = some e ∧ e.ready = false ∧ e.revisitKey = none

variable {reserved reserved' : Set ℕ}

lemma Inv.slot_ne (h : Inv reserved r) (he : r.entry slot = some e)
    (hkey : e.revisitKey = none) {key : RevisitKey} (hk : key ∈ r.revisits) : key.slot ≠ slot := by
  intro hs
  obtain ⟨x, hx, hxk⟩ := (h.keyed key).mp hk
  rw [hs, he] at hx
  cases hx
  rw [hkey] at hxk
  cases hxk

def plan (e : ResponsiveEntry) : Bool × Option RevisitKey := (e.ready, e.revisitKey)

structure Replanned (r : ResponsiveReservoir) (slot : ℕ) (p : Bool × Option RevisitKey)
    (r' : ResponsiveReservoir) : Prop where
  rescheduled : Rescheduled r r'
  others : ∀ i, i ≠ slot → (r'.entry i).map plan = (r.entry i).map plan
  self : (r'.entry slot).map plan = some p

lemma Rescheduled.addr (h : Rescheduled r r') (i : ℕ) (addr : SocketAddr) :
    (∃ e, r'.entry i = some e ∧ e.node.addr = addr) ↔ ∃ e, r.entry i = some e ∧ e.node.addr = addr := by
  have key : ∀ x : ResponsiveReservoir, (∃ e, x.entry i = some e ∧ e.node.addr = addr) ↔
      ((x.entry i).map ResponsiveReservoir.core).map (fun e => e.node.addr) = some addr := by
    intro x
    rw [map_map, map_eq_some_iff]
    rfl
  rw [key, key, h.core i]

lemma Replanned.trans {p p' : Bool × Option RevisitKey} (h : Replanned r slot p r')
    (h' : Replanned r' slot p' r'') : Replanned r slot p' r'' :=
  ⟨h.rescheduled.trans h'.rescheduled, fun i hi => (h'.others i hi).trans (h.others i hi), h'.self⟩

lemma Inv.replan {ready : Bool} {k : Option RevisitKey}
    (h : Inv reserved r) (hr : Replanned r slot (ready, k) r') (hl : ∃ l, ReadyList r' l)
    (hres : ∀ i, i ≠ slot → (i ∈ reserved' ↔ i ∈ reserved))
    (hkeys : ∀ key, key ∈ r'.revisits ↔ (key ∈ r.revisits ∧ key.slot ≠ slot) ∨ k = some key)
    (hslot : ∀ key, k = some key → key.slot = slot)
    (hplan : (slot ∈ reserved' ∧ ready = false ∧ k = none) ∨
      (slot ∉ reserved' ∧ (ready = true ↔ k = none))) : Inv reserved' r' := by
  obtain ⟨e', he', hplan'⟩ := map_eq_some_iff.mp hr.self
  obtain ⟨hready, hkey⟩ := Prod.mk.inj hplan'
  have hothers : ∀ i, i ≠ slot → ∀ x', r'.entry i = some x' →
      ∃ x, r.entry i = some x ∧ x.ready = x'.ready ∧ x.revisitKey = x'.revisitKey := by
    intro i hi x' hx'
    have hp := hr.others i hi
    rw [hx'] at hp
    obtain ⟨x, hx, hxp⟩ := map_eq_some_iff.mp hp.symm
    exact ⟨x, hx, (Prod.mk.inj hxp).1, (Prod.mk.inj hxp).2⟩
  refine ⟨?_, ?_, fun addr i => ?_, fun key => ?_, fun i x' key hx' hk => ?_, hl,
    fun i x' hx' hi => ?_, fun i hi => ?_⟩
  · rw [hr.rescheduled.writeCursor, hr.rescheduled.length]
    exact h.cursor
  · rw [hr.rescheduled.sparsePrefixes]
    exact h.sparse
  · rw [hr.rescheduled.index, h.indexed]
    exact (hr.rescheduled.addr i addr).symm
  · rw [hkeys]
    by_cases hs : key.slot = slot
    · rw [hs, he']
      constructor
      · rintro (⟨_, hne⟩ | hk)
        · exact absurd rfl hne
        · exact ⟨e', rfl, hkey.trans hk⟩
      · rintro ⟨x, hx, hk⟩
        cases hx
        exact .inr (hkey.symm.trans hk)
    · have hp := hr.others key.slot hs
      have hnk : k ≠ some key := fun hk => hs (hslot key hk)
      simp only [hs, ne_eq, not_false_eq_true, and_true, hnk, or_false, h.keyed]
      constructor
      · rintro ⟨x, hx, hk⟩
        rw [hx] at hp
        obtain ⟨x', hx', hxp⟩ := map_eq_some_iff.mp hp
        exact ⟨x', hx', (Prod.mk.inj hxp).2.trans hk⟩
      · rintro ⟨x', hx', hk⟩
        obtain ⟨x, hx, _, hxk⟩ := hothers key.slot hs x' hx'
        exact ⟨x, hx, hxk.trans hk⟩
  · by_cases hi : i = slot
    · subst hi
      rw [he'] at hx'
      cases hx'
      exact hslot key (hkey.symm.trans hk)
    · obtain ⟨x, hx, _, hxk⟩ := hothers i hi x' hx'
      exact h.keySlot i x key hx (hxk.trans hk)
  · by_cases hs : i = slot
    · subst hs
      rw [he'] at hx'
      cases hx'
      rcases hplan with ⟨hp, _⟩ | ⟨_, hp⟩
      · exact absurd hp hi
      · rw [hready, hkey]
        exact hp
    · obtain ⟨x, hx, hxr, hxk⟩ := hothers i hs x' hx'
      rw [← hxr, ← hxk]
      exact h.scheduled i x hx fun hmem => hi ((hres i hs).mpr hmem)
  · by_cases hs : i = slot
    · subst hs
      rcases hplan with ⟨_, hf, hn⟩ | ⟨hp, _⟩
      · exact ⟨e', he', hready.trans hf, hkey.trans hn⟩
      · exact absurd hi hp
    · obtain ⟨x, hx, hxr, hxk⟩ := h.unscheduled i ((hres i hs).mp hi)
      have hp := hr.others i hs
      rw [hx] at hp
      obtain ⟨x', hx', hxp⟩ := map_eq_some_iff.mp hp
      obtain ⟨hpr, hpk⟩ := Prod.mk.inj hxp
      exact ⟨x', hx', hpr.trans hxr, hpk.trans hxk⟩

lemma mem_insert_iff_of_ne (hi : i ≠ slot) : i ∈ insert slot reserved ↔ i ∈ reserved :=
  ⟨fun h => h.resolve_left hi, .inr⟩

lemma mem_diff_iff_of_ne (hi : i ≠ slot) : i ∈ reserved \ {slot} ↔ i ∈ reserved :=
  ⟨fun h => h.1, fun h => ⟨h, hi⟩⟩

lemma dropRevisit_entry (key : Option RevisitKey) (i : ℕ) : (r.dropRevisit key).entry i = r.entry i := by
  cases key with
  | none => rfl
  | some key => rfl

lemma unschedule_ready (he : r.entry slot = some e) (hready : e.ready = true)
    (hkey : e.revisitKey = none) :
    r.unschedule slot = r.unlink e >>= fun r => r.modifyAt slot core := by
  unfold unschedule unlinkIfReady
  rw [he]
  show ((if e.ready = true then (r.dropRevisit e.revisitKey).unlink e else _) >>= _) = _
  rw [if_pos hready, hkey]
  rfl

lemma unschedule_waiting (he : r.entry slot = some e) (hready : e.ready = false) :
    r.unschedule slot = .ok ((r.dropRevisit e.revisitKey).setEntry slot (core e)) := by
  have he' := (dropRevisit_entry e.revisitKey slot).trans he
  unfold unschedule unlinkIfReady
  rw [he]
  show ((if e.ready = true then _ else ok (r.dropRevisit e.revisitKey)) >>= _) = _
  rw [if_neg (by simp [hready])]
  exact modifyAt_eq he' core

lemma Inv.unscheduleReady (h : Inv reserved r) (he : r.entry slot = some e) (hready : e.ready = true)
    (hkey : e.revisitKey = none) :
    Sure (r.unschedule slot) fun r' =>
      Inv (insert slot reserved) r' ∧ Replanned r slot (false, none) r' := by
  obtain ⟨l, hl⟩ := h.list
  obtain ⟨a, b, rfl⟩ := List.append_of_mem ((hl.mem slot).mpr ⟨e, he, hready⟩)
  obtain ⟨r₁, hr₁, hframe, hlen, hentry⟩ := hl.unlink he
  have he₁ : r₁.entry slot = some (relinked a b slot e) := by
    rw [hentry, he]
    rfl
  have hlt := lt_of_entry he₁
  rw [unschedule_ready he hready hkey, hr₁, ok_bind, modifyAt_eq he₁]
  have hr : Replanned r slot (false, none) (r₁.setEntry slot (core (relinked a b slot e))) := by
    refine ⟨⟨List.length_set.trans hlen, fun i => ?_, ?_, ?_, ?_, ?_, ?_⟩, fun i hi => ?_, ?_⟩
    · rw [entry_setEntry hlt]
      by_cases hi : i = slot
      · rw [if_pos hi, hi, he]
        rfl
      · rw [if_neg hi, hentry, map_map]
        rfl
    · exact (congrArg index hframe :)
    · exact (congrArg writeCursor hframe :)
    · exact (congrArg ttl hframe :)
    · exact (congrArg revisitInterval hframe :)
    · exact (congrArg sparsePrefixes hframe :)
    · rw [entry_setEntry hlt, if_neg hi, hentry, map_map]
      rfl
    · rw [entry_setEntry hlt, if_pos rfl]
      rfl
  refine ⟨h.replan hr ⟨a ++ b, ?_⟩ (fun i => mem_insert_iff_of_ne) (fun key => ?_) (fun _ hk => nomatch hk)
    (.inl ⟨Set.mem_insert _ _, rfl, rfl⟩), hr⟩
  · refine hl.removed (fun i hi => ?_) (fun x hx => ?_) (congrArg readyHead hframe :)
      (congrArg readyTail hframe :) (congrArg readyLen hframe :)
    · rw [entry_setEntry hlt, if_neg hi, hentry]
    · rw [entry_setEntry hlt, if_pos rfl] at hx
      cases hx
      rfl
  · have hrev : r₁.revisits = r.revisits := (congrArg revisits hframe :)
    show key ∈ r₁.revisits ↔ _
    rw [hrev]
    exact ⟨fun hk => .inl ⟨hk, h.slot_ne he hkey hk⟩, fun hk => (hk.resolve_right nofun).1⟩

lemma ReadyList.congr (hl : ReadyList r l) (hentry : ∀ i ∈ l, r'.entry i = r.entry i)
    (hothers : ∀ i e, i ∉ l → r'.entry i = some e → e.ready = false) (hhead : r'.readyHead = r.readyHead)
    (htail : r'.readyTail = r.readyTail) (hlen : r'.readyLen = r.readyLen) : ReadyList r' l := by
  refine ⟨hl.nodup, fun i => ⟨fun hi => ?_, ?_⟩, hhead.trans hl.head, htail.trans hl.tail,
    hlen.trans hl.len, hl.linked.congr (fun y hy => ?_) fun y hy => ?_⟩
  · rw [hentry i hi]
    exact (hl.mem i).mp hi
  · rintro ⟨x, hx, hready⟩
    by_contra hi
    rw [hothers i x hi hx] at hready
    cases hready
  · unfold prevOf
    rw [hentry y hy]
  · unfold nextOf
    rw [hentry y hy]

lemma ReadyList.setEntry (hl : ReadyList r l) (he : r.entry slot = some e) (hready : e.ready = false)
    {e' : ResponsiveEntry} (hready' : e'.ready = false) : ReadyList (r.setEntry slot e') l := by
  have hlt := lt_of_entry he
  have hnot := hl.notMem he hready
  refine hl.congr (fun i hi => ?_) (fun i x hi hx => ?_) rfl rfl rfl
  · rw [entry_setEntry hlt, if_neg fun hs : i = slot => hnot (hs ▸ hi)]
  · rw [entry_setEntry hlt] at hx
    split_ifs at hx with h
    · cases hx
      exact hready'
    · by_contra hxr
      exact hi ((hl.mem i).mpr ⟨x, hx, Bool.eq_true_of_not_eq_false hxr⟩)

lemma replanned_setEntry (he : r.entry slot = some e) (e' : ResponsiveEntry)
    (hcore : core e' = core e) :
    Replanned r slot (plan e') (r.setEntry slot e') := by
  have hlt := lt_of_entry he
  refine ⟨⟨List.length_set, fun i => ?_, rfl, rfl, rfl, rfl, rfl⟩, fun i hi => ?_, ?_⟩
  · rw [entry_setEntry hlt]
    by_cases hi : i = slot
    · rw [if_pos hi, hi, he, map_some, map_some, hcore]
    · rw [if_neg hi]
  · rw [entry_setEntry hlt, if_neg hi]
  · rw [entry_setEntry hlt, if_pos rfl]
    rfl

lemma Inv.leaveRevisits (h : Inv reserved r) (he : r.entry slot = some e) (hready : e.ready = false)
    (e' : ResponsiveEntry) (hcore : core e' = core e) (hplan : plan e' = (false, none)) :
    Inv (insert slot reserved) ((r.dropRevisit e.revisitKey).setEntry slot e') ∧
      Replanned r slot (false, none) ((r.dropRevisit e.revisitKey).setEntry slot e') := by
  obtain ⟨l, hl⟩ := h.list
  have hlist : ReadyList (r.setEntry slot e') l := hl.setEntry he hready (Prod.mk.inj hplan).1
  have hr : Replanned r slot (false, none) (r.setEntry slot e') :=
    hplan ▸ replanned_setEntry he e' hcore
  cases hkey : e.revisitKey with
  | none =>
    refine ⟨h.replan hr ⟨l, hlist⟩ (fun i => mem_insert_iff_of_ne) (fun key => ?_) (fun _ hk => nomatch hk)
      (.inl ⟨Set.mem_insert _ _, rfl, rfl⟩), hr⟩
    exact ⟨fun hk => .inl ⟨hk, h.slot_ne he hkey hk⟩, fun hk => (hk.resolve_right nofun).1⟩
  | some k =>
    have hslot := h.keySlot slot e k he hkey
    have hr' : Replanned r slot (false, none) ((r.dropRevisit (some k)).setEntry slot e') :=
      ⟨⟨hr.rescheduled.length, hr.rescheduled.core, rfl, rfl, rfl, rfl, rfl⟩, hr.others, hr.self⟩
    refine ⟨h.replan hr' ⟨l, ?_⟩ (fun i => mem_insert_iff_of_ne) (fun key => ?_) (fun _ hk => nomatch hk)
      (.inl ⟨Set.mem_insert _ _, rfl, rfl⟩), hr'⟩
    · exact ⟨hlist.nodup, hlist.mem, hlist.head, hlist.tail, hlist.len, hlist.linked⟩
    · show key ∈ r.revisits.erase k ↔ _
      rw [Finset.mem_erase]
      constructor
      · rintro ⟨hne, hk⟩
        refine .inl ⟨hk, fun hs => hne ?_⟩
        obtain ⟨x, hx, hxk⟩ := (h.keyed key).mp hk
        rw [hs, he] at hx
        cases hx
        rw [hkey] at hxk
        exact (some.inj hxk).symm
      · rintro (⟨hk, hs⟩ | hk)
        · exact ⟨fun h => hs (h ▸ hslot), hk⟩
        · cases hk

lemma Inv.unschedule (h : Inv reserved r) (he : r.entry slot = some e) :
    Sure (r.unschedule slot) fun r' =>
      Inv (insert slot reserved) r' ∧ Replanned r slot (false, none) r' := by
  cases hready : e.ready with
  | false =>
    rw [unschedule_waiting he hready]
    exact h.leaveRevisits he hready (core e) rfl rfl
  | true =>
    refine h.unscheduleReady he hready ?_
    by_cases hi : slot ∈ reserved
    · obtain ⟨x, hx, hxr, _⟩ := h.unscheduled slot hi
      rw [he] at hx
      cases hx
      rw [hready] at hxr
      cases hxr
    · exact (h.scheduled slot e he hi).mp hready

lemma Inv.pushReady (h : Inv reserved r) (hres : slot ∈ reserved) :
    Sure (r.pushReady slot) fun r' =>
      Inv (reserved \ {slot}) r' ∧ Replanned r slot (true, none) r' := by
  obtain ⟨l, hl⟩ := h.list
  obtain ⟨e, he, hready, hkey⟩ := h.unscheduled slot hres
  have hlt := lt_of_entry he
  have hnot := hl.notMem he hready
  have hm := mapped_setEntry he fun e => { e with ready := true, previous := r.readyTail, next := none }
  have htail : ∀ t, r.readyTail = some t → ∃ x, (r.setEntry slot
      { e with ready := true, previous := r.readyTail, next := none }).entry t = some x := by
    intro t ht
    rw [hl.tail] at ht
    obtain ⟨x, hx, _⟩ := (hl.mem t).mp (List.mem_of_getLast? ht)
    exact hm.occupied ⟨x, hx⟩
  obtain ⟨r₁, hr₁, hm₁, hhead, _⟩ := setNext_spec htail (some slot)
  have hm' := hm.trans hm₁
  have hslot : r.readyTail ≠ some slot := by
    rw [hl.tail]
    exact fun ht => hnot (List.mem_of_getLast? ht)
  have hself : r₁.entry slot =
      some { e with ready := true, previous := r.readyTail, next := none } := by
    rw [hm'.entry, he]
    simp [hslot]
  have hothers : ∀ i, i ≠ slot → r₁.entry i = (r.entry i).map fun x =>
      if l.getLast? = some i then { x with next := some slot } else x := by
    intro i hi
    rw [hm'.entry, ← hl.tail]
    simp [hi]
  unfold ResponsiveReservoir.pushReady
  dsimp only
  rw [modifyAt_eq he, ok_bind, hr₁, ok_bind]
  have hr : Replanned r slot (true, none)
      { r₁ with readyTail := some slot, readyLen := r₁.readyLen + 1 } := by
    refine ⟨⟨hm'.length, fun i => ?_, ?_, ?_, ?_, ?_, ?_⟩, fun i hi => ?_, ?_⟩
    · show (r₁.entry i).map core = _
      by_cases hi : i = slot
      · rw [hi, hself, he]
        rfl
      · rw [hothers i hi, map_map]
        congr 1
        funext x
        dsimp only [Function.comp]
        split_ifs
        · rfl
        · rfl
    · exact (congrArg index hm'.frame :)
    · exact (congrArg writeCursor hm'.frame :)
    · exact (congrArg ttl hm'.frame :)
    · exact (congrArg revisitInterval hm'.frame :)
    · exact (congrArg sparsePrefixes hm'.frame :)
    · show (r₁.entry i).map plan = _
      rw [hothers i hi, map_map]
      congr 1
      funext x
      dsimp only [Function.comp]
      split_ifs
      · rfl
      · rfl
    · show (r₁.entry slot).map plan = _
      rw [hself, map_some]
      unfold plan
      rw [hkey]
  refine ⟨h.replan hr ⟨l ++ [slot], ?_⟩ (fun i => mem_diff_iff_of_ne) (fun key => ?_)
    (fun _ hk => nomatch hk) (.inr ⟨fun hmem => hmem.2 rfl, by simp⟩), hr⟩
  · refine hl.appended hnot hothers hself rfl hl.tail rfl ?_ rfl ?_
    · show r₁.readyHead = _
      rw [hhead, hl.tail]
      show (if l.getLast? = none then some slot else r.readyHead) = _
      rw [hl.head]
      cases l with
      | nil => rfl
      | cons x l => simp
    · exact congrArg (· + 1) (congrArg readyLen hm'.frame :)
  · have hrev : r₁.revisits = r.revisits := (congrArg revisits hm'.frame :)
    show key ∈ r₁.revisits ↔ _
    rw [hrev]
    exact ⟨fun hk => .inl ⟨hk, h.slot_ne he hkey hk⟩, fun hk => (hk.resolve_right nofun).1⟩

lemma Inv.wait (h : Inv reserved r) (hres : slot ∈ reserved) (he : r.entry slot = some e) (key : RevisitKey)
    (hslot : key.slot = slot) (sequence : ℕ) (hr' : r' = { r with
      slots := r.slots.set slot (some { e with revisitKey := some key })
      revisitSequence := sequence
      revisits := insert key r.revisits }) :
    Inv (reserved \ {slot}) r' ∧ Replanned r slot (false, some key) r' := by
  obtain ⟨l, hl⟩ := h.list
  obtain ⟨x, hx, hready, hkey⟩ := h.unscheduled slot hres
  rw [he] at hx
  cases hx
  have hset := replanned_setEntry he { e with revisitKey := some key } rfl
  have hlist : ReadyList (r.setEntry slot { e with revisitKey := some key }) l :=
    hl.setEntry he hready hready
  have hr : Replanned r slot (false, some key) r' := by
    rw [hr']
    refine ⟨⟨hset.rescheduled.length, hset.rescheduled.core, rfl, rfl, rfl, rfl, rfl⟩, hset.others, ?_⟩
    rw [← hready]
    exact hset.self
  refine ⟨h.replan hr ⟨l, ?_⟩ (fun i => mem_diff_iff_of_ne) (fun k => ?_) (fun k hk => ?_)
    (.inr ⟨fun hmem => hmem.2 rfl, by simp⟩), hr⟩
  · rw [hr']
    exact ⟨hlist.nodup, hlist.mem, hlist.head, hlist.tail, hlist.len, hlist.linked⟩
  · rw [hr', Finset.mem_insert, or_comm]
    refine or_congr ⟨fun hk => ⟨hk, h.slot_ne he hkey hk⟩, fun hk => hk.1⟩ ?_
    rw [some_inj, eq_comm]
  · cases hk
    exact hslot

structure Enqueued (r : ResponsiveReservoir) (slot : ℕ) (due now : Instant) (r' : ResponsiveReservoir) :
    Prop where
  replanned : ∃ p, Replanned r slot p r' ∧ (p.1 = true → due ≤ now) ∧ ∀ key, p.2 = some key → key.dueAt = due

lemma Enqueued.rescheduled {due now : Instant} (h : Enqueued r slot due now r') : Rescheduled r r' := by
  obtain ⟨p, hp, _⟩ := h.replanned
  exact hp.rescheduled

lemma Inv.enqueueRevisit (h : Inv reserved r) (he : r.entry slot = some e) (when now : Instant) :
    Sure (r.enqueueRevisit slot when now) fun r' =>
      Inv (reserved \ {slot}) r' ∧ Enqueued r slot (dueInstant e when) now r' := by
  have hset : insert slot reserved \ {slot} = reserved \ {slot} := Set.insert_sdiff_of_mem _ rfl
  unfold ResponsiveReservoir.enqueueRevisit
  refine (h.unschedule he).bind fun r₁ ⟨h₁, hr₁⟩ => ?_
  obtain ⟨e₁, he₁, hcore⟩ := hr₁.rescheduled.entry he
  have hdue : dueInstant e₁ when = dueInstant e when := by
    have hblocked : e₁.blockedUntil = e.blockedUntil :=
      (congrArg (fun x : ResponsiveEntry => x.blockedUntil) hcore :)
    unfold dueInstant
    rw [hblocked]
  rw [he₁]
  show Safe _ (if dueInstant e₁ when ≤ now then r₁.pushReady slot else _) _
  rw [hdue]
  split_ifs with hnow
  · refine (h₁.pushReady (Set.mem_insert _ _)).mono fun r₂ ⟨h₂, hr₂⟩ => ?_
    rw [hset] at h₂
    exact ⟨h₂, ⟨_, hr₁.trans hr₂, fun _ => hnow, nofun⟩⟩
  · rw [modifyAt_eq (r := { r₁ with revisitSequence := wrappingSucc r₁.revisitSequence }) he₁,
      ok_bind]
    obtain ⟨h₂, hr₂⟩ := h₁.wait (Set.mem_insert _ _) he₁
      (.of (dueInstant e when) r₁.revisitSequence slot) rfl _ rfl
    rw [hset] at h₂
    refine ⟨h₂, ⟨_, hr₁.trans hr₂, nofun, fun key hkey => ?_⟩⟩
    cases hkey
    rfl

end DhtCrawler.ResponsiveReservoir
