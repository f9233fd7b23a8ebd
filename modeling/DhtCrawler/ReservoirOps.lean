import DhtCrawler.ReservoirSchedule

/-! What the operations on a member of the responsive reservoir do to its invariant and to the set of nodes it
holds. -/

namespace DhtCrawler.ResponsiveReservoir

open FiniteMap LinkedList List Option Finset ResponsiveReservoir Except

variable {r r' : ResponsiveReservoir} {slot : ℕ} {e : ResponsiveEntry} {reserved : Set ℕ}
  {addr : SocketAddr}

variable {r'' : ResponsiveReservoir}

lemma Inv.entry_of_index (h : Inv reserved r) (hi : r.index.get addr = some slot) :
    ∃ e, r.entry slot = some e ∧ e.node.addr = addr := (h.indexed addr slot).mp hi

lemma Inv.index_of_entry (h : Inv reserved r) (he : r.entry slot = some e) :
    r.index.get e.node.addr = some slot := (h.indexed _ _).mpr ⟨e, he, rfl⟩

lemma inv_new (capacity : ℕ) (ttl revisitInterval : Duration) : Inv ∅ (new capacity ttl revisitInterval) := by
  have hentry : ∀ i, (new capacity ttl revisitInterval).entry i = none := by
    intro i
    unfold new entry
    rw [List.getElem?_replicate]
    split_ifs
    · rfl
    · rfl
  refine ⟨?_, ?_, fun addr i => ?_, fun key => ?_, fun i e key he => ?_, ⟨[], ?_⟩, fun i e he => ?_,
    fun i hi => nomatch hi⟩
  · show 0 < (replicate (max capacity 1) none).length
    rw [length_replicate]
    omega
  · unfold new
    dsimp only
    exact idPrefixes_ne_nil
  · rw [hentry]
    simp [new]
  · rw [hentry]
    simp [new]
  · rw [hentry] at he
    cases he
  · refine ⟨nodup_nil, fun i => ?_, rfl, rfl, rfl, linked_nil⟩
    rw [hentry]
    simp
  · rw [hentry] at he
    cases he

lemma Inv.setEntry (h : Inv reserved r) (he : r.entry slot = some e) (e' : ResponsiveEntry)
    (haddr : e'.node.addr = e.node.addr) (hplan : plan e' = plan e) (hprev : e'.previous = e.previous)
    (hnext : e'.next = e.next) : Inv reserved (r.setEntry slot e') := by
  have hlt := lt_of_entry he
  obtain ⟨hready, hkey⟩ := Prod.mk.inj hplan
  have hbind : ∀ {β : Type} (f : ResponsiveEntry → Option β) (i : ℕ), f e' = f e →
      ((r.setEntry slot e').entry i).bind f = (r.entry i).bind f := by
    intro β f i hf
    rw [entry_setEntry hlt]
    by_cases hi : i = slot
    · rw [if_pos hi, hi, he]
      exact hf
    · rw [if_neg hi]
  have hiff : ∀ {β : Type} (f : ResponsiveEntry → β) (i : ℕ) (y : β), f e' = f e →
      ((∃ x, (r.setEntry slot e').entry i = some x ∧ f x = y) ↔ ∃ x, r.entry i = some x ∧ f x = y) := by
    intro β f i y hf
    rw [← map_eq_some_iff, ← map_eq_some_iff, map_eq_bind, map_eq_bind, hbind (some ∘ f) i (congrArg some hf)]
  have hsame : ∀ i x', (r.setEntry slot e').entry i = some x' → ∃ x, r.entry i = some x ∧ plan x = plan x' := by
    intro i x' hx'
    exact (hiff plan i (plan x') hplan).mp ⟨x', hx', rfl⟩
  obtain ⟨l, hl⟩ := h.list
  refine ⟨?_, h.sparse, fun addr i => ?_, fun key => ?_, fun i x' key hx' hk => ?_, ⟨l, ?_⟩,
    fun i x' hx' hi => ?_, fun i hi => ?_⟩
  · show r.writeCursor < (r.slots.set slot (some e')).length
    rw [length_set]
    exact h.cursor
  · rw [hiff (fun x => x.node.addr) i addr haddr]
    exact h.indexed addr i
  · rw [hiff ResponsiveEntry.revisitKey key.slot (some key) hkey]
    exact h.keyed key
  · obtain ⟨x, hx, hp⟩ := hsame i x' hx'
    exact h.keySlot i x key hx ((Prod.mk.inj hp).2.trans hk)
  · refine ⟨hl.nodup, fun i => ?_, hl.head, hl.tail, hl.len, hl.linked.congr (fun y _ => ?_) fun y _ => ?_⟩
    · rw [hiff ResponsiveEntry.ready i true hready]
      exact hl.mem i
    · exact hbind ResponsiveEntry.previous y hprev
    · exact hbind ResponsiveEntry.next y hnext
  · obtain ⟨x, hx, hp⟩ := hsame i x' hx'
    obtain ⟨hxr, hxk⟩ := Prod.mk.inj hp
    rw [← hxr, ← hxk]
    exact h.scheduled i x hx hi
  · obtain ⟨x, hx, hxr, hxk⟩ := h.unscheduled i hi
    obtain ⟨x', hx', hp⟩ := (hiff plan i (plan x) hplan).mpr ⟨x, hx, rfl⟩
    obtain ⟨hpr, hpk⟩ := Prod.mk.inj hp
    exact ⟨x', hx', hpr.trans hxr, hpk.trans hxk⟩

/-! ### Freeing and filling a slot -/

lemma entry_set_none (hlt : slot < r.slots.length) (i : ℕ) :
    ({ r with slots := r.slots.set slot none } : ResponsiveReservoir).entry i =
      if i = slot then none else r.entry i := by
  unfold entry
  rw [List.getElem?_set, if_pos hlt]
  by_cases h : slot = i
  · rw [if_pos h, if_pos h.symm]
    rfl
  · rw [if_neg h, if_neg (Ne.symm h)]

lemma Inv.free (h : Inv reserved r) (hres : slot ∈ reserved) (he : r.entry slot = some e) :
    Inv (reserved \ {slot}) { r with slots := r.slots.set slot none, index := r.index.erase e.node.addr } := by
  have hlt := lt_of_entry he
  obtain ⟨x, hx, hready, hkey⟩ := h.unscheduled slot hres
  rw [he] at hx
  cases hx
  obtain ⟨l, hl⟩ := h.list
  have hnot := hl.notMem he hready
  have hentry : ∀ i, ({ r with slots := r.slots.set slot none, index := r.index.erase e.node.addr } :
      ResponsiveReservoir).entry i = if i = slot then none else r.entry i := entry_set_none hlt
  refine ⟨?_, h.sparse, fun addr i => ?_, fun key => ?_, fun i x key hx => ?_, ⟨l, ?_⟩,
    fun i x hx hi => ?_, fun i hi => ?_⟩
  · show r.writeCursor < (r.slots.set slot none).length
    rw [length_set]
    exact h.cursor
  · show (r.index.erase e.node.addr).get addr = some i ↔ _
    rw [get_erase, hentry]
    by_cases hi : i = slot
    · subst hi
      constructor
      · intro hg
        split_ifs at hg with ha
        obtain ⟨x, hx, hxa⟩ := h.entry_of_index hg
        rw [he] at hx
        cases hx
        exact absurd hxa.symm ha
      · rw [if_pos rfl]
        rintro ⟨x, hx, _⟩
        cases hx
    · rw [if_neg hi, ← h.indexed addr i]
      by_cases ha : addr = e.node.addr
      · rw [if_pos ha, ha, h.index_of_entry he]
        simp [Ne.symm hi]
      · rw [if_neg ha]
  · rw [hentry]
    show key ∈ r.revisits ↔ _
    by_cases hs : key.slot = slot
    · rw [if_pos hs]
      exact ⟨fun hk => absurd hs (h.slot_ne he hkey hk), fun ⟨x, hx, _⟩ => nomatch hx⟩
    · rw [if_neg hs]
      exact h.keyed key
  · rw [hentry] at hx
    split_ifs at hx
    exact h.keySlot i x key hx
  · refine hl.congr (fun i hi => ?_) (fun i x hi hx => ?_) rfl rfl rfl
    · rw [hentry, if_neg fun hs : i = slot => hnot (hs ▸ hi)]
    · rw [hentry] at hx
      split_ifs at hx
      by_contra hxr
      exact hi ((hl.mem i).mpr ⟨x, hx, Bool.eq_true_of_not_eq_false hxr⟩)
  · rw [hentry] at hx
    split_ifs at hx with hs
    exact h.scheduled i x hx fun hmem => hi ⟨hmem, hs⟩
  · obtain ⟨hmem, hs⟩ := hi
    have hs : i ≠ slot := hs
    rw [hentry, if_neg hs]
    exact h.unscheduled i hmem

lemma Inv.fill (h : Inv reserved r) (hlt : slot < r.slots.length) (hfree : r.entry slot = none)
    (hnew : r.index.get e.node.addr = none) (hplan : plan e = (false, none)) :
    Inv (insert slot reserved) { r.setEntry slot e with index := r.index.insert e.node.addr slot } := by
  obtain ⟨hready, hkey⟩ := Prod.mk.inj hplan
  obtain ⟨l, hl⟩ := h.list
  have hentry : ∀ i, ({ r.setEntry slot e with index := r.index.insert e.node.addr slot } :
      ResponsiveReservoir).entry i = if i = slot then some e else r.entry i := entry_setEntry hlt e
  have hnot : slot ∉ l := by
    intro hs
    obtain ⟨x, hx, _⟩ := (hl.mem slot).mp hs
    rw [hfree] at hx
    cases hx
  refine ⟨?_, h.sparse, fun addr i => ?_, fun key => ?_, fun i x key hx hk => ?_, ⟨l, ?_⟩,
    fun i x hx hi => ?_, fun i hi => ?_⟩
  · show r.writeCursor < (r.slots.set slot (some e)).length
    rw [length_set]
    exact h.cursor
  · show (r.index.insert e.node.addr slot).get addr = some i ↔ _
    rw [get_insert, hentry]
    by_cases hi : i = slot
    · rw [if_pos hi, hi]
      by_cases ha : addr = e.node.addr
      · simp [ha]
      · rw [if_neg ha]
        refine ⟨fun hg => ?_, fun ⟨x, hx, hxa⟩ => ?_⟩
        · obtain ⟨x, hx, _⟩ := h.entry_of_index hg
          rw [hfree] at hx
          cases hx
        · cases hx
          exact absurd hxa.symm ha
    · rw [if_neg hi, ← h.indexed addr i]
      by_cases ha : addr = e.node.addr
      · rw [if_pos ha, ha, hnew]
        simp [Ne.symm hi]
      · rw [if_neg ha]
  · rw [hentry]
    show key ∈ r.revisits ↔ _
    rw [h.keyed key]
    by_cases hs : key.slot = slot
    · rw [if_pos hs, hs, hfree]
      simp [hkey]
    · rw [if_neg hs]
  · rw [hentry] at hx
    split_ifs at hx
    · cases hx
      rw [hkey] at hk
      cases hk
    · exact h.keySlot i x key hx hk
  · refine hl.congr (fun i hi => ?_) (fun i x hi hx => ?_) rfl rfl rfl
    · rw [hentry, if_neg fun hs : i = slot => hnot (hs ▸ hi)]
    · rw [hentry] at hx
      split_ifs at hx
      · cases hx
        exact hready
      · by_contra hxr
        exact hi ((hl.mem i).mpr ⟨x, hx, Bool.eq_true_of_not_eq_false hxr⟩)
  · rw [hentry] at hx
    split_ifs at hx with hs
    · exact absurd (.inl hs) hi
    · exact h.scheduled i x hx fun hmem => hi (.inr hmem)
  · by_cases hs : i = slot
    · exact ⟨e, by rw [hentry, if_pos hs], hready, hkey⟩
    · rw [hentry, if_neg hs]
      exact h.unscheduled i (hi.resolve_left hs)

/-! ### Members and their health -/

structure Trimmed (r r' : ResponsiveReservoir) : Prop where
  length : r'.slots.length = r.slots.length
  ttl : r'.ttl = r.ttl
  interval : r'.revisitInterval = r.revisitInterval
  members : ∀ addr i, r'.index.get addr = some i → r.index.get addr = some i

lemma Trimmed.refl (r : ResponsiveReservoir) : Trimmed r r := ⟨rfl, rfl, rfl, fun _ _ h => h⟩

lemma Trimmed.trans (h : Trimmed r r') (h' : Trimmed r' r'') : Trimmed r r'' :=
  ⟨h'.length.trans h.length, h'.ttl.trans h.ttl, h'.interval.trans h.interval,
    fun addr i hi => h.members addr i (h'.members addr i hi)⟩

structure Health where
  failures : ℕ
  blockedUntil : Option Instant
  lastSuccessAt : Instant
  deriving DecidableEq

def healthOf (e : ResponsiveEntry) : Health := ⟨e.failures, e.blockedUntil, e.lastSuccessAt⟩

def health (r : ResponsiveReservoir) (addr : SocketAddr) : Option Health :=
  ((r.index.get addr).bind r.entry).map healthOf

lemma health_of_entry (h : Inv reserved r) (he : r.entry slot = some e) :
    r.health e.node.addr = some (healthOf e) := by
  unfold health
  rw [h.index_of_entry he, bind_some, he, map_some]

structure Kept (r r' : ResponsiveReservoir) : Prop extends Trimmed r r' where
  health : ∀ addr, r'.health addr = none ∨ r'.health addr = r.health addr

lemma Kept.refl (r : ResponsiveReservoir) : Kept r r := ⟨.refl r, fun _ => .inr rfl⟩

lemma Kept.trans (h : Kept r r') (h' : Kept r' r'') : Kept r r'' := by
  refine ⟨h.toTrimmed.trans h'.toTrimmed, fun addr => ?_⟩
  rcases h'.health addr with hnone | hsame
  · exact .inl hnone
  · rw [hsame]
    exact h.health addr

lemma Rescheduled.health (h : Rescheduled r r') (addr : SocketAddr) : r'.health addr = r.health addr := by
  unfold ResponsiveReservoir.health
  rw [h.index]
  cases r.index.get addr with
  | none => rfl
  | some i =>
    have hcore := congrArg (Option.map healthOf) (h.core i)
    rw [Option.map_map, Option.map_map] at hcore
    exact hcore

lemma Rescheduled.kept (h : Rescheduled r r') : Kept r r' :=
  ⟨⟨h.length, h.ttl, h.revisitInterval, fun _ _ hi => h.index ▸ hi⟩, fun addr => .inr (h.health addr)⟩

variable {e' : ResponsiveEntry} {due now : Instant}

lemma Inv.health_setEntry (h : Inv reserved r) (he : r.entry slot = some e)
    (haddr : e'.node.addr = e.node.addr) (addr : SocketAddr) :
    (r.setEntry slot e').health addr = if addr = e'.node.addr then some (healthOf e') else r.health addr := by
  have hindex : ∀ i, r.index.get addr = some i → (i = slot ↔ addr = e'.node.addr) := by
    intro i hi
    rw [haddr]
    constructor
    · rintro rfl
      obtain ⟨x, hx, hxa⟩ := h.entry_of_index hi
      rw [he] at hx
      cases hx
      exact hxa.symm
    · rintro rfl
      exact Option.some.inj (hi.symm.trans (h.index_of_entry he))
  unfold health
  show ((r.index.get addr).bind (r.setEntry slot e').entry).map healthOf = _
  cases hi : r.index.get addr with
  | none =>
    rw [if_neg]
    · rfl
    · rintro rfl
      rw [haddr, h.index_of_entry he] at hi
      cases hi
  | some i =>
    rw [bind_some, entry_setEntry (lt_of_entry he)]
    by_cases hs : i = slot
    · rw [if_pos hs, if_pos ((hindex i hi).mp hs)]
      rfl
    · rw [if_neg hs, if_neg fun ha => hs ((hindex i hi).mpr ha)]
      rfl

structure Rewritten (r : ResponsiveReservoir) (slot : ℕ) (e' : ResponsiveEntry) (due now : Instant)
    (r' : ResponsiveReservoir) : Prop where
  entry : ∃ e, r.entry slot = some e ∧ e'.node.addr = e.node.addr
  enqueued : Enqueued (r.setEntry slot e') slot due now r'

lemma Rewritten.trimmed (h : Rewritten r slot e' due now r') : Trimmed r r' := by
  have hr := h.enqueued.rescheduled
  refine ⟨hr.length.trans length_set, hr.ttl, hr.revisitInterval, fun addr i hi => ?_⟩
  rw [hr.index] at hi
  exact hi

lemma Rewritten.health (hinv : Inv reserved r) (h : Rewritten r slot e' due now r') (addr : SocketAddr) :
    r'.health addr = if addr = e'.node.addr then some (healthOf e') else r.health addr := by
  obtain ⟨e, he, haddr⟩ := h.entry
  rw [h.enqueued.rescheduled.health, hinv.health_setEntry he haddr]

lemma Rewritten.kept (hinv : Inv reserved r) (he : r.entry slot = some e) (hhealth : healthOf e' = healthOf e)
    (h : Rewritten r slot e' due now r') : Kept r r' := by
  refine ⟨h.trimmed, fun addr => .inr ?_⟩
  rw [h.health hinv]
  split_ifs with ha
  · obtain ⟨x, hx, hxa⟩ := h.entry
    rw [he] at hx
    cases hx
    rw [ha, hxa, health_of_entry hinv he, hhealth]
  · rfl

lemma Inv.reschedule (h : Inv reserved r) (he : r.entry slot = some e) (e' : ResponsiveEntry)
    (haddr : e'.node.addr = e.node.addr) (hplan : plan e' = plan e) (hprev : e'.previous = e.previous)
    (hnext : e'.next = e.next) (when now : Instant) :
    Sure ((r.setEntry slot e').enqueueRevisit slot when now) fun r' =>
      Inv (reserved \ {slot}) r' ∧ Rewritten r slot e' (dueInstant e' when) now r' := by
  have h' := h.setEntry he e' haddr hplan hprev hnext
  have he' : (r.setEntry slot e').entry slot = some e' := by
    rw [entry_setEntry (lt_of_entry he), if_pos rfl]
  exact (h'.enqueueRevisit he' when now).mono fun r' ⟨hinv, hr⟩ => ⟨hinv, ⟨⟨e, he, haddr⟩, hr⟩⟩

lemma setEntry_self (he : r.entry slot = some e) : r.setEntry slot e = r := by
  have hlt := lt_of_entry he
  have hslot : r.slots[slot] = some e := by
    unfold ResponsiveReservoir.entry at he
    rw [List.getElem?_eq_getElem hlt] at he
    exact he
  unfold setEntry
  rw [← hslot, set_getElem_self]

lemma inv_of_subset_empty (h : ∃ reserved' ⊆ (∅ : Set ℕ), Inv reserved' r) : Inv ∅ r := by
  obtain ⟨reserved', hsub, hinv⟩ := h
  rwa [Set.subset_empty_iff.mp hsub] at hinv

/-! ### Operations on a member -/

def slotsOf (r : ResponsiveReservoir) (addr : SocketAddr) : Set ℕ := {i | r.index.get addr = some i}

lemma diff_slotsOf_none (hi : r.index.get addr = none) : reserved \ r.slotsOf addr = reserved := by
  have hempty : r.slotsOf addr = ∅ := Set.eq_empty_of_forall_notMem fun i hmem => by
    rw [slotsOf, Set.mem_ofPred_eq, hi] at hmem
    cases hmem
  rw [hempty, Set.sdiff_empty]

lemma slotsOf_eq (hi : r.index.get addr = some slot) : r.slotsOf addr = {slot} := by
  ext i
  rw [slotsOf, Set.mem_ofPred_eq, hi, some_inj, Set.mem_singleton_iff, eq_comm]

def Updated (r : ResponsiveReservoir) (addr : SocketAddr) (f : ResponsiveEntry → ResponsiveEntry)
    (when : ResponsiveEntry → Instant) (now : Instant) (r' : ResponsiveReservoir) : Prop :=
  match r.index.get addr with
  | none => r' = r
  | some slot => ∃ e, r.entry slot = some e ∧ e.node.addr = addr ∧
      Rewritten r slot (f e) (dueInstant (f e) (when e)) now r'

lemma Updated.kept {f : ResponsiveEntry → ResponsiveEntry} {when : ResponsiveEntry → Instant}
    (hinv : Inv reserved r) (h : Updated r addr f when now r') (hf : ∀ e, healthOf (f e) = healthOf e) :
    Kept r r' := by
  unfold Updated at h
  split at h
  · rw [h]
    exact .refl r
  · obtain ⟨e, he, _, hr⟩ := h
    exact hr.kept hinv he (hf e)

lemma Inv.recordProbe (h : Inv reserved r) (addr : SocketAddr) (now : Instant) :
    Sure (r.recordProbe addr now) fun r' => Inv (reserved \ r.slotsOf addr) r' ∧
      Updated r addr (fun e => { e with lastProbeAt := now }) (fun _ => now + r.revisitInterval) now r' := by
  unfold ResponsiveReservoir.recordProbe Updated
  cases hi : r.index.get addr with
  | none =>
    rw [diff_slotsOf_none hi]
    exact ⟨h, rfl⟩
  | some slot =>
    obtain ⟨e, he, haddr⟩ := h.entry_of_index hi
    dsimp only
    rw [modifyAt_eq he, ok_bind, slotsOf_eq hi]
    exact (h.reschedule he { e with lastProbeAt := now } rfl rfl rfl rfl _ _).mono
      fun r' ⟨hinv, hr⟩ => ⟨hinv, e, he, haddr, hr⟩

lemma Inv.deferRevisit (h : Inv reserved r) (addr : SocketAddr) (retryAt now : Instant) :
    Sure (r.deferRevisit addr retryAt now) fun r' =>
      Inv (reserved \ r.slotsOf addr) r' ∧
        Updated r addr id (fun e => max retryAt (e.lastProbeAt + r.revisitInterval)) now r' := by
  unfold ResponsiveReservoir.deferRevisit Updated
  cases hi : r.index.get addr with
  | none =>
    rw [diff_slotsOf_none hi]
    exact ⟨h, rfl⟩
  | some slot =>
    obtain ⟨e, he, haddr⟩ := h.entry_of_index hi
    dsimp only
    rw [he, slotsOf_eq hi]
    refine (h.enqueueRevisit he _ _).mono fun r' ⟨hinv, hr⟩ => ⟨hinv, e, rfl, haddr, ⟨e, he, rfl⟩, ?_⟩
    rw [id, setEntry_self he]
    exact hr

def Health.fail (x : Health) (dispatchedAt now : Instant) : Health :=
  if x.lastSuccessAt > dispatchedAt then x
  else
    { x with
      failures := min (x.failures + 1) 5
      blockedUntil := some (now + secs (min (5 * 2 ^ (min (x.failures + 1) 5 - 1)) 60)) }

structure Failed (addr : SocketAddr) (dispatchedAt now : Instant) (r r' : ResponsiveReservoir) : Prop
    extends Trimmed r r' where
  others : ∀ a, a ≠ addr → r'.health a = r.health a
  self : r'.health addr = (r.health addr).map fun x => x.fail dispatchedAt now

def Judged (r : ResponsiveReservoir) (addr : SocketAddr) (dispatchedAt now : Instant)
    (x : ResponsiveReservoir × Bool) : Prop :=
  match r.index.get addr with
  | none => x = (r, false)
  | some slot => ∃ e, r.entry slot = some e ∧ e.node.addr = addr ∧
      if e.lastSuccessAt > dispatchedAt then x = (r, false)
      else x.2 = true ∧ ∃ blocked, (failedEntry e now).blockedUntil = some blocked ∧
        Rewritten r slot (failedEntry e now)
          (dueInstant (failedEntry e now) (max (e.lastProbeAt + r.revisitInterval) blocked)) now x.1

lemma Inv.recordFailure (h : Inv reserved r) (addr : SocketAddr) (dispatchedAt now : Instant) :
    Sure (r.recordFailure addr dispatchedAt now) fun x =>
      (∃ reserved' ⊆ reserved, Inv reserved' x.1) ∧ Judged r addr dispatchedAt now x := by
  unfold ResponsiveReservoir.recordFailure Judged
  cases hi : r.index.get addr with
  | none => exact ⟨⟨reserved, subset_rfl, h⟩, rfl⟩
  | some slot =>
    obtain ⟨e, he, haddr⟩ := h.entry_of_index hi
    dsimp only
    rw [he]
    show Safe _ (if e.lastSuccessAt > dispatchedAt then _ else _) _
    split_ifs with hold
    · refine ⟨⟨reserved, subset_rfl, h⟩, e, rfl, haddr, ?_⟩
      rw [if_pos hold]
    · refine (h.reschedule he (failedEntry e now) rfl rfl rfl rfl _ _).bind fun r' ⟨hinv, hr⟩ =>
        ⟨⟨_, Set.sdiff_subset, hinv⟩, e, rfl, haddr, ?_⟩
      rw [if_neg hold]
      exact ⟨rfl, _, rfl, hr⟩

lemma Judged.failed {dispatchedAt : Instant} {x : ResponsiveReservoir × Bool} (hinv : Inv reserved r)
    (h : Judged r addr dispatchedAt now x) : Failed addr dispatchedAt now r x.1 := by
  unfold Judged at h
  split at h
  · rename_i hi
    rw [h]
    refine ⟨.refl r, fun _ _ => rfl, ?_⟩
    unfold health
    rw [hi]
    rfl
  · obtain ⟨e, he, haddr, h⟩ := h
    have hself := health_of_entry hinv he
    rw [haddr] at hself
    split_ifs at h with hold
    · rw [h]
      refine ⟨.refl r, fun _ _ => rfl, ?_⟩
      rw [hself, map_some]
      have hold : (healthOf e).lastSuccessAt > dispatchedAt := hold
      unfold Health.fail
      rw [if_pos hold]
    · obtain ⟨_, blocked, _, hr⟩ := h
      have hnode : (failedEntry e now).node.addr = addr := haddr
      refine ⟨hr.trimmed, fun a ha => ?_, ?_⟩
      · rw [hr.health hinv, hnode, if_neg ha]
      · rw [hr.health hinv, hnode, if_pos rfl, hself, map_some]
        have hold : ¬(healthOf e).lastSuccessAt > dispatchedAt := hold
        unfold Health.fail
        rw [if_neg hold]
        rfl

lemma Inv.isBackingOff (h : Inv reserved r) (addr : SocketAddr) (now : Instant) :
    r.isBackingOff addr now =
      .ok (((r.health addr).bind Health.blockedUntil).any fun deadline => deadline > now) := by
  unfold ResponsiveReservoir.isBackingOff ResponsiveReservoir.health
  cases hi : r.index.get addr with
  | none => rfl
  | some slot =>
    obtain ⟨e, he, _⟩ := h.entry_of_index hi
    have hslot : r.slots[slot]? = some (some e) := by
      have hlt := lt_of_entry he
      unfold ResponsiveReservoir.entry at he
      rw [List.getElem?_eq_getElem hlt] at he ⊢
      exact congrArg some he
    dsimp only
    rw [hslot, bind_some, he]
    rfl

/-! ### Counting -/

def slotOf (r : ResponsiveReservoir) (addr : SocketAddr) : ℕ := (r.index.get addr).getD 0

lemma slotOf_eq (hi : r.index.get addr = some slot) : r.slotOf addr = slot := by
  unfold slotOf
  rw [hi, getD_some]

lemma Inv.slotOf_injOn (h : Inv reserved r) : Set.InjOn r.slotOf r.index.keys := by
  intro a ha b hb hab
  obtain ⟨i, hi⟩ := mem_keys.mp (mem_coe.mp ha)
  obtain ⟨j, hj⟩ := mem_keys.mp (mem_coe.mp hb)
  rw [slotOf_eq hi, slotOf_eq hj] at hab
  subst hab
  obtain ⟨x, hx, hxa⟩ := h.entry_of_index hi
  obtain ⟨y, hy, hyb⟩ := h.entry_of_index hj
  rw [hx] at hy
  cases hy
  exact hxa.symm.trans hyb

lemma Inv.mem_slots (h : Inv reserved r) (i : ℕ) :
    i ∈ r.index.keys.image r.slotOf ↔ ∃ e, r.entry i = some e := by
  rw [mem_image]
  constructor
  · rintro ⟨a, ha, rfl⟩
    obtain ⟨j, hj⟩ := mem_keys.mp ha
    obtain ⟨x, hx, _⟩ := h.entry_of_index hj
    rw [slotOf_eq hj]
    exact ⟨x, hx⟩
  · rintro ⟨x, hx⟩
    have hi := h.index_of_entry hx
    exact ⟨x.node.addr, mem_keys.mpr ⟨i, hi⟩, slotOf_eq hi⟩

lemma Inv.card_slots (h : Inv reserved r) : (r.index.keys.image r.slotOf).card = r.index.len :=
  card_image_of_injOn h.slotOf_injOn

lemma Inv.len_le (h : Inv reserved r) : r.index.len ≤ r.slots.length := by
  rw [← h.card_slots, ← card_range r.slots.length]
  refine card_le_card fun i hi => ?_
  obtain ⟨e, he⟩ := (h.mem_slots i).mp hi
  exact Finset.mem_range.mpr (lt_of_entry he)

lemma Inv.ready_or_waiting (h : Inv ∅ r) {l : List ℕ} (hl : ReadyList r l)
    (he : r.entry slot = some e) : Xor (slot ∈ l) (∃ key ∈ r.revisits, key.slot = slot) := by
  have hiff := h.scheduled slot e he (Set.notMem_empty slot)
  by_cases hready : e.ready = true
  · refine Or.inl ⟨(hl.mem slot).mpr ⟨e, he, hready⟩, fun ⟨key, hk, hs⟩ => ?_⟩
    exact h.slot_ne he (hiff.mp hready) hk hs
  · obtain ⟨key, hkey⟩ := ne_none_iff_exists'.mp (mt hiff.mpr hready)
    have hs := h.keySlot slot e key he hkey
    refine Or.inr ⟨⟨key, (h.keyed key).mpr ⟨e, hs ▸ he, hkey⟩, hs⟩, fun hmem => ?_⟩
    obtain ⟨x, hx, hxr⟩ := (hl.mem slot).mp hmem
    rw [he] at hx
    cases hx
    exact hready hxr

lemma Inv.revisit_slot_injOn (h : Inv reserved r) :
    Set.InjOn RevisitKey.slot (r.revisits : Set RevisitKey) := by
  intro a ha b hb hab
  obtain ⟨x, hx, hxa⟩ := (h.keyed a).mp (mem_coe.mp ha)
  obtain ⟨y, hy, hyb⟩ := (h.keyed b).mp (mem_coe.mp hb)
  rw [← hab, hx] at hy
  cases hy
  exact some_inj.mp (hxa.symm.trans hyb)

lemma Inv.len_eq (h : Inv ∅ r) : r.readyLen + r.revisits.card = r.index.len := by
  obtain ⟨l, hl⟩ := h.list
  have hsplit : r.index.keys.image r.slotOf = l.toFinset ∪ r.revisits.image RevisitKey.slot := by
    ext i
    rw [h.mem_slots, mem_union, List.mem_toFinset, mem_image]
    constructor
    · rintro ⟨e, he⟩
      exact Xor.or (h.ready_or_waiting hl he)
    · rintro (hi | ⟨key, hk, rfl⟩)
      · obtain ⟨e, he, _⟩ := (hl.mem i).mp hi
        exact ⟨e, he⟩
      · obtain ⟨e, he, _⟩ := (h.keyed key).mp hk
        exact ⟨e, he⟩
  have hdisjoint : Disjoint l.toFinset (r.revisits.image RevisitKey.slot) := by
    refine Finset.disjoint_left.mpr fun i hi hwait => ?_
    obtain ⟨e, he, _⟩ := (hl.mem i).mp (List.mem_toFinset.mp hi)
    obtain ⟨key, hk, hs⟩ := mem_image.mp hwait
    rcases h.ready_or_waiting hl he with ⟨_, hnot⟩ | ⟨_, hnot⟩
    · exact hnot ⟨key, hk, hs⟩
    · exact hnot (List.mem_toFinset.mp hi)
  rw [← h.card_slots, hsplit, card_union_of_disjoint hdisjoint,
    toFinset_card_of_nodup hl.nodup, card_image_of_injOn h.revisit_slot_injOn, hl.len]

end DhtCrawler.ResponsiveReservoir
