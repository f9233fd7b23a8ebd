import DhtCrawler.ReservoirOps

/-! The two operations of the responsive reservoir that change its set of nodes. -/

namespace DhtCrawler.ResponsiveReservoir

open FiniteMap Option ResponsiveReservoir Except List

variable {r r' : ResponsiveReservoir} {slot : ℕ} {e : ResponsiveEntry} {reserved : Set ℕ}
  {addr : SocketAddr}

variable {p : Bool × Option RevisitKey} {now probedAt : Instant}

/-! ### Recording a reply -/

def face (e : ResponsiveEntry) : ResponsiveEntry × Bool × Option RevisitKey := (core e, plan e)

lemma Replanned.face (h : Replanned r slot p r') {i : ℕ} (hi : i ≠ slot) :
    (r'.entry i).map face = (r.entry i).map face := by
  have hcore := h.rescheduled.core i
  have hplan := h.others i hi
  cases hx : r'.entry i with
  | none =>
    rw [hx] at hcore
    rw [map_eq_none_iff.mp hcore.symm]
  | some x =>
    rw [hx] at hcore hplan
    obtain ⟨y, hy, hxy⟩ := map_eq_some_iff.mp hcore.symm
    rw [hy] at hplan ⊢
    exact congrArg some (Prod.ext hxy.symm (Option.some.inj hplan))

lemma forall_entry_update {P Q : ResponsiveEntry → Prop} (hold : ∀ i e, r.entry i = some e → P e)
    (hothers : ∀ i, i ≠ slot → (r'.entry i).map face = (r.entry i).map face)
    (hcongr : ∀ x e, P x → face e = face x → Q e) (hself : ∀ e, r'.entry slot = some e → Q e) :
    ∀ i e, r'.entry i = some e → Q e := by
  intro i e he
  by_cases hi : i = slot
  · subst hi
    exact hself e he
  · have hface := hothers i hi
    rw [he] at hface
    obtain ⟨x, hx, hxe⟩ := map_eq_some_iff.mp hface.symm
    exact hcongr x e (hold i x hx) hxe.symm

def freed (r : ResponsiveReservoir) (slot : ℕ) (addr : SocketAddr) : ResponsiveReservoir :=
  { r with slots := r.slots.set slot none, index := r.index.erase addr }

lemma Inv.kept_freed (h : Inv reserved r) (he : r.entry slot = some e) : Kept r (r.freed slot e.node.addr) := by
  refine ⟨⟨length_set, rfl, rfl, fun addr i hi => (get_of_get_erase hi).2⟩, fun addr => ?_⟩
  unfold health
  show (((r.index.erase e.node.addr).get addr).bind (r.freed slot e.node.addr).entry).map healthOf = none ∨
    (((r.index.erase e.node.addr).get addr).bind (r.freed slot e.node.addr).entry).map healthOf = _
  rw [get_erase]
  split_ifs with ha
  · exact .inl rfl
  · right
    cases hi : r.index.get addr with
    | none => rfl
    | some i =>
      have hne : i ≠ slot := by
        rintro rfl
        obtain ⟨x, hx, hxa⟩ := h.entry_of_index hi
        rw [he] at hx
        cases hx
        exact ha hxa.symm
      have hentry : (r.freed slot e.node.addr).entry i = if i = slot then none else r.entry i :=
        entry_set_none (lt_of_entry he) i
      rw [bind_some, bind_some, hentry, if_neg hne]

structure Cleared (r : ResponsiveReservoir) (slot : ℕ) (r' : ResponsiveReservoir) : Prop extends Kept r r' where
  writeCursor : r'.writeCursor = r.writeCursor
  self : r'.entry slot = none
  others : ∀ i, i ≠ slot → (r'.entry i).map face = (r.entry i).map face

lemma Replanned.cleared (hinv : Inv reserved r') (he : r'.entry slot = some e)
    (h : Replanned r slot p r') : Cleared r slot (r'.freed slot e.node.addr) := by
  have hentry : ∀ i, (r'.freed slot e.node.addr).entry i = if i = slot then none else r'.entry i :=
    entry_set_none (lt_of_entry he)
  refine ⟨h.rescheduled.kept.trans (hinv.kept_freed he), h.rescheduled.writeCursor, ?_, fun i hi => ?_⟩
  · rw [hentry, if_pos rfl]
  · rw [hentry, if_neg hi]
    exact h.face hi

lemma Inv.clearSlot (h : Inv reserved r) (hlt : slot < r.slots.length) :
    Sure (r.clearSlot slot) fun r' =>
      Inv (reserved \ {slot}) { r' with slots := r'.slots.set slot none } ∧
        Cleared r slot { r' with slots := r'.slots.set slot none } := by
  unfold ResponsiveReservoir.clearSlot
  rw [getElem?_eq_getElem hlt]
  rw [unwrap_some, ok_bind]
  cases hs : r.slots[slot] with
  | none =>
    have hset : r.slots.set slot none = r.slots := by
      rw [← hs]
      exact set_getElem_self hlt
    have he : r.entry slot = none := by
      unfold ResponsiveReservoir.entry
      rw [getElem?_eq_getElem hlt, hs]
      rfl
    have hnot : slot ∉ reserved := by
      intro hmem
      obtain ⟨e, he', _⟩ := h.unscheduled slot hmem
      rw [he] at he'
      cases he'
    show Inv _ { r with slots := r.slots.set slot none } ∧
      Cleared r slot { r with slots := r.slots.set slot none }
    rw [hset, Set.sdiff_singleton_eq_self hnot]
    exact ⟨h, .refl r, rfl, he, fun i _ => rfl⟩
  | some e =>
    have he : r.entry slot = some e := by
      unfold ResponsiveReservoir.entry
      rw [getElem?_eq_getElem hlt, hs]
      rfl
    refine (h.unschedule he).bind fun r₁ hboth => ?_
    obtain ⟨h₁, hr₁⟩ := hboth
    obtain ⟨e₁, he₁, hcore⟩ := hr₁.rescheduled.entry he
    have haddr : e₁.node.addr = e.node.addr :=
      (congrArg (fun x : ResponsiveEntry => x.node.addr) hcore :)
    have hfree := h₁.free (Set.mem_insert slot reserved) he₁
    have hclear := hr₁.cleared h₁ he₁
    rw [Set.insert_sdiff_of_mem _ (Set.mem_singleton slot), haddr] at hfree
    rw [haddr] at hclear
    exact ⟨hfree, hclear⟩

/-- A node has taken the slot under the write cursor. -/
structure Entered (node : NodeTuple) (now probedAt : Instant) (r r' : ResponsiveReservoir) : Prop where
  length : r'.slots.length = r.slots.length
  ttl : r'.ttl = r.ttl
  interval : r'.revisitInterval = r.revisitInterval
  members : ∀ addr i, r'.index.get addr = some i → addr ≠ node.addr → r.index.get addr = some i
  others : ∀ addr, addr ≠ node.addr → r'.health addr = none ∨ r'.health addr = r.health addr
  index : r'.index.get node.addr = some r.writeCursor
  self : ∃ e, r'.entry r.writeCursor = some e ∧ core e = r.freshEntry node now probedAt ∧
    (e.ready = true → probedAt + r.revisitInterval ≤ now) ∧
      ∀ key, e.revisitKey = some key → key.dueAt = probedAt + r.revisitInterval
  faces : ∀ i, i ≠ r.writeCursor → (r'.entry i).map face = (r.entry i).map face

variable {node : NodeTuple}

lemma Entered.of_cleared {r₁ : ResponsiveReservoir} (hcursor : r.writeCursor = slot)
    (hclear : Cleared r slot r₁) (h : Entered node now probedAt r₁ r') : Entered node now probedAt r r' := by
  subst hcursor
  have hfresh : r₁.freshEntry node now probedAt = r.freshEntry node now probedAt := by
    unfold freshEntry
    rw [hclear.ttl]
  obtain ⟨e, he, hcore, hready, hkey⟩ := h.self
  have hindex := h.index
  rw [hclear.interval] at hready hkey
  rw [hclear.writeCursor] at he hindex
  refine ⟨h.length.trans hclear.length, h.ttl.trans hclear.ttl, h.interval.trans hclear.interval,
    fun addr i hi hne => hclear.members addr i (h.members addr i hi hne), fun addr hne => ?_, hindex,
    ⟨e, he, hcore.trans hfresh, hready, hkey⟩, fun i hi => ?_⟩
  · rcases h.others addr hne with hnone | hsame
    · exact .inl hnone
    · rw [hsame]
      exact hclear.health addr
  · rw [h.faces i (by rwa [hclear.writeCursor])]
    exact hclear.others i hi

def filled (r : ResponsiveReservoir) (node : NodeTuple) (now probedAt : Instant) : ResponsiveReservoir :=
  { r.setEntry r.writeCursor (r.freshEntry node now probedAt) with
    index := r.index.insert node.addr r.writeCursor }

lemma Inv.filled_entry (h : Inv reserved r) (node : NodeTuple) (now probedAt : Instant) (i : ℕ) :
    (r.filled node now probedAt).entry i =
      if i = r.writeCursor then some (r.freshEntry node now probedAt) else r.entry i :=
  entry_setEntry h.cursor _ i

lemma Inv.filled_health (h : Inv reserved r) (hfree : r.entry r.writeCursor = none) (now probedAt : Instant)
    (hne : addr ≠ node.addr) : (r.filled node now probedAt).health addr = r.health addr := by
  have hindex : (r.filled node now probedAt).index.get addr = r.index.get addr := get_insert_ne _ hne _
  unfold health
  rw [hindex]
  cases hi : r.index.get addr with
  | none => rfl
  | some i =>
    have hslot : i ≠ r.writeCursor := by
      rintro rfl
      obtain ⟨e, he, _⟩ := h.entry_of_index hi
      rw [hfree] at he
      cases he
    rw [bind_some, bind_some, h.filled_entry, if_neg hslot]

lemma Inv.enterSlot (h : Inv reserved r) (hfree : r.entry r.writeCursor = none)
    (hnew : r.index.get node.addr = none) (now probedAt : Instant) :
    Sure
      (do
        let r' ← (r.filled node now probedAt).enqueueRevisit r.writeCursor (probedAt + r.revisitInterval) now
        .ok { r' with writeCursor := (r'.writeCursor + 1) % r'.slots.length })
      fun r' => (∃ reserved' ⊆ reserved, Inv reserved' r') ∧ Entered node now probedAt r r' := by
  have hfill : Inv (insert r.writeCursor reserved) (r.filled node now probedAt) :=
    h.fill (e := r.freshEntry node now probedAt) h.cursor hfree hnew rfl
  have hentry := h.filled_entry node now probedAt
  have he := hentry r.writeCursor
  rw [if_pos rfl] at he
  refine (hfill.enqueueRevisit he (probedAt + r.revisitInterval) now).bind fun r₂ ⟨h₂, hr₂⟩ => ?_
  obtain ⟨p, hp, hready, hkey⟩ := hr₂.replanned
  have hr := hr₂.rescheduled
  refine ⟨⟨reserved \ {r.writeCursor}, Set.sdiff_subset, ?_⟩, hr.length.trans length_set,
    hr.ttl, hr.revisitInterval, fun addr i hi hne => ?_, fun addr hne => .inr ?_, ?_, ?_, fun i hi => ?_⟩
  · rw [Set.insert_sdiff_of_mem _ (Set.mem_singleton r.writeCursor)] at h₂
    refine ⟨Nat.mod_lt _ (Nat.zero_lt_of_lt h₂.cursor), h₂.sparse, h₂.indexed, h₂.keyed, h₂.keySlot, ?_,
      h₂.scheduled, h₂.unscheduled⟩
    obtain ⟨l, hl⟩ := h₂.list
    exact ⟨l, hl.nodup, hl.mem, hl.head, hl.tail, hl.len, hl.linked⟩
  · have hindex : r₂.index.get addr = some i := hi
    rw [hr.index] at hindex
    exact (get_insert_ne _ hne _).symm.trans hindex
  · exact (hr.health addr).trans (h.filled_health hfree now probedAt hne)
  · show r₂.index.get node.addr = _
    rw [hr.index]
    exact get_insert_self ..
  · obtain ⟨e, he₂, hcore⟩ := hr.entry he
    have hplan := hp.self
    rw [he₂] at hplan
    cases Option.some.inj hplan
    exact ⟨e, he₂, hcore, hready, hkey⟩
  · have hface := hp.face hi
    rw [hentry, if_neg hi] at hface
    exact hface

lemma Inv.recordNew (h : Inv reserved r) (hnew : r.index.get node.addr = none) (now probedAt : Instant) :
    Sure (r.record node now probedAt) fun r' =>
      (∃ reserved' ⊆ reserved, Inv reserved' r') ∧ Entered node now probedAt r r' := by
  unfold ResponsiveReservoir.record
  rw [hnew]
  refine (h.clearSlot h.cursor).bind fun r₁ ⟨h₁, hr₁⟩ => ?_
  have hnew₁ : r₁.index.get node.addr = none := by
    refine eq_none_iff_forall_ne_some.mpr fun i hi => ?_
    rw [hr₁.members _ _ hi] at hnew
    cases hnew
  generalize hc : r.writeCursor = slot at h₁ hr₁ ⊢
  obtain rfl : r₁.writeCursor = slot := hr₁.writeCursor.trans hc
  have hfilled : ({ r₁ with slots := r₁.slots.set r₁.writeCursor none } : ResponsiveReservoir).filled
      node now probedAt = r₁.filled node now probedAt := by
    unfold filled ResponsiveReservoir.setEntry
    rw [set_set]
    rfl
  have henter := h₁.enterSlot hr₁.self hnew₁ now probedAt
  rw [hfilled] at henter
  exact henter.mono fun r' ⟨⟨reserved', hsub, hinv⟩, hr'⟩ =>
    ⟨⟨reserved', hsub.trans Set.sdiff_subset, hinv⟩, hr'.of_cleared hc hr₁⟩

def Recorded (node : NodeTuple) (now probedAt : Instant) (r r' : ResponsiveReservoir) : Prop :=
  match r.index.get node.addr with
  | none => Entered node now probedAt r r'
  | some slot => ∃ e, r.entry slot = some e ∧ e.node.addr = node.addr ∧ if e.failures > 0 then
        Rewritten r slot (r.repliedEntry e node now)
          (dueInstant (r.repliedEntry e node now) (e.lastProbeAt + r.revisitInterval)) now r'
      else r' = r.setEntry slot (r.repliedEntry e node now)

lemma repliedEntry_same (r : ResponsiveReservoir) (e : ResponsiveEntry) (node : NodeTuple) (now : Instant) :
    (r.repliedEntry e node now).node = node ∧ plan (r.repliedEntry e node now) = plan e ∧
      (r.repliedEntry e node now).previous = e.previous ∧ (r.repliedEntry e node now).next = e.next := by
  unfold repliedEntry
  dsimp only
  split_ifs
  · exact ⟨rfl, rfl, rfl, rfl⟩
  · exact ⟨rfl, rfl, rfl, rfl⟩

lemma Inv.record (h : Inv reserved r) (node : NodeTuple) (now probedAt : Instant) :
    Sure (r.record node now probedAt) fun r' =>
      (∃ reserved' ⊆ reserved, Inv reserved' r') ∧ Recorded node now probedAt r r' := by
  unfold Recorded
  cases hi : r.index.get node.addr with
  | none => exact h.recordNew hi now probedAt
  | some slot =>
    obtain ⟨e, he, haddr⟩ := h.entry_of_index hi
    obtain ⟨hnode, hplan, hprev, hnext⟩ := r.repliedEntry_same e node now
    have haddr' : (r.repliedEntry e node now).node.addr = e.node.addr := by rw [hnode, haddr]
    unfold ResponsiveReservoir.record
    rw [hi]
    dsimp only
    rw [he]
    show Safe _ (if e.failures > 0 then _ else _) _
    split_ifs with hfail
    · refine (h.reschedule he _ haddr' hplan hprev hnext _ _).mono fun r' ⟨hinv, hr⟩ =>
        ⟨⟨_, Set.sdiff_subset, hinv⟩, e, rfl, haddr, ?_⟩
      rw [if_pos hfail]
      exact hr
    · refine ⟨⟨reserved, subset_rfl, h.setEntry he _ haddr' hplan hprev hnext⟩, e, rfl, haddr, ?_⟩
      rw [if_neg hfail]

/-- What a reply does to the reservoir: the node is a member without failures, the others stay or go. -/
structure Answered (addr : SocketAddr) (r r' : ResponsiveReservoir) : Prop where
  length : r'.slots.length = r.slots.length
  interval : r'.revisitInterval = r.revisitInterval
  members : ∀ a i, r'.index.get a = some i → a ≠ addr → r.index.get a = some i
  others : ∀ a, a ≠ addr → r'.health a = none ∨ r'.health a = r.health a
  self : ∃ x, r'.health addr = some x ∧ x.failures = 0 ∧
    (x.blockedUntil = none ∨ ∃ y, r.health addr = some y ∧ y.failures = 0 ∧ x.blockedUntil = y.blockedUntil)

lemma Recorded.answered (hinv : Inv reserved r) (h : Recorded node now probedAt r r') :
    Answered node.addr r r' := by
  unfold Recorded at h
  split at h
  · obtain ⟨e, he, hcore, _⟩ := h.self
    refine ⟨h.length, h.interval, h.members, h.others, healthOf e, ?_, ?_, .inl ?_⟩
    · unfold health
      rw [h.index, bind_some, he, map_some]
    · exact (congrArg ResponsiveEntry.failures hcore :)
    · exact (congrArg ResponsiveEntry.blockedUntil hcore :)
  · rename_i slot hi
    obtain ⟨e, he, haddr, h⟩ := h
    obtain ⟨hnode, _⟩ := r.repliedEntry_same e node now
    have haddr' : (r.repliedEntry e node now).node.addr = e.node.addr := by rw [hnode, haddr]
    have hreplied : (r.repliedEntry e node now).failures = 0 ∧ ((r.repliedEntry e node now).blockedUntil = none ∨
        e.failures = 0 ∧ (r.repliedEntry e node now).blockedUntil = e.blockedUntil) := by
      unfold repliedEntry
      dsimp only
      split_ifs with hfail
      · exact ⟨rfl, .inl rfl⟩
      · exact ⟨Nat.eq_zero_of_not_pos hfail, .inr ⟨Nat.eq_zero_of_not_pos hfail, rfl⟩⟩
    have hhealth : ∀ a, r'.health a =
        if a = node.addr then some (healthOf (r.repliedEntry e node now)) else r.health a := by
      intro a
      split_ifs at h
      · rw [h.health hinv, hnode]
      · rw [h, hinv.health_setEntry he haddr', hnode]
    have htrim : Trimmed r r' := by
      split_ifs at h
      · exact h.trimmed
      · rw [h]
        exact ⟨length_set, rfl, rfl, fun _ _ hi => hi⟩
    refine ⟨htrim.length, htrim.interval, fun a i hi _ => htrim.members a i hi, fun a ha => .inr ?_,
      healthOf (r.repliedEntry e node now), ?_, hreplied.1, hreplied.2.imp id fun hzero => ?_⟩
    · rw [hhealth, if_neg ha]
    · rw [hhealth, if_pos rfl]
    · exact ⟨healthOf e, haddr ▸ health_of_entry hinv he, hzero⟩

/-! ### Reserving a node -/

structure Promoted (now : Instant) (r r' : ResponsiveReservoir) : Prop where
  replanned : ∃ key ∈ r.revisits, key.dueAt ≤ now ∧ Replanned r key.slot (true, none) r'

lemma promoteStep_safe (now : Instant) (h : Inv reserved r) :
    Sure (promoteStep now r) fun x =>
      Inv reserved x.value ∧ (x = .done r ∨ Promoted now r x.value) := by
  unfold promoteStep
  cases hleast : r.revisits.least with
  | none => exact ⟨h, .inl rfl⟩
  | some key =>
    dsimp only
    split_ifs with hdue
    · exact ⟨h, .inl rfl⟩
    · have hmem := (Finset.least_eq_some_iff.mp hleast).1
      obtain ⟨e, he, hkey⟩ := (h.keyed key).mp hmem
      have hnot : key.slot ∉ reserved := by
        intro hres
        obtain ⟨x, hx, _, hnone⟩ := h.unscheduled key.slot hres
        rw [he] at hx
        cases hx
        rw [hkey] at hnone
        cases hnone
      have hready : e.ready = false := by
        refine Bool.eq_false_iff.mpr fun hready => ?_
        rw [(h.scheduled key.slot e he hnot).mp hready] at hkey
        cases hkey
      obtain ⟨h₁, hr₁⟩ := h.leaveRevisits he hready
        { e with revisitKey := none } rfl (by unfold plan; rw [hready])
      rw [hkey] at h₁ hr₁
      rw [modifyAt_eq (r := { r with revisits := r.revisits.erase key }) he, ok_bind]
      refine (h₁.pushReady (Set.mem_insert key.slot reserved)).bind fun r₂ ⟨h₂, hr₂⟩ => ?_
      rw [Set.insert_sdiff_of_mem _ (Set.mem_singleton key.slot), Set.sdiff_singleton_eq_self hnot] at h₂
      exact ⟨h₂, .inr ⟨key, hmem, not_lt.mp hdue, hr₁.trans hr₂⟩⟩

structure Taken (now : Instant) (r : ResponsiveReservoir) (slot : ℕ) (node : NodeTuple)
    (r' : ResponsiveReservoir) : Prop where
  entry : ∃ e, r.entry slot = some e ∧ e.ready = true ∧ now < e.expiresAt ∧ e.node = node
  replanned : Replanned r slot (false, none) r'

lemma reserveStep_safe (now : Instant) (h : Inv reserved r) (found : Option NodeTuple) :
    Sure (reserveStep now (r, found))
      (Loop.Verdict (fun y => y.2 = none ∧ Inv reserved y.1 ∧ ∃ slot, Cleared r slot y.1)
        fun y => y = (r, none) ∨ ∃ node, ∃ slot ∉ reserved, y.2 = some node ∧
          Inv (insert slot reserved) y.1 ∧ Taken now r slot node y.1) := by
  obtain ⟨l, hl⟩ := h.list
  unfold reserveStep
  cases hhead : r.readyHead with
  | none =>
    dsimp only
    rw [hhead]
    exact .inl rfl
  | some slot =>
    dsimp only
    rw [hhead]
    have hmem : slot ∈ l := mem_of_head? (hl.head.symm.trans hhead)
    obtain ⟨e, he, hready⟩ := (hl.mem slot).mp hmem
    have hnot : slot ∉ reserved := by
      intro hres
      obtain ⟨x, hx, hfalse, _⟩ := h.unscheduled slot hres
      rw [he] at hx
      cases hx
      rw [hready] at hfalse
      cases hfalse
    refine (h.unschedule he).bind fun r₁ ⟨h₁, hr₁⟩ => ?_
    obtain ⟨e₁, he₁, hcore⟩ := hr₁.rescheduled.entry he
    rw [he₁]
    show Safe _ (if e₁.expiresAt ≤ now then _ else _) _
    split_ifs with hexpired
    · refine ⟨rfl, ?_, slot, hr₁.cleared h₁ he₁⟩
      have hfree := h₁.free (Set.mem_insert slot reserved) he₁
      rw [Set.insert_sdiff_of_mem _ (Set.mem_singleton slot), Set.sdiff_singleton_eq_self hnot] at hfree
      exact hfree
    · refine .inr ⟨e₁.node, slot, hnot, rfl, h₁, ⟨e, he, hready, ?_, ?_⟩, hr₁⟩
      · have hexpires : e₁.expiresAt = e.expiresAt := (congrArg ResponsiveEntry.expiresAt hcore :)
        rw [← hexpires]
        exact not_le.mp hexpired
      · exact (congrArg ResponsiveEntry.node hcore.symm :)

lemma Inv.nextRevisit_keeps (h : Inv reserved r) (now : Instant) {P : ResponsiveReservoir → Prop} (hP : P r)
    (hpromote : ∀ r₁ r₂, Inv reserved r₁ → P r₁ → Promoted now r₁ r₂ → P r₂)
    (hclear : ∀ r₁ slot r₂, P r₁ → Cleared r₁ slot r₂ → P r₂) :
    Sure (r.nextRevisit now) fun x =>
      (x.2 = none ∧ Inv reserved x.1 ∧ P x.1) ∨
        ∃ node r₁, ∃ slot ∉ reserved, x.2 = some node ∧ P r₁ ∧ Inv (insert slot reserved) x.1 ∧
          Taken now r₁ slot node x.1 := by
  unfold nextRevisit
  have hloop : Sure (Loop.run (promoteStep now) 256 r) fun r' =>
      Inv reserved r' ∧ P r' :=
    Loop.safe_run (fun r₁ ⟨h₁, hP₁⟩ => (promoteStep_safe now h₁).mono fun x ⟨hx, hcases⟩ => ⟨hx, by
      rcases hcases with rfl | hpromoted
      · exact hP₁
      · exact hpromote r₁ _ h₁ hP₁ hpromoted⟩) 256 ⟨h, hP⟩
  refine hloop.bind fun r₁ ⟨h₁, hP₁⟩ => ?_
  refine Loop.safe_until (P := fun y => y.2 = none ∧ Inv reserved y.1 ∧ P y.1)
    (fun y ⟨_, hy, hPy⟩ => (reserveStep_safe now hy y.2).mono fun z hz => ?_)
    (fun y hy => .inl hy) 256 ⟨rfl, h₁, hP₁⟩
  cases z with
  | yield z =>
    obtain ⟨hnone, hinv, slot, hcleared⟩ := hz
    exact ⟨hnone, hinv, hclear _ slot _ hPy hcleared⟩
  | done z =>
    rcases hz with rfl | ⟨node, slot, hnot, hnode, hinv, htaken⟩
    · exact .inl ⟨rfl, hy, hPy⟩
    · exact .inr ⟨node, y.1, slot, hnot, hnode, hPy, hinv, htaken⟩

def Reserved (reserved : Set ℕ) (r : ResponsiveReservoir) (x : ResponsiveReservoir × Option NodeTuple) :
    Prop :=
  Kept r x.1 ∧ match x.2 with
    | none => Inv reserved x.1
    | some node => ∃ slot, Inv (insert slot reserved) x.1 ∧ x.1.index.get node.addr = some slot

lemma Inv.nextRevisit (h : Inv reserved r) (now : Instant) :
    Sure (r.nextRevisit now) (Reserved reserved r) := by
  have hkeeps := h.nextRevisit_keeps now (P := Kept r) (.refl r)
    (fun r₁ r₂ _ hkept ⟨_, _, _, hr⟩ => hkept.trans hr.rescheduled.kept)
    fun r₁ slot r₂ hkept hcleared => hkept.trans hcleared.toKept
  refine hkeeps.mono fun x hx => ?_
  rcases hx with ⟨hnone, hinv, hkept⟩ | ⟨node, r₁, slot, _, hnode, hkept, hinv, ⟨e, he, _, _, hen⟩, hr⟩
  · refine ⟨hkept, ?_⟩
    rw [hnone]
    exact hinv
  · refine ⟨hkept.trans hr.rescheduled.kept, ?_⟩
    rw [hnode]
    obtain ⟨e', he', hcore⟩ := hr.rescheduled.entry he
    refine ⟨slot, hinv, ?_⟩
    have hnode' : e'.node = node := (congrArg ResponsiveEntry.node hcore :).trans hen
    rw [← hnode']
    exact hinv.index_of_entry he'

end DhtCrawler.ResponsiveReservoir
