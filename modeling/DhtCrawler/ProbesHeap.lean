import DhtCrawler.ProbesModel

/-! The heap of recent probes. `Mirror` relates the map to the positions in the heap vector; an exchange keeps it, so
sifts, removal from the middle and insertion at the end do. -/

namespace DhtCrawler.RecentProbes

open FiniteMap BinaryHeap RecentProbes Except Option
open WithTop (coe_le_coe)

variable {r r' : RecentProbes}

structure Mirror (r : RecentProbes) : Prop where
  position : ∀ i check, r.expiry[i]? = some check →
    ∃ entry, r.entries.get check.addr = some entry ∧ entry.heapIndex = i
  element : ∀ addr entry, r.entries.get addr = some entry →
    ∃ checkAt, r.expiry[entry.heapIndex]? = some (toLex (checkAt, addr))

structure Resifted (r r' : RecentProbes) : Prop where
  capacity : r'.capacity = r.capacity
  deadline : ∀ addr, r'.deadline addr = r.deadline addr
  perm : r'.expiry.Perm r.expiry

lemma Resifted.refl (r : RecentProbes) : Resifted r r := ⟨rfl, fun _ => rfl, .refl _⟩

lemma Resifted.trans {r'' : RecentProbes} (h : Resifted r r') (h' : Resifted r' r'') : Resifted r r'' :=
  ⟨h'.capacity.trans h.capacity, fun addr => (h'.deadline addr).trans (h.deadline addr), h'.perm.trans h.perm⟩

variable {i j index : ℕ} {entry : RecentProbe} {α : Type} {addr : SocketAddr}

lemma Mirror.addr_inj (hm : Mirror r) {a b : ProbeCheck} (hi : r.expiry[i]? = some a)
    (hj : r.expiry[j]? = some b) (h : a.addr = b.addr) : i = j := by
  obtain ⟨e, he, hei⟩ := hm.position i a hi
  obtain ⟨e', he', hej⟩ := hm.position j b hj
  rw [h, he'] at he
  cases he
  exact hei.symm.trans hej

lemma syncIndex_eq {check : ProbeCheck} (hcheck : r.expiry[index]? = some check)
    (hentry : r.entries.get check.addr = some entry) :
    r.syncIndex index =
      .ok { r with entries := r.entries.insert check.addr { entry with heapIndex := index } } := by
  unfold syncIndex
  rw [hcheck, unwrap_some, ok_bind, hentry]
  rfl

lemma exchange_perm {l : List α} {x y : α} (hi : l[i]? = some x) (hj : l[j]? = some y) :
    (exchange l i j x y).Perm l := by
  obtain ⟨hil, rfl⟩ := List.getElem?_eq_some_iff.mp hi
  obtain ⟨hjl, rfl⟩ := List.getElem?_eq_some_iff.mp hj
  exact List.set_set_perm hil hjl

lemma getElem?_exchange {l : List α} {x y : α} (hi : l[i]? = some x) (hj : l[j]? = some y) (k : ℕ) :
    (exchange l i j x y)[k]? = if k = j then some x else if k = i then some y else l[k]? := by
  have hil := (List.getElem?_eq_some_iff.mp hi).1
  have hjl := (List.getElem?_eq_some_iff.mp hj).1
  unfold exchange
  rw [List.getElem?_set, List.length_set, if_pos hjl, List.getElem?_set, if_pos hil]
  simp only [eq_comm]

lemma Mirror.swap (hm : Mirror r) {left right : ℕ} {a b : ProbeCheck}
    (hl : r.expiry[left]? = some a) (hr : r.expiry[right]? = some b) (hne : left ≠ right) :
    ∃ r', r.swap left right = .ok r' ∧ Mirror r' ∧ Resifted r r' ∧
      r'.expiry = exchange r.expiry left right a b := by
  obtain ⟨ea, hea, hia⟩ := hm.position left a hl
  obtain ⟨eb, heb, hib⟩ := hm.position right b hr
  have hab : a.addr ≠ b.addr := fun h => hne (hm.addr_inj hl hr h)
  have hget := getElem?_exchange hl hr
  have hsync : r.swap left right = .ok
        { r with
          expiry := exchange r.expiry left right a b
          entries := (r.entries.insert b.addr { eb with heapIndex := left }).insert a.addr
            { ea with heapIndex := right } } := by
    have hleft := syncIndex_eq (r := { r with expiry := exchange r.expiry left right a b })
      ((hget left).trans ((if_neg hne).trans (if_pos rfl))) heb
    have hright := syncIndex_eq
      (r := { r with
        expiry := exchange r.expiry left right a b
        entries := r.entries.insert b.addr { eb with heapIndex := left } })
      ((hget right).trans (if_pos rfl)) ((get_insert_ne _ hab _).trans hea)
    unfold RecentProbes.swap
    rw [hl, unwrap_some, ok_bind, hr, unwrap_some, ok_bind]
    dsimp only
    rw [hleft, ok_bind, hright]
  refine ⟨_, hsync, ⟨?_, ?_⟩, ⟨rfl, ?_, exchange_perm hl hr⟩, rfl⟩
  · intro i check hi
    dsimp only at hi ⊢
    rw [hget] at hi
    split_ifs at hi with hir hil
    · cases hi
      exact ⟨_, get_insert_self _ _ _, hir.symm⟩
    · cases hi
      exact ⟨_, (get_insert_ne _ hab.symm _).trans (get_insert_self _ _ _), hil.symm⟩
    · have hca : check.addr ≠ a.addr := fun h => hil (hm.addr_inj hi hl h)
      have hcb : check.addr ≠ b.addr := fun h => hir (hm.addr_inj hi hr h)
      rw [get_insert_ne _ hca, get_insert_ne _ hcb]
      exact hm.position i check hi
  · intro addr e he
    dsimp only at he ⊢
    rw [get_insert] at he
    split_ifs at he with hea'
    · cases he
      exact ⟨a.checkAt, by rw [hget, if_pos rfl, hea']; rfl⟩
    rw [get_insert] at he
    split_ifs at he with heb'
    · cases he
      exact ⟨b.checkAt, by rw [hget, if_neg hne, if_pos rfl, heb']; rfl⟩
    obtain ⟨checkAt, hc⟩ := hm.element addr e he
    refine ⟨checkAt, ?_⟩
    rw [hget, if_neg, if_neg]
    · exact hc
    · intro h
      rw [h, hl] at hc
      cases hc
      exact hea' rfl
    · intro h
      rw [h, hr] at hc
      cases hc
      exact heb' rfl
  · intro addr
    dsimp only [deadline]
    rw [get_insert]
    split_ifs with h
    · rw [h, hea]
      rfl
    rw [get_insert]
    split_ifs with h'
    · rw [h', heb]
      rfl
    · rfl

/-! ### Sifts -/

def Settled (r r' : RecentProbes) : Prop := Mirror r' ∧ Resifted r r' ∧ Ordered (value r'.expiry)

def Rising (r : RecentProbes) (x : RecentProbes × ℕ) : Prop :=
  Mirror x.1 ∧ Resifted r x.1 ∧ x.2 < x.1.expiry.length ∧ UpOrdered (value x.1.expiry) x.2

lemma length_exchange (l : List α) (i j : ℕ) (x y : α) : (exchange l i j x y).length = l.length := by
  unfold exchange
  rw [List.length_set, List.length_set]

lemma exists_getElem? {l : List α} (h : i < l.length) : ∃ x, l[i]? = some x :=
  ⟨l[i], List.getElem?_eq_getElem h⟩

lemma Rising.step {x : RecentProbes × ℕ} (hx : Rising r x) :
    Sure (siftUpStep x)
      (Loop.Round (Rising r) (fun y => Settled r y.1) Prod.snd x.2) := by
  obtain ⟨r', i⟩ := x
  obtain ⟨hm, hsame, hlt, hup⟩ := hx
  dsimp only at hm hsame hlt hup
  unfold siftUpStep
  dsimp only
  by_cases hi : i = 0
  · rw [if_pos hi]
    exact ⟨hm, hsame, hup.stop fun h => absurd h (by omega)⟩
  rw [if_neg hi]
  have hpos : 0 < i := Nat.pos_of_ne_zero hi
  have hp : parent i < i := parent_lt hpos
  obtain ⟨above, habove⟩ := exists_getElem? (hp.trans hlt)
  obtain ⟨this, hthis⟩ := exists_getElem? hlt
  have hva := value_of_getElem? habove
  have hvt := value_of_getElem? hthis
  rw [show (i - 1) / 2 = parent i from rfl, habove, unwrap_some, ok_bind, hthis, unwrap_some,
    ok_bind]
  by_cases hle : above ≤ this
  · rw [if_pos hle]
    refine ⟨hm, hsame, hup.stop fun _ => ?_⟩
    rw [hva, hvt]
    exact coe_le_coe.mpr hle
  rw [if_neg hle]
  obtain ⟨r'', hswap, hm', hsame', hexp⟩ := hm.swap habove hthis hp.ne
  rw [hswap, ok_bind]
  refine ⟨⟨hm', hsame.trans hsame', ?_, ?_⟩, hp⟩
  · rw [hexp, length_exchange]
    exact hp.trans hlt
  · rw [hexp, value_exchange habove hthis]
    refine hup.step hpos ?_
    rw [hva, hvt]
    exact coe_le_coe.mpr (not_le.mp hle).le

lemma siftUp_settled (hm : Mirror r) (hlt : index < r.expiry.length) (hup : UpOrdered (value r.expiry) index) :
    Sure (r.siftUp index) (Settled r) := by
  have hstart : Rising r (r, index) := ⟨hm, .refl r, hlt, hup⟩
  have hloop := Loop.safe_exit Prod.snd (fun _ hx => Rising.step hx) (index + 1) hstart
    (Nat.lt_succ_self index)
  exact hloop.bind fun _ hx => hx

def Sinking (r : RecentProbes) (x : RecentProbes × ℕ) : Prop :=
  Mirror x.1 ∧ Resifted r x.1 ∧ x.2 < x.1.expiry.length ∧ DownOrdered (value x.1.expiry) x.2

lemma lesserChild_spec {left : ℕ} (hl : left < r.expiry.length) :
    ∃ child, r.lesserChild left = .ok child ∧ child < r.expiry.length ∧
      (child = left ∨ child = left + 1) ∧ value r.expiry child ≤ value r.expiry left ∧
      value r.expiry child ≤ value r.expiry (left + 1) := by
  unfold lesserChild
  by_cases hr : left + 1 < r.expiry.length
  · rw [if_pos hr]
    obtain ⟨atRight, hright⟩ := exists_getElem? hr
    obtain ⟨atLeft, hleft⟩ := exists_getElem? hl
    have hvr := value_of_getElem? hright
    have hvl := value_of_getElem? hleft
    rw [hright, unwrap_some, ok_bind, hleft, unwrap_some, ok_bind]
    by_cases hlt : atRight < atLeft
    · refine ⟨left + 1, by rw [if_pos hlt], hr, Or.inr rfl, ?_, le_refl _⟩
      rw [hvr, hvl]
      exact coe_le_coe.mpr hlt.le
    · refine ⟨left, by rw [if_neg hlt], hl, Or.inl rfl, le_refl _, ?_⟩
      rw [hvr, hvl]
      exact coe_le_coe.mpr (not_lt.mp hlt)
  · rw [if_neg hr]
    refine ⟨left, rfl, hl, Or.inl rfl, le_refl _, ?_⟩
    rw [value_of_le (not_lt.mp hr)]
    exact le_top

lemma Sinking.step {x : RecentProbes × ℕ} (hx : Sinking r x) :
    Sure (siftDownStep x)
      (Loop.Round (Sinking r) (fun y => Settled r y.1) (fun y => r.expiry.length - y.2)
        (r.expiry.length - x.2)) := by
  obtain ⟨r', i⟩ := x
  obtain ⟨hm, hsame, hlt, hdown⟩ := hx
  dsimp only at hm hsame hlt hdown
  have hlen : r'.expiry.length = r.expiry.length := hsame.perm.length_eq
  unfold siftDownStep
  dsimp only
  rw [Nat.mul_comm i 2]
  by_cases hleaf : 2 * i + 1 ≥ r'.expiry.length
  · rw [if_pos hleaf]
    refine ⟨hm, hsame, hdown.stop ?_ ?_⟩
    · rw [value_of_le hleaf]
      exact le_top
    · rw [value_of_le (Nat.le_succ_of_le hleaf)]
      exact le_top
  rw [if_neg hleaf]
  obtain ⟨child, hchild, hclt, hpos, hl, hr⟩ := lesserChild_spec (not_le.mp hleaf)
  obtain ⟨this, hthis⟩ := exists_getElem? hlt
  obtain ⟨below, hbelow⟩ := exists_getElem? hclt
  have hvt := value_of_getElem? hthis
  have hvb := value_of_getElem? hbelow
  rw [hchild, ok_bind, hthis, unwrap_some, ok_bind, hbelow, unwrap_some, ok_bind]
  by_cases hle : this ≤ below
  · rw [if_pos hle]
    have hthis' : value r'.expiry i ≤ value r'.expiry child := by
      rw [hvt, hvb]
      exact coe_le_coe.mpr hle
    exact ⟨hm, hsame, hdown.stop (hthis'.trans hl) (hthis'.trans hr)⟩
  rw [if_neg hle]
  have hic : i < child := by omega
  obtain ⟨r'', hswap, hm', hsame', hexp⟩ := hm.swap hthis hbelow hic.ne
  rw [hswap, ok_bind]
  refine ⟨⟨hm', hsame.trans hsame', ?_, ?_⟩, ?_⟩
  · rw [hexp, length_exchange]
    exact hclt
  · rw [hexp, value_exchange hthis hbelow]
    refine hdown.step (by omega) ((parent_eq_iff (by omega)).mpr (by omega)) hl hr ?_
    rw [hvt, hvb]
    exact coe_le_coe.mpr (not_le.mp hle).le
  · dsimp only
    omega

lemma siftDown_settled (hm : Mirror r) (hlt : index < r.expiry.length)
    (hdown : DownOrdered (value r.expiry) index) :
    Sure (r.siftDown index) (Settled r) := by
  have hstart : Sinking r (r, index) := ⟨hm, .refl r, hlt, hdown⟩
  have hloop := Loop.safe_exit (fun y : RecentProbes × ℕ => r.expiry.length - y.2)
    (fun _ hx => Sinking.step hx)
    (r.expiry.length + 1) hstart (Nat.lt_succ_of_le (Nat.sub_le _ _))
  exact hloop.bind fun _ hx => hx

/-! ### The invariant -/

structure Inv (r : RecentProbes) : Prop where
  mirror : Mirror r
  ordered : Ordered (value r.expiry)
  early : ∀ check ∈ r.expiry, ∀ d, r.deadline check.addr = some d → check.checkAt ≤ d
  length_le : r.expiry.length ≤ min r.capacity isizeMax
  capacity_pos : 0 < r.capacity

lemma Settled.inv (hs : Settled r r')
    (hearly : ∀ check ∈ r.expiry, ∀ d, r.deadline check.addr = some d → check.checkAt ≤ d)
    (hlen : r.expiry.length ≤ min r.capacity isizeMax) (hcap : 0 < r.capacity) : Inv r' := by
  obtain ⟨hm, hsame, hord⟩ := hs
  refine ⟨hm, hord, ?_, ?_, ?_⟩
  · intro check hc d hd
    rw [hsame.deadline] at hd
    exact hearly check (hsame.perm.mem_iff.mp hc) d hd
  · rw [hsame.perm.length_eq, hsame.capacity]
    exact hlen
  · rw [hsame.capacity]
    exact hcap

lemma inv_new (capacity : ℕ) : Inv (new capacity) where
  mirror := ⟨fun _ _ h => (nomatch h), fun _ _ h => nomatch h⟩
  ordered := fun _ _ => le_refl _
  early := fun _ h => nomatch h
  length_le := Nat.zero_le _
  capacity_pos := lt_of_lt_of_le Nat.zero_lt_one (le_max_right _ _)

lemma Mirror.addrs_nodup (hm : Mirror r) : (r.expiry.map ProbeCheck.addr).Nodup := by
  rw [List.nodup_iff_getElem?_ne_getElem?]
  intro i j hij hj
  rw [List.length_map] at hj
  obtain ⟨a, ha⟩ := exists_getElem? (hij.trans hj)
  obtain ⟨b, hb⟩ := exists_getElem? hj
  rw [List.getElem?_map, List.getElem?_map, ha, hb]
  intro h
  exact hij.ne (hm.addr_inj ha hb (some.inj h))

lemma Mirror.mem_iff (hm : Mirror r) (addr : SocketAddr) :
    addr ∈ r.expiry.map ProbeCheck.addr ↔ ∃ entry, r.entries.get addr = some entry := by
  refine ⟨?_, ?_⟩
  · intro h
    obtain ⟨check, hc, rfl⟩ := List.mem_map.mp h
    obtain ⟨i, hi⟩ := List.mem_iff_getElem?.mp hc
    obtain ⟨entry, he, _⟩ := hm.position i check hi
    exact ⟨entry, he⟩
  · intro h
    obtain ⟨entry, he⟩ := h
    obtain ⟨checkAt, hc⟩ := hm.element addr entry he
    exact List.mem_map.mpr ⟨_, List.mem_of_getElem? hc, rfl⟩

lemma Mirror.length_eq (hm : Mirror r) : r.expiry.length = r.entries.len := by
  have hkeys : (r.expiry.map ProbeCheck.addr).toFinset = r.entries.keys := by
    ext addr
    rw [List.mem_toFinset, hm.mem_iff, mem_keys]
  have hcard := List.toFinset_card_of_nodup hm.addrs_nodup
  rw [hkeys, List.length_map] at hcard
  exact hcard.symm

/-! ### Removal -/

structure Removed (r : RecentProbes) (removed : ProbeCheck) (r' : RecentProbes) : Prop where
  inv : Inv r'
  capacity : r'.capacity = r.capacity
  deadline : ∀ addr, r'.deadline addr = if addr = removed.addr then none else r.deadline addr
  perm : (removed :: r'.expiry).Perm r.expiry

lemma set_last {l : List α} (hl : l ≠ []) (x : α) : l.set (l.length - 1) x = l.dropLast ++ [x] := by
  have hpos := List.length_pos_iff.mpr hl
  refine List.ext_getElem? fun i => ?_
  rw [List.getElem?_set, List.getElem?_append, List.getElem?_dropLast, List.length_dropLast]
  split_ifs with h1 h2 h3
  · omega
  · rw [← h1, Nat.sub_self]
    rfl
  · omega
  · omega
  · rfl
  · rw [List.getElem?_eq_none (by omega), List.getElem?_eq_none]
    rw [List.length_singleton]
    omega

lemma swapRemove_perm {l : List α} {removed last : α} (hi : l[index]? = some removed)
    (hlast : l.getLast? = some last) : (removed :: (l.set index last).dropLast).Perm l := by
  have hne : l.set index last ≠ [] := by
    intro h
    have hlen := congrArg List.length h
    have hlt := (List.getElem?_eq_some_iff.mp hi).1
    rw [List.length_set, List.length_nil] at hlen
    omega
  rw [List.getLast?_eq_getElem?] at hlast
  have hperm := exchange_perm hi hlast
  have hset := set_last hne removed
  rw [List.length_set] at hset
  unfold exchange at hperm
  rw [hset] at hperm
  exact (List.perm_append_singleton _ _).symm.trans hperm

lemma Resifted.removed {r₁ : RecentProbes} {removed : ProbeCheck} (hsame : Resifted r₁ r')
    (hcap : r₁.capacity = r.capacity)
    (hdead : ∀ addr, r₁.deadline addr = if addr = removed.addr then none else r.deadline addr)
    (hperm : (removed :: r₁.expiry).Perm r.expiry) (hinv : Inv r') : Removed r removed r' :=
  ⟨hinv, hsame.capacity.trans hcap, fun addr => (hsame.deadline addr).trans (hdead addr),
    (hsame.perm.cons removed).trans hperm⟩

lemma rises_spec (hlt : index < r.expiry.length) :
    ∃ b, r.rises index = .ok b ∧ (b = true → 0 < index ∧ value r.expiry index ≤ value r.expiry (parent index)) ∧
      (b = false → 0 < index → value r.expiry (parent index) ≤ value r.expiry index) := by
  unfold rises
  by_cases hpos : index > 0
  · rw [if_pos hpos, show (index - 1) / 2 = parent index from rfl]
    obtain ⟨this, hthis⟩ := exists_getElem? hlt
    obtain ⟨above, habove⟩ := exists_getElem? ((parent_lt hpos).trans hlt)
    rw [hthis, unwrap_some, ok_bind, habove, unwrap_some, ok_bind]
    refine ⟨_, rfl, fun h => ⟨hpos, ?_⟩, fun h _ => ?_⟩
    · rw [value_of_getElem? hthis, value_of_getElem? habove]
      exact coe_le_coe.mpr (of_decide_eq_true h).le
    · rw [value_of_getElem? hthis, value_of_getElem? habove]
      exact coe_le_coe.mpr (not_lt.mp (of_decide_eq_false h))
  · rw [if_neg hpos]
    exact ⟨false, rfl, nofun, fun _ h => absurd h hpos⟩

lemma getElem?_swapRemove {l : List α} (hlt : index < l.length) (last : α) (i : ℕ) :
    ((l.set index last).dropLast)[i]? =
      if i < l.length - 1 then if i = index then some last else l[i]? else none := by
  rw [List.getElem?_dropLast, List.length_set, List.getElem?_set, if_pos hlt]
  simp only [eq_comm]

lemma deadline_erase (r : RecentProbes) (expiry : List ProbeCheck) (removed addr : SocketAddr) :
    ({ r with expiry, entries := r.entries.erase removed } : RecentProbes).deadline addr =
      if addr = removed then none else r.deadline addr := by
  dsimp only [deadline]
  rw [get_erase]
  split_ifs <;> rfl

lemma Mirror.dropLast (hm : Mirror r) {removed : ProbeCheck} (h : r.expiry[r.expiry.length - 1]? = some removed) :
    Mirror { r with expiry := r.expiry.dropLast, entries := r.entries.erase removed.addr } := by
  refine ⟨?_, ?_⟩
  · intro i check hi
    dsimp only at hi ⊢
    rw [List.getElem?_dropLast] at hi
    split_ifs at hi with hlt
    have hne : check.addr ≠ removed.addr := fun heq => hlt.ne (hm.addr_inj hi h heq)
    rw [get_erase_ne _ hne]
    exact hm.position i check hi
  · intro addr e he
    dsimp only at he ⊢
    obtain ⟨hne, he⟩ := get_of_get_erase he
    obtain ⟨checkAt, hc⟩ := hm.element addr e he
    have hidx : e.heapIndex ≠ r.expiry.length - 1 := by
      intro heq
      rw [heq, h] at hc
      cases hc
      exact hne rfl
    have hlt := (List.getElem?_eq_some_iff.mp hc).1
    exact ⟨checkAt, by rw [List.getElem?_dropLast, if_pos (by omega)]; exact hc⟩

lemma Mirror.moveLast (hm : Mirror r) {removed last : ProbeCheck} (h : r.expiry[index]? = some removed)
    (hlast : r.expiry[r.expiry.length - 1]? = some last) (hentry : r.entries.get last.addr = some entry)
    (hlt : index < r.expiry.length - 1) :
    Mirror
      { r with
        expiry := (r.expiry.set index last).dropLast
        entries := (r.entries.erase removed.addr).insert last.addr
          { entry with heapIndex := index } } := by
  have hget := getElem?_swapRemove (hlt.trans_le (Nat.sub_le _ _)) last
  refine ⟨?_, ?_⟩
  · intro i check hi
    dsimp only at hi ⊢
    rw [hget] at hi
    split_ifs at hi with hin hii
    · cases hi
      exact ⟨_, get_insert_self _ _ _, hii.symm⟩
    · have hne : check.addr ≠ last.addr := fun heq => hin.ne (hm.addr_inj hi hlast heq)
      have hne' : check.addr ≠ removed.addr := fun heq => hii (hm.addr_inj hi h heq)
      rw [get_insert_ne _ hne, get_erase_ne _ hne']
      exact hm.position i check hi
  · intro addr e he
    dsimp only at he ⊢
    rw [get_insert] at he
    split_ifs at he with ha
    · cases he
      refine ⟨last.checkAt, ?_⟩
      rw [hget, if_pos hlt, if_pos rfl, ha]
      rfl
    · obtain ⟨hne, he⟩ := get_of_get_erase he
      obtain ⟨checkAt, hc⟩ := hm.element addr e he
      have hidx : e.heapIndex ≠ r.expiry.length - 1 := by
        intro heq
        rw [heq, hlast] at hc
        cases hc
        exact ha rfl
      have hidx' : e.heapIndex ≠ index := by
        intro heq
        rw [heq, h] at hc
        cases hc
        exact hne rfl
      have hltc := (List.getElem?_eq_some_iff.mp hc).1
      exact ⟨checkAt, by rw [hget, if_pos (by omega), if_neg hidx']; exact hc⟩

lemma set_dropLast {l : List α} (hlt : index < l.length - 1) (x : α) :
    (l.set index x).dropLast = l.dropLast.set index x := by
  refine List.ext_getElem? fun i => ?_
  rw [getElem?_swapRemove (hlt.trans_le (Nat.sub_le _ _)), List.getElem?_set, List.length_dropLast,
    if_pos hlt, List.getElem?_dropLast]
  split_ifs <;> first | rfl | omega

lemma resettle {l : List ProbeCheck} {x : ProbeCheck} (hm : Mirror r) (hl : Ordered (value l))
    (hlt : index < l.length) (hexp : r.expiry = l.set index x) :
    Sure
      (do if ← r.rises index then r.siftUp index else r.siftDown index) (Settled r) := by
  have hlen : index < r.expiry.length := by
    rw [hexp, List.length_set]
    exact hlt
  have hval : value r.expiry = Function.update (value l) index (x : WithTop ProbeCheck) := by
    rw [hexp, value_set hlt]
  obtain ⟨b, hb, hrise, hsink⟩ := rises_spec hlen
  rw [hb, ok_bind]
  rw [hval] at hrise hsink
  cases b with
  | true =>
    rw [if_pos rfl]
    obtain ⟨hpos, hx⟩ := hrise rfl
    rw [Function.update_self, Function.update_of_ne (parent_lt hpos).ne] at hx
    refine siftUp_settled hm hlen ?_
    rw [hval]
    refine hl.update_up fun j hj hp => ?_
    have hj' := hl j hj
    rw [hp] at hj'
    exact hx.trans ((hl index hpos).trans hj')
  | false =>
    rw [if_neg Bool.false_ne_true]
    refine siftDown_settled hm hlen ?_
    rw [hval]
    refine hl.update_down fun hpos => ?_
    have hx := hsink rfl hpos
    rw [Function.update_self, Function.update_of_ne (parent_lt hpos).ne] at hx
    exact hx

lemma Inv.removeAt (hr : Inv r) {removed : ProbeCheck} (h : r.expiry[index]? = some removed) :
    Sure (r.removeAt index) (Removed r removed) := by
  have hlt := (List.getElem?_eq_some_iff.mp h).1
  obtain ⟨last, hlast⟩ := exists_getElem? (show r.expiry.length - 1 < r.expiry.length by omega)
  have hgetLast : r.expiry.getLast? = some last := by rw [List.getLast?_eq_getElem?, hlast]
  have hperm := swapRemove_perm h hgetLast
  have hlen : (r.expiry.set index last).dropLast.length = r.expiry.length - 1 := by
    rw [List.length_dropLast, List.length_set]
  have hlenLe := (Nat.sub_le r.expiry.length 1).trans hr.length_le
  rw [← hlen] at hlenLe
  -- the element moved keeps its deadline, so none is looked at too late
  have hearly : ∀ check ∈ (r.expiry.set index last).dropLast, ∀ d,
      (if check.addr = removed.addr then none else r.deadline check.addr) = some d → check.checkAt ≤ d := by
    intro check hc d hd
    split_ifs at hd
    exact hr.early check (hperm.mem_iff.mp (List.mem_cons_of_mem _ hc)) d hd
  have hdead := deadline_erase r (r.expiry.set index last).dropLast removed.addr
  unfold RecentProbes.removeAt swapRemove
  rw [h, unwrap_some, ok_bind, hgetLast, unwrap_some, ok_bind, ok_bind]
  dsimp only
  by_cases hend : index < r.expiry.length - 1
  · rw [if_pos (by rw [hlen]; exact hend)]
    obtain ⟨entry, hentry, hpos⟩ := hr.mirror.position _ last hlast
    have hne : last.addr ≠ removed.addr :=
      fun heq => hend.ne (hr.mirror.addr_inj hlast h heq).symm
    have hget := getElem?_swapRemove hlt last index
    rw [if_pos hend, if_pos rfl] at hget
    have hsync := syncIndex_eq
      (r := { r with
        expiry := (r.expiry.set index last).dropLast
        entries := r.entries.erase removed.addr })
      hget ((get_erase_ne _ hne).trans hentry)
    rw [hsync, ok_bind]
    have hmir := hr.mirror.moveLast h hlast hentry hend
    generalize hr₁ : RecentProbes.mk ((r.entries.erase removed.addr).insert last.addr
      { entry with heapIndex := index }) (r.expiry.set index last).dropLast r.capacity = r₁ at hmir ⊢
    have hdead₁ : ∀ addr, r₁.deadline addr = if addr = removed.addr then none else r.deadline addr := by
      intro addr
      rw [← hdead addr, ← hr₁]
      dsimp only [deadline]
      rw [get_insert]
      split_ifs with heq
      · rw [heq, get_erase_ne _ hne, hentry]
        rfl
      · rfl
    have hexp₁ : r₁.expiry = (r.expiry.set index last).dropLast := by rw [← hr₁]
    have hcap₁ : r₁.capacity = r.capacity := by rw [← hr₁]
    have hsettle := resettle hmir hr.ordered.dropLast (by rw [List.length_dropLast]; exact hend)
      (hexp₁.trans (set_dropLast hend last))
    refine hsettle.mono fun r' hs => hs.2.1.removed hcap₁ hdead₁ (hexp₁ ▸ hperm) (hs.inv ?_ ?_ ?_)
    · intro check hc d hd
      rw [hdead₁] at hd
      exact hearly check (hexp₁ ▸ hc) d hd
    · rw [hexp₁, hcap₁]
      exact hlenLe
    · rw [hcap₁]
      exact hr.capacity_pos
  · rw [if_neg (by rw [hlen]; exact hend)]
    have hindex : index = r.expiry.length - 1 := by omega
    rw [← hindex, h] at hlast
    cases hlast
    have hset : r.expiry.set index removed = r.expiry := by
      obtain ⟨hlt, hx⟩ := List.getElem?_eq_some_iff.mp h
      rw [← hx, List.set_getElem_self]
    rw [hset] at hperm hearly hdead hlenLe ⊢
    refine ⟨⟨hr.mirror.dropLast (hindex ▸ h), hr.ordered.dropLast, ?_, hlenLe, hr.capacity_pos⟩, rfl,
      hdead, hperm⟩
    intro check hc d hd
    rw [hdead] at hd
    exact hearly check hc d hd

lemma Inv.remove (hr : Inv r) (addr : SocketAddr) :
    Sure (r.remove addr) fun r' => Inv r' ∧ r'.capacity = r.capacity ∧
      ∀ a, r'.deadline a = if a = addr then none else r.deadline a := by
  unfold RecentProbes.remove
  cases he : r.entries.get addr with
  | none =>
    refine ⟨hr, rfl, fun a => ?_⟩
    split_ifs with ha
    · rw [ha, deadline, he]
      rfl
    · rfl
  | some entry =>
    obtain ⟨checkAt, hc⟩ := hr.mirror.element addr entry he
    exact (hr.removeAt hc).mono fun r' h => ⟨h.inv, h.capacity, h.deadline⟩

/-! ### Recording -/

/-- `r'` is `r` with `addr` recorded, and without the endpoint that gave way for it. -/
structure Recorded (r : RecentProbes) (addr : SocketAddr) (expiresAt : Instant) (r' : RecentProbes) :
    Prop where
  inv : Inv r'
  capacity : r'.capacity = r.capacity
  deadline : ∀ a, r'.deadline a = if a = addr then some expiresAt
    else if r.evictee addr = some a then none else r.deadline a

lemma Inv.refresh (hr : Inv r) (he : r.entries.get addr = some entry) {expiresAt : Instant}
    (hle : entry.expiresAt ≤ expiresAt) :
    Inv { r with entries := r.entries.insert addr { entry with expiresAt } } := by
  refine ⟨⟨?_, ?_⟩, hr.ordered, ?_, hr.length_le, hr.capacity_pos⟩
  · intro i check hi
    obtain ⟨e, hget, hei⟩ := hr.mirror.position i check hi
    rw [get_insert]
    split_ifs with ha
    · rw [ha, he] at hget
      cases hget
      exact ⟨_, rfl, hei⟩
    · exact ⟨e, hget, hei⟩
  · exact forall_insert (hr.mirror.element addr entry he) fun a e _ => hr.mirror.element a e
  · intro check hc d hd
    dsimp only [deadline] at hd
    rw [get_insert] at hd
    split_ifs at hd with ha
    · cases hd
      refine (hr.early check hc entry.expiresAt ?_).trans hle
      rw [deadline, ha, he]
      rfl
    · exact hr.early check hc d hd

lemma deadline_pushed (r : RecentProbes) (addr : SocketAddr) (expiresAt : Instant) (a : SocketAddr) :
    (r.pushed addr expiresAt).deadline a = if a = addr then some expiresAt else r.deadline a := by
  dsimp only [deadline, pushed]
  rw [get_insert]
  split_ifs <;> rfl

lemma Mirror.pushed (hm : Mirror r) (hnew : r.entries.get addr = none) (expiresAt : Instant) :
    Mirror (r.pushed addr expiresAt) := by
  refine ⟨?_, ?_⟩
  · intro i check hi
    dsimp only [RecentProbes.pushed] at hi ⊢
    rw [List.getElem?_append] at hi
    split_ifs at hi with hlt
    · obtain ⟨e, hget, hei⟩ := hm.position i check hi
      have hne : check.addr ≠ addr := by
        intro h
        rw [h, hnew] at hget
        cases hget
      exact ⟨e, (get_insert_ne _ hne _).trans hget, hei⟩
    · obtain ⟨hi0, hx⟩ := List.getElem?_eq_some_iff.mp hi
      rw [List.length_singleton] at hi0
      rw [List.getElem_singleton] at hx
      rw [← hx]
      refine ⟨_, get_insert_self _ _ _, ?_⟩
      dsimp only
      omega
  · intro a e hget
    dsimp only [RecentProbes.pushed] at hget ⊢
    rw [get_insert] at hget
    split_ifs at hget with ha
    · cases hget
      exact ⟨expiresAt, by rw [ha]; exact List.getElem?_concat_length⟩
    · obtain ⟨checkAt, hc⟩ := hm.element a e hget
      exact ⟨checkAt, by rw [List.getElem?_append_left (List.getElem?_eq_some_iff.mp hc).1]; exact hc⟩

lemma Inv.push (hr : Inv r) (hnew : r.entries.get addr = none)
    (hroom : r.expiry.length < min r.capacity isizeMax) (expiresAt : Instant) :
    Sure ((r.pushed addr expiresAt).siftUp r.expiry.length)
      fun r' => Inv r' ∧ r'.capacity = r.capacity ∧
        ∀ a, r'.deadline a = if a = addr then some expiresAt else r.deadline a := by
  have hlen : (r.pushed addr expiresAt).expiry.length = r.expiry.length + 1 := List.length_append
  have hsift := siftUp_settled (hr.mirror.pushed hnew expiresAt) (hlen ▸ Nat.lt_succ_self _)
    (hr.ordered.append _)
  refine hsift.mono fun r' hs => ⟨hs.inv ?_ ?_ hr.capacity_pos, hs.2.1.capacity, ?_⟩
  · intro check hc d hd
    rw [deadline_pushed] at hd
    rcases List.mem_append.mp hc with hold | hlast
    · split_ifs at hd with ha
      · obtain ⟨e, he⟩ := (hr.mirror.mem_iff addr).mp (List.mem_map.mpr ⟨check, hold, ha⟩)
        rw [hnew] at he
        cases he
      · exact hr.early check hold d hd
    · rw [List.mem_singleton.mp hlast] at hd ⊢
      rw [if_pos (show ProbeCheck.addr (toLex (expiresAt, addr)) = addr from rfl)] at hd
      cases hd
      exact le_refl _
  · rw [hlen]
    exact hroom
  · intro a
    rw [hs.2.1.deadline, deadline_pushed]

lemma Inv.evictee_root (hr : Inv r) (hnew : r.entries.get addr = none) (hfull : r.entries.len = r.capacity) :
    ∃ root, r.expiry[0]? = some root ∧ r.evictee addr = some root.addr := by
  have hpos : 0 < r.expiry.length := by
    rw [hr.mirror.length_eq, hfull]
    exact hr.capacity_pos
  obtain ⟨root, hroot⟩ := exists_getElem? hpos
  refine ⟨root, hroot, ?_⟩
  unfold evictee
  rw [if_pos ⟨hnew, hfull⟩, List.head?_eq_getElem?, hroot]
  rfl

lemma evictee_eq_none (h : ¬(r.entries.get addr = none ∧ r.entries.len = r.capacity)) :
    r.evictee addr = none := by
  unfold evictee
  rw [if_neg h]

lemma Inv.makeRoom (hr : Inv r) (hnew : r.entries.get addr = none) :
    Sure r.makeRoom fun r₁ =>
      Inv r₁ ∧ r₁.capacity = r.capacity ∧ r₁.expiry.length < r.capacity ∧
        ∀ a, r₁.deadline a = if r.evictee addr = some a then none else r.deadline a := by
  unfold RecentProbes.makeRoom
  have hlen := hr.mirror.length_eq
  have hle := hr.length_le
  by_cases hfull : r.entries.len = r.capacity
  · rw [if_pos hfull]
    obtain ⟨root, hroot, hev⟩ := hr.evictee_root hnew hfull
    refine (hr.removeAt hroot).mono fun r₁ h => ⟨h.inv, h.capacity, ?_, ?_⟩
    · have hlen' := h.perm.length_eq
      rw [List.length_cons] at hlen'
      omega
    · intro a
      rw [h.deadline, hev]
      simp only [some_inj, eq_comm]
  · rw [if_neg hfull]
    refine ⟨hr, rfl, by omega, fun a => ?_⟩
    rw [evictee_eq_none fun h => hfull h.2, if_neg (some_ne_none a).symm]

lemma Inv.record (hr : Inv r) (addr : SocketAddr) {expiresAt : Instant}
    (hmono : ∀ d, r.deadline addr = some d → d ≤ expiresAt) :
    Safe (fun e => e = .capacityOverflow ∧ isizeMax < r.capacity)
      (r.record addr expiresAt) (Recorded r addr expiresAt) := by
  unfold RecentProbes.record
  cases he : r.entries.get addr with
  | some entry =>
    have hle : entry.expiresAt ≤ expiresAt := hmono _ (by rw [deadline, he]; rfl)
    refine ⟨hr.refresh he hle, rfl, fun a => ?_⟩
    have hev : r.evictee addr = none :=
      evictee_eq_none fun h => some_ne_none entry (he.symm.trans h.1)
    rw [hev, if_neg (some_ne_none a).symm]
    dsimp only [deadline]
    rw [get_insert]
    split_ifs <;> rfl
  | none =>
    refine ((hr.makeRoom he).weaken nofun).bind fun r₁ h₁ => ?_
    obtain ⟨hinv, hcap, hlen, hdead⟩ := h₁
    by_cases hover : r₁.expiry.length ≥ isizeMax
    · rw [if_pos hover]
      exact ⟨rfl, lt_of_le_of_lt hover hlen⟩
    rw [if_neg hover]
    have hgone : r₁.entries.get addr = none := by
      have h := hdead addr
      rw [deadline, deadline, he] at h
      rw [← map_eq_none_iff, h]
      split_ifs <;> rfl
    have hroom : r₁.expiry.length < min r₁.capacity isizeMax :=
      lt_min (hcap ▸ hlen) (Nat.lt_of_not_le hover)
    refine ((hinv.push hgone hroom expiresAt).weaken nofun).mono fun r' h' => ?_
    refine ⟨h'.1, h'.2.1.trans hcap, fun a => ?_⟩
    rw [h'.2.2, hdead]

end DhtCrawler.RecentProbes
