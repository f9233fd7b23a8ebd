import DhtCrawler.SnapshotModel

/-! The queues that `snapshot` threads through one array of links. -/

namespace DhtCrawler.SnapshotSlots

open List Option

variable {links : List ℕ} {q : SnapshotSlots} {l : List ℕ} {slot : ℕ}

variable {links' a : List ℕ}

structure Holds (links : List ℕ) (q : SnapshotSlots) (l : List ℕ) : Prop where
  len : q.len = l.length
  head : ∀ x, l.head? = some x → q.head = x
  tail : ∀ x, l.getLast? = some x → q.tail = x
  chain : l.IsChain fun x y => links[x]? = some y
  lt : ∀ x ∈ l, x < links.length

lemma holds_empty : Holds links empty [] :=
  ⟨rfl, nofun, nofun, isChain_nil, nofun⟩

lemma Holds.congr (h : Holds links q l) (hlen : links'.length = links.length)
    (hsame : ∀ x ∈ l, links'[x]? = links[x]?) : Holds links' q l := by
  refine ⟨h.len, h.head, h.tail, ?_, fun x hx => hlen ▸ h.lt x hx⟩
  refine h.chain.imp_of_mem_imp fun x y hx _ hxy => ?_
  rw [hsame x hx]
  exact hxy

lemma setLink_eq {next : ℕ} (hlt : slot < links.length) :
    setLink links slot next = .ok (links.set slot next) := if_pos hlt

lemma isChain_congr {t : ℕ} (h : (a ++ [t]).IsChain fun x y => links[x]? = some y)
    (hsame : ∀ x ∈ a, links'[x]? = links[x]?) : (a ++ [t]).IsChain fun x y => links'[x]? = some y := by
  obtain ⟨ha, _, hlast⟩ := isChain_append.mp h
  refine isChain_append.mpr ⟨?_, isChain_singleton t, fun x hx y hy => ?_⟩
  · refine ha.imp_of_mem_imp fun x y hx _ hxy => ?_
    rw [hsame x hx]
    exact hxy
  · rw [hsame x (mem_of_getLast? hx)]
    exact hlast x hx y hy

lemma Holds.pushBack (h : Holds links q l) (hnd : l.Nodup) (hnot : slot ∉ l) (hlt : slot < links.length) :
    ∃ q' links', q.pushBack slot links = .ok (q', links') ∧ Holds links' q' (l ++ [slot]) ∧
      links'.length = links.length ∧ ∀ x, x ∉ l → x ≠ slot → links'[x]? = links[x]? := by
  unfold SnapshotSlots.pushBack linkTail
  rw [setLink_eq hlt, Except.ok_bind]
  rcases eq_nil_or_concat l with rfl | ⟨a, t, rfl⟩
  · have hlen : q.len = 0 := h.len
    rw [if_pos hlen]
    refine ⟨_, _, rfl, ⟨?_, ?_, ?_, isChain_singleton slot, ?_⟩, length_set, ?_⟩
    · simp [hlen]
    · simp
    · simp
    · simpa using hlt
    · intro x _ hx
      rw [getElem?_set_ne (Ne.symm hx)]
  · rw [concat_eq_append] at *
    have hne : q.len ≠ 0 := by simp [h.len]
    have htail : q.tail = t := h.tail t (by simp)
    have htlt : t < (links.set slot usizeMax).length := by
      rw [length_set]
      exact h.lt t (by simp)
    rw [if_neg hne, htail, setLink_eq htlt]
    have hts : t ≠ slot := fun hts => hnot (by simp [hts])
    have hta : t ∉ a := fun hta => (nodup_append.mp hnd).2.2 t hta t (by simp) rfl
    have hsame : ∀ x, x ≠ t → x ≠ slot → ((links.set slot usizeMax).set t slot)[x]? = links[x]? := by
      intro x hxt hxs
      rw [getElem?_set_ne (Ne.symm hxt), getElem?_set_ne (Ne.symm hxs)]
    have hlen' : ((links.set slot usizeMax).set t slot).length = links.length := by simp
    refine ⟨_, _, rfl, ⟨?_, ?_, ?_, ?_, ?_⟩, hlen', fun x hx hxs => ?_⟩
    · simp [h.len]
    · intro x hx
      refine h.head x ?_
      rw [← hx]
      exact (head?_append_of_ne_nil (a ++ [t]) (by simp)).symm
    · simp
    · refine isChain_append.mpr ⟨?_, isChain_singleton slot, fun x hx y hy => ?_⟩
      · refine isChain_congr h.chain fun x hx => hsame x (fun hxt => hta (hxt ▸ hx)) fun hxs => ?_
        exact hnot (by simp [← hxs, hx])
      · have hxt : t = x := by simpa using hx
        have hys : slot = y := by simpa using hy
        rw [← hxt, ← hys, getElem?_set_self htlt]
    · intro x hx
      rw [hlen']
      rcases mem_append.mp hx with hx | hx
      · exact h.lt x hx
      · rwa [mem_singleton.mp hx]
    · exact hsame x (fun hxt => hx (by simp [hxt])) hxs

lemma Holds.popFront_nil (h : Holds links q []) : q.popFront links = .ok (q, none) := by
  have hlen : q.len = 0 := h.len
  unfold popFront
  rw [if_pos hlen]

lemma Holds.popFront {x : ℕ} (h : Holds links q (x :: l)) :
    ∃ q', q.popFront links = .ok (q', some x) ∧ Holds links q' l := by
  have hhead : q.head = x := h.head x rfl
  have hlt : x < links.length := h.lt x mem_cons_self
  have hne : q.len ≠ 0 := by simp [h.len]
  unfold SnapshotSlots.popFront
  rw [if_neg hne, hhead, getElem?_eq_getElem hlt]
  refine ⟨_, rfl, ⟨?_, fun y hy => ?_, fun y hy => ?_, ?_, fun y hy => h.lt y (mem_cons_of_mem x hy)⟩⟩
  · simp [h.len]
  · have hlink := (isChain_cons.mp h.chain).1 y hy
    rw [getElem?_eq_getElem hlt] at hlink
    exact some.inj hlink
  · refine h.tail y ?_
    rw [getLast?_cons, hy]
    rfl
  · exact (isChain_cons.mp h.chain).2

lemma advance_eq {b : List ℕ} {y : ℕ} (hb : b.head? = some y)
    (hchain : (a ++ b).IsChain fun x z => links[x]? = some z) (hhead : (a ++ b).head? = some q.head) :
    advance links a.length q = .ok { q with tail := a.getLast?.getD q.tail, head := y } := by
  induction a generalizing q with
  | nil =>
    rw [nil_append, hb] at hhead
    cases hhead
    rfl
  | cons x a ih =>
    have hx : x = q.head := some.inj hhead
    obtain ⟨z, hz⟩ : ∃ z, (a ++ b).head? = some z := by
      cases a with
      | nil => exact ⟨y, hb⟩
      | cons w a => exact ⟨w, rfl⟩
    obtain ⟨hlink, hrest⟩ := isChain_cons.mp hchain
    rw [length_cons, advance, ← hx, hlink z hz, unwrap_some, Except.ok_bind, ih hrest hz, getLast?_cons]
    rfl

lemma Holds.rotateLeft_append {c : List ℕ} {t u : ℕ} (h : Holds links q (a ++ [u] ++ (c ++ [t])))
    (hnd : (a ++ [u] ++ (c ++ [t])).Nodup) :
    ∃ q' links', q.rotateLeft (a ++ [u]).length links = .ok (q', links') ∧
      Holds links' q' (c ++ [t] ++ (a ++ [u])) ∧ links'.length = links.length ∧
        ∀ x, x ∉ a ++ [u] ++ (c ++ [t]) → links'[x]? = links[x]? := by
  obtain ⟨hnda, hndc, hdisj⟩ := nodup_append.mp hnd
  have hua : u ∉ a := fun hu => (nodup_append.mp hnda).2.2 u hu u (by simp) rfl
  have htc : t ∉ c := fun ht => (nodup_append.mp hndc).2.2 t ht t (by simp) rfl
  have htu : t ≠ u := fun htu => hdisj u (by simp) t (by simp) htu.symm
  have hac : ∀ x ∈ a ++ [u], x ≠ t := fun x hx hxt => hdisj x hx t (by simp) hxt
  have hcu : ∀ x ∈ c ++ [t], x ≠ u := fun x hx hxu => hdisj u (by simp) x hx hxu.symm
  obtain ⟨x₀, hx₀⟩ : ∃ x, (a ++ [u]).head? = some x := by
    cases a with
    | nil => exact ⟨u, rfl⟩
    | cons w a => exact ⟨w, rfl⟩
  obtain ⟨y, hy⟩ : ∃ y, (c ++ [t]).head? = some y := by
    cases c with
    | nil => exact ⟨t, rfl⟩
    | cons w c => exact ⟨w, rfl⟩
  have hhead' : (a ++ [u] ++ (c ++ [t])).head? = some x₀ := by
    rw [head?_append_of_ne_nil (a ++ [u]) (by simp), hx₀]
  have hhead : q.head = x₀ := h.head x₀ hhead'
  have htail : q.tail = t := by
    refine h.tail t ?_
    rw [getLast?_append_of_ne_nil (a ++ [u]) (by simp)]
    simp
  have htlt : t < links.length := h.lt t (by simp)
  have hulen : u < (links.set t x₀).length := by
    rw [length_set]
    exact h.lt u (by simp)
  have hclosed : (a ++ [u] ++ (c ++ [t])).IsChain fun x z => (links.set t x₀)[x]? = some z := by
    rw [← append_assoc] at h ⊢
    refine isChain_congr h.chain fun x hx => ?_
    have hxt : x ≠ t := by
      rcases mem_append.mp hx with hx | hx
      · exact hac x hx
      · exact fun hxt => htc (hxt ▸ hx)
    rw [getElem?_set_ne (Ne.symm hxt)]
  have hcut : ∀ x, x ≠ u → ((links.set t x₀).set u usizeMax)[x]? = (links.set t x₀)[x]? := by
    intro x hx
    rw [getElem?_set_ne (Ne.symm hx)]
  have hlen' : ((links.set t x₀).set u usizeMax).length = links.length := by simp
  have hlast : (a ++ [u]).getLast? = some u := by simp
  unfold SnapshotSlots.rotateLeft
  rw [if_neg (by simp), htail, hhead, setLink_eq htlt, Except.ok_bind,
    advance_eq hy hclosed (hhead ▸ hhead'), Except.ok_bind, hlast]
  dsimp only [getD_some]
  rw [setLink_eq hulen, Except.ok_bind]
  refine ⟨_, _, rfl, ⟨?_, fun x hx => ?_, fun x hx => ?_, ?_, fun x hx => ?_⟩, hlen', fun x hx => ?_⟩
  · simp [h.len]
    omega
  · rw [head?_append_of_ne_nil (c ++ [t]) (by simp), hy] at hx
    exact some.inj hx
  · rw [getLast?_append_of_ne_nil (c ++ [t]) (by simp), hlast] at hx
    exact some.inj hx
  · obtain ⟨hfirst, hsecond, _⟩ := isChain_append.mp hclosed
    refine isChain_append.mpr ⟨?_, ?_, fun x hx z hz => ?_⟩
    · refine hsecond.imp_of_mem_imp fun x z hx _ hxz => ?_
      rw [hcut x (hcu x hx)]
      exact hxz
    · exact isChain_congr hfirst fun x hx => hcut x fun hxu => hua (hxu ▸ hx)
    · have hxt : t = x := by simpa using hx
      have hzx : x₀ = z := some.inj (hx₀.symm.trans hz)
      rw [← hxt, ← hzx, hcut t htu, getElem?_set_self htlt]
  · rw [hlen']
    refine h.lt x ?_
    simp only [mem_append] at hx ⊢
    tauto
  · have hxu : x ≠ u := fun hxu => hx (by simp [hxu])
    have hxt : x ≠ t := fun hxt => hx (by simp [hxt])
    rw [hcut x hxu, getElem?_set_ne (Ne.symm hxt)]

lemma Holds.rotateLeft (h : Holds links q l) (hnd : l.Nodup) {count : ℕ} (hcount : count < l.length) :
    ∃ q' links', q.rotateLeft count links = .ok (q', links') ∧ Holds links' q' (l.rotate count) ∧
      links'.length = links.length ∧ ∀ x, x ∉ l → links'[x]? = links[x]? := by
  by_cases h0 : count = 0
  · rw [h0, rotate_zero]
    exact ⟨q, links, rfl, h, rfl, fun _ _ => rfl⟩
  · have hsplit := take_append_drop count l
    have htake : (l.take count).length = count := length_take_of_le hcount.le
    have hdrop : (l.drop count).length = l.length - count := length_drop
    obtain ha | ⟨a, u, ha⟩ := eq_nil_or_concat (l.take count)
    · rw [ha, length_nil] at htake
      exact absurd htake.symm h0
    obtain hc | ⟨c, t, hc⟩ := eq_nil_or_concat (l.drop count)
    · rw [hc, length_nil] at hdrop
      omega
    rw [concat_eq_append] at ha hc
    have hl : l = a ++ [u] ++ (c ++ [t]) := by rw [← ha, ← hc, hsplit]
    have hlen : count = (a ++ [u]).length := by rw [← ha, htake]
    rw [hl] at h hnd ⊢
    rw [hlen, rotate_append_length_eq]
    exact h.rotateLeft_append hnd

end DhtCrawler.SnapshotSlots
