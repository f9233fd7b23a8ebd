import DhtCrawler.LibSorting
import DhtCrawler.RoutingModel

/-! The trie of the routing snapshot. A branch stands for a range of the sorted nodes: at a leaf all ids are the
same, at a split the ids part at one bit. -/

set_option linter.constructorNameAsVariable false

namespace DhtCrawler

open BigEndian Sorting List PrefixIndex Except RoutingSnapshot

variable {nodes : List NodeTuple} {branches : List PrefixBranch} {branch bit start middle stop : ℕ}
  {first last target : NodeId}

variable {byte fuel : ℕ} {index : PrefixIndex}

/-! ### Keys -/

def idValue (id : NodeId) : ℕ := value id.toList

lemma idValue_injective : Function.Injective idValue := by
  intro a b h
  exact Vector.toList_inj.mp (value_inj (a.length_toList.trans b.length_toList.symm) h)

def idKey (node : NodeTuple) : ℕ ×ₗ SocketAddr := toLex (idValue node.id, node.addr)

def distanceKey (target : NodeId) (node : NodeTuple) : ℕ ×ₗ SocketAddr :=
  toLex (idValue node.id ^^^ idValue target, node.addr)

lemma distanceKey_injective (target : NodeId) : Function.Injective (distanceKey target) := by
  intro a b h
  obtain ⟨hid, haddr⟩ := Prod.mk.inj (toLex_inj.mp h)
  have hid := idValue_injective (Nat.xor_left_injective hid)
  cases a
  cases b
  cases hid
  cases haddr
  rfl

lemma compare_isLE_iff {κ : Type} [LinearOrder κ] (a b : κ) : (compare a b).isLE = true ↔ a ≤ b := by
  rcases lt_trichotomy a b with h | h | h
  · rw [compare_lt_iff_lt.mpr h]
    exact ⟨fun _ => h.le, fun _ => rfl⟩
  · rw [compare_eq_iff_eq.mpr h]
    exact ⟨fun _ => h.le, fun _ => rfl⟩
  · rw [compare_gt_iff_gt.mpr h]
    exact ⟨nofun, fun hle => absurd hle (not_le.mpr h)⟩

lemma then_isLE (x y : ℕ) (a b : SocketAddr) :
    ((compare x y).then (compare a b)).isLE = decide (toLex (x, a) ≤ toLex (y, b)) := by
  rw [Bool.eq_iff_iff, decide_eq_true_iff, Prod.Lex.toLex_le_toLex]
  rcases lt_trichotomy x y with h | h | h
  · rw [compare_lt_iff_lt.mpr h]
    exact ⟨fun _ => Or.inl h, fun _ => rfl⟩
  · rw [compare_eq_iff_eq.mpr h]
    refine (compare_isLE_iff a b).trans ⟨fun hle => Or.inr ⟨h, hle⟩, fun hle => ?_⟩
    exact (hle.resolve_left h.not_lt).2
  · rw [compare_gt_iff_gt.mpr h]
    refine ⟨nofun, fun hle => ?_⟩
    rcases hle with hlt | ⟨heq, _⟩
    · exact absurd h hlt.asymm
    · exact absurd heq h.ne'

lemma xorCmp_eq {left right target : List UInt8} (hleft : left.length = target.length)
    (hright : right.length = target.length) :
    xorCmp left right target =
      BigEndian.cmp (zipWith (· ^^^ ·) left target) (zipWith (· ^^^ ·) right target) := by
  induction target generalizing left right with
  | nil =>
    rw [length_eq_zero_iff.mp hleft, length_eq_zero_iff.mp hright]
    rfl
  | cons t ts ih =>
    cases left with
    | nil => cases hleft
    | cons l ls =>
      cases right with
      | nil => cases hright
      | cons r rs =>
        rw [xorCmp, ih (Nat.succ_inj.mp hleft) (Nat.succ_inj.mp hright), zipWith_cons_cons,
          zipWith_cons_cons, BigEndian.cmp]
        cases compare (l ^^^ t) (r ^^^ t) with
        | lt => rfl
        | eq => rfl
        | gt => rfl

lemma xorDistanceCmp_eq (left right target : NodeId) :
    xorDistanceCmp left right target =
      compare (idValue left ^^^ idValue target) (idValue right ^^^ idValue target) := by
  have hlen : ∀ a b : NodeId, a.toList.length = b.toList.length := fun a b =>
    a.length_toList.trans b.length_toList.symm
  have hzip : (zipWith (· ^^^ ·) left.toList target.toList).length =
      (zipWith (· ^^^ ·) right.toList target.toList).length := by
    rw [length_zipWith, length_zipWith, hlen left target, hlen right target]
  unfold xorDistanceCmp
  rw [xorCmp_eq (hlen _ _) (hlen _ _), cmp_eq_compare hzip, value_zipXor (hlen _ _),
    value_zipXor (hlen _ _), idValue, idValue, idValue]

lemma sort_idAddr (nodes : List NodeTuple) :
    sortUnstableBy idAddrCmp nodes = byKey idKey nodes := by
  have hle : ∀ a b : NodeTuple, (idAddrCmp a b).isLE = decide (idKey a ≤ idKey b) := by
    intro a b
    unfold idAddrCmp
    rw [cmp_eq_compare (a.id.length_toList.trans b.id.length_toList.symm)]
    exact then_isLE _ _ _ _
  unfold sortUnstableBy byKey
  simp only [hle]

lemma sort_closest (target : NodeId) (nodes : List NodeTuple) :
    sortUnstableBy (closestCmp target) nodes = byKey (distanceKey target) nodes := by
  have hle : ∀ a b : NodeTuple, (closestCmp target a b).isLE =
      decide (distanceKey target a ≤ distanceKey target b) := by
    intro a b
    unfold closestCmp
    rw [xorDistanceCmp_eq]
    exact then_isLE _ _ _ _
  unfold sortUnstableBy byKey
  simp only [hle]

/-! ### Bits -/

lemma toNat_mask : ∀ k < 8, ((1 : UInt8) <<< UInt8.ofNat k).toNat = 2 ^ k := by decide

lemma bitClear_eq (byte : UInt8) (bit : ℕ) : bitClear byte bit = !byte.toNat.testBit (7 - bit % 8) := by
  have hk : 7 - bit % 8 < 8 := by omega
  rw [bitClear, Bool.eq_iff_iff, beq_iff_eq, ← UInt8.toNat_inj, UInt8.toNat_and, toNat_mask _ hk,
    Nat.and_two_pow, UInt8.toNat_zero]
  cases byte.toNat.testBit (7 - bit % 8) with
  | false => simp
  | true => simp

lemma bitClear_byteAt (id : NodeId) (hbit : bit < 160) :
    bitClear (byteAt id (bit / 8)) bit = !(idValue id).testBit (159 - bit) := by
  have hlen : id.toList.length = 20 := id.length_toList
  have hbyte : bit / 8 < id.toList.length := by omega
  have hsplit : 159 - bit = 8 * (id.toList.length - 1 - bit / 8) + (7 - bit % 8) := by omega
  rw [bitClear_eq, hsplit, idValue, testBit_value hbyte (by omega), byteAt]

lemma zip_getElem {i : ℕ} (hi : i < (first.toList.zip last.toList).length) :
    (first.toList.zip last.toList)[i] = (byteAt first i, byteAt last i) := by
  have hle := length_zip.symm ▸ hi
  rw [getElem_zip, byteAt, byteAt, getD_eq_getElem _ _ (hle.trans_le (min_le_left _ _)),
    getD_eq_getElem _ _ (hle.trans_le (min_le_right _ _))]

lemma length_zip_ids (first last : NodeId) : (first.toList.zip last.toList).length = 20 := by
  rw [length_zip, first.length_toList, last.length_toList]
  rfl

lemma differingByte_eq_none (h : differingByte first last = none) : first = last := by
  unfold differingByte at h
  rw [findIdx?_eq_none_iff] at h
  refine Vector.toList_inj.mp (ext_getElem (first.length_toList.trans last.length_toList.symm) ?_)
  intro i hi hi'
  have hzip : i < (first.toList.zip last.toList).length := by
    rw [length_zip_ids, ← first.length_toList]
    exact hi
  have hsame := h _ (getElem_mem hzip)
  rw [getElem_zip] at hsame
  simpa using hsame

lemma differingByte_eq_some (h : differingByte first last = some byte) :
    byte < 20 ∧ (∀ i < byte, byteAt first i = byteAt last i) ∧ byteAt first byte ≠ byteAt last byte := by
  unfold differingByte at h
  obtain ⟨hlt, hdiff, hbefore⟩ := findIdx?_eq_some_iff_getElem.mp h
  rw [zip_getElem] at hdiff
  refine ⟨length_zip_ids first last ▸ hlt, fun i hi => ?_, by simpa using hdiff⟩
  have hsame := hbefore i hi
  rw [zip_getElem] at hsame
  simpa using hsame

lemma splitBit_part (h : differingByte first last = some byte)
    (hle : idValue first ≤ idValue last)
    (hbit : bit = byte * 8 + leadingZeros (byteAt first byte ^^^ byteAt last byte)) :
    bit < 160 ∧ bit / 8 = byte ∧ PartAt (159 - bit) (idValue first) (idValue last) := by
  obtain ⟨hlt, hbefore, hdiff⟩ := differingByte_eq_some h
  have hne : byteAt first byte ^^^ byteAt last byte ≠ 0 :=
    fun hzero => hdiff (UInt8.xor_eq_zero_iff.mp hzero)
  have hlog : (byteAt first byte ^^^ byteAt last byte).toNat.log2 < 8 := by
    rw [Nat.log2_lt fun hzero => hne (UInt8.toNat_inj.mp hzero)]
    exact UInt8.toNat_lt _
  have hlen : first.toList.length = 20 := first.length_toList
  have hpart := partAt_of_first (first.length_toList.trans last.length_toList.symm)
    (hlt.trans_eq hlen.symm) hbefore hdiff hle
  rw [leadingZeros, if_neg hne] at hbit
  refine ⟨by omega, by omega, ?_⟩
  have hweight : 159 - bit = 8 * (first.toList.length - 1 - byte) +
      (byteAt first byte ^^^ byteAt last byte).toNat.log2 := by omega
  rw [hweight]
  exact hpart

/-! ### Ranges -/

def segment (nodes : List NodeTuple) (start stop : ℕ) : List NodeTuple :=
  (nodes.drop start).take (stop - start)

lemma segment_append (hstart : start ≤ middle) (hmiddle : middle ≤ stop) :
    segment nodes start stop = segment nodes start middle ++ segment nodes middle stop := by
  have hsum : stop - start = (middle - start) + (stop - middle) := by omega
  unfold segment
  rw [hsum, take_add, drop_drop, Nat.add_sub_cancel' hstart]

lemma segment_sublist (nodes : List NodeTuple) (start stop : ℕ) : (segment nodes start stop).Sublist nodes :=
  (take_sublist _ _).trans (drop_sublist _ _)

lemma length_segment (hstop : stop ≤ nodes.length) : (segment nodes start stop).length = stop - start := by
  rw [segment, length_take, length_drop]
  omega

/-- What a branch stands for: a range of nodes with one id, or two ranges whose ids part at a bit. -/
inductive Indexed (nodes : List NodeTuple) (branches : List PrefixBranch) : ℕ → ℕ → ℕ → Prop where
  | leaf {branch start stop : ℕ} (hbranch : branches[branch]? = some (.leaf start stop))
      (hstart : start ≤ stop) (hstop : stop ≤ nodes.length)
      (hsame : ∀ x ∈ segment nodes start stop, ∀ y ∈ segment nodes start stop, x.id = y.id) :
      Indexed nodes branches branch start stop
  | split {branch bit zero one start middle stop : ℕ}
      (hbranch : branches[branch]? = some (.split bit zero one)) (hbit : bit < 160)
      (hzero : zero < branch) (hone : one < branch) (hstart : start ≤ middle) (hmiddle : middle ≤ stop)
      (hpart : ∀ x ∈ segment nodes start middle, ∀ y ∈ segment nodes middle stop,
        PartAt (159 - bit) (idValue x.id) (idValue y.id))
      (hleft : Indexed nodes branches zero start middle)
      (hright : Indexed nodes branches one middle stop) : Indexed nodes branches branch start stop

lemma Indexed.append (h : Indexed nodes branches branch start stop) (more : List PrefixBranch) :
    Indexed nodes (branches ++ more) branch start stop := by
  have hkeep : ∀ {i : ℕ} {b : PrefixBranch}, branches[i]? = some b → (branches ++ more)[i]? = some b := by
    intro i b hi
    rw [List.getElem?_append_left (List.getElem?_eq_some_iff.mp hi).1]
    exact hi
  induction h with
  | leaf hbranch hstart hstop hsame => exact .leaf (hkeep hbranch) hstart hstop hsame
  | split hbranch hbit hzero hone hstart hmiddle hpart _ _ ihleft ihright =>
    exact .split (hkeep hbranch) hbit hzero hone hstart hmiddle hpart ihleft ihright

/-! ### The walk -/

def nearest (target : NodeId) (nodes : List NodeTuple) (start stop : ℕ) : List NodeTuple :=
  byKey (distanceKey target) (segment nodes start stop)

lemma nearest_leaf (hsorted : nodes.Pairwise fun a b => idKey a ≤ idKey b)
    (hsame : ∀ x ∈ segment nodes start stop, ∀ y ∈ segment nodes start stop, x.id = y.id)
    (target : NodeId) : nearest target nodes start stop = segment nodes start stop := by
  refine (eq_byKey (distanceKey_injective target) (Perm.refl _) ?_).symm
  refine (hsorted.sublist (segment_sublist nodes start stop)).imp_of_mem fun {x y} hx hy hle => ?_
  have hid := hsame x hx y hy
  unfold idKey at hle
  unfold distanceKey
  rw [Prod.Lex.toLex_le_toLex] at hle ⊢
  rw [hid] at hle ⊢
  exact Or.inr ⟨rfl, (hle.resolve_left (lt_irrefl _)).2⟩

lemma nearest_split (hstart : start ≤ middle) (hmiddle : middle ≤ stop)
    (hpart : ∀ x ∈ segment nodes start middle, ∀ y ∈ segment nodes middle stop, PartAt (159 - bit) (idValue x.id) (idValue y.id))
    (target : NodeId) :
    nearest target nodes start stop = if (idValue target).testBit (159 - bit) = false
        then nearest target nodes start middle ++ nearest target nodes middle stop
        else nearest target nodes middle stop ++ nearest target nodes start middle := by
  have hlt : ∀ {x y : NodeTuple}, idValue x.id ^^^ idValue target < idValue y.id ^^^ idValue target →
      distanceKey target x ≤ distanceKey target y := by
    intro x y h
    exact Prod.Lex.toLex_le_toLex.mpr (Or.inl h)
  unfold nearest
  rw [segment_append hstart hmiddle]
  split_ifs with hside
  · exact byKey_append (distanceKey_injective target) fun x hx y hy =>
      hlt (((hpart x hx y hy).xor (idValue target)).1 hside)
  · rw [byKey_congr (distanceKey_injective target) perm_append_comm]
    exact byKey_append (distanceKey_injective target) fun y hy x hx =>
      hlt (((hpart x hx y hy).xor (idValue target)).2 ((Bool.not_eq_false _).mp hside))

namespace PrefixIndex

lemma slice_leaf {start stop m : ℕ} (hstart : start ≤ stop) (hstop : stop ≤ nodes.length) :
    slice nodes start (min stop (start + m)) = .ok ((segment nodes start stop).take m) := by
  unfold slice segment
  rw [if_pos ⟨by omega, by omega⟩, take_take]
  congr 2
  omega

lemma take_append_walk (output near far : List NodeTuple) (limit : ℕ) :
    output ++ near.take (limit - output.length) ++
        far.take (limit - (output ++ near.take (limit - output.length)).length) =
      output ++ (near ++ far).take (limit - output.length) := by
  rw [take_append, append_assoc, length_append, length_take]
  congr 3
  omega

lemma visit_spec (hsorted : index.nodes.Pairwise fun a b => idKey a ≤ idKey b)
    (h : Indexed index.nodes index.branches branch start stop) (target : NodeId) (limit : ℕ)
    (hfuel : branch < fuel) (output : List NodeTuple) :
    ∃ visits, index.visit target limit fuel branch output =
      .ok (output ++ (nearest target index.nodes start stop).take (limit - output.length), visits) := by
  induction h generalizing fuel output with
  | @leaf branch start stop hbranch hstart hstop hsame =>
    obtain ⟨fuel, rfl⟩ := Nat.exists_eq_add_one_of_ne_zero (Nat.ne_zero_of_lt hfuel)
    rw [visit, hbranch]
    by_cases hfull : output.length ≥ limit
    · rw [if_pos hfull, Nat.sub_eq_zero_of_le hfull, take_zero, append_nil]
      exact ⟨0, rfl⟩
    · have hsum : start + limit - output.length = start + (limit - output.length) := by omega
      rw [if_neg hfull, nearest_leaf hsorted hsame, unwrap_some, ok_bind]
      dsimp only
      rw [hsum, slice_leaf hstart hstop]
      exact ⟨1, rfl⟩
  | @split branch bit zero one start middle stop hbranch hbit hzero hone hstart hmiddle hpart _ _
      ihleft ihright =>
      obtain ⟨fuel, rfl⟩ := Nat.exists_eq_add_one_of_ne_zero (Nat.ne_zero_of_lt hfuel)
      rw [visit, hbranch]
      by_cases hfull : output.length ≥ limit
      · rw [if_pos hfull, Nat.sub_eq_zero_of_le hfull, take_zero, append_nil]
        exact ⟨0, rfl⟩
      have hbyte : target.toList[bit / 8]? = some (byteAt target (bit / 8)) := by
        have hlt : bit / 8 < target.toList.length := by
          rw [target.length_toList]
          omega
        rw [byteAt, getD_eq_getElem _ _ hlt, getElem?_eq_getElem hlt]
      have hleft := ihleft (hzero.trans_le (Nat.lt_succ_iff.mp hfuel))
      have hright := ihright (hone.trans_le (Nat.lt_succ_iff.mp hfuel))
      rw [if_neg hfull, unwrap_some, ok_bind, nearest_split hstart hmiddle hpart]
      dsimp only
      rw [hbyte, unwrap_some, ok_bind, bitClear_byteAt target hbit]
      cases (idValue target).testBit (159 - bit) with
      | false =>
        obtain ⟨nearVisits, hnear⟩ := hleft output
        obtain ⟨farVisits, hfar⟩ := hright
          (output ++ (nearest target index.nodes start middle).take (limit - output.length))
        refine ⟨1 + nearVisits + farVisits, ?_⟩
        show (index.visit target limit fuel zero output >>= _) = _
        rw [hnear, ok_bind]
        show (index.visit target limit fuel one _ >>= _) = _
        rw [hfar, ok_bind, take_append_walk]
        rfl
      | true =>
        obtain ⟨nearVisits, hnear⟩ := hright output
        obtain ⟨farVisits, hfar⟩ := hleft
          (output ++ (nearest target index.nodes middle stop).take (limit - output.length))
        refine ⟨1 + nearVisits + farVisits, ?_⟩
        show (index.visit target limit fuel one output >>= _) = _
        rw [hnear, ok_bind]
        show (index.visit target limit fuel zero _ >>= _) = _
        rw [hfar, ok_bind, take_append_walk]
        rfl

/-! ### The construction -/

lemma idValue_le {a b : NodeTuple} (h : idKey a ≤ idKey b) : idValue a.id ≤ idValue b.id := by
  rcases Prod.Lex.toLex_le_toLex.mp h with hlt | ⟨heq, _⟩
  · exact hlt.le
  · exact heq.le

lemma partitionPoint_split {range : List NodeTuple} {w : ℕ} {test : NodeTuple → Bool}
    (hsorted : range.Pairwise fun a b => idKey a ≤ idKey b)
    (htest : ∀ x ∈ range, test x = !(idValue x.id).testBit w)
    (hagree : ∀ x ∈ range, ∀ y ∈ range, ∀ j, w < j → (idValue x.id).testBit j = (idValue y.id).testBit j) :
    (∀ x ∈ range.take (partitionPoint test range), (idValue x.id).testBit w = false) ∧
      ∀ y ∈ range.drop (partitionPoint test range), (idValue y.id).testBit w = true := by
  have hmono : ∀ a ∈ range, ∀ b ∈ range, idKey a ≤ idKey b → test b = true → test a = true := by
    intro a ha b hb hle hb'
    rw [htest a ha]
    rw [htest b hb] at hb'
    cases hbit : (idValue a.id).testBit w with
    | false => rfl
    | true =>
      have hlt := Nat.lt_of_testBit w (by simpa using hb') hbit (hagree b hb a ha)
      exact absurd (idValue_le hle) (not_le.mpr hlt)
  obtain ⟨htake, hdrop⟩ := takeWhile_of_pairwise hsorted hmono
  refine ⟨fun x hx => ?_, fun y hy => ?_⟩
  · have hpass := htake x hx
    rw [htest x (mem_of_mem_take hx)] at hpass
    simpa using hpass
  · have hfail := hdrop y hy
    rw [htest y (mem_of_mem_drop hy)] at hfail
    simpa using hfail

variable {x y : NodeTuple}

lemma mem_segment : x ∈ segment nodes start stop ↔ ∃ i, start ≤ i ∧ i < stop ∧ nodes[i]? = some x := by
  unfold segment
  rw [mem_iff_getElem?]
  constructor
  · rintro ⟨i, hi⟩
    rw [getElem?_take] at hi
    split_ifs at hi with hlt
    rw [getElem?_drop] at hi
    exact ⟨start + i, by omega, by omega, hi⟩
  · rintro ⟨i, hstart, hstop, hi⟩
    refine ⟨i - start, ?_⟩
    rw [getElem?_take, if_pos (by omega), getElem?_drop, Nat.add_sub_cancel' hstart]
    exact hi

section

variable (hsorted : nodes.Pairwise fun a b => idKey a ≤ idKey b)
include hsorted

lemma idKey_le_of_le {i j : ℕ} (hij : i ≤ j) (hx : nodes[i]? = some x) (hy : nodes[j]? = some y) :
    idKey x ≤ idKey y := by
  rcases Nat.eq_or_lt_of_le hij with rfl | hlt
  · rw [hx] at hy
    cases hy
    exact le_refl _
  · obtain ⟨hi, rfl⟩ := List.getElem?_eq_some_iff.mp hx
    obtain ⟨hj, rfl⟩ := List.getElem?_eq_some_iff.mp hy
    exact pairwise_iff_getElem.mp hsorted i j hi hj hlt

lemma segment_between {z : NodeTuple} (hx : nodes[start]? = some x) (hy : nodes[stop - 1]? = some y)
    (hz : z ∈ segment nodes start stop) : idValue x.id ≤ idValue z.id ∧ idValue z.id ≤ idValue y.id := by
  obtain ⟨i, hstart, hstop, hi⟩ := mem_segment.mp hz
  exact ⟨idValue_le (idKey_le_of_le hsorted hstart hx hi), idValue_le (idKey_le_of_le hsorted (by omega) hi hy)⟩

lemma split_spec (hlt : start < stop) (hx : nodes[start]? = some x) (hy : nodes[stop - 1]? = some y)
    (hbyte : differingByte x.id y.id = some byte)
    (hbit : bit = byte * 8 + leadingZeros (byteAt x.id byte ^^^ byteAt y.id byte))
    (hmiddle : middle = start + partitionPoint (fun node => bitClear (byteAt node.id byte) bit) (segment nodes start stop)) :
    bit < 160 ∧ start < middle ∧ middle < stop ∧
      ∀ a ∈ segment nodes start middle, ∀ b ∈ segment nodes middle stop,
        PartAt (159 - bit) (idValue a.id) (idValue b.id) := by
  have hfirst : x ∈ segment nodes start stop := mem_segment.mpr ⟨start, le_refl _, hlt, hx⟩
  have hlast : y ∈ segment nodes start stop := mem_segment.mpr ⟨stop - 1, by omega, by omega, hy⟩
  have hle := (segment_between hsorted hx hy hlast).1
  obtain ⟨hbit160, hdiv, hpart⟩ := splitBit_part hbyte hle hbit
  have hagree : ∀ a ∈ segment nodes start stop, ∀ b ∈ segment nodes start stop, ∀ j, 159 - bit < j →
      (idValue a.id).testBit j = (idValue b.id).testBit j := by
    intro a ha b hb j hj
    obtain ⟨hxa, hay⟩ := segment_between hsorted hx hy ha
    obtain ⟨hxb, hby⟩ := segment_between hsorted hx hy hb
    rw [hpart.between hxa hay hj, hpart.between hxb hby hj]
  have htest : ∀ a ∈ segment nodes start stop,
      bitClear (byteAt a.id byte) bit = !(idValue a.id).testBit (159 - bit) := by
    intro a _
    rw [← hdiv]
    exact bitClear_byteAt a.id hbit160
  obtain ⟨hzeros, hones⟩ :=
    partitionPoint_split (hsorted.sublist (segment_sublist nodes start stop)) htest hagree
  generalize partitionPoint (fun node => bitClear (byteAt node.id byte) bit) (segment nodes start stop) =
    point at hmiddle hzeros hones
  have hlen : (segment nodes start stop).length = stop - start := by
    have hstop := (List.getElem?_eq_some_iff.mp hy).1
    exact length_segment (by omega)
  -- the first id has a zero at the bit and the last one a one, so neither side is empty
  have hpos : 0 < point := by
    refine Nat.pos_of_ne_zero fun hzero => ?_
    subst hzero
    have hbit := hones x hfirst
    rw [hpart.zero] at hbit
    cases hbit
  have hinside : point < stop - start := by
    refine not_le.mp fun hbig => ?_
    rw [take_of_length_le (hlen.trans_le hbig)] at hzeros
    have hbit := hzeros y hlast
    rw [hpart.one] at hbit
    cases hbit
  subst hmiddle
  have hleft : segment nodes start (start + point) = (segment nodes start stop).take point := by
    rw [segment, segment, take_take, Nat.add_sub_cancel_left, Nat.min_eq_left hinside.le]
  have hright : segment nodes (start + point) stop = (segment nodes start stop).drop point := by
    rw [segment, segment, drop_take, drop_drop, Nat.sub_sub]
  refine ⟨hbit160, by omega, by omega, fun a ha b hb => ?_⟩
  rw [hleft] at ha
  rw [hright] at hb
  exact ⟨hzeros a ha, hones b hb, hagree a (mem_of_mem_take ha) b (mem_of_mem_drop hb)⟩

lemma build_cases (hlt : start < stop) (hstop : stop ≤ nodes.length) (fuel : ℕ) (branches : List PrefixBranch) :
    (build nodes (fuel + 1) start stop branches = .ok (branches ++ [.leaf start stop], branches.length) ∧
      ∀ x ∈ segment nodes start stop, ∀ y ∈ segment nodes start stop, x.id = y.id) ∨
    ∃ bit middle, bit < 160 ∧ start < middle ∧ middle < stop ∧
      (∀ x ∈ segment nodes start middle, ∀ y ∈ segment nodes middle stop,
        PartAt (159 - bit) (idValue x.id) (idValue y.id)) ∧
      build nodes (fuel + 1) start stop branches = (do
        let (branches, zero) ← build nodes fuel start middle branches
        let (branches, one) ← build nodes fuel middle stop branches
        .ok (branches ++ [.split bit zero one], branches.length)) := by
  obtain ⟨x, hx⟩ : ∃ x, nodes[start]? = some x := ⟨_, getElem?_eq_getElem (by omega)⟩
  obtain ⟨y, hy⟩ : ∃ y, nodes[stop - 1]? = some y := ⟨_, getElem?_eq_getElem (by omega)⟩
  have hpred : checkedPred stop = .ok (stop - 1) := by
    obtain ⟨m, rfl⟩ := Nat.exists_eq_add_one_of_ne_zero (Nat.ne_zero_of_lt hlt)
    rfl
  rw [build, hx, unwrap_some, ok_bind, hpred, ok_bind, hy, unwrap_some, ok_bind]
  cases hbyte : differingByte x.id y.id with
  | none =>
    have hid := differingByte_eq_none hbyte
    have hsame : ∀ z ∈ segment nodes start stop, z.id = x.id := by
      intro z hz
      obtain ⟨hxz, hzy⟩ := segment_between hsorted hx hy hz
      rw [← hid] at hzy
      exact idValue_injective (le_antisymm hzy hxz)
    exact .inl ⟨rfl, fun a ha b hb => (hsame a ha).trans (hsame b hb).symm⟩
  | some byte =>
    have hslice : slice nodes start stop = .ok (segment nodes start stop) := if_pos ⟨hlt.le, hstop⟩
    obtain ⟨hbit, hleft, hright, hpart⟩ := split_spec hsorted hlt hx hy hbyte rfl rfl
    refine .inr ⟨_, _, hbit, hleft, hright, hpart, ?_⟩
    dsimp only
    rw [hslice, ok_bind]

lemma build_spec (hfuel : stop - start ≤ fuel) (hlt : start < stop) (hstop : stop ≤ nodes.length)
    (branches : List PrefixBranch) :
    ∃ more branch, build nodes fuel start stop branches = .ok (branches ++ more, branch) ∧
      branch < (branches ++ more).length ∧ Indexed nodes (branches ++ more) branch start stop := by
  induction fuel generalizing start stop branches with
  | zero => omega
  | succ fuel ih =>
    rcases build_cases hsorted hlt hstop fuel branches with
      ⟨hrun, hsame⟩ | ⟨bit, middle, hbit, hleft, hright, hpart, hrun⟩
    · exact ⟨[.leaf start stop], branches.length, hrun, by simp, .leaf (by simp) hlt.le hstop hsame⟩
    · obtain ⟨more, zero, hzero, hzlt, hzindex⟩ := ih (by omega) hleft (hright.le.trans hstop) branches
      obtain ⟨more', one, hone, holt, hoindex⟩ := ih (by omega) hright hstop (branches ++ more)
      refine ⟨more ++ more' ++ [.split bit zero one], (branches ++ more ++ more').length, ?_, ?_, ?_⟩
      · rw [hrun, hzero, ok_bind]
        dsimp only
        rw [hone, ok_bind]
        simp only [append_assoc]
      · simp
      · simp only [← append_assoc]
        refine .split (getElem?_concat_length) hbit ?_ holt hleft.le hright.le hpart
          ((hzindex.append more').append _) (hoindex.append _)
        exact hzlt.trans_le (by simp)

end

lemma new_nil : new [] = .ok ⟨[], [], none⟩ := by simp [new, sortUnstableBy]

lemma new_of_ne_nil (hne : nodes ≠ []) :
    0 < (byKey idKey nodes).length ∧ new nodes = (do
      let (branches, root) ← build (byKey idKey nodes) (byKey idKey nodes).length 0 (byKey idKey nodes).length []
      .ok ⟨byKey idKey nodes, branches, some root⟩) := by
  have hpos : 0 < (byKey idKey nodes).length := by
    rw [(byKey_perm idKey nodes).length_eq]
    exact length_pos_of_ne_nil hne
  refine ⟨hpos, ?_⟩
  unfold new
  rw [sort_idAddr]
  rw [if_neg (by simpa using length_pos_iff.mp hpos)]

lemma new_spec (nodes : List NodeTuple) :
    ∃ index, new nodes = .ok index ∧ index.nodes = byKey idKey nodes ∧ (nodes = [] → index.root = none) ∧
      (nodes ≠ [] → ∃ root, index.root = some root ∧
        Indexed index.nodes index.branches root 0 index.nodes.length) := by
  by_cases hempty : nodes = []
  · subst hempty
    exact ⟨_, new_nil, (perm_nil.mp (byKey_perm idKey [])).symm, fun _ => rfl, fun h => absurd rfl h⟩
  · obtain ⟨hpos, hrun⟩ := new_of_ne_nil hempty
    obtain ⟨more, root, hbuild, _, hindexed⟩ :=
      build_spec (byKey_pairwise idKey nodes) (Nat.sub_le _ 0) hpos (le_refl _) []
    rw [hrun, hbuild]
    exact ⟨_, rfl, rfl, fun h => absurd h hempty, fun _ => ⟨root, rfl, hindexed⟩⟩

lemma appendNearest_spec (hnew : new nodes = .ok index) (target : NodeId)
    (count : ℕ) (output : List NodeTuple) :
    ∃ visits, index.appendNearest target count output =
      .ok (output ++ (byKey (distanceKey target) nodes).take count, visits) := by
  obtain ⟨_, hindex, hnodes, hnil, hroot⟩ := new_spec nodes
  rw [hnew] at hindex
  cases hindex
  unfold appendNearest
  by_cases hempty : nodes = []
  · rw [hnil hempty, hempty]
    refine ⟨0, ?_⟩
    simp [byKey]
  · obtain ⟨root, hroot, hindexed⟩ := hroot hempty
    have hsorted : index.nodes.Pairwise fun a b => idKey a ≤ idKey b := by
      rw [hnodes]
      exact byKey_pairwise idKey nodes
    have hperm : index.nodes.Perm nodes := by
      rw [hnodes]
      exact byKey_perm idKey nodes
    obtain ⟨visits, hvisit⟩ := visit_spec hsorted hindexed target
      (output.length + min count index.nodes.length) (Nat.lt_succ_self root) output
    refine ⟨visits, ?_⟩
    have hall : nearest target index.nodes 0 index.nodes.length = byKey (distanceKey target) nodes := by
      unfold nearest segment
      rw [drop_zero, Nat.sub_zero, take_length]
      exact byKey_congr (distanceKey_injective target) hperm
    rw [hroot]
    dsimp only
    rw [hvisit, hall, Nat.add_sub_cancel_left, hperm.length_eq,
      ← (byKey_perm (distanceKey target) nodes).length_eq, ← take_take, take_length]

end PrefixIndex

end DhtCrawler
