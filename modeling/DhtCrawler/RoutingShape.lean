import Mathlib.Data.List.SplitBy
import DhtCrawler.RoutingTrie

/-! The shape of the trie of the routing snapshot. -/

set_option linter.constructorNameAsVariable false

namespace DhtCrawler

open BigEndian Sorting List Finset

variable {path : List ℕ}

def idBit (id : NodeId) (bit : ℕ) : Bool := !bitClear (byteAt id (bit / 8)) bit

lemma idBit_eq (id : NodeId) {bit : ℕ} (hbit : bit < 160) : idBit id bit = (idValue id).testBit (159 - bit) := by
  rw [idBit, bitClear_byteAt id hbit, Bool.not_not]

inductive PrefixTree where
  | leaf (run : List NodeTuple)
  | split (bit : ℕ) (zero one : PrefixTree)

namespace PrefixTree

def leaves : PrefixTree → List (List NodeTuple)
  | leaf run => [run]
  | split _ zero one => zero.leaves ++ one.leaves

def nodes (tree : PrefixTree) : List NodeTuple := tree.leaves.flatten

def size : PrefixTree → ℕ
  | leaf _ => 1
  | split _ zero one => zero.size + one.size + 1

def paths : PrefixTree → List (List ℕ)
  | leaf _ => [[]]
  | split bit zero one => (zero.paths ++ one.paths).map (bit :: ·)

def Agree (tree : PrefixTree) (bit : ℕ) : Prop :=
  ∀ x ∈ tree.nodes, ∀ y ∈ tree.nodes, ∀ i < bit, idBit x.id i = idBit y.id i

def Patricia : PrefixTree → Prop
  | leaf run => run ≠ [] ∧ ∀ x ∈ run, ∀ y ∈ run, x.id = y.id
  | split bit zero one => bit < 160 ∧ (split bit zero one).Agree bit ∧ (∀ x ∈ zero.nodes, idBit x.id bit = false) ∧
      (∀ x ∈ one.nodes, idBit x.id bit = true) ∧ zero.Patricia ∧ one.Patricia

variable {tree zero one : PrefixTree} {bit : ℕ}

lemma nodes_split (bit : ℕ) (zero one : PrefixTree) : (split bit zero one).nodes = zero.nodes ++ one.nodes :=
  flatten_append

lemma Patricia.nodes_ne_nil (h : tree.Patricia) : tree.nodes ≠ [] := by
  induction tree with
  | leaf run => simpa [nodes, leaves] using h.1
  | split bit zero one ihzero _ =>
    rw [nodes_split]
    exact append_ne_nil_of_left_ne_nil (ihzero h.2.2.2.2.1) _

lemma size_add_one (tree : PrefixTree) : tree.size + 1 = 2 * tree.leaves.length := by
  induction tree with
  | leaf run => rfl
  | split bit zero one ihzero ihone =>
    rw [size, leaves, length_append]
    omega

/-! ### Leaves -/

lemma Patricia.id_ne (h : (split bit zero one).Patricia) {x y : NodeTuple} (hx : x ∈ zero.nodes)
    (hy : y ∈ one.nodes) : x.id ≠ y.id := by
  intro hid
  have hzero := h.2.2.1 x hx
  rw [hid, h.2.2.2.1 y hy] at hzero
  cases hzero

lemma Patricia.card_ids (h : tree.Patricia) : (tree.nodes.map (·.id)).toFinset.card = tree.leaves.length := by
  induction tree with
  | leaf run =>
    obtain ⟨hne, hsame⟩ := h
    obtain ⟨x, hx⟩ := exists_mem_of_ne_nil run hne
    have hids : ((leaf run).nodes.map (·.id)).toFinset = {x.id} := by
      refine eq_singleton_iff_unique_mem.mpr ⟨by simpa [nodes, leaves] using ⟨x, hx, rfl⟩, fun id hid => ?_⟩
      obtain ⟨y, hy, rfl⟩ : ∃ y ∈ run, y.id = id := by simpa [nodes, leaves] using hid
      exact hsame y hy x hx
    rw [hids]
    rfl
  | split bit zero one ihzero ihone =>
    have hdisjoint : Disjoint (zero.nodes.map (·.id)).toFinset (one.nodes.map (·.id)).toFinset := by
      refine Finset.disjoint_left.mpr fun id hzero hone => ?_
      obtain ⟨x, hx, rfl⟩ := mem_map.mp (mem_toFinset.mp hzero)
      obtain ⟨y, hy, hid⟩ := mem_map.mp (mem_toFinset.mp hone)
      exact h.id_ne hx hy hid.symm
    rw [nodes_split, map_append, toFinset_append, card_union_of_disjoint hdisjoint,
      ihzero h.2.2.2.2.1, ihone h.2.2.2.2.2, leaves, length_append]

lemma Patricia.of_mem_leaves (h : tree.Patricia) {run : List NodeTuple} (hrun : run ∈ tree.leaves) :
    (leaf run).Patricia := by
  induction tree with
  | leaf run' => exact List.mem_singleton.mp hrun ▸ h
  | split bit zero one ihzero ihone =>
    rcases mem_append.mp hrun with hrun | hrun
    · exact ihzero h.2.2.2.2.1 hrun
    · exact ihone h.2.2.2.2.2 hrun

lemma Patricia.leaves_pairwise (h : tree.Patricia) :
    tree.leaves.Pairwise fun a b => ∀ x ∈ a, ∀ y ∈ b, x.id ≠ y.id := by
  induction tree with
  | leaf run => exact pairwise_singleton _ _
  | split bit zero one ihzero ihone =>
    refine pairwise_append.mpr ⟨ihzero h.2.2.2.2.1, ihone h.2.2.2.2.2, fun a ha b hb x hx y hy => ?_⟩
    exact h.id_ne (mem_flatten.mpr ⟨a, ha, hx⟩) (mem_flatten.mpr ⟨b, hb, hy⟩)

lemma Patricia.leaves_eq (h : tree.Patricia) : tree.leaves = tree.nodes.splitBy fun a b => a.id == b.id := by
  refine (splitBy_flatten (fun hnil => (h.of_mem_leaves hnil).1 rfl) (fun run hrun => ?_) ?_).symm
  · refine Pairwise.isChain ((pairwise_iff_forall_sublist).mpr fun {x y} hsub => ?_)
    have hmem := hsub.subset
    simpa using (h.of_mem_leaves hrun).2 x (hmem (by simp)) y (hmem (by simp))
  · refine Pairwise.isChain (h.leaves_pairwise.imp_of_mem fun {a b} ha hb hne => ?_)
    refine ⟨(h.of_mem_leaves ha).1, (h.of_mem_leaves hb).1, ?_⟩
    simpa using hne _ (getLast_mem _) _ (head_mem _)

/-! ### Paths -/

lemma Patricia.le_of_agree (h : tree.Patricia) {first : ℕ} (hagree : tree.Agree first)
    (hpath : path ∈ tree.paths) : ∀ bit ∈ path, first ≤ bit := by
  induction tree generalizing path with
  | leaf run =>
    rw [List.mem_singleton.mp hpath]
    exact nofun
  | split bit zero one ihzero ihone =>
    have hsub : zero.nodes ⊆ (split bit zero one).nodes ∧ one.nodes ⊆ (split bit zero one).nodes := by
      simp [nodes_split]
    obtain ⟨rest, hrest, rfl⟩ := mem_map.mp hpath
    have hbit : first ≤ bit := by
      obtain ⟨x, hx⟩ := exists_mem_of_ne_nil _ h.2.2.2.2.1.nodes_ne_nil
      obtain ⟨y, hy⟩ := exists_mem_of_ne_nil _ h.2.2.2.2.2.nodes_ne_nil
      refine not_lt.mp fun hlt => ?_
      have hsame := hagree x (hsub.1 hx) y (hsub.2 hy) bit hlt
      rw [h.2.2.1 x hx, h.2.2.2.1 y hy] at hsame
      cases hsame
    have hbelow : ∀ later ∈ rest, first ≤ later := by
      rcases mem_append.mp hrest with hrest | hrest
      · exact ihzero h.2.2.2.2.1 (fun x hx y hy => hagree x (hsub.1 hx) y (hsub.1 hy)) hrest
      · exact ihone h.2.2.2.2.2 (fun x hx y hy => hagree x (hsub.2 hx) y (hsub.2 hy)) hrest
    exact forall_mem_cons.mpr ⟨hbit, hbelow⟩

lemma Patricia.side_agree (h : (split bit zero one).Patricia) : zero.Agree (bit + 1) ∧ one.Agree (bit + 1) := by
  obtain ⟨_, hagree, hzeros, hones, _⟩ := h
  rw [Agree, nodes_split] at hagree
  refine ⟨fun x hx y hy i hi => ?_, fun x hx y hy i hi => ?_⟩
  · rcases Nat.lt_succ_iff_lt_or_eq.mp hi with hi | rfl
    · exact hagree x (mem_append_left _ hx) y (mem_append_left _ hy) i hi
    · rw [hzeros x hx, hzeros y hy]
  · rcases Nat.lt_succ_iff_lt_or_eq.mp hi with hi | rfl
    · exact hagree x (mem_append_right _ hx) y (mem_append_right _ hy) i hi
    · rw [hones x hx, hones y hy]

lemma Patricia.path_sorted (h : tree.Patricia) (hpath : path ∈ tree.paths) :
    path.Pairwise (· < ·) ∧ ∀ bit ∈ path, bit < 160 := by
  induction tree generalizing path with
  | leaf run =>
    rw [List.mem_singleton.mp hpath]
    exact ⟨.nil, nofun⟩
  | split bit zero one ihzero ihone =>
    obtain ⟨rest, hrest, rfl⟩ := mem_map.mp hpath
    have hbelow : (rest.Pairwise (· < ·) ∧ ∀ later ∈ rest, later < 160) ∧ ∀ later ∈ rest, bit < later := by
      rcases mem_append.mp hrest with hrest | hrest
      · exact ⟨ihzero h.2.2.2.2.1 hrest, h.2.2.2.2.1.le_of_agree h.side_agree.1 hrest⟩
      · exact ⟨ihone h.2.2.2.2.2 hrest, h.2.2.2.2.2.le_of_agree h.side_agree.2 hrest⟩
    exact ⟨pairwise_cons.mpr ⟨hbelow.2, hbelow.1.1⟩, forall_mem_cons.mpr ⟨h.1, hbelow.1.2⟩⟩

lemma Patricia.path_length (h : tree.Patricia) (hpath : path ∈ tree.paths) : path.length ≤ 160 := by
  obtain ⟨hsorted, hlt⟩ := h.path_sorted hpath
  have hnodup : path.Nodup := hsorted.imp fun hab => hab.ne
  calc path.length = path.toFinset.card := (toFinset_card_of_nodup hnodup).symm
    _ ≤ (Finset.range 160).card := card_le_card fun bit hbit => by simpa using hlt bit (by simpa using hbit)
    _ = 160 := card_range 160

end PrefixTree

/-! ### The construction -/

inductive Represents (nodes : List NodeTuple) (branches : List PrefixBranch) : ℕ → PrefixTree → Prop where
  | leaf {branch start stop} (hbranch : branches[branch]? = some (.leaf start stop)) :
      Represents nodes branches branch (.leaf (segment nodes start stop))
  | split {branch bit zero one left right}
      (hbranch : branches[branch]? = some (.split bit zero one)) (hzero : Represents nodes branches zero left)
      (hone : Represents nodes branches one right) : Represents nodes branches branch (.split bit left right)

variable {nodes : List NodeTuple} {branches : List PrefixBranch} {branch bit start middle stop : ℕ}
  {tree left right : PrefixTree}

lemma Represents.append (h : Represents nodes branches branch tree) (more : List PrefixBranch) :
    Represents nodes (branches ++ more) branch tree := by
  have hkeep : ∀ {i : ℕ} {b : PrefixBranch}, branches[i]? = some b → (branches ++ more)[i]? = some b := by
    intro i b hi
    rw [List.getElem?_append_left (List.getElem?_eq_some_iff.mp hi).1]
    exact hi
  induction h with
  | leaf hbranch => exact .leaf (hkeep hbranch)
  | split hbranch _ _ ihzero ihone => exact .split (hkeep hbranch) ihzero ihone

lemma PrefixTree.patricia_split (hbit : bit < 160)
    (hpart : ∀ x ∈ left.nodes, ∀ y ∈ right.nodes, PartAt (159 - bit) (idValue x.id) (idValue y.id))
    (hleft : left.Patricia) (hright : right.Patricia) : (split bit left right).Patricia := by
  obtain ⟨a, ha⟩ := exists_mem_of_ne_nil _ hleft.nodes_ne_nil
  obtain ⟨b, hb⟩ := exists_mem_of_ne_nil _ hright.nodes_ne_nil
  -- every id agrees with one on the other side, and so with all of them
  have habove : ∀ x ∈ (split bit left right).nodes, ∀ i < bit, idBit x.id i = idBit a.id i := by
    intro x hx i hi
    rw [idBit_eq _ (hi.trans hbit), idBit_eq _ (hi.trans hbit)]
    rw [nodes_split] at hx
    rcases mem_append.mp hx with hx | hx
    · rw [(hpart x hx b hb).above _ (by omega), (hpart a ha b hb).above _ (by omega)]
    · exact ((hpart a ha x hx).above _ (by omega)).symm
  refine ⟨hbit, fun x hx y hy i hi => (habove x hx i hi).trans (habove y hy i hi).symm, fun x hx => ?_, fun y hy => ?_,
    hleft, hright⟩
  · rw [idBit_eq _ hbit]
    exact (hpart x hx b hb).zero
  · rw [idBit_eq _ hbit]
    exact (hpart a ha y hy).one

namespace PrefixIndex

lemma build_tree (hsorted : nodes.Pairwise fun a b => idKey a ≤ idKey b) {fuel : ℕ}
    (hfuel : stop - start ≤ fuel) (hlt : start < stop) (hstop : stop ≤ nodes.length)
    (branches : List PrefixBranch) :
    ∃ more branch tree, build nodes fuel start stop branches = .ok (branches ++ more, branch) ∧
      more.length = tree.size ∧ Represents nodes (branches ++ more) branch tree ∧
      tree.nodes = segment nodes start stop ∧ tree.Patricia := by
  induction fuel generalizing start stop branches with
  | zero => omega
  | succ fuel ih =>
    rcases build_cases hsorted hlt hstop fuel branches with
      ⟨hrun, hsame⟩ | ⟨bit, middle, hbit, hleft, hright, hpart, hrun⟩
    · have hne : segment nodes start stop ≠ [] := by
        rw [← length_pos_iff, length_segment hstop]
        omega
      exact ⟨[.leaf start stop], branches.length, .leaf (segment nodes start stop), hrun, rfl, .leaf (by simp),
        append_nil _, hne, hsame⟩
    · obtain ⟨more, zero, left, hzero, hzsize, hztree, hznodes, hzero'⟩ :=
        ih (by omega) hleft (hright.le.trans hstop) branches
      obtain ⟨more', one, right, hone, hosize, hotree, honodes, hone'⟩ :=
        ih (by omega) hright hstop (branches ++ more)
      refine ⟨more ++ more' ++ [.split bit zero one], (branches ++ more ++ more').length, .split bit left right,
        ?_, ?_, ?_, ?_, ?_⟩
      · rw [hrun, hzero, Except.ok_bind]
        dsimp only
        rw [hone, Except.ok_bind]
        simp only [append_assoc]
      · simp [PrefixTree.size, hzsize, hosize, Nat.add_assoc]
      · simp only [← append_assoc]
        exact .split getElem?_concat_length ((hztree.append more').append _) (hotree.append _)
      · rw [PrefixTree.nodes_split, hznodes, honodes, segment_append hleft.le hright.le]
      · rw [← hznodes, ← honodes] at hpart
        exact PrefixTree.patricia_split hbit hpart hzero' hone'

/-- The construction always ends, each of its calls with a leaf or with two calls on smaller ranges that are not
empty. -/
theorem new_shape (nodes : List NodeTuple) :
    ∃ index, new nodes = .ok index ∧ index.nodes = sortUnstableBy idAddrCmp nodes ∧ index.nodes.Perm nodes ∧
      (∀ start stop, start < stop → stop ≤ index.nodes.length → ∀ fuel branches,
        build index.nodes (fuel + 1) start stop branches = .ok (branches ++ [.leaf start stop], branches.length) ∨
        ∃ bit middle, start < middle ∧ middle < stop ∧ build index.nodes (fuel + 1) start stop branches = (do
          let (branches, zero) ← build index.nodes fuel start middle branches
          let (branches, one) ← build index.nodes fuel middle stop branches
          .ok (branches ++ [.split bit zero one], branches.length))) ∧
      (nodes = [] → index.branches = [] ∧ index.root = none) ∧
      (nodes ≠ [] → index.branches.length = 2 * (nodes.map (·.id)).toFinset.card - 1 ∧
        ∃ root tree, index.root = some root ∧ Represents index.nodes index.branches root tree ∧
          index.branches.length = tree.size ∧ tree.leaves = index.nodes.splitBy (fun a b => a.id == b.id) ∧
          tree.Patricia ∧ ∀ path ∈ tree.paths, path.Pairwise (· < ·) ∧ path.length ≤ 160) := by
  have hperm := byKey_perm idKey nodes
  rw [sort_idAddr]
  by_cases hempty : nodes = []
  · subst hempty
    exact ⟨_, new_nil, (perm_nil.mp hperm).symm, .nil,
      fun start stop hlt hstop => absurd (hlt.trans_le hstop) (Nat.not_lt_zero _),
      fun _ => ⟨rfl, rfl⟩, fun h => absurd rfl h⟩
  · obtain ⟨hpos, hrun⟩ := new_of_ne_nil hempty
    obtain ⟨more, root, tree, hbuild, hsize, htree, hnodes, hpatricia⟩ :=
      build_tree (byKey_pairwise idKey nodes) (Nat.sub_le _ 0) hpos (le_refl _) []
    have hall : tree.nodes = byKey idKey nodes := by
      rw [hnodes, segment, drop_zero, Nat.sub_zero, take_length]
    have hids : (tree.nodes.map (·.id)).toFinset = (nodes.map (·.id)).toFinset := by
      rw [hall]
      exact toFinset_eq_of_perm _ _ (hperm.map _)
    have hcount : tree.size = 2 * (nodes.map (·.id)).toFinset.card - 1 := by
      have := tree.size_add_one
      rw [← hids, hpatricia.card_ids]
      omega
    rw [hrun, hbuild]
    refine ⟨_, rfl, rfl, hperm, fun start stop hlt hstop fuel branches => ?_, fun h => absurd h hempty, fun _ =>
      ⟨hsize.trans hcount, root, tree, rfl, htree, hsize, hall ▸ hpatricia.leaves_eq, hpatricia,
        fun path hpath => ⟨(hpatricia.path_sorted hpath).1, hpatricia.path_length hpath⟩⟩⟩
    rcases build_cases (byKey_pairwise idKey nodes) hlt hstop fuel branches with
      ⟨hleaf, -⟩ | ⟨bit, middle, -, hleft, hright, -, hsplit⟩
    · exact .inl hleaf
    · exact .inr ⟨bit, middle, hleft, hright, hsplit⟩

end PrefixIndex

end DhtCrawler
