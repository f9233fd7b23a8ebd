import DhtCrawler.RoutingTrie

/-! The nearest nodes of a routing snapshot are those of a search through all of its nodes. -/

namespace DhtCrawler.RoutingSnapshot

open Sorting List PrefixIndex

def inFamily (filterIpv6 : Option Bool) (node : NodeTuple) : Bool :=
  match filterIpv6 with
  | some ipv6 => node.addr.isIpv6 == ipv6
  | none => true

def bruteForce (nodes : List NodeTuple) (limit : ℕ) (target : NodeId) (count : ℕ)
    (filterIpv6 : Option Bool) : List NodeTuple :=
  (sortUnstableBy (closestCmp target) ((nodes.take limit).filter (inFamily filterIpv6))).take count

lemma new_nil : PrefixIndex.new [] = .ok .empty := by
  unfold PrefixIndex.new
  rw [sort_idAddr, perm_nil.mp (byKey_perm idKey [])]
  rfl

lemma fromNodes_spec (nodes : List NodeTuple) (limit : ℕ) :
    ∃ snapshot, fromNodes nodes limit = .ok snapshot ∧
      PrefixIndex.new ((nodes.take limit).filter fun node => !node.addr.isIpv6) = .ok snapshot.v4 ∧
      PrefixIndex.new ((nodes.take limit).filter fun node => node.addr.isIpv6) = .ok snapshot.v6 := by
  unfold fromNodes
  dsimp only
  generalize nodes.take limit = nodes
  split_ifs with hnone hall
  · have hv6 : ∀ node ∈ nodes, ¬node.addr.isIpv6 = true := countP_eq_zero.mp hnone
    obtain ⟨v4, hv4, _⟩ := new_spec nodes
    refine ⟨⟨v4, .empty⟩, by rw [hv4]; rfl, ?_, ?_⟩
    · rw [filter_eq_self.mpr fun node hnode => by simpa using hv6 node hnode, hv4]
    · rw [filter_eq_nil_iff.mpr hv6, new_nil]
  · have hv6 : ∀ node ∈ nodes, node.addr.isIpv6 = true := countP_eq_length.mp hall
    obtain ⟨v6, hv6', _⟩ := new_spec nodes
    refine ⟨⟨.empty, v6⟩, by rw [hv6']; rfl, ?_, ?_⟩
    · rw [filter_eq_nil_iff.mpr fun node hnode => by simpa using hv6 node hnode, new_nil]
    · rw [filter_eq_self.mpr hv6, hv6']
  · obtain ⟨v4, hv4, _⟩ := new_spec (nodes.filter fun node => !node.addr.isIpv6)
    obtain ⟨v6, hv6, _⟩ := new_spec (nodes.filter fun node => node.addr.isIpv6)
    exact ⟨⟨v4, v6⟩, by rw [hv4, hv6]; rfl, hv4, hv6⟩

lemma closestNodes_spec {nodes : List NodeTuple} {limit : ℕ} {snapshot : RoutingSnapshot}
    (hsnapshot : fromNodes nodes limit = .ok snapshot) (target : NodeId) (count : ℕ) (filterIpv6 : Option Bool) :
    snapshot.closestNodes target count filterIpv6 = .ok (bruteForce nodes limit target count filterIpv6) := by
  obtain ⟨snapshot', hsnapshot', hv4, hv6⟩ := fromNodes_spec nodes limit
  rw [hsnapshot] at hsnapshot'
  cases hsnapshot'
  unfold closestNodes bruteForce
  rw [sort_closest]
  generalize nodes.take limit = nodes at hv4 hv6 ⊢
  by_cases hcount : count = 0
  · rw [if_pos hcount, hcount, take_zero]
  rw [if_neg hcount]
  match filterIpv6 with
  | some true =>
    obtain ⟨_, h⟩ := appendNearest_spec hv6 target count []
    have hfamily : nodes.filter (inFamily (some true)) = nodes.filter fun node => node.addr.isIpv6 :=
      filter_congr fun node _ => by simp [inFamily]
    rw [h, nil_append, hfamily]
    rfl
  | some false =>
    obtain ⟨_, h⟩ := appendNearest_spec hv4 target count []
    have hfamily : nodes.filter (inFamily (some false)) = nodes.filter fun node => !node.addr.isIpv6 :=
      filter_congr fun node _ => by simp [inFamily]
    rw [h, nil_append, hfamily]
    rfl
  | none =>
    obtain ⟨_, h4⟩ := appendNearest_spec hv4 target count []
    rw [nil_append] at h4
    obtain ⟨_, h6⟩ := appendNearest_spec hv6 target count
      ((byKey (distanceKey target) (nodes.filter fun node => !node.addr.isIpv6)).take count)
    have hall : nodes.filter (inFamily none) = nodes := filter_eq_self.mpr fun _ _ => rfl
    have hperm : ((nodes.filter fun node => !node.addr.isIpv6) ++
        nodes.filter fun node => node.addr.isIpv6).Perm nodes :=
      perm_append_comm.trans (filter_append_perm _ nodes)
    dsimp only
    rw [h4, Except.ok_bind]
    dsimp only
    rw [h6, Except.ok_bind]
    -- the winners of each family are enough for the winners of both
    rw [sort_closest, take_byKey_append (distanceKey_injective target),
      byKey_congr (distanceKey_injective target) hperm, hall]

/-- Nearest nodes are the nearest in a search through all nodes, whatever the nodes, ids and families. -/
theorem closestNodes_eq_bruteForce (nodes : List NodeTuple) (limit : ℕ) (target : NodeId) (count : ℕ)
    (filterIpv6 : Option Bool) :
    ∃ snapshot, fromNodes nodes limit = .ok snapshot ∧ snapshot.closestNodes target count filterIpv6 =
        .ok (bruteForce nodes limit target count filterIpv6) := by
  obtain ⟨snapshot, hsnapshot, _⟩ := fromNodes_spec nodes limit
  exact ⟨snapshot, hsnapshot, closestNodes_spec hsnapshot target count filterIpv6⟩

end DhtCrawler.RoutingSnapshot
