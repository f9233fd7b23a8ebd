import DhtCrawler.CrawlHandlers
import DhtCrawler.RoutingNearest

/-! What a published snapshot answers, compared with the reservoir it was taken from. -/

namespace DhtCrawler.CrawlActor

open RoutingSnapshot Sorting List

/-- Every node that a snapshot answers was eligible when it was published in a run; if there is room for all
eligible nodes, the answer is that of a search through the reservoir. -/
theorem published_nearest {options : CrawlOptions} {σ : CrawlActor} (hσ : Reachable options σ) (now : Instant)
    (target : NodeId) (count : ℕ) (filterIpv6 : Option Bool) :
    ∃ σ' snapshot nodes, σ.publishSnapshot now = .ok σ' ∧
      fromNodes σ'.snapshot σ.config.routingSnapshotSize = .ok snapshot ∧
      snapshot.closestNodes target count filterIpv6 = .ok nodes ∧
      (∀ node ∈ nodes, node ∈ σ.responsive.eligibleNodes now) ∧
      ((σ.responsive.eligibleNodes now).length ≤ σ.config.routingSnapshotSize → nodes =
        bruteForce (σ.responsive.eligibleNodes now) σ.config.routingSnapshotSize target count filterIpv6) := by
  generalize hsize : σ.config.routingSnapshotSize = size
  obtain ⟨links, hrun⟩ := σ.responsive.snapshot_eq size now
  have hstratified := hσ.sound.reservoir.stratified size now
  generalize (σ.responsive.sample size now).output = published at hrun hstratified
  obtain ⟨snapshot, hsnapshot, -⟩ := fromNodes_spec (published.take size) size
  refine ⟨{ σ with
      responsive := σ.responsive.snapped size now links
      snapshot := published.take size }, snapshot, _, ?_, hsnapshot,
    closestNodes_spec hsnapshot target count filterIpv6, fun node hnode => ?_, fun hfits => ?_⟩
  · unfold publishSnapshot
    rw [hsize, hrun]
    rfl
  · unfold bruteForce at hnode
    rw [sort_closest] at hnode
    have hsorted := (byKey_perm _ _).mem_iff.mp (mem_of_mem_take hnode)
    have htaken := mem_of_mem_take (mem_of_mem_take (mem_filter.mp hsorted).1)
    exact hstratified.eligible.subset htaken
  · have hlength := hstratified.length.trans (min_eq_right hfits)
    have hperm := hstratified.eligible.perm_of_length_le hlength.ge
    unfold bruteForce
    rw [take_take, min_self, take_of_length_le (hlength.trans_le hfits), take_of_length_le hfits, sort_closest,
      sort_closest, byKey_congr (distanceKey_injective target) (hperm.filter _)]

theorem published_nearest_sample :
    ∃ σ σ' snapshot nodes, Reachable sampleOptions σ ∧ σ.sizes = (1, 1, 2) ∧ σ.publishSnapshot (secs 4) = .ok σ' ∧
      fromNodes σ'.snapshot σ.config.routingSnapshotSize = .ok snapshot ∧
      snapshot.closestNodes default 8 none = .ok nodes ∧ ∀ node ∈ nodes, node ∈ σ.responsive.eligibleNodes (secs 4) := by
  obtain ⟨σ, hσ, hsizes⟩ := sample_reachable
  obtain ⟨σ', snapshot, nodes, hrun, hbuilt, hnodes, heligible, _⟩ := published_nearest hσ (secs 4) default 8 none
  exact ⟨σ, σ', snapshot, nodes, hσ, hsizes, hrun, hbuilt, hnodes, heligible⟩

end DhtCrawler.CrawlActor
