import DhtCrawler.BaseTypes

/-! Transaction ids taken from a counter that starts at one, under a tag. -/

namespace DhtCrawler

def Numbered (tag : ℕ) : List TransactionId → Prop
  | [] => True
  | tid :: rest => tid = taggedTid tag (rest.length + 1) ∧ Numbered tag rest

namespace Numbered

variable {tag : ℕ} {tids : List TransactionId} {tid : TransactionId}

lemma exists_of_mem (h : Numbered tag tids) (hmem : tid ∈ tids) :
    ∃ n, 1 ≤ n ∧ n ≤ tids.length ∧ tid = taggedTid tag n := by
  induction tids with
  | nil => cases hmem
  | cons first rest ih =>
    rcases List.mem_cons.mp hmem with rfl | hmem
    · exact ⟨rest.length + 1, Nat.le_add_left 1 _, le_rfl, h.1⟩
    · obtain ⟨n, hpos, hle, htid⟩ := ih h.2 hmem
      exact ⟨n, hpos, hle.trans (Nat.le_succ _), htid⟩

lemma fresh (h : Numbered tag tids) (hlen : tids.length + 1 ≤ 2 ^ 56) :
    taggedTid tag (tids.length + 1) ∉ tids := by
  intro hmem
  obtain ⟨n, hpos, hle, htid⟩ := h.exists_of_mem hmem
  exact taggedTid_ne hpos (Nat.lt_succ_of_le hle) hlen htid

lemma nodup (h : Numbered tag tids) (hlen : tids.length ≤ 2 ^ 56) : tids.Nodup := by
  induction tids with
  | nil => exact List.nodup_nil
  | cons first rest ih =>
    refine List.nodup_cons.mpr ⟨?_, ih h.2 ((Nat.le_succ _).trans hlen)⟩
    rw [h.1]
    exact h.2.fresh hlen

end Numbered

lemma succ_counter {n : ℕ} (h : n + 1 < 2 ^ 64) : max (wrappingSucc n) 1 = n + 1 := by
  rw [wrappingSucc_of_lt h]
  exact Nat.max_eq_left (Nat.le_add_left 1 n)

end DhtCrawler
