import DhtCrawler.LibFiniteMap

/-! A table that is cleaned up by a queue of deadlines. The records whose time is over leave the front of the
queue, and the entry of such a record goes with it if it is dead. As the queue is in the order of the deadlines,
exactly the records that are over leave it, and an entry survives if none of its records that are over kills it. -/

namespace Expiry

open FiniteMap List

variable {T K V : Type} [LinearOrder T]

/-- The queue is in the order of its deadlines. -/
abbrev Sorted (queue : List (T × K)) : Prop := queue.Pairwise fun a b => a.1 ≤ b.1

lemma Sorted.append {queue : List (T × K)} (h : Sorted queue) {deadline : T} (hlast : ∀ record ∈ queue, record.1 ≤ deadline) (key : K) :
    Sorted (queue ++ [(deadline, key)]) := by
  refine pairwise_append.mpr ⟨h, pairwise_singleton _ _, fun record hrecord last hlast' => ?_⟩
  rw [mem_singleton.mp hlast']
  exact hlast record hrecord

lemma Sorted.live_of_head {now : T} {queue : List (T × K)} {record : T × K} (h : Sorted (record :: queue)) (hlive : now < record.1) :
    ∀ other ∈ record :: queue, now < other.1 := by
  intro other hmem
  rcases mem_cons.mp hmem with rfl | hmem
  · exact hlive
  · exact lt_of_lt_of_le hlive ((pairwise_cons.mp h).1 other hmem)

variable [DecidableEq K]

/-- The table and the queue once the records that are over have left it. -/
def sweep (dead : T × K → V → Bool) (now : T) (table : FiniteMap K V) :
    List (T × K) → FiniteMap K V × List (T × K)
  | [] => (table, [])
  | record :: rest =>
    if record.1 ≤ now then
      sweep dead now (if (table.get record.2).any (dead record) then table.erase record.2 else table) rest
    else (table, record :: rest)

variable {dead : T × K → V → Bool} {now : T} {table : FiniteMap K V} {queue : List (T × K)} {key : K} {value : V}

lemma sweep_queue (table : FiniteMap K V) (h : Sorted queue) :
    (sweep dead now table queue).2 = queue.filter fun record => now < record.1 := by
  induction queue generalizing table with
  | nil => rfl
  | cons record rest ih =>
    by_cases hover : record.1 ≤ now
    · rw [sweep, if_pos hover, ih _ (pairwise_cons.mp h).2, filter_cons_of_neg]
      rw [decide_eq_true_iff]
      exact not_lt.mpr hover
    · rw [sweep, if_neg hover]
      exact (filter_eq_self.mpr fun other hmem => decide_eq_true (h.live_of_head (not_le.mp hover) other hmem)).symm

lemma mem_sweep_queue (table : FiniteMap K V) (h : Sorted queue) {record : T × K} :
    record ∈ (sweep dead now table queue).2 ↔ record ∈ queue ∧ now < record.1 := by
  rw [sweep_queue table h, mem_filter, decide_eq_true_iff]

lemma sweep_get (table : FiniteMap K V) (h : Sorted queue) :
    (sweep dead now table queue).1.get key = some value ↔ table.get key = some value ∧
      ∀ record ∈ queue, record.2 = key → record.1 ≤ now → dead record value = false := by
  induction queue generalizing table with
  | nil => simp [sweep]
  | cons record rest ih =>
    unfold sweep
    split_ifs with hover hdead
    · -- the entry of the record is dead
      obtain ⟨old, hold, hdead⟩ := (Option.any_eq_true _ _).mp hdead
      rw [ih _ (pairwise_cons.mp h).2, forall_mem_cons, get_erase]
      by_cases hkey : key = record.2
      · rw [if_pos hkey, hkey, hold]
        refine iff_of_false (fun hnone => nomatch hnone.1) ?_
        rintro ⟨heq, hkept, -⟩
        rw [← Option.some.inj heq, hdead] at hkept
        exact nomatch hkept rfl hover
      · rw [if_neg hkey]
        exact and_congr_right fun _ => (and_iff_right fun heq => absurd heq.symm hkey).symm
    · rw [ih _ (pairwise_cons.mp h).2, forall_mem_cons]
      refine and_congr_right fun hget => (and_iff_right fun heq _ => ?_).symm
      rw [heq, hget] at hdead
      exact Bool.eq_false_iff.mpr hdead
    · refine (and_iff_left fun other hmem _ hle => ?_).symm
      exact absurd hle (not_le.mpr (h.live_of_head (not_le.mp hover) other hmem))

lemma sweep_len_le (table : FiniteMap K V) (h : Sorted queue) : (sweep dead now table queue).1.len ≤ table.len := by
  refine Finset.card_le_card fun key hkey => ?_
  obtain ⟨value, hvalue⟩ := mem_keys.mp hkey
  exact mem_keys_of_get ((sweep_get table h).mp hvalue).1

end Expiry
