import DhtCrawler.BudgetRules
import DhtCrawler.PoolRecent

/-! Who joins the queue of the node pool, and what an admission costs. -/

namespace DhtCrawler.NodePool

open List NodePool Except

variable {pool pool' : NodePool} {node : NodeTuple} {now : Instant} {outcome : AdmissionOutcome}

def Joined : AdmissionOutcome → Bool
  | .admitted => true
  | .replaced => true
  | .duplicate => false
  | .rateLimited => false
  | .invalid => false

/-- What an admission costs: a token of a warmed pool and nothing else. -/
structure Charged (now : Instant) (pool mid : NodePool) : Prop where
  queue : mid.queue = pool.queue
  queued : mid.queued = pool.queued
  capacity : mid.capacity = pool.capacity
  warmed : mid.warmed = pool.warmed
  budget : if pool.warmed then pool.replacementBudget.tryTakeOne now = (mid.replacementBudget, true)
    else mid.replacementBudget = pool.replacementBudget

/-- A node that does not join leaves the queue as it was; a token may have been asked for. -/
structure Rejected (now : Instant) (pool pool' : NodePool) : Prop where
  queue : pool'.queue = pool.queue
  queued : pool'.queued = pool.queued
  capacity : pool'.capacity = pool.capacity
  warmed : pool'.warmed = pool.warmed
  budget : pool'.replacementBudget = pool.replacementBudget ∨
    pool.warmed = true ∧ pool.replacementBudget.tryTakeOne now = (pool'.replacementBudget, false)

lemma expireRecent_frame (h : pool.expireRecent now = .ok pool') :
    pool' = { pool with recent := pool'.recent } := by
  unfold expireRecent at h
  split_ifs at h
  · obtain ⟨x, _, hx⟩ := bind_eq_ok.mp h
    cases hx
    rfl
  · cases h
    rfl

lemma joined_enqueue (pool : NodePool) (node : NodeTuple) (now : Instant) :
    Joined (pool.enqueue node now).2 = true := by
  unfold enqueue
  dsimp only
  split_ifs
  · rfl
  · rfl

lemma admitNode_cases (h : pool.admitNode node now = .ok (pool', outcome)) :
    Joined outcome = false ∧ Rejected now pool pool' ∨
      Joined outcome = true ∧ isValidNodeAddr node.addr = true ∧
        ∃ mid, Charged now pool mid ∧ pool' = (mid.enqueue node now).1 := by
  unfold admitNode at h
  split_ifs at h with hvalid
  · cases h
    exact .inl ⟨rfl, rfl, rfl, rfl, rfl, .inl rfl⟩
  have hvalid : isValidNodeAddr node.addr = true := (Bool.not_eq_false _).mp hvalid
  obtain ⟨mid, hexpire, h⟩ := bind_eq_ok.mp h
  have hframe := expireRecent_frame hexpire
  have hqueue : mid.queue = pool.queue := (congrArg NodePool.queue hframe :)
  have hqueued : mid.queued = pool.queued := (congrArg queued hframe :)
  have hcapacity : mid.capacity = pool.capacity := (congrArg NodePool.capacity hframe :)
  have hwarmed : mid.warmed = pool.warmed := (congrArg warmed hframe :)
  have hbudget : mid.replacementBudget = pool.replacementBudget :=
    (congrArg replacementBudget hframe :)
  dsimp only at h
  split_ifs at h with hduplicate hwarm htaken
  · cases h
    exact .inl ⟨rfl, hqueue, hqueued, hcapacity, hwarmed, .inl hbudget⟩
  · have hpair := ok.inj h
    refine .inr ⟨congrArg (fun x => Joined x.2) hpair ▸ joined_enqueue _ _ _, hvalid,
      { mid with replacementBudget := (mid.replacementBudget.tryTakeOne now).1 },
      ⟨hqueue, hqueued, hcapacity, hwarmed, ?_⟩, (congrArg Prod.fst hpair).symm⟩
    rw [← hwarmed, if_pos hwarm, ← hbudget]
    exact Prod.ext rfl htaken
  · cases h
    refine .inl ⟨rfl, hqueue, hqueued, hcapacity, hwarmed, .inr ⟨hwarmed ▸ hwarm, ?_⟩⟩
    rw [← hbudget]
    exact Prod.ext rfl (Bool.eq_false_iff.mpr htaken)
  · have hpair := ok.inj h
    refine .inr ⟨congrArg (fun x => Joined x.2) hpair ▸ joined_enqueue _ _ _, hvalid, mid,
      ⟨hqueue, hqueued, hcapacity, hwarmed, ?_⟩, (congrArg Prod.fst hpair).symm⟩
    rw [← hwarmed, if_neg hwarm]
    exact hbudget

/-! ### The queue -/

structure Stocked (pool : NodePool) : Prop where
  positive : 0 < pool.capacity
  room : pool.queue.length ≤ pool.capacity
  valid : ∀ a ∈ pool.waiting, isValidNodeAddr a = true
  full : pool.queue.length = pool.capacity → pool.warmed = true

lemma length_waiting (pool : NodePool) : pool.waiting.length = pool.queue.length := length_map _

lemma Stocked.same (h : Stocked pool) (hqueue : pool'.queue = pool.queue)
    (hcapacity : pool'.capacity = pool.capacity) (hwarmed : pool'.warmed = pool.warmed) : Stocked pool' := by
  refine ⟨hcapacity ▸ h.positive, ?_, ?_, ?_⟩
  · rw [hqueue, hcapacity]
    exact h.room
  · unfold waiting
    rw [hqueue]
    exact h.valid
  · rw [hqueue, hcapacity, hwarmed]
    exact h.full

lemma Stocked.drained (h : Stocked pool) (hdrained : Drained pool pool') : Stocked pool' := by
  obtain ⟨hcapacity, hrest⟩ := Prod.mk.inj hdrained.rules
  obtain ⟨hwarmed, _⟩ := Prod.mk.inj hrest
  have hlength := hdrained.waiting.length_le
  rw [length_waiting, length_waiting] at hlength
  have hroom := h.room
  refine ⟨hcapacity ▸ h.positive, hcapacity ▸ hlength.trans hroom,
    fun a ha => h.valid a (hdrained.waiting.subset ha), fun hfull => ?_⟩
  rw [hwarmed]
  refine h.full (le_antisymm hroom ?_)
  rw [← hcapacity, ← hfull]
  exact hlength

lemma enqueue_queue (pool : NodePool) (node : NodeTuple) (now : Instant) :
    (pool.enqueue node now).1.queue =
      (if pool.queue.length ≥ pool.capacity then pool.queue.tail else pool.queue) ++ [⟨node, now⟩] := by
  have hpop : pool.popFrontInternal.1.queue = pool.queue.tail := by
    unfold popFrontInternal
    cases hq : pool.queue with
    | nil => exact hq
    | cons q queue => rfl
  unfold enqueue replaceOldest pushBack
  split_ifs
  · show pool.popFrontInternal.1.queue ++ _ = _
    rw [hpop]
  · rfl

lemma enqueue_same (pool : NodePool) (node : NodeTuple) (now : Instant) :
    (pool.enqueue node now).1.capacity = pool.capacity ∧
      (pool.enqueue node now).1.replacementBudget = pool.replacementBudget ∧
      (pool.enqueue node now).1.warmed =
        (pool.warmed || decide ((pool.enqueue node now).1.queue.length ≥ pool.capacity)) := by
  have hpop : pool.popFrontInternal.1.capacity = pool.capacity ∧
      pool.popFrontInternal.1.replacementBudget = pool.replacementBudget ∧
      pool.popFrontInternal.1.warmed = pool.warmed := by
    unfold popFrontInternal
    cases pool.queue with
    | nil => exact ⟨rfl, rfl, rfl⟩
    | cons q queue => exact ⟨rfl, rfl, rfl⟩
  unfold enqueue replaceOldest pushBack
  split_ifs
  · dsimp only
    rw [hpop.1, hpop.2.1, hpop.2.2]
    exact ⟨rfl, rfl, rfl⟩
  · exact ⟨rfl, rfl, rfl⟩

lemma Stocked.enqueue (h : Stocked pool) (hvalid : isValidNodeAddr node.addr = true) (now : Instant) :
    Stocked (pool.enqueue node now).1 := by
  obtain ⟨hcapacity, _, hwarmed⟩ := pool.enqueue_same node now
  have hqueue := pool.enqueue_queue node now
  have hpositive := h.positive
  have hroom := h.room
  have hlength : (pool.enqueue node now).1.queue.length ≤ pool.capacity := by
    rw [hqueue, length_append, length_singleton]
    split_ifs with hfull
    · rw [length_tail]
      omega
    · omega
  refine ⟨hcapacity ▸ hpositive, hcapacity ▸ hlength, fun a ha => ?_, fun hfull => ?_⟩
  · unfold waiting at ha
    rw [hqueue, map_append] at ha
    rcases mem_append.mp ha with hold | hnew
    · refine h.valid a ?_
      unfold waiting
      split_ifs at hold
      · exact map_subset _ (tail_subset _) hold
      · exact hold
    · rw [map_singleton, mem_singleton] at hnew
      rw [hnew]
      exact hvalid
  · rw [hwarmed, decide_eq_true (hcapacity ▸ hfull.ge), Bool.or_true]

lemma Stocked.admission (h : Stocked pool) (hadmission : pool.admitNode node now = .ok (pool', outcome)) :
    Stocked pool' := by
  rcases admitNode_cases hadmission with ⟨_, hrejected⟩ | ⟨_, hvalid, mid, hcharged, rfl⟩
  · exact h.same hrejected.queue hrejected.capacity hrejected.warmed
  · have hmid : Stocked mid := h.same hcharged.queue hcharged.capacity hcharged.warmed
    exact hmid.enqueue hvalid now

lemma stocked_new (capacity replacementsPerMinute : ℕ) (recentTtl : Duration) (recentCapacity : ℕ)
    (now : Instant) : Stocked (new capacity replacementsPerMinute recentTtl recentCapacity now) := by
  have hpositive : 0 < max capacity 1 := Nat.lt_of_lt_of_le Nat.zero_lt_one (le_max_right _ _)
  exact ⟨hpositive, Nat.zero_le _, nofun, fun hfull => absurd hfull hpositive.ne⟩

/-! ### The replacement budget -/

variable {burst rate : ℚ} {log : List Instant}

lemma admitNode_conforms (h : pool.replacementBudget.Conforms burst rate log 0 now)
    (hwarmed : pool.warmed = true) (hadmission : pool.admitNode node now = .ok (pool', outcome)) :
    pool'.replacementBudget.Conforms burst rate (if Joined outcome then now :: log else log) 0 now ∧
      pool'.warmed = true := by
  rcases admitNode_cases hadmission with ⟨hout, hrejected⟩ | ⟨hin, _, mid, hcharged, rfl⟩
  · rw [hout, hrejected.warmed]
    refine ⟨?_, hwarmed⟩
    rcases hrejected.budget with hsame | ⟨_, htake⟩
    · rw [hsame]
      exact h
    · exact (h.tryTakeOne htake).1
  · obtain ⟨_, hbudget, hwarm⟩ := mid.enqueue_same node now
    have htake := hcharged.budget
    rw [if_pos hwarmed] at htake
    rw [hin, if_pos rfl, hbudget, hwarm, hcharged.warmed, hwarmed, Bool.true_or]
    exact ⟨(h.tryTakeOne htake).1.spend, rfl⟩

lemma admitNode_unwarmed (hwarmed : pool.warmed = false)
    (hadmission : pool.admitNode node now = .ok (pool', outcome)) :
    pool'.replacementBudget = pool.replacementBudget := by
  rcases admitNode_cases hadmission with ⟨_, hrejected⟩ | ⟨_, _, mid, hcharged, rfl⟩
  · refine hrejected.budget.resolve_right fun hwarm => ?_
    rw [hwarmed] at hwarm
    cases hwarm.1
  · have hbudget := hcharged.budget
    rw [hwarmed] at hbudget
    exact (mid.enqueue_same node now).2.1.trans hbudget

def admitEach (pool : NodePool) (nodes : List NodeTuple) (now : Instant) :
    Except Panic (NodePool × List AdmissionOutcome) :=
  nodes.foldlM (fun x node => do
    let (pool, outcome) ← x.1.admitNode node now
    .ok (pool, outcome :: x.2)) (pool, [])

def joinTimes (log : List (Instant × AdmissionOutcome)) : List Instant :=
  (log.filter fun entry => Joined entry.2).map Prod.fst

lemma joinTimes_append (log log' : List (Instant × AdmissionOutcome)) :
    joinTimes (log ++ log') = joinTimes log ++ joinTimes log' := by
  unfold joinTimes
  rw [filter_append, map_append]

lemma joinTimes_cons (outcome : AdmissionOutcome) (log : List (Instant × AdmissionOutcome)) :
    joinTimes ((now, outcome) :: log) = if Joined outcome then now :: joinTimes log else joinTimes log := by
  unfold joinTimes
  rw [filter_cons]
  split_ifs
  · rfl
  · rfl

lemma admitEach_conforms {nodes : List NodeTuple} {outcomes : List AdmissionOutcome}
    (h : pool.replacementBudget.Conforms burst rate log 0 now) (hwarmed : pool.warmed = true)
    (hrun : pool.admitEach nodes now = .ok (pool', outcomes)) :
    pool'.replacementBudget.Conforms burst rate (joinTimes (outcomes.map fun outcome => (now, outcome)) ++ log) 0
      now ∧ pool'.warmed = true := by
  have hfold : Safe (fun _ => True) (pool.admitEach nodes now) fun x =>
      x.1.replacementBudget.Conforms burst rate (joinTimes (x.2.map fun outcome => (now, outcome)) ++ log) 0 now ∧
        x.1.warmed = true := by
    refine safe_foldlM (fun x node _ hx => ?_) ⟨h, hwarmed⟩
    cases hadmission : x.1.admitNode node now with
    | error panic => trivial
    | ok y =>
      obtain ⟨hconforms, hwarm⟩ := admitNode_conforms hx.1 hx.2 hadmission
      refine ⟨?_, hwarm⟩
      rw [map_cons, joinTimes_cons]
      split_ifs at hconforms ⊢
      · exact hconforms
      · exact hconforms
  exact hfold.of_ok hrun

end DhtCrawler.NodePool
