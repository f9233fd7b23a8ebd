import Mathlib.Algebra.BigOperators.Ring.Finset
import DhtCrawler.LimiterModel
import DhtCrawler.BudgetRules

/-! The response limiters of all workers together keep to the configured rates. -/

namespace DhtCrawler

open Meter List Finset Nat

/-! ### Quotas -/

lemma reserveQuota_le (total : ℕ) : reserveQuota total ≤ total := by
  unfold reserveQuota
  split_ifs
  · exact Nat.zero_le _
  · exact min_le_right _ _

def share (total workers worker : ℕ) : ℕ := total / workers + if worker < total % workers then 1 else 0

lemma sum_share {workers : ℕ} (hworkers : 1 ≤ workers) (total : ℕ) :
    ∑ worker ∈ range workers, share total workers worker = total := by
  have hlt : total % workers < workers := mod_lt _ hworkers
  have hextra : ∑ worker ∈ range workers, (if worker < total % workers then 1 else 0) =
      total % workers := by
    have hfilter : (Finset.range workers).filter (· < total % workers) = Finset.range (total % workers) := by
      ext worker
      simp only [Finset.mem_filter, Finset.mem_range]
      omega
    rw [sum_boole, hfilter, card_range]
    rfl
  unfold share
  rw [sum_add_distrib, hextra, sum_const, card_range, nsmul_eq_mul, cast_id]
  exact div_add_mod total workers

lemma splitU32Quota_eq_share {workers worker : ℕ} (hworkers : 1 ≤ workers) (hlimit : workers < 2 ^ 32)
    (hworker : worker < workers) (total : ℕ) :
    splitU32Quota total workers worker = .ok (share total workers worker) := by
  unfold splitU32Quota share
  rw [max_eq_left hworkers, mod_eq_of_lt hlimit, mod_eq_of_lt (hworker.trans hlimit),
    if_neg (one_le_iff_ne_zero.mp hworkers)]

/-! ### Buckets that are not charged -/

namespace RateBucket

variable {b b' : RateBucket} {burst rate : ℚ} {log : List Instant} {now : Instant}

def Idle (now : Instant) (b b' : RateBucket) : Prop := b' = b ∨ b' = b.refill now

lemma Idle.refl (now : Instant) (b : RateBucket) : Idle now b b := .inl rfl

lemma Idle.refill_eq (h : b.Conforms burst rate log 0 now) (hidle : Idle now b b') {later : Instant}
    (hlater : now ≤ later) : b'.refill later = (b.refill now).refill later := by
  have hcap := h.tokens_le
  rw [cast_zero, add_zero] at hcap
  rcases hidle with rfl | rfl
  · rw [refill_refill h.rate_nonneg hcap h.last_le hlater]
  · rfl

lemma Conforms.idle (h : b.Conforms burst rate log 0 now) (hidle : Idle now b b') :
    b'.Conforms burst rate log 0 now := by
  rcases hidle with rfl | rfl
  · exact h
  · exact h.refill

lemma idle_of_refused {count : ℕ} (h : b.tryTakeExact count now = (b', false)) : Idle now b b' := by
  unfold tryTakeExact at h
  split_ifs at h
  · cases h
  · cases h
    exact .inl rfl
  · dsimp only at h
    split_ifs at h
    · cases h
      exact .inr rfl
    · cases h

lemma idle_of_refund (hb : b.Conforms burst rate log 0 now) {count : ℕ}
    (h : b.tryTakeExact count now = (b', true)) : Idle now b (b'.refund count) := by
  unfold tryTakeExact at h
  split_ifs at h with hcount
  · cases h
    subst hcount
    have hcap := hb.tokens_le
    refine .inl (RateBucket.ext rfl rfl ?_ rfl)
    unfold refund
    rw [min_eq_left hcap, cast_zero, add_zero]
  · cases h
  · dsimp only at h
    split_ifs at h
    · cases h
    · cases h
      have hcap := hb.refill.tokens_le
      rw [cast_zero, add_zero] at hcap
      refine .inr (RateBucket.ext rfl rfl ?_ rfl)
      unfold refund
      rw [sub_add_cancel, min_eq_left hcap]

end RateBucket

namespace WorkerResponseLimiter

open RateBucket

variable {l l' l₀ : WorkerResponseLimiter} {now : Instant} {encodedLen : ℕ}

/-! ### What a call does to the buckets -/

structure SameBuckets (l l' : WorkerResponseLimiter) : Prop where
  regularPackets : l'.regularPackets = l.regularPackets
  regularBytes : l'.regularBytes = l.regularBytes
  priorityPackets : l'.priorityPackets = l.priorityPackets
  priorityBytes : l'.priorityBytes = l.priorityBytes

lemma expireSources_same (l : WorkerResponseLimiter) (now : Instant) : SameBuckets l (l.expireSources now) :=
  ⟨rfl, rfl, rfl, rfl⟩

lemma acquireSourceSlot_same (l : WorkerResponseLimiter) (addr : SocketAddr) (now : Instant) :
    SameBuckets l (l.acquireSourceSlot addr now).1 := by
  unfold acquireSourceSlot
  dsimp only
  split_ifs <;> exact ⟨rfl, rfl, rfl, rfl⟩

variable {packets bytes packets' bytes' : RateBucket} {burst burst' rate rate' : ℚ} {log log' : List Instant}

lemma takeBudget_spec {taken : Bool} (hpackets : packets.Conforms burst rate log 0 now)
    (h : takeBudget packets bytes encodedLen now = (packets', bytes', taken)) :
    (taken = true ∧ packets.tryTakeExact 1 now = (packets', true) ∧
      bytes.tryTakeExact encodedLen now = (bytes', true)) ∨
    (taken = false ∧ Idle now packets packets' ∧ Idle now bytes bytes') := by
  unfold takeBudget RateBucket.tryTakeOne at h
  cases hone : packets.tryTakeExact 1 now with
  | mk packets₁ paid =>
    rw [hone] at h
    cases paid with
    | false =>
      cases h
      exact .inr ⟨rfl, idle_of_refused hone, .refl _ _⟩
    | true =>
      cases hexact : bytes.tryTakeExact encodedLen now with
      | mk bytes₁ paid =>
        rw [hexact] at h
        cases paid with
        | false =>
          cases h
          exact .inr ⟨rfl, idle_of_refund hpackets hone, idle_of_refused hexact⟩
        | true =>
          cases h
          exact .inl ⟨rfl, rfl, rfl⟩

/-- A call charges the regular buckets, the priority buckets for a priority request, or none. -/
inductive Acquired (encodedLen : ℕ) (isPriority : Bool) (now : Instant) (l l' : WorkerResponseLimiter) :
    ResponsePermit → Prop
  | regular (hpackets : l.regularPackets.tryTakeExact 1 now = (l'.regularPackets, true))
      (hbytes : l.regularBytes.tryTakeExact encodedLen now = (l'.regularBytes, true))
      (hpriorityPackets : l'.priorityPackets = l.priorityPackets)
      (hpriorityBytes : l'.priorityBytes = l.priorityBytes) :
      Acquired encodedLen isPriority now l l' .regular
  | priorityReserve (hpriority : isPriority = true)
      (hregularPackets : Idle now l.regularPackets l'.regularPackets)
      (hregularBytes : Idle now l.regularBytes l'.regularBytes)
      (hpackets : l.priorityPackets.tryTakeExact 1 now = (l'.priorityPackets, true))
      (hbytes : l.priorityBytes.tryTakeExact encodedLen now = (l'.priorityBytes, true)) :
      Acquired encodedLen isPriority now l l' .priorityReserve
  | rejected (hregularPackets : Idle now l.regularPackets l'.regularPackets)
      (hregularBytes : Idle now l.regularBytes l'.regularBytes)
      (hpriorityPackets : Idle now l.priorityPackets l'.priorityPackets)
      (hpriorityBytes : Idle now l.priorityBytes l'.priorityBytes)
      (hpriority : isPriority = false →
        l'.priorityPackets = l.priorityPackets ∧ l'.priorityBytes = l.priorityBytes) :
      Acquired encodedLen isPriority now l l' .rejected

lemma acquireReserve_spec {addr : SocketAddr} {isPriority : Bool} {permit : ResponsePermit}
    (hpackets : l.priorityPackets.Conforms burst rate log 0 now)
    (hbytes : l.priorityBytes.Conforms burst' rate' log' 0 now)
    (h : l.acquireReserve addr encodedLen isPriority now = (l', permit)) :
    (l'.regularPackets = l.regularPackets ∧ l'.regularBytes = l.regularBytes) ∧
      ((permit = .priorityReserve ∧ isPriority = true ∧
          l.priorityPackets.tryTakeExact 1 now = (l'.priorityPackets, true) ∧
          l.priorityBytes.tryTakeExact encodedLen now = (l'.priorityBytes, true)) ∨
        (permit = .rejected ∧ Idle now l.priorityPackets l'.priorityPackets ∧
          Idle now l.priorityBytes l'.priorityBytes ∧
          (isPriority = false →
            l'.priorityPackets = l.priorityPackets ∧ l'.priorityBytes = l.priorityBytes))) := by
  unfold acquireReserve at h
  cases isPriority with
  | false =>
    cases h
    exact ⟨⟨rfl, rfl⟩, .inr ⟨rfl, .refl _ _, .refl _ _, fun _ => ⟨rfl, rfl⟩⟩⟩
  | true =>
    rw [if_pos rfl] at h
    cases htake : takeBudget l.priorityPackets l.priorityBytes encodedLen now with
    | mk packets rest =>
      obtain ⟨bytes, taken⟩ := rest
      rw [htake] at h
      rcases takeBudget_spec hpackets htake with ⟨rfl, hp, hb⟩ | ⟨rfl, hp, hb⟩
      · dsimp only at h
        have hslot :=
          acquireSourceSlot_same { l with priorityPackets := packets, priorityBytes := bytes } addr now
        cases hsource : acquireSourceSlot { l with priorityPackets := packets, priorityBytes := bytes }
            addr now with
        | mk l₂ slot =>
          rw [hsource] at h hslot
          obtain ⟨hrp, hrb, hpp, hpb⟩ := hslot
          dsimp only at hrp hrb hpp hpb
          cases slot with
          | true =>
            cases h
            exact ⟨⟨hrp, hrb⟩, .inl ⟨rfl, rfl, hpp ▸ hp, hpb ▸ hb⟩⟩
          | false =>
            cases h
            refine ⟨⟨hrp, hrb⟩, .inr ⟨rfl, ?_, ?_, nofun⟩⟩
            · exact hpp.symm ▸ idle_of_refund hpackets hp
            · exact hpb.symm ▸ idle_of_refund hbytes hb
      · cases h
        exact ⟨⟨rfl, rfl⟩, .inr ⟨rfl, hp, hb, nofun⟩⟩

/-! ### Runs of a worker -/

structure ResponseRequest where
  addr : SocketAddr
  encodedLen : ℕ
  isPriority : Bool
  now : Instant

structure Answered where
  request : ResponseRequest
  permit : ResponsePermit

structure WorkerRun where
  limiter : WorkerResponseLimiter
  log : List Answered

def WorkerRun.answer (run : WorkerRun) (request : ResponseRequest) : WorkerRun :=
  let (limiter, permit) := run.limiter.acquire request.addr request.encodedLen request.isPriority request.now
  { limiter, log := ⟨request, permit⟩ :: run.log }

def WorkerRun.answerAll (run : WorkerRun) (requests : List ResponseRequest) : WorkerRun :=
  requests.foldl WorkerRun.answer run

def granted (log : List Answered) (s e : ℤ) : List Answered :=
  log.filter fun a => a.permit ≠ .rejected ∧ s < (a.request.now : ℤ) ∧ (a.request.now : ℤ) ≤ e

def payments (permit : ResponsePermit) (cost : ResponseRequest → ℕ) (log : List Answered) : List Instant :=
  log.flatMap fun a => if a.permit = permit then List.replicate (cost a.request) a.request.now else []

lemma within_replicate (n : ℕ) (t : Instant) (s e : ℤ) :
    within (replicate n t) s e = if s < (t : ℤ) ∧ (t : ℤ) ≤ e then n else 0 := by
  unfold within
  rw [countP_replicate]
  simp

lemma within_append (log log' : List Instant) (s e : ℤ) :
    within (log ++ log') s e = within log s e + within log' s e :=
  countP_append

lemma granted_cons (a : Answered) (log : List Answered) (s e : ℤ) :
    granted (a :: log) s e =
      if a.permit ≠ .rejected ∧ s < (a.request.now : ℤ) ∧ (a.request.now : ℤ) ≤ e then a :: granted log s e
      else granted log s e := by
  unfold granted
  rw [List.filter_cons]
  simp only [decide_eq_true_eq]

lemma within_payments (cost : ResponseRequest → ℕ) (log : List Answered) (s e : ℤ) :
    within (payments .regular cost log) s e + within (payments .priorityReserve cost log) s e =
      ((granted log s e).map fun a => cost a.request).sum := by
  induction log with
  | nil => rfl
  | cons a log ih =>
    have hcons (permit : ResponsePermit) : within (payments permit cost (a :: log)) s e =
        (if a.permit = permit ∧ s < (a.request.now : ℤ) ∧ (a.request.now : ℤ) ≤ e then cost a.request else 0) +
          within (payments permit cost log) s e := by
      unfold payments
      rw [flatMap_cons, within_append]
      split_ifs with hpermit hboth hboth
      · rw [within_replicate, if_pos hboth.2]
      · rw [within_replicate, if_neg fun h => hboth ⟨hpermit, h⟩]
      · exact absurd hboth.1 hpermit
      · rfl
    rw [hcons, hcons, granted_cons]
    by_cases hin : s < (a.request.now : ℤ) ∧ (a.request.now : ℤ) ≤ e
    · cases hpermit : a.permit <;> simp [hin] <;> omega
    · cases hpermit : a.permit <;> simp [hin] <;> omega

/-- Each bucket of the limiter that started as `l₀` has paid for the permits it is charged for. -/
structure Conforming (l₀ l : WorkerResponseLimiter) (log : List Answered) (now : Instant) : Prop where
  regularPackets : l.regularPackets.Conforms l₀.regularPackets.capacity l₀.regularPackets.ratePerSec
    (payments .regular (fun _ => 1) log) 0 now
  regularBytes : l.regularBytes.Conforms l₀.regularBytes.capacity l₀.regularBytes.ratePerSec
    (payments .regular (·.encodedLen) log) 0 now
  priorityPackets : l.priorityPackets.Conforms l₀.priorityPackets.capacity l₀.priorityPackets.ratePerSec
    (payments .priorityReserve (fun _ => 1) log) 0 now
  priorityBytes : l.priorityBytes.Conforms l₀.priorityBytes.capacity l₀.priorityBytes.ratePerSec
    (payments .priorityReserve (·.encodedLen) log) 0 now

variable {answers : List Answered} {request : ResponseRequest} {permit : ResponsePermit}

lemma Conforming.later (h : Conforming l₀ l answers now) {later : Instant} (hlater : now ≤ later) :
    Conforming l₀ l answers later :=
  ⟨h.regularPackets.later hlater, h.regularBytes.later hlater, h.priorityPackets.later hlater,
    h.priorityBytes.later hlater⟩

lemma Conforming.acquired (h : Conforming l₀ l answers now) {addr : SocketAddr} {isPriority : Bool}
    (hacquire : l.acquire addr encodedLen isPriority now = (l', permit)) :
    Acquired encodedLen isPriority now l l' permit := by
  unfold acquire at hacquire
  have hsame := expireSources_same l now
  generalize l.expireSources now = l₁ at hacquire hsame
  obtain ⟨hrp₁, hrb₁, hpp₁, hpb₁⟩ := hsame
  dsimp only at hacquire
  rw [hrp₁, hrb₁] at hacquire
  cases htake : takeBudget l.regularPackets l.regularBytes encodedLen now with
  | mk packets rest =>
    obtain ⟨bytes, taken⟩ := rest
    rw [htake] at hacquire
    rcases takeBudget_spec h.regularPackets htake with ⟨rfl, hp, hb⟩ | ⟨rfl, hp, hb⟩
    · dsimp only at hacquire
      have hslot := acquireSourceSlot_same { l₁ with regularPackets := packets, regularBytes := bytes } addr now
      cases hsource : acquireSourceSlot { l₁ with regularPackets := packets, regularBytes := bytes }
          addr now with
      | mk l₂ slot =>
        rw [hsource] at hacquire hslot
        obtain ⟨hrp, hrb, hpp, hpb⟩ := hslot
        dsimp only at hrp hrb hpp hpb
        have hpp' := hpp.trans hpp₁
        have hpb' := hpb.trans hpb₁
        cases slot with
        | true =>
          cases hacquire
          exact .regular (hrp ▸ hp) (hrb ▸ hb) hpp' hpb'
        | false =>
          cases hacquire
          refine .rejected ?_ ?_ (.inl hpp') (.inl hpb') fun _ => ⟨hpp', hpb'⟩
          · exact hrp.symm ▸ idle_of_refund h.regularPackets hp
          · exact hrb.symm ▸ idle_of_refund h.regularBytes hb
    · have hreserve := acquireReserve_spec (hpp₁.symm ▸ h.priorityPackets) (hpb₁.symm ▸ h.priorityBytes) hacquire
      rw [hpp₁, hpb₁] at hreserve
      obtain ⟨⟨hrp, hrb⟩, ⟨rfl, hpriority, hpp, hpb⟩ | ⟨rfl, hpp, hpb, hpriority⟩⟩ := hreserve
      · exact .priorityReserve hpriority (hrp.symm ▸ hp) (hrb.symm ▸ hb) hpp hpb
      · exact .rejected (hrp.symm ▸ hp) (hrb.symm ▸ hb) hpp hpb hpriority

variable {cost : ResponseRequest → ℕ} {startedAt last : Instant} {e s : ℤ}

lemma conforms_paid {b b' : RateBucket} (h : b.Conforms burst rate (payments permit cost answers) 0 request.now)
    (htake : b.tryTakeExact (cost request) request.now = (b', true)) :
    b'.Conforms burst rate (payments permit cost (⟨request, permit⟩ :: answers)) 0 request.now := by
  have hspent := (h.tryTakeExact htake).1.spendAll
  unfold payments
  rw [flatMap_cons, if_pos rfl]
  exact hspent

lemma payments_other {permit' : ResponsePermit} (hne : permit' ≠ permit) (cost : ResponseRequest → ℕ) :
    payments permit cost (⟨request, permit'⟩ :: answers) = payments permit cost answers := by
  unfold payments
  rw [flatMap_cons, if_neg hne]
  rfl

lemma conforms_unpaid {b b' : RateBucket} {permit' : ResponsePermit} (hne : permit' ≠ permit)
    (h : b.Conforms burst rate (payments permit cost answers) 0 now) (hidle : Idle now b b') :
    b'.Conforms burst rate (payments permit cost (⟨request, permit'⟩ :: answers)) 0 now := by
  rw [payments_other hne]
  exact h.idle hidle

lemma Conforming.answer (h : Conforming l₀ l answers request.now) :
    Conforming l₀ (WorkerRun.answer ⟨l, answers⟩ request).limiter (WorkerRun.answer ⟨l, answers⟩ request).log
      request.now := by
  unfold WorkerRun.answer
  cases hacquire : l.acquire request.addr request.encodedLen request.isPriority request.now with
  | mk l' permit =>
    cases h.acquired hacquire with
    | regular hpackets hbytes hpp hpb =>
      exact ⟨conforms_paid h.regularPackets hpackets, conforms_paid h.regularBytes hbytes,
        conforms_unpaid nofun h.priorityPackets (.inl hpp), conforms_unpaid nofun h.priorityBytes (.inl hpb)⟩
    | priorityReserve _ hrp hrb hpackets hbytes =>
      exact ⟨conforms_unpaid nofun h.regularPackets hrp, conforms_unpaid nofun h.regularBytes hrb,
        conforms_paid h.priorityPackets hpackets, conforms_paid h.priorityBytes hbytes⟩
    | rejected hrp hrb hpp hpb _ =>
      exact ⟨conforms_unpaid nofun h.regularPackets hrp, conforms_unpaid nofun h.regularBytes hrb,
        conforms_unpaid nofun h.priorityPackets hpp, conforms_unpaid nofun h.priorityBytes hpb⟩

def Clocked (startedAt : Instant) (requests : List ResponseRequest) : Prop :=
  List.IsChain (· ≤ ·) (startedAt :: requests.map (·.now))

lemma conforming_new (packetRate byteRate perSourceRate : ℕ) (now : Instant) :
    Conforming (new packetRate byteRate perSourceRate now) (new packetRate byteRate perSourceRate now) [] now :=
  ⟨conforms_new (cast_nonneg _) _ (cast_nonneg _) true now,
    conforms_new (cast_nonneg _) _ (cast_nonneg _) true now,
    conforms_new (cast_nonneg _) _ (cast_nonneg _) true now,
    conforms_new (cast_nonneg _) _ (cast_nonneg _) true now⟩

lemma Conforming.answerAll {run : WorkerRun} {requests : List ResponseRequest}
    (h : Conforming l₀ run.limiter run.log now) (hclock : Clocked now requests) :
    ∃ last, Conforming l₀ (run.answerAll requests).limiter (run.answerAll requests).log last := by
  induction requests generalizing run now with
  | nil => exact ⟨now, h⟩
  | cons request requests ih =>
    obtain ⟨hle, hrest⟩ := isChain_cons_cons.mp hclock
    exact ih (h.later hle).answer hrest

lemma Conforming.next {run : WorkerRun} {before after : List ResponseRequest}
    (h : Conforming l₀ run.limiter run.log now) (hclock : Clocked now (before ++ request :: after)) :
    Conforming l₀ (run.answerAll before).limiter (run.answerAll before).log request.now := by
  induction before generalizing run now with
  | nil => exact h.later (isChain_cons_cons.mp hclock).1
  | cons first before ih =>
    obtain ⟨hle, hrest⟩ := isChain_cons_cons.mp hclock
    exact ih (h.later hle).answer hrest

lemma conforming_run {requests : List ResponseRequest} (hclock : Clocked startedAt requests)
    (packetRate byteRate perSourceRate : ℕ) :
    ∃ last, Conforming (new packetRate byteRate perSourceRate startedAt)
      (WorkerRun.answerAll ⟨new packetRate byteRate perSourceRate startedAt, []⟩ requests).limiter
      (WorkerRun.answerAll ⟨new packetRate byteRate perSourceRate startedAt, []⟩ requests).log last :=
  Conforming.answerAll (conforming_new packetRate byteRate perSourceRate startedAt) hclock

lemma conforming_next {before after : List ResponseRequest}
    (hclock : Clocked startedAt (before ++ request :: after)) (packetRate byteRate perSourceRate : ℕ) :
    Conforming (new packetRate byteRate perSourceRate startedAt)
      (WorkerRun.answerAll ⟨new packetRate byteRate perSourceRate startedAt, []⟩ before).limiter
      (WorkerRun.answerAll ⟨new packetRate byteRate perSourceRate startedAt, []⟩ before).log request.now :=
  Conforming.next (conforming_new packetRate byteRate perSourceRate startedAt) hclock

/-! ### Windows -/

def packetCapacity (l : WorkerResponseLimiter) : ℚ := l.regularPackets.capacity + l.priorityPackets.capacity

def byteCapacity (l : WorkerResponseLimiter) : ℚ := l.regularBytes.capacity + l.priorityBytes.capacity

lemma new_packetRate (packetRate byteRate perSourceRate : ℕ) (now : Instant) :
    (new packetRate byteRate perSourceRate now).regularPackets.ratePerSec +
      (new packetRate byteRate perSourceRate now).priorityPackets.ratePerSec = (packetRate : ℚ) := by
  show ((packetRate - reserveQuota packetRate : ℕ) : ℚ) + (reserveQuota packetRate : ℕ) = packetRate
  rw [← cast_add, Nat.sub_add_cancel (reserveQuota_le _)]

lemma new_byteRate (packetRate byteRate perSourceRate : ℕ) (now : Instant) :
    (new packetRate byteRate perSourceRate now).regularBytes.ratePerSec +
      (new packetRate byteRate perSourceRate now).priorityBytes.ratePerSec =
        ((min byteRate (2 ^ 32 - 1) : ℕ) : ℚ) := by
  show ((min byteRate (2 ^ 32 - 1) - reserveQuota (min byteRate (2 ^ 32 - 1)) : ℕ) : ℚ) +
    (reserveQuota (min byteRate (2 ^ 32 - 1)) : ℕ) = _
  rw [← cast_add, Nat.sub_add_cancel (reserveQuota_le _)]

lemma granted_cost_le {b₁ b₂ : RateBucket} (h₁ : b₁.Conforms burst rate (payments .regular cost answers) 0 last)
    (h₂ : b₂.Conforms burst' rate' (payments .priorityReserve cost answers) 0 last) (hse : s ≤ e) :
    ((((granted answers s e).map fun a => cost a.request).sum : ℕ) : ℚ) ≤
      (rate + rate') * ((e - s) / 1000000000) + (burst + burst') := by
  have hregular := h₁.metered.window s e hse
  have hpriority := h₂.metered.window s e hse
  have hrate : (rate + rate') * (((e : ℚ) - s) / 1000000000) =
      rate / 1000000000 * (e - s) + rate' / 1000000000 * (e - s) := by ring
  rw [← within_payments, cast_add, hrate]
  linarith

lemma granted_packets_le {packetRate byteRate perSourceRate : ℕ}
    (h : Conforming (new packetRate byteRate perSourceRate startedAt) l answers last) (hse : s ≤ e) :
    ((granted answers s e).length : ℚ) ≤ packetRate * ((e - s) / 1000000000) +
      packetCapacity (new packetRate byteRate perSourceRate startedAt) := by
  have hcost := granted_cost_le h.regularPackets h.priorityPackets hse
  rw [map_const', sum_replicate, nsmul_eq_mul, mul_one, cast_id, new_packetRate] at hcost
  exact hcost

lemma granted_bytes_le {packetRate byteRate perSourceRate : ℕ}
    (h : Conforming (new packetRate byteRate perSourceRate startedAt) l answers last) (hse : s ≤ e) :
    ((((granted answers s e).map fun a => a.request.encodedLen).sum : ℕ) : ℚ) ≤
      (min byteRate (2 ^ 32 - 1) : ℕ) * ((e - s) / 1000000000) +
        byteCapacity (new packetRate byteRate perSourceRate startedAt) := by
  have hcost := granted_cost_le h.regularBytes h.priorityBytes hse
  rw [new_byteRate] at hcost
  exact hcost

/-! ### Conformance -/

def Unspent (now : Instant) (b b' : RateBucket) : Prop :=
  Idle now b b' ∧ ∀ later, now ≤ later → b'.refill later = (b.refill now).refill later

/-- A request spends nothing it is not entitled to, and a rejected one nothing at all. -/
structure Frugal (l : WorkerResponseLimiter) (request : ResponseRequest) (l' : WorkerResponseLimiter)
    (permit : ResponsePermit) : Prop where
  reserve : request.isPriority = false →
    l'.priorityPackets = l.priorityPackets ∧ l'.priorityBytes = l.priorityBytes
  rejected : permit = .rejected →
    Unspent request.now l.regularPackets l'.regularPackets ∧ Unspent request.now l.regularBytes l'.regularBytes ∧
    Unspent request.now l.priorityPackets l'.priorityPackets ∧
    Unspent request.now l.priorityBytes l'.priorityBytes

lemma Conforming.frugal (h : Conforming l₀ l answers request.now)
    (hacquire : l.acquire request.addr request.encodedLen request.isPriority request.now = (l', permit)) :
    Frugal l request l' permit := by
  cases h.acquired hacquire with
  | regular _ _ hpp hpb => exact ⟨fun _ => ⟨hpp, hpb⟩, nofun⟩
  | priorityReserve hpriority _ _ _ _ =>
    refine ⟨fun hnot => ?_, nofun⟩
    rw [hpriority] at hnot
    cases hnot
  | rejected hrp hrb hpp hpb hpriority =>
    refine ⟨hpriority, fun _ => ⟨⟨hrp, fun _ => hrp.refill_eq h.regularPackets⟩,
      ⟨hrb, fun _ => hrb.refill_eq h.regularBytes⟩, ⟨hpp, fun _ => hpp.refill_eq h.priorityPackets⟩,
      ⟨hpb, fun _ => hpb.refill_eq h.priorityBytes⟩⟩⟩

/-- **The limiters of all workers conform to the configured rates.** -/
theorem limiters_conform {workers : ℕ} (hworkers : 1 ≤ workers) (hlimit : workers < 2 ^ 32)
    (packetRate byteRate perSourceRate : ℕ) (startedAt : ℕ → Instant) (requests : ℕ → List ResponseRequest)
    (hclock : ∀ worker < workers, Clocked (startedAt worker) (requests worker)) :
    ∃ (quota : ℕ → ℕ) (limiter : ℕ → WorkerResponseLimiter),
      (∀ worker < workers, splitU32Quota packetRate workers worker = .ok (quota worker) ∧ limiter worker =
          new (quota worker) (splitU64Quota byteRate workers worker) perSourceRate (startedAt worker)) ∧
      ∑ worker ∈ Finset.range workers, quota worker = packetRate ∧
      (∀ s e : ℤ, s ≤ e → ∑ worker ∈ Finset.range workers,
            ((granted (WorkerRun.answerAll ⟨limiter worker, []⟩ (requests worker)).log s e).length : ℚ) ≤
          packetRate * ((e - s) / 1000000000) +
            ∑ worker ∈ Finset.range workers, packetCapacity (limiter worker) ∧
        ∑ worker ∈ Finset.range workers,
            ((((granted (WorkerRun.answerAll ⟨limiter worker, []⟩ (requests worker)).log s e).map
              fun a => a.request.encodedLen).sum : ℕ) : ℚ) ≤
          (∑ worker ∈ Finset.range workers,
              ((min (splitU64Quota byteRate workers worker) (2 ^ 32 - 1) : ℕ) : ℚ)) *
            ((e - s) / 1000000000) + ∑ worker ∈ Finset.range workers, byteCapacity (limiter worker)) ∧
      ∀ worker < workers, ∀ before request after, requests worker = before ++ request :: after →
        ∀ l l' permit, l = (WorkerRun.answerAll ⟨limiter worker, []⟩ before).limiter →
          l.acquire request.addr request.encodedLen request.isPriority request.now = (l', permit) →
          Frugal l request l' permit := by
  have hquotas := sum_share hworkers packetRate
  have hrate : ∑ worker ∈ range workers, (share packetRate workers worker : ℚ) = packetRate := by
    rw [← Nat.cast_sum, hquotas]
  refine ⟨share packetRate workers, fun worker => new (share packetRate workers worker)
    (splitU64Quota byteRate workers worker) perSourceRate (startedAt worker),
    fun worker hworker => ⟨splitU32Quota_eq_share hworkers hlimit hworker _, rfl⟩, hquotas,
    fun s e hse => ⟨?_, ?_⟩, ?_⟩
  · rw [← hrate, sum_mul, ← sum_add_distrib]
    refine Finset.sum_le_sum fun worker hworker => ?_
    obtain ⟨last, hlast⟩ := conforming_run (hclock worker (Finset.mem_range.mp hworker)) _ _ _
    exact granted_packets_le hlast hse
  · rw [sum_mul, ← sum_add_distrib]
    refine Finset.sum_le_sum fun worker hworker => ?_
    obtain ⟨last, hlast⟩ := conforming_run (hclock worker (Finset.mem_range.mp hworker)) _ _ _
    exact granted_bytes_le hlast hse
  · intro worker hworker before request after hrequests l l' permit hl hacquire
    subst hl
    exact (conforming_next (hrequests ▸ hclock worker hworker) _ _ _).frugal hacquire

def askedRequests : List ResponseRequest :=
  [⟨.v4 (Vector.replicate 4 9) 6881, 100, false, 0⟩, ⟨.v4 (Vector.replicate 4 9) 6881, 100, true, secs 1⟩]

theorem limiters_conform_twoWorkers :
    (∀ worker < 2, Clocked 0 ((fun _ => askedRequests) worker)) ∧
      ∃ quota : ℕ → ℕ, quota 0 = 2 ∧ quota 1 = 1 ∧ ∑ worker ∈ Finset.range 2, quota worker = 3 := by
  have hclock : ∀ worker < 2, Clocked 0 ((fun _ => askedRequests) worker) := by
    intro worker _
    unfold Clocked askedRequests
    simp
  obtain ⟨quota, limiter, hquota, hsum, -⟩ :=
    limiters_conform (by decide : 1 ≤ 2) (by decide) 3 1000 100 (fun _ => 0) (fun _ => askedRequests) hclock
  have h₀ : (.ok (quota 0) : Except Panic ℕ) = .ok 2 := (hquota 0 (by decide)).1.symm
  have h₁ : (.ok (quota 1) : Except Panic ℕ) = .ok 1 := (hquota 1 (by decide)).1.symm
  exact ⟨hclock, quota, Except.ok.inj h₀, Except.ok.inj h₁, hsum⟩

end WorkerResponseLimiter

end DhtCrawler
